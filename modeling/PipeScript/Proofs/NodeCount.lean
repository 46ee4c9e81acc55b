import PipeScript.Proofs.Sites

/-!
# How many nodes a program has

Numbers, names, calls, functions and operators have a node each, but how many cells there are
depends on where the expressions stand. Yet the number of nodes of a program can be told from its
tokens. `SyntaxTree.size_eq` keeps the balance: an expression is charged with the cell that it is
going to stand in, so that it has one node too few until it stands in a list (`Part.balance`). An
operator makes one expression out of two, a call takes up one as its callee and a definition as its
initializer, and in each case a cell becomes free.

`TokenBuffer.size_of_parse` is the formula that is left for a whole program. Operators do not occur
in it, and neither does the way in which a program is cut up into statements and arguments.
-/

namespace PipeScript

/-- How many nodes a token is charged with. A number and a name have their own node and a cell, and
a function a sentinel in addition. A call has its own node and a cell, and gives back the cell of
its callee. So does an operator with the cell of its right operand, and a definition with that of
its initializer, on account of its `let`. -/
def Kind.charge : Kind → Int
  | number | identifier => 2
  | leftBrace => 3
  | leftParen => 1
  | letKeyword => -1
  | _ => 0

/-- How many nodes some tokens are charged with. -/
def charge : List Kind → Int
  | [] => 0
  | k :: ks => k.charge + charge ks

@[simp] theorem charge_nil : charge [] = 0 := rfl

@[simp] theorem charge_cons (k : Kind) (ks : List Kind) : charge (k :: ks) = k.charge + charge ks :=
  rfl

@[simp] theorem charge_append (ks ls : List Kind) : charge (ks ++ ls) = charge ks + charge ls := by
  induction ks with
  | nil => simp
  | cons k ks ih => rw [List.cons_append, charge_cons, charge_cons, ih, Int.add_assoc]

/-- The charge by kinds. -/
theorem charge_eq_count (ks : List Kind) :
    charge ks = 2 * (ks.count .number + ks.count .identifier) + ks.count .leftParen +
      3 * ks.count .leftBrace - ks.count .letKeyword := by
  induction ks with
  | nil => rfl
  | cons k ks ih =>
    rw [charge_cons, ih]
    cases k <;> simp [Kind.charge] <;> omega

/-- By how many nodes the trees of a sort exceed their charge. A list of statements has a sentinel,
and an expression does not have its cell. -/
def Part.balance : Part → Int
  | statements => 1
  | arguments => 0
  | statement | expression | operand => -1

namespace SyntaxTree

variable {α : Kind → Type}

/-- The kinds of the tokens that a tree is written with. -/
def kinds {part : Part} (tree : SyntaxTree α part) : List Kind := tree.leaves.map Sigma.fst

theorem map_kind_tokens {part : Part} (tree : SyntaxTree TokenOf part) :
    tree.tokens.map Token.kind = tree.kinds := by
  rw [tokens, List.map_map]
  exact List.map_congr_left fun leaf _ => leaf.2.2

section Charges

variable {e initializer : SyntaxTree α .expression} {o : SyntaxTree α .operand}

theorem charge_statements {first : SyntaxTree α .statement} {rest : SyntaxTree α .statements} :
    charge (statements first rest).kinds = charge first.kinds + charge rest.kinds := by
  simp [kinds, leaves]

theorem charge_arguments {rest : SyntaxTree α .arguments} :
    charge (arguments e rest).kinds = charge e.kinds + charge rest.kinds := by
  simp [kinds, leaves]

theorem charge_definition {keyword : α .letKeyword} {symbol : α .identifier} {sign : α .assign} :
    charge (definition keyword symbol sign initializer).kinds = charge initializer.kinds + 1 := by
  simp only [kinds, leaves, List.map_cons, charge_cons, Kind.charge]
  omega

theorem charge_pipe {operator : α .pipe} :
    charge (pipe e operator o).kinds = charge e.kinds + charge o.kinds := by
  simp [kinds, leaves, Kind.charge]

theorem charge_function {opening : α .leftBrace} {body : SyntaxTree α .statements}
    {closing : α .rightBrace} :
    charge (function opening body closing).kinds = charge body.kinds + 3 := by
  simp [kinds, leaves, Kind.charge, Int.add_comm]

theorem charge_call {opening : α .leftParen} {others : SyntaxTree α .arguments}
    {closing : α .rightParen} :
    charge (call opening e others closing).kinds = charge e.kinds + charge others.kinds + 1 := by
  simp [kinds, leaves, Kind.charge, Int.add_comm]

end Charges

/-- The nodes of a tree are those that its tokens are charged with, up to the balance of its
sort. -/
theorem size_eq {part : Part} (tree : SyntaxTree α part) :
    (tree.size : Int) = charge tree.kinds + part.balance := by
  induction tree with
  | noStatements => rfl
  | statements first rest firstIh restIh =>
    simp only [size, charge_statements, Part.balance] at firstIh restIh ⊢
    omega
  | definition _ _ _ initializer ih =>
    simp only [size, charge_definition, Part.balance] at ih ⊢
    omega
  | plain value ih => exact ih
  | operand value ih => exact ih
  | pipe left _ right leftIh rightIh =>
    simp only [size, charge_pipe, Part.balance] at leftIh rightIh ⊢
    omega
  | number => rfl
  | name => rfl
  | function _ body _ ih =>
    simp only [size, charge_function, Part.balance] at ih ⊢
    omega
  | call _ callee others _ calleeIh othersIh =>
    simp only [size, charge_call, Part.balance] at calleeIh othersIh ⊢
    omega
  | noArguments => rfl
  | arguments first rest firstIh restIh =>
    simp only [size, charge_arguments, Part.balance] at firstIh restIh ⊢
    omega

end SyntaxTree

namespace TokenBuffer

/-- How many tokens of a kind there are in a buffer. -/
def count (buffer : TokenBuffer) (kind : Kind) : Nat := (buffer.tokens.map Token.kind).count kind

theorem count_of_body {buffer : TokenBuffer} {kind : Kind} (inner : kind ≠ .endOfInput) :
    buffer.count kind = (buffer.body.map Token.kind).count kind := by
  rw [count, tokens, List.map_append, List.count_append, List.map_singleton, buffer.last_kind,
    List.count_singleton, if_neg (by simpa using inner.symm), Nat.add_zero]

/-- The number of nodes of a program is a formula in the numbers of its numbers, names and opening
brackets, and of its definitions. -/
theorem size_of_parse (buffer : TokenBuffer) (tree : Tree) (parsed : buffer.parse = .ok tree) :
    tree.size + buffer.count .letKeyword =
      1 + 2 * (buffer.count .number + buffer.count .identifier) + buffer.count .leftParen +
        3 * buffer.count .leftBrace := by
  obtain ⟨program, written, -, nodes⟩ := exists_layout parsed
  have balance := program.size_eq
  rw [Tree.size_of_layout nodes, charge_eq_count, ← SyntaxTree.map_kind_tokens, written] at balance
  iterate 5 rw [count_of_body (by decide)]
  simp only [Part.balance] at balance
  omega

/-- The tokens of `let f = {x 10} (f 2 |> f)`. -/
def defineAndPipe : TokenBuffer where
  body := [.ofLexeme .letKeyword ['l', 'e', 't'] ⟨0, 1, 1⟩,
    .ofLexeme .identifier ['f'] ⟨4, 1, 5⟩, .ofLexeme .assign ['='] ⟨6, 1, 7⟩,
    .ofLexeme .leftBrace ['{'] ⟨8, 1, 9⟩, .ofLexeme .identifier ['x'] ⟨9, 1, 10⟩,
    .ofLexeme .number ['1', '0'] ⟨11, 1, 12⟩, .ofLexeme .rightBrace ['}'] ⟨13, 1, 14⟩,
    .ofLexeme .leftParen ['('] ⟨15, 1, 16⟩, .ofLexeme .identifier ['f'] ⟨16, 1, 17⟩,
    .ofLexeme .number ['2'] ⟨18, 1, 19⟩, .ofLexeme .pipe ['|', '>'] ⟨20, 1, 21⟩,
    .ofLexeme .identifier ['f'] ⟨23, 1, 24⟩, .ofLexeme .rightParen [')'] ⟨24, 1, 25⟩]
  last := .endAt ⟨25, 1, 26⟩
  body_kind := by decide
  last_kind := rfl

theorem size_defineAndPipe :
    ∃ tree, defineAndPipe.parse = .ok tree ∧
      tree.size + defineAndPipe.count .letKeyword =
        1 + 2 * (defineAndPipe.count .number + defineAndPipe.count .identifier) +
          defineAndPipe.count .leftParen + 3 * defineAndPipe.count .leftBrace :=
  ⟨_, rfl, size_of_parse defineAndPipe _ rfl⟩

end TokenBuffer

end PipeScript
