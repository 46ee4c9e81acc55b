import PipeScript.Proofs.Acceptance

/-!
# Syntax trees

A `SyntaxTree` is a program as a tree: each construct holds its parts, and at its leaves the
tokens that are written for it, brackets and keywords included. What stands at a leaf is a
parameter, a type for each kind: with `TokenOf` a leaf is a token of that kind, so that a
tree with wrong tokens cannot be written down.

The types admit the shapes of the grammar alone: the right side of an operator is an operand,
and never another operator. `SyntaxTree.tokens` writes a tree out again, and
`TokenBuffer.exists_syntaxTree` says that every buffer that has a tree in an arena is what a
syntax tree writes.
-/

namespace PipeScript

/-! ## Trees -/

/-- The sorts of syntax trees. -/
inductive Part
  /-- The statements of a program or a function. -/
  | statements
  | statement
  | expression
  /-- An expression without an operator of its own. -/
  | operand
  /-- The arguments of a call. -/
  | arguments
deriving DecidableEq

/-- The parts of programs, with something of type `α kind` in the place of every token. -/
inductive SyntaxTree (α : Kind → Type) : Part → Type
  | noStatements : SyntaxTree α .statements
  | statements (first : SyntaxTree α .statement) (rest : SyntaxTree α .statements) :
    SyntaxTree α .statements
  /-- A definition, as in `let x = 1`. -/
  | definition (keyword : α .letKeyword) (name : α .identifier) (sign : α .assign)
      (initializer : SyntaxTree α .expression) : SyntaxTree α .statement
  /-- An expression as a statement. -/
  | plain (value : SyntaxTree α .expression) : SyntaxTree α .statement
  | operand (value : SyntaxTree α .operand) : SyntaxTree α .expression
  /-- Two operands, as in `a |> b`. -/
  | pipe (left : SyntaxTree α .expression) (operator : α .pipe)
      (right : SyntaxTree α .operand) : SyntaxTree α .expression
  | number (digits : α .number) : SyntaxTree α .operand
  | name (word : α .identifier) : SyntaxTree α .operand
  /-- A function with its body, as in `{ x }`. -/
  | function (opening : α .leftBrace) (body : SyntaxTree α .statements)
      (closing : α .rightBrace) : SyntaxTree α .operand
  /-- A call, as in `(f x y)`. -/
  | call (opening : α .leftParen) (callee : SyntaxTree α .expression)
      (arguments : SyntaxTree α .arguments) (closing : α .rightParen) : SyntaxTree α .operand
  | noArguments : SyntaxTree α .arguments
  | arguments (first : SyntaxTree α .expression) (rest : SyntaxTree α .arguments) :
    SyntaxTree α .arguments

/-- What stands at a leaf, with the kind of token it stands for. -/
abbrev Leaf (α : Kind → Type) := (kind : Kind) × α kind

/-- Puts something else of its kind at a leaf. -/
def Leaf.map {α β : Kind → Type} (f : (kind : Kind) → α kind → β kind) (leaf : Leaf α) : Leaf β :=
  ⟨leaf.1, f leaf.1 leaf.2⟩

/-- The tokens of one kind. -/
abbrev TokenOf (kind : Kind) := { t : Token // t.kind = kind }

namespace SyntaxTree

/-- The leaves of a tree in the order in which they are written. -/
def leaves {α : Kind → Type} : {part : Part} → SyntaxTree α part → List (Leaf α)
  | _, noStatements => []
  | _, statements first rest => first.leaves ++ rest.leaves
  | _, definition keyword symbol sign initializer =>
    ⟨_, keyword⟩ :: ⟨_, symbol⟩ :: ⟨_, sign⟩ :: initializer.leaves
  | _, plain value => value.leaves
  | _, operand value => value.leaves
  | _, pipe left operator right => left.leaves ++ ⟨_, operator⟩ :: right.leaves
  | _, number digits => [⟨_, digits⟩]
  | _, name word => [⟨_, word⟩]
  | _, function opening body closing => ⟨_, opening⟩ :: (body.leaves ++ [⟨_, closing⟩])
  | _, call opening callee others closing =>
    ⟨_, opening⟩ :: (callee.leaves ++ (others.leaves ++ [⟨_, closing⟩]))
  | _, noArguments => []
  | _, arguments first rest => first.leaves ++ rest.leaves

/-- The tokens of a tree in the order in which they are written. -/
def tokens {part : Part} (tree : SyntaxTree TokenOf part) : List Token :=
  tree.leaves.map fun leaf => leaf.2.1

section Tokens

variable (first : SyntaxTree TokenOf .statement) (rest : SyntaxTree TokenOf .statements)
  (e : SyntaxTree TokenOf .expression) (o : SyntaxTree TokenOf .operand)
  (others : SyntaxTree TokenOf .arguments)

@[simp] theorem tokens_noStatements : (noStatements (α := TokenOf)).tokens = [] := rfl

@[simp] theorem tokens_statements :
    (statements first rest).tokens = first.tokens ++ rest.tokens := List.map_append ..

@[simp] theorem tokens_definition (keyword : TokenOf .letKeyword) (name : TokenOf .identifier)
    (sign : TokenOf .assign) :
    (definition keyword name sign e).tokens = keyword.1 :: name.1 :: sign.1 :: e.tokens := rfl

@[simp] theorem tokens_plain : (plain e).tokens = e.tokens := rfl

@[simp] theorem tokens_operand : (operand o).tokens = o.tokens := rfl

@[simp] theorem tokens_pipe (operator : TokenOf .pipe) :
    (pipe e operator o).tokens = e.tokens ++ operator.1 :: o.tokens := List.map_append ..

@[simp] theorem tokens_number (t : TokenOf .number) : (number t).tokens = [t.1] := rfl

@[simp] theorem tokens_name (t : TokenOf .identifier) : (name t).tokens = [t.1] := rfl

@[simp] theorem tokens_function (opening : TokenOf .leftBrace) (closing : TokenOf .rightBrace) :
    (function opening rest closing).tokens = opening.1 :: (rest.tokens ++ [closing.1]) :=
  congrArg (opening.1 :: ·) (List.map_append ..)

@[simp] theorem tokens_call (opening : TokenOf .leftParen) (closing : TokenOf .rightParen) :
    (call opening e others closing).tokens =
      opening.1 :: (e.tokens ++ (others.tokens ++ [closing.1])) := by
  simp [tokens, leaves]

@[simp] theorem tokens_noArguments : (noArguments (α := TokenOf)).tokens = [] := rfl

@[simp] theorem tokens_arguments :
    (arguments e others).tokens = e.tokens ++ others.tokens := List.map_append ..

end Tokens

/-- Statements and expressions start with a token that shows what they are. -/
def Starts : {part : Part} → SyntaxTree TokenOf part → Prop
  | .statement, tree =>
    ∃ t ts, tree.tokens = t :: ts ∧ (t.kind = .letKeyword ∨ t.kind.startsExpression)
  | .expression, tree | .operand, tree => ∃ t ts, tree.tokens = t :: ts ∧ t.kind.startsExpression
  | .statements, _ | .arguments, _ => True

theorem starts {part : Part} (tree : SyntaxTree TokenOf part) : tree.Starts := by
  induction tree with
  | noStatements => trivial
  | statements => trivial
  | definition keyword => exact ⟨keyword.1, _, rfl, Or.inl keyword.2⟩
  | plain value ih =>
    obtain ⟨t, ts, eq, start⟩ := ih
    exact ⟨t, ts, eq, Or.inr start⟩
  | operand value ih => exact ih
  | pipe left operator right ih =>
    obtain ⟨t, ts, eq, start⟩ := ih
    exact ⟨t, ts ++ operator.1 :: right.tokens, by rw [tokens_pipe, eq, List.cons_append], start⟩
  | number digits => exact ⟨digits.1, [], rfl, by rw [digits.2]; rfl⟩
  | name word => exact ⟨word.1, [], rfl, by rw [word.2]; rfl⟩
  | function opening => exact ⟨opening.1, _, rfl, by rw [opening.2]; rfl⟩
  | call opening => exact ⟨opening.1, _, rfl, by rw [opening.2]; rfl⟩
  | noArguments => trivial
  | arguments => trivial

/-! ## Trees of one shape -/

section Map

variable {α β : Kind → Type} (f : (kind : Kind) → α kind → β kind)

/-- Puts something else of its kind at every leaf. -/
def map : {part : Part} → SyntaxTree α part → SyntaxTree β part
  | _, noStatements => noStatements
  | _, statements first rest => statements first.map rest.map
  | _, definition keyword symbol sign initializer =>
    definition (f _ keyword) (f _ symbol) (f _ sign) initializer.map
  | _, plain value => plain value.map
  | _, operand value => operand value.map
  | _, pipe left operator right => pipe left.map (f _ operator) right.map
  | _, number digits => number (f _ digits)
  | _, name word => name (f _ word)
  | _, function opening body closing => function (f _ opening) body.map (f _ closing)
  | _, call opening callee others closing =>
    call (f _ opening) callee.map others.map (f _ closing)
  | _, noArguments => noArguments
  | _, arguments first rest => arguments first.map rest.map

theorem leaves_map {part : Part} (tree : SyntaxTree α part) :
    (tree.map f).leaves = tree.leaves.map (Leaf.map f) := by
  induction tree with
  | noStatements => rfl
  | statements first rest firstIh restIh => simp [map, leaves, firstIh, restIh]
  | definition _ _ _ initializer ih => simp [map, leaves, ih, Leaf.map]
  | plain value ih => exact ih
  | operand value ih => exact ih
  | pipe left _ right leftIh rightIh => simp [map, leaves, leftIh, rightIh, Leaf.map]
  | number => rfl
  | name => rfl
  | function _ body _ ih => simp [map, leaves, ih, Leaf.map]
  | call _ callee others _ calleeIh othersIh => simp [map, leaves, calleeIh, othersIh, Leaf.map]
  | noArguments => rfl
  | arguments first rest firstIh restIh => simp [map, leaves, firstIh, restIh]

theorem cons_of_map_eq {ls : List (Leaf α)} {kind : Kind} {b : β kind} {ms : List (Leaf β)}
    (eq : ls.map (Leaf.map f) = ⟨kind, b⟩ :: ms) :
    ∃ (a : α kind) (rest : List (Leaf α)),
      ls = ⟨kind, a⟩ :: rest ∧ f kind a = b ∧ rest.map (Leaf.map f) = ms := by
  obtain ⟨⟨_, a⟩, rest, rfl, head, tail⟩ := List.map_eq_cons_iff.mp eq
  cases head
  exact ⟨a, rest, rfl, rfl, tail⟩

/-- Leaves that lie over the leaves of a tree are those of a tree of the same shape. -/
theorem exists_map {part : Part} (tree : SyntaxTree β part) (ls : List (Leaf α))
    (eq : ls.map (Leaf.map f) = tree.leaves) :
    ∃ above : SyntaxTree α part, above.leaves = ls ∧ above.map f = tree := by
  induction tree generalizing ls with
  | noStatements => exact ⟨noStatements, (List.map_eq_nil_iff.mp eq).symm, rfl⟩
  | statements first rest firstIh restIh =>
    obtain ⟨ms, ns, rfl, firstEq, restEq⟩ := List.map_eq_append_iff.mp eq
    obtain ⟨first, rfl, rfl⟩ := firstIh ms firstEq
    obtain ⟨rest, rfl, rfl⟩ := restIh ns restEq
    exact ⟨statements first rest, rfl, rfl⟩
  | definition keyword symbol sign initializer ih =>
    obtain ⟨keyword, ls, rfl, rfl, behindKeyword⟩ := cons_of_map_eq f eq
    obtain ⟨symbol, ls, rfl, rfl, behindSymbol⟩ := cons_of_map_eq f behindKeyword
    obtain ⟨sign, ls, rfl, rfl, behindSign⟩ := cons_of_map_eq f behindSymbol
    obtain ⟨initializer, rfl, rfl⟩ := ih ls behindSign
    exact ⟨definition keyword symbol sign initializer, rfl, rfl⟩
  | plain value ih =>
    obtain ⟨value, rfl, rfl⟩ := ih ls eq
    exact ⟨plain value, rfl, rfl⟩
  | operand value ih =>
    obtain ⟨value, rfl, rfl⟩ := ih ls eq
    exact ⟨operand value, rfl, rfl⟩
  | pipe left operator right leftIh rightIh =>
    obtain ⟨ms, ns, rfl, leftEq, others⟩ := List.map_eq_append_iff.mp eq
    obtain ⟨left, rfl, rfl⟩ := leftIh ms leftEq
    obtain ⟨operator, ns, rfl, rfl, rightEq⟩ := cons_of_map_eq f others
    obtain ⟨right, rfl, rfl⟩ := rightIh ns rightEq
    exact ⟨pipe left operator right, rfl, rfl⟩
  | number digits =>
    obtain ⟨digits, ls, rfl, rfl, nothing⟩ := cons_of_map_eq f eq
    cases List.map_eq_nil_iff.mp nothing
    exact ⟨number digits, rfl, rfl⟩
  | name word =>
    obtain ⟨word, ls, rfl, rfl, nothing⟩ := cons_of_map_eq f eq
    cases List.map_eq_nil_iff.mp nothing
    exact ⟨name word, rfl, rfl⟩
  | function opening body closing ih =>
    obtain ⟨opening, ls, rfl, rfl, behindOpening⟩ := cons_of_map_eq f eq
    obtain ⟨ms, ns, rfl, bodyEq, behindBody⟩ := List.map_eq_append_iff.mp behindOpening
    obtain ⟨body, rfl, rfl⟩ := ih ms bodyEq
    obtain ⟨closing, ns, rfl, rfl, nothing⟩ := cons_of_map_eq f behindBody
    cases List.map_eq_nil_iff.mp nothing
    exact ⟨function opening body closing, rfl, rfl⟩
  | call opening callee others closing calleeIh othersIh =>
    obtain ⟨opening, ls, rfl, rfl, behindOpening⟩ := cons_of_map_eq f eq
    obtain ⟨ms, ns, rfl, calleeEq, behindCallee⟩ := List.map_eq_append_iff.mp behindOpening
    obtain ⟨callee, rfl, rfl⟩ := calleeIh ms calleeEq
    obtain ⟨ms, ns, rfl, othersEq, behindOthers⟩ := List.map_eq_append_iff.mp behindCallee
    obtain ⟨others, rfl, rfl⟩ := othersIh ms othersEq
    obtain ⟨closing, ns, rfl, rfl, nothing⟩ := cons_of_map_eq f behindOthers
    cases List.map_eq_nil_iff.mp nothing
    exact ⟨call opening callee others closing, rfl, rfl⟩
  | noArguments => exact ⟨noArguments, (List.map_eq_nil_iff.mp eq).symm, rfl⟩
  | arguments first rest firstIh restIh =>
    obtain ⟨ms, ns, rfl, firstEq, restEq⟩ := List.map_eq_append_iff.mp eq
    obtain ⟨first, rfl, rfl⟩ := firstIh ms firstEq
    obtain ⟨rest, rfl, rfl⟩ := restIh ns restEq
    exact ⟨arguments first rest, rfl, rfl⟩

end Map

end SyntaxTree

/-! ## From derivations to trees -/

/-- Some tokens can be read as a phrase, with a given meaning of its nonterminals. -/
def Phrase.ReadAs (meaning : Nonterminal → List Token → Prop) : Phrase → List Token → Prop
  | token kind, ts => ∃ t : TokenOf kind, ts = [t.1]
  | part name, ts => meaning name ts
  | seq a b, ts => ∃ us vs, ts = us ++ vs ∧ a.ReadAs meaning us ∧ b.ReadAs meaning vs
  | either a b, ts => a.ReadAs meaning ts ∨ b.ReadAs meaning ts
  | many a, ts =>
    ∃ items : List (List Token), ts = items.flatten ∧ ∀ us ∈ items, a.ReadAs meaning us

/-- A derivation holds of any meaning of the nonterminals that follows the rules. -/
theorem Derives.readAs {meaning : Nonterminal → List Token → Prop}
    (follows : ∀ name ts, name.rule.ReadAs meaning ts → meaning name ts) {phrase : Phrase}
    {ks : List Kind} (h : Derives phrase ks) :
    ∀ ts : List Token, ts.map Token.kind = ks → phrase.ReadAs meaning ts := by
  induction h with
  | token =>
    intro ts kinds
    obtain ⟨t, rfl, kind⟩ := List.map_eq_singleton_iff.mp kinds
    exact ⟨⟨t, kind⟩, rfl⟩
  | part _ ih =>
    intro ts kinds
    exact follows _ ts (ih ts kinds)
  | seq _ _ first second =>
    intro ts kinds
    obtain ⟨us, vs, rfl, usKinds, vsKinds⟩ := List.map_eq_append_iff.mp kinds
    exact ⟨us, vs, rfl, first us usKinds, second vs vsKinds⟩
  | left _ ih =>
    intro ts kinds
    exact Or.inl (ih ts kinds)
  | right _ ih =>
    intro ts kinds
    exact Or.inr (ih ts kinds)
  | done =>
    intro ts kinds
    exact ⟨[], List.map_eq_nil_iff.mp kinds, fun _ mem => nomatch mem⟩
  | more _ _ first others =>
    intro ts kinds
    obtain ⟨us, vs, rfl, usKinds, vsKinds⟩ := List.map_eq_append_iff.mp kinds
    obtain ⟨items, rfl, read⟩ := others vs vsKinds
    refine ⟨us :: items, rfl, ?_⟩
    intro item mem
    rcases List.mem_cons.mp mem with rfl | mem
    · exact first _ usKinds
    · exact read item mem

namespace SyntaxTree

/-- Some tokens are what a tree of a sort writes. -/
def Writes (part : Part) (ts : List Token) : Prop :=
  ∃ tree : SyntaxTree TokenOf part, ts = tree.tokens

/-- What a nonterminal stands for: the tokens that trees of its sort write. -/
def Meaning : Nonterminal → List Token → Prop
  | .program, ts => ∃ us, Writes .statements us ∧ ∃ last : TokenOf .endOfInput, ts = us ++ [last.1]
  | .statementList, ts => Writes .statements ts
  | .statement, ts => Writes .statement ts
  | .expression, ts => Writes .expression ts
  | .call, ts | .primary, ts => Writes .operand ts

theorem writes_statements {items : List (List Token)}
    (each : ∀ us ∈ items, Writes .statement us) : Writes .statements items.flatten := by
  induction items with
  | nil => exact ⟨noStatements, rfl⟩
  | cons us items ih =>
    obtain ⟨first, rfl⟩ := each us List.mem_cons_self
    obtain ⟨rest, eq⟩ := ih fun vs mem => each vs (List.mem_cons_of_mem _ mem)
    exact ⟨statements first rest, by rw [List.flatten_cons, eq, tokens_statements]⟩

theorem writes_arguments {items : List (List Token)}
    (each : ∀ us ∈ items, Writes .expression us) : Writes .arguments items.flatten := by
  induction items with
  | nil => exact ⟨noArguments, rfl⟩
  | cons us items ih =>
    obtain ⟨first, rfl⟩ := each us List.mem_cons_self
    obtain ⟨rest, eq⟩ := ih fun vs mem => each vs (List.mem_cons_of_mem _ mem)
    exact ⟨arguments first rest, by rw [List.flatten_cons, eq, tokens_arguments]⟩

/-- Operators are taken up from left to right. -/
theorem writes_operators {items : List (List Token)} (left : SyntaxTree TokenOf .expression)
    (each : ∀ us ∈ items,
      ((Phrase.token .pipe).seq (.part .call)).ReadAs Meaning us) :
    Writes .expression (left.tokens ++ items.flatten) := by
  induction items generalizing left with
  | nil => exact ⟨left, List.append_nil _⟩
  | cons us items ih =>
    obtain ⟨_, _, rfl, ⟨operator, rfl⟩, right, rfl⟩ := each us List.mem_cons_self
    obtain ⟨whole, eq⟩ := ih (pipe left operator right)
      fun vs mem => each vs (List.mem_cons_of_mem _ mem)
    refine ⟨whole, ?_⟩
    rw [← eq, tokens_pipe]
    simp

/-- What trees write follows the rules of the grammar. -/
theorem meaning_of_rule (name : Nonterminal) (ts : List Token)
    (read : name.rule.ReadAs Meaning ts) : Meaning name ts := by
  cases name with
  | program =>
    obtain ⟨us, _, rfl, list, last, rfl⟩ := read
    exact ⟨us, list, last, rfl⟩
  | statementList =>
    obtain ⟨items, rfl, each⟩ := read
    exact writes_statements each
  | statement =>
    rcases read with read | ⟨value, rfl⟩
    · obtain ⟨_, _, rfl, ⟨keyword, rfl⟩, _, _, rfl, ⟨word, rfl⟩, _, _, rfl, ⟨sign, rfl⟩,
        initializer, rfl⟩ := read
      exact ⟨definition keyword word sign initializer, rfl⟩
    · exact ⟨plain value, rfl⟩
  | expression =>
    obtain ⟨_, _, rfl, ⟨first, rfl⟩, items, rfl, each⟩ := read
    exact writes_operators (operand first) each
  | call =>
    rcases read with read | read
    · obtain ⟨_, _, rfl, ⟨opening, rfl⟩, _, _, rfl, ⟨callee, rfl⟩, _, _, rfl, ⟨items, rfl, each⟩,
        closing, rfl⟩ := read
      obtain ⟨others, eq⟩ := writes_arguments each
      exact ⟨call opening callee others closing, by rw [eq, tokens_call]; rfl⟩
    · exact read
  | primary =>
    rcases read with ⟨t, rfl⟩ | ⟨t, rfl⟩ | read
    · exact ⟨number t, rfl⟩
    · exact ⟨name t, rfl⟩
    · obtain ⟨_, _, rfl, ⟨opening, rfl⟩, _, _, rfl, ⟨body, rfl⟩, closing, rfl⟩ := read
      exact ⟨function opening body closing, by rw [tokens_function]; rfl⟩

end SyntaxTree

/-- A buffer that has a tree in an arena is what a syntax tree writes. -/
theorem TokenBuffer.exists_syntaxTree {buffer : TokenBuffer} {tree : Tree}
    (parsed : buffer.parse = .ok tree) :
    ∃ program : SyntaxTree TokenOf .statements, program.tokens = buffer.body := by
  have derives := buffer.parses_iff_derives.mp ⟨tree, parsed⟩
  obtain ⟨us, ⟨program, rfl⟩, last, eq⟩ :=
    derives.readAs SyntaxTree.meaning_of_rule buffer.tokens rfl
  exact ⟨program, (List.append_inj' eq rfl).1.symm⟩

end PipeScript
