import Mathlib.Data.List.Forall2
import PipeScript.Proofs.Trace

/-!
# Programs of one shape

Two programs whose tokens have the same kinds are one syntax tree with two tokens at every leaf
(`SyntaxTree.exists_pairs`). The layout of a tree goes by its shape alone, so the nodes of the two
programs are the same, but for the tokens at which they are anchored (`SyntaxTree.layout_alike`).
And where programs break goes by kinds alone, too.

`TokenBuffer.parse_of_kinds_eq` puts this together: the parser does not look at a token beyond
its kind.
-/

namespace PipeScript

/-- Two tokens of one kind that are related. -/
abbrev PairOf (R : Token → Token → Prop) (kind : Kind) :=
  { pair : TokenOf kind × TokenOf kind // R pair.1.1 pair.2.1 }

namespace PairOf

variable {R : Token → Token → Prop} (kind : Kind)

/-- The first token of a pair. -/
def first (pair : PairOf R kind) : TokenOf kind := pair.1.1

/-- The second token of a pair. -/
def second (pair : PairOf R kind) : TokenOf kind := pair.1.2

end PairOf

/-- Two nodes with the same name, of the same kind and with the same children. -/
structure Node.Alike (R : Token → Token → Prop) (node other : Node) : Prop where
  id : node.id = other.id
  kind : node.kind = other.kind
  token : R node.token other.token

/-- Two optional values that are related are both there, or neither is. -/
theorem rel_cases {α : Type} {R : α → α → Prop} {a b : Option α} (rel : Option.Rel R a b) :
    (a = none ∧ b = none) ∨ ∃ x y, a = some x ∧ b = some y ∧ R x y := by
  cases rel with
  | none => exact Or.inl ⟨rfl, rfl⟩
  | some related => exact Or.inr ⟨_, _, rfl, rfl, related⟩

/-- Where the nodes of two arenas are related one by one, so are those of one name. -/
theorem Tree.node?_rel {R : Node → Node → Prop} {tree other : Tree}
    (related : List.Forall₂ R tree.nodes.toList other.nodes.toList) (id : NodeId) :
    Option.Rel R (tree.node? id) (other.node? id) := by
  rw [node?, node?, ← Array.getElem?_toList, ← Array.getElem?_toList]
  generalize tree.nodes.toList = nodes at related ⊢
  generalize other.nodes.toList = others at related ⊢
  induction related generalizing id with
  | nil => exact .none
  | cons head _ ih =>
    cases id with
    | zero => exact .some head
    | succ id => exact ih id

/-! ## Two trees as one -/

namespace SyntaxTree

variable {R : Token → Token → Prop} {part : Part}

/-- Tokens that are related to those of some leaves stand at leaves of the same kinds. -/
theorem exists_pairs_leaves (sameKind : ∀ t u, R t u → t.kind = u.kind)
    (leaves : List (Leaf TokenOf)) (us : List Token)
    (related : List.Forall₂ R (leaves.map fun leaf => leaf.2.1) us) :
    ∃ pairs : List (Leaf (PairOf R)), pairs.map (Leaf.map PairOf.first) = leaves ∧
      (pairs.map (Leaf.map PairOf.second)).map (fun leaf => leaf.2.1) = us := by
  induction leaves generalizing us with
  | nil =>
    cases related
    exact ⟨[], rfl, rfl⟩
  | cons leaf leaves ih =>
    cases related with
    | @cons _ u _ us head tail =>
      obtain ⟨pairs, firsts, seconds⟩ := ih us tail
      obtain ⟨kind, t, kindEq⟩ := leaf
      let pair : PairOf R kind := ⟨⟨⟨t, kindEq⟩, ⟨u, (sameKind t u head).symm.trans kindEq⟩⟩, head⟩
      refine ⟨⟨kind, pair⟩ :: pairs, ?_, ?_⟩
      · rw [List.map_cons, firsts]
        rfl
      · rw [List.map_cons, List.map_cons, seconds]
        rfl

/-- Tokens that are related to those of a tree are the tokens of a tree of the same shape. -/
theorem exists_pairs (sameKind : ∀ t u, R t u → t.kind = u.kind) (tree : SyntaxTree TokenOf part)
    (us : List Token) (related : List.Forall₂ R tree.tokens us) :
    ∃ pairs : SyntaxTree (PairOf R) part, pairs.map PairOf.first = tree ∧
      (pairs.map PairOf.second).tokens = us := by
  obtain ⟨leaves, firsts, seconds⟩ := exists_pairs_leaves sameKind tree.leaves us related
  obtain ⟨pairs, rfl, shape⟩ := exists_map PairOf.first tree leaves firsts
  refine ⟨pairs, shape, ?_⟩
  rw [tokens, leaves_map]
  exact seconds

variable (pairs : SyntaxTree (PairOf R) part)

theorem tokens_related :
    List.Forall₂ R (pairs.map PairOf.first).tokens (pairs.map PairOf.second).tokens := by
  rw [tokens, leaves_map, tokens, leaves_map, List.map_map, List.map_map,
    List.forall₂_map_left_iff, List.forall₂_map_right_iff, List.forall₂_same]
  exact fun leaf _ => leaf.2.2

theorem headD_tokens_related {follow other : Token} (behind : R follow other) :
    R ((pairs.map PairOf.first).tokens.headD follow)
      ((pairs.map PairOf.second).tokens.headD other) := by
  have related := pairs.tokens_related
  generalize (pairs.map PairOf.first).tokens = ts at related ⊢
  generalize (pairs.map PairOf.second).tokens = us at related ⊢
  cases related with
  | nil => exact behind
  | cons head _ => exact head

/-- A layout goes by the shape of the tree, and by its tokens only to anchor the nodes. -/
theorem layout_alike {follow other : Token} (behind : R follow other) (n : NodeId) :
    List.Forall₂ (Node.Alike R) ((pairs.map PairOf.first).layout follow n)
      ((pairs.map PairOf.second).layout other n) := by
  induction pairs generalizing follow other n with
  | noStatements => exact .cons ⟨rfl, rfl, behind⟩ .nil
  | statements first rest firstIh restIh =>
    simp only [map, layout, size_map, root_map]
    refine .cons ⟨rfl, rfl, first.headD_tokens_related behind⟩ ?_
    exact List.rel_append (firstIh behind (n + 1)) (restIh behind (n + 1 + first.size))
  | definition _ symbol _ initializer ih =>
    simp only [map, layout, size_map, root_map]
    exact List.rel_append (ih behind n) (.cons ⟨rfl, rfl, symbol.2⟩ .nil)
  | plain _ ih => exact ih behind n
  | operand _ ih => exact ih behind n
  | pipe left operator right leftIh rightIh =>
    simp only [map, layout, size_map, root_map]
    exact List.rel_append (List.rel_append (leftIh behind n) (rightIh behind (n + left.size)))
      (.cons ⟨rfl, rfl, operator.2⟩ .nil)
  | number digits => exact .cons ⟨rfl, rfl, digits.2⟩ .nil
  | name word => exact .cons ⟨rfl, rfl, word.2⟩ .nil
  | function opening body closing ih =>
    simp only [map, layout, size_map, root_map]
    exact List.rel_append (ih closing.2 n) (.cons ⟨rfl, rfl, opening.2⟩ .nil)
  | call opening callee others closing calleeIh othersIh =>
    simp only [map, layout, size_map, root_map, slot_map]
    exact List.rel_append
      (List.rel_append (calleeIh behind n) (othersIh behind (n + callee.size)))
      (.cons ⟨rfl, rfl, opening.2⟩ .nil)
  | noArguments => exact .nil
  | arguments first rest firstIh restIh =>
    simp only [map, layout, size_map, root_map, slot_map]
    exact List.rel_append (List.rel_append (firstIh behind n) (restIh behind (n + first.size)))
      (.cons ⟨rfl, rfl, first.headD_tokens_related behind⟩ .nil)

end SyntaxTree

/-! ## Two buffers -/

namespace TokenBuffer

/-- Two tokens stand at the same place, each in its own buffer. -/
def AtOnePlace (buffer other : TokenBuffer) (t u : Token) : Prop :=
  ∃ p : Nat, buffer.tokens[p]? = some t ∧ other.tokens[p]? = some u

section Related

variable {R : Token → Token → Prop} {buffer other : TokenBuffer}

/-- What relates the tokens of two buffers relates those of their bodies, and the last ones. -/
theorem forall₂_body (related : List.Forall₂ R buffer.tokens other.tokens) :
    List.Forall₂ R buffer.body other.body ∧ R buffer.last other.last := by
  have lengths : buffer.body.length = other.body.length := by
    have whole := related.length_eq
    rw [length_tokens, length_tokens] at whole
    exact Nat.succ.inj whole
  have bodies := List.forall₂_take buffer.body.length related
  have lasts := List.forall₂_drop buffer.body.length related
  rw [tokens, List.take_left, tokens, lengths, List.take_left] at bodies
  rw [tokens, List.drop_left, tokens, lengths, List.drop_left] at lasts
  cases lasts with
  | cons last _ => exact ⟨bodies, last⟩

/-- Buffers with related tokens of the same kinds have trees with nodes that are alike. -/
theorem parse_related (sameKind : ∀ t u, R t u → t.kind = u.kind)
    (related : List.Forall₂ R buffer.tokens other.tokens) {tree : Tree}
    (parsed : buffer.parse = .ok tree) :
    ∃ tree', other.parse = .ok tree' ∧ tree'.root = tree.root ∧
      List.Forall₂ (Node.Alike R) tree.nodes.toList tree'.nodes.toList := by
  obtain ⟨bodies, lasts⟩ := forall₂_body related
  obtain ⟨program, written, root, nodes⟩ := exists_layout parsed
  rw [← written] at bodies
  obtain ⟨pairs, rfl, writtenToo⟩ := program.exists_pairs sameKind _ bodies
  obtain ⟨tree', parsedToo, rootToo, nodesToo⟩ := parse_layout writtenToo
  refine ⟨tree', parsedToo, ?_, ?_⟩
  · rw [rootToo, root, SyntaxTree.root_map, SyntaxTree.root_map]
  · rw [nodes, nodesToo]
    exact pairs.layout_alike lasts 0

end Related

/-! ## Buffers of the same kinds -/

/-- A parse fails at a token: the error is about that token, and those before it were eaten. -/
structure FailsAt (buffer : TokenBuffer) (p : Nat) (t : Token) (e : ParseError) : Prop where
  failed : buffer.parse = .error e
  token : buffer.tokens[p]? = some t
  eaten : (Parse.run buffer.tokens).advances.size = p
  line : e.line = t.line
  found : e.found = t.display

theorem exists_failsAt {buffer : TokenBuffer} {e : ParseError} (failed : buffer.parse = .error e) :
    ∃ p t, buffer.FailsAt p t e ∧ buffer.BreaksAt p ∧
      e = diagnose (buffer.tokens.take p) t := by
  obtain ⟨p, t, d, atToken, breaks, said, run⟩ := run_of_parse_error failed
  have bound : p < buffer.tokens.length := (List.getElem?_eq_some_iff.mp atToken).1
  refine ⟨p, t, ⟨failed, atToken, ?_, ?_, ?_⟩, breaks, said⟩
  · rw [run, List.size_toArray, ← List.length_map (f := Advance.eaten), Advance.map_eaten_along,
      List.length_dropLast, List.length_take, Nat.min_eq_left bound]
    rfl
  · exact congrArg ParseError.line said
  · exact congrArg ParseError.found said

section SameKinds

variable {buffer other : TokenBuffer}

/-- A token has a counterpart of its kind at its place. -/
theorem exists_counterpart (same : buffer.tokens.map Token.kind = other.tokens.map Token.kind)
    {p : Nat} {t : Token} (atT : buffer.tokens[p]? = some t) :
    ∃ u, other.tokens[p]? = some u ∧ u.kind = t.kind := by
  have kinds := congrArg (fun ks : List Kind => ks[p]?) same.symm
  simp only [List.getElem?_map, atT, Option.map_some] at kinds
  exact Option.map_eq_some_iff.mp kinds

theorem AtOnePlace.kind_eq (same : buffer.tokens.map Token.kind = other.tokens.map Token.kind)
    (t u : Token) (place : AtOnePlace buffer other t u) : t.kind = u.kind := by
  obtain ⟨p, atT, atU⟩ := place
  obtain ⟨v, atV, kind⟩ := exists_counterpart same atT
  cases atU.symm.trans atV
  exact kind.symm

theorem forall₂_atOnePlace (same : buffer.tokens.map Token.kind = other.tokens.map Token.kind) :
    List.Forall₂ (AtOnePlace buffer other) buffer.tokens other.tokens := by
  have lengths : buffer.tokens.length = other.tokens.length := by
    rw [← List.length_map (f := Token.kind), same, List.length_map]
  refine List.forall₂_iff_get.mpr ⟨lengths, fun p bound boundToo => ⟨p, ?_⟩⟩
  exact ⟨List.getElem?_eq_getElem bound, List.getElem?_eq_getElem boundToo⟩

/-- Where a buffer fails, every buffer with the same kinds does, and is told the same. -/
theorem failsAt_related (same : buffer.tokens.map Token.kind = other.tokens.map Token.kind)
    {e : ParseError} (failed : buffer.parse = .error e) :
    ∃ p t u f, buffer.FailsAt p t e ∧ other.FailsAt p u f ∧ f.production = e.production ∧
      f.expected = e.expected := by
  obtain ⟨p, t, failsAt, breaks, said⟩ := exists_failsAt failed
  have upTo (q : Nat) : (other.tokens.take q).map Token.kind =
      (buffer.tokens.take q).map Token.kind := by
    rw [List.map_take, List.map_take, same]
  have breaksToo : other.BreaksAt p := by
    rw [BreaksAt, upTo, upTo]
    exact breaks
  obtain ⟨u, atU, kind⟩ := exists_counterpart same failsAt.token
  have failedToo := parse_eq_error_iff.mpr ⟨p, u, atU, breaksToo, rfl⟩
  obtain ⟨q, v, failsAtToo, breaksAtQ, -⟩ := exists_failsAt failedToo
  cases breaksAtQ.unique breaksToo
  cases atU.symm.trans failsAtToo.token
  refine ⟨p, t, u, _, failsAt, failsAtToo, ?_, ?_⟩
  · rw [said, diagnose, diagnose, upTo, kind]
    rfl
  · rw [said, diagnose, diagnose, upTo, kind]
    rfl

end SameKinds

/-- Of two buffers with the same kinds either both are programs, and their trees are the same but
for the tokens of the nodes, which stand at the same places; or both fail at the same place, and
their errors are the same but for what is said of the token there. -/
theorem parse_of_kinds_eq (buffer other : TokenBuffer)
    (same : buffer.tokens.map Token.kind = other.tokens.map Token.kind) :
    (∃ tree tree', buffer.parse = .ok tree ∧ other.parse = .ok tree' ∧
      tree'.size = tree.size ∧ tree'.root = tree.root ∧
      List.Forall₂ (Node.Alike (AtOnePlace buffer other)) tree.nodes.toList tree'.nodes.toList) ∨
    ∃ p t u e f, buffer.FailsAt p t e ∧ other.FailsAt p u f ∧ f.production = e.production ∧
      f.expected = e.expected := by
  cases parse : buffer.parse with
  | ok tree =>
    obtain ⟨tree', parsedToo, root, alike⟩ :=
      parse_related (AtOnePlace.kind_eq same) (forall₂_atOnePlace same) parse
    exact Or.inl ⟨tree, tree', rfl, parsedToo, alike.length_eq.symm, root, alike⟩
  | error e =>
    obtain ⟨p, t, u, f, failures⟩ := failsAt_related same parse
    exact Or.inr ⟨p, t, u, e, f, failures⟩

/-- The tokens of a call of a name with a number, on a line of one's choice. -/
def ofCall (name digits : List Char) (line : Nat) : TokenBuffer where
  body := [.ofLexeme .leftParen ['('] ⟨line, line, 1⟩,
    .ofLexeme .identifier name ⟨line + 1, line, 2⟩,
    .ofLexeme .number digits ⟨line + 2, line, 3⟩, .ofLexeme .rightParen [')'] ⟨line + 3, line, 4⟩]
  last := .endAt ⟨line + 4, line, 5⟩
  body_kind := by simp [Token.ofLexeme]
  last_kind := rfl

/-- The tokens of a definition with a number where the name belongs. -/
def ofNumberDefined (digits : List Char) (line : Nat) : TokenBuffer where
  body := [.ofLexeme .letKeyword ['l', 'e', 't'] ⟨line, line, 1⟩,
    .ofLexeme .number digits ⟨line + 4, line, 5⟩]
  last := .endAt ⟨line + 5, line, 6⟩
  body_kind := by simp [Token.ofLexeme]
  last_kind := rfl

/-- Two calls are parsed alike, and two definitions of a number fail alike. -/
theorem parse_ofCall_alike :
    ((ofCall ['f'] ['1'] 1).tokens.map Token.kind =
        (ofCall ['g'] ['2', '0'] 7).tokens.map Token.kind ∧
      ∃ tree tree', (ofCall ['f'] ['1'] 1).parse = .ok tree ∧
        (ofCall ['g'] ['2', '0'] 7).parse = .ok tree' ∧ tree'.size = tree.size ∧
        tree'.root = tree.root ∧
        List.Forall₂ (Node.Alike (AtOnePlace (ofCall ['f'] ['1'] 1) (ofCall ['g'] ['2', '0'] 7)))
          tree.nodes.toList tree'.nodes.toList) ∧
    (ofNumberDefined ['1'] 1).tokens.map Token.kind =
        (ofNumberDefined ['2', '0'] 7).tokens.map Token.kind ∧
      ∃ p t u e f, (ofNumberDefined ['1'] 1).FailsAt p t e ∧
        (ofNumberDefined ['2', '0'] 7).FailsAt p u f ∧ f.production = e.production ∧
        f.expected = e.expected := by
  have parsed : ∃ tree, (ofCall ['f'] ['1'] 1).parse = .ok tree := ⟨_, rfl⟩
  have failed : ∃ e, (ofNumberDefined ['1'] 1).parse = .error e := ⟨_, rfl⟩
  constructor
  · rcases parse_of_kinds_eq (ofCall ['f'] ['1'] 1) (ofCall ['g'] ['2', '0'] 7) rfl with
      trees | ⟨_, _, _, _, _, failsAt, -⟩
    · exact ⟨rfl, trees⟩
    · obtain ⟨tree, parsed⟩ := parsed
      exact nomatch parsed.symm.trans failsAt.failed
  · rcases parse_of_kinds_eq (ofNumberDefined ['1'] 1) (ofNumberDefined ['2', '0'] 7) rfl with
      ⟨_, _, parsedToo, -⟩ | errors
    · obtain ⟨e, failed⟩ := failed
      exact nomatch failed.symm.trans parsedToo
    · exact ⟨rfl, errors⟩

end TokenBuffer

end PipeScript
