import Mathlib.Data.List.Forall2
import Mathlib.Data.List.Nodup
import Mathlib.Data.List.Perm.Basic
import PipeScript.Proofs.Anchors
import PipeScript.Proofs.Parallel
import PipeScript.Proofs.TreeShape

/-!
# Where nodes are anchored

The nodes that are no cells are anchored one by one at the numbers, names, operators and opening
brackets of a program, and the sentinels at the tokens that end a list. Along the parts of a
syntax tree this is a count of tokens (`Site.filter_nodes_perm`): the tokens that anchor a node are
those of the own node of a site and those of its parts.

Two tokens of a buffer may be equal, so a node does not show the place of its anchor in the buffer.
But the parser goes by kinds alone, and it can be given tokens that are numbered
(`TokenBuffer.numbered`): there the anchors show their places. `Site.StandsIn` follows a
subtree through numbered tokens, and `Anchored` collects what the places say about an arena.
`TokenBuffer.parse_anchored` is that for every program: the places are those of the anchors in
every buffer with the same kinds.
-/

namespace PipeScript

/-! ## Tokens and nodes -/

/-- The kinds of tokens that anchor a node of their own. -/
def Kind.isAnchor : Kind → Bool
  | number | identifier | pipe | leftParen | leftBrace => true
  | _ => false

/-- The kinds of tokens that end a list of statements. -/
def Kind.endsList : Kind → Bool
  | rightBrace | endOfInput => true
  | _ => false

/-- Whether a node of this kind is a cell of a list. -/
def NodeKind.isCell : NodeKind → Bool
  | argumentCell _ _ | statementCell _ _ => true
  | _ => false

namespace Site

open SyntaxTree (noStatements statements definition plain operand pipe number name function call
  noArguments arguments)

/-- If some tokens are accounted for by the own node of a site and by its parts, then they are
accounted for by its nodes. -/
theorem filter_nodes_perm {P : NodeKind → Bool} {due : Site → List Token}
    (step : ∀ site : Site, (due site).Perm
      ((site.own?.toList.filter (P ·.kind)).map Node.token ++ site.parts.flatMap due))
    (site : Site) : ((site.nodes.filter (P ·.kind)).map Node.token).Perm (due site) := by
  induction site using Site.induction with
  | step site ih =>
    have nodes := (site.nodes_perm.filter (P ·.kind)).map Node.token
    rw [List.filter_append, List.map_append, List.filter_flatMap, List.map_flatMap] at nodes
    exact nodes.trans (((List.Perm.flatMap_left _ ih).append_left _).trans (step site).symm)

/-- The tokens of a tree that anchor a node of their own. -/
def anchors (site : Site) : List Token := site.form.tokens.filter (·.kind.isAnchor)

/-- The tokens that end the lists of statements in a tree. -/
def ends (site : Site) : List Token :=
  site.form.tokens.filter (·.kind = .rightBrace) ++
    if site.part = .statements then [site.follow] else []

theorem anchors_step (site : Site) :
    site.anchors.Perm ((site.own?.toList.filter (!·.kind.isCell)).map Node.token ++
      site.parts.flatMap anchors) := by
  obtain ⟨form, follow, n⟩ := site
  cases form with
  | pipe left operator right =>
    simp [anchors, own?, parts, NodeKind.isCell, operator.2, Kind.isAnchor]
  | number t | name t => simp [anchors, own?, parts, NodeKind.isCell, t.2, Kind.isAnchor]
  | definition keyword symbol sign =>
    simp [anchors, own?, parts, NodeKind.isCell, keyword.2, symbol.2, sign.2, Kind.isAnchor]
  | function opening _ closing | call opening _ _ closing =>
    simp [anchors, own?, parts, NodeKind.isCell, opening.2, closing.2, Kind.isAnchor]
  | _ => simp [anchors, own?, parts, NodeKind.isCell, NodeKind.sentinel]

theorem ends_step (site : Site) :
    site.ends.Perm ((site.own?.toList.filter (·.kind = .sentinel)).map Node.token ++
      site.parts.flatMap ends) := by
  obtain ⟨form, follow, n⟩ := site
  cases form with
  | pipe left operator right =>
    simp [ends, own?, parts, NodeKind.sentinel, operator.2]
  | number t | name t => simp [ends, own?, parts, NodeKind.sentinel, t.2]
  | definition keyword symbol sign =>
    simp [ends, own?, parts, NodeKind.sentinel, keyword.2, symbol.2, sign.2]
  | function opening _ closing | call opening _ _ closing =>
    simp [ends, own?, parts, NodeKind.sentinel, opening.2, closing.2]
  | _ => simp [ends, own?, parts, NodeKind.sentinel]

end Site

/-! ## Subtrees among tokens -/

/-- The same token under a number in the place of its first byte. -/
def Token.numbered (t : Token) (i : Nat) : Token := { t with span := { t.span with start := i } }

/-- Every token shows its position. -/
def Numbered (ts : List Token) : Prop := ∀ (i : Nat) (t : Token), ts[i]? = some t → t.span.start = i

/-- What follows these tokens does not stand directly behind a `let`. -/
def EndsFree (before : List Token) : Prop := ∀ t ∈ before.getLast?, t.kind ≠ .letKeyword

theorem endsFree_nil : EndsFree [] := by simp [EndsFree]

theorem endsFree_concat (before : List Token) {t : Token} (other : t.kind ≠ .letKeyword) :
    EndsFree (before ++ [t]) := by
  intro u mem
  rw [List.getLast?_concat] at mem
  cases mem
  exact other

theorem EndsFree.append {before others : List Token} (free : EndsFree before)
    (freeToo : EndsFree others) : EndsFree (before ++ others) := by
  intro t mem
  rw [List.getLast?_append] at mem
  rcases Option.or_eq_some_iff.mp mem with last | ⟨-, last⟩
  · exact freeToo t last
  · exact free t last

/-- No tree ends in a `let`. -/
theorem SyntaxTree.endsFree {part : Part} (tree : SyntaxTree TokenOf part) :
    EndsFree tree.tokens := by
  induction tree with
  | noStatements => exact endsFree_nil
  | statements _ _ firstIh restIh =>
    rw [tokens_statements]
    exact firstIh.append restIh
  | definition keyword symbol sign _ ih =>
    exact (endsFree_concat [keyword.1, symbol.1] (by rw [sign.2]; decide)).append ih
  | plain _ ih => exact ih
  | operand _ ih => exact ih
  | pipe left operator _ _ rightIh =>
    rw [tokens_pipe, List.append_cons]
    exact (endsFree_concat _ (by rw [operator.2]; decide)).append rightIh
  | number digits => exact endsFree_concat [] (by rw [digits.2]; decide)
  | name word => exact endsFree_concat [] (by rw [word.2]; decide)
  | function opening body closing =>
    rw [tokens_function, ← List.cons_append]
    exact endsFree_concat _ (by rw [closing.2]; decide)
  | call opening callee others closing =>
    rw [tokens_call, ← List.append_assoc, ← List.cons_append]
    exact endsFree_concat _ (by rw [closing.2]; decide)
  | noArguments => exact endsFree_nil
  | arguments _ _ firstIh restIh =>
    rw [tokens_arguments]
    exact firstIh.append restIh

namespace Site

open SyntaxTree (noStatements statements definition plain operand pipe number name function call
  noArguments arguments)

/-- A tree stands at a place among some tokens, and not behind a `let`. What follows a list of
statements is the token behind it. -/
def StandsIn (site : Site) (ts : List Token) (p : Nat) : Prop :=
  ∃ before behind : List Token, ts = before ++ (site.form.tokens ++ behind) ∧ before.length = p ∧
    EndsFree before ∧ (site.part = .statements → behind.head? = some site.follow)

/-- How many tokens of a tree stand before each of its parts. -/
def offsets : Site → List Nat
  | ⟨statements first _, _, _⟩ => [0, first.tokens.length]
  | ⟨definition _ _ _ _, _, _⟩ => [3]
  | ⟨plain _, _, _⟩ => [0]
  | ⟨operand _, _, _⟩ => [0]
  | ⟨pipe left _ _, _, _⟩ => [0, left.tokens.length + 1]
  | ⟨function _ _ _, _, _⟩ => [1]
  | ⟨call _ callee _ _, _, _⟩ => [1, callee.tokens.length + 1]
  | ⟨arguments first _, _, _⟩ => [0, first.tokens.length]
  | _ => []

/-- How many tokens of a tree stand before the anchor of its own node. -/
def anchorOffset : Site → Nat
  | ⟨definition _ _ _ _, _, _⟩ => 1
  | ⟨pipe left _ _, _, _⟩ => left.tokens.length
  | _ => 0

variable {site part inner : Site} {ts : List Token} {p : Nat} {node : Node}

/-- A program stands in front of the last token. -/
theorem stands_program (program : SyntaxTree TokenOf .statements) (last : Token) :
    StandsIn ⟨program, last, 0⟩ (program.tokens ++ [last]) 0 :=
  ⟨[], [last], rfl, rfl, endsFree_nil, fun _ => rfl⟩

theorem stands_parts (stands : site.StandsIn ts p) :
    List.Forall₂ (fun part offset => part.StandsIn ts (p + offset)) site.parts site.offsets := by
  obtain ⟨form, follow, n⟩ := site
  obtain ⟨before, behind, rfl, rfl, free, ending⟩ := stands
  cases form with
  | noStatements => exact .nil
  | statements first rest =>
    refine .cons ⟨before, rest.tokens ++ behind, ?_, rfl, free, nofun⟩
      (.cons ⟨before ++ first.tokens, behind, ?_, ?_, free.append first.endsFree, ending⟩ .nil)
    all_goals simp
  | definition keyword symbol sign initializer =>
    have apart : sign.1.kind ≠ .letKeyword := by
      rw [sign.2]
      decide
    refine .cons ⟨before ++ [keyword.1, symbol.1] ++ [sign.1], behind, ?_, ?_,
      endsFree_concat _ apart, nofun⟩ .nil
    all_goals simp
  | plain value => exact .cons ⟨before, behind, rfl, rfl, free, nofun⟩ .nil
  | operand value => exact .cons ⟨before, behind, rfl, rfl, free, nofun⟩ .nil
  | pipe left operator right =>
    have apart : operator.1.kind ≠ .letKeyword := by
      rw [operator.2]
      decide
    refine .cons ⟨before, operator.1 :: (right.tokens ++ behind), ?_, rfl, free, nofun⟩
      (.cons ⟨before ++ left.tokens ++ [operator.1], behind, ?_, ?_, endsFree_concat _ apart,
        nofun⟩ .nil)
    all_goals simp
  | number => exact .nil
  | name => exact .nil
  | function opening body closing =>
    have apart : opening.1.kind ≠ .letKeyword := by
      rw [opening.2]
      decide
    refine .cons ⟨before ++ [opening.1], closing.1 :: behind, ?_, ?_, endsFree_concat _ apart,
      fun _ => rfl⟩ .nil
    all_goals simp
  | call opening callee others closing =>
    have apart : opening.1.kind ≠ .letKeyword := by
      rw [opening.2]
      decide
    refine .cons ⟨before ++ [opening.1], others.tokens ++ closing.1 :: behind, ?_, ?_,
      endsFree_concat _ apart, nofun⟩ (.cons ⟨before ++ [opening.1] ++ callee.tokens,
        closing.1 :: behind, ?_, ?_, (endsFree_concat _ apart).append callee.endsFree, nofun⟩ .nil)
    all_goals simp
  | noArguments => exact .nil
  | arguments first rest =>
    refine .cons ⟨before, rest.tokens ++ behind, ?_, rfl, free, nofun⟩
      (.cons ⟨before ++ first.tokens, behind, ?_, ?_, free.append first.endsFree, nofun⟩ .nil)
    all_goals simp

theorem Within.exists_stands (within : inner.Within site) (stands : site.StandsIn ts p) :
    ∃ q, inner.StandsIn ts q := by
  induction within generalizing p with
  | refl => exact ⟨p, stands⟩
  | step _ isPart ih =>
    obtain ⟨i, bound, rfl⟩ := List.mem_iff_getElem.mp isPart
    have placed := stands_parts stands
    exact ih (placed.get bound (placed.length_eq ▸ bound))

/-- Where a tree stands, its tokens do. -/
theorem StandsIn.getElem? (stands : site.StandsIn ts p) :
    ∃ behind, (site.part = .statements → behind.head? = some site.follow) ∧
      ∀ k, ts[p + k]? = (site.form.tokens ++ behind)[k]? := by
  obtain ⟨before, behind, rfl, rfl, -, ending⟩ := stands
  refine ⟨behind, ending, fun k => ?_⟩
  rw [List.getElem?_append_right (Nat.le_add_right _ _), Nat.add_sub_cancel_left]

/-- The anchor of the own node of a tree stands among its tokens, or directly behind them. -/
theorem StandsIn.anchor (stands : site.StandsIn ts p) (own : site.own? = some node) :
    ts[p + site.anchorOffset]? = some node.token := by
  obtain ⟨behind, ending, tokens⟩ := stands.getElem?
  obtain ⟨form, follow, n⟩ := site
  rw [tokens]
  cases form with
  | noStatements =>
    cases own
    exact (List.head?_eq_getElem? ..).symm.trans (ending rfl)
  | statements first rest | arguments first rest =>
    obtain ⟨t, ts, eq, -⟩ := first.starts
    cases own
    simp [eq, anchorOffset]
  | plain | operand | noArguments => cases own
  | _ =>
    cases own
    simp [anchorOffset]

end Site

/-- The end of the input stands in no tree. -/
theorem SyntaxTree.kind_ne_endOfInput {part : Part} (tree : SyntaxTree TokenOf part) :
    ∀ t ∈ tree.tokens, t.kind ≠ .endOfInput := by
  induction tree with
  | noStatements | noArguments => simp
  | plain _ ih => exact ih
  | operand _ ih => exact ih
  | statements _ _ firstIh restIh => simpa [or_imp, forall_and] using ⟨firstIh, restIh⟩
  | arguments _ _ firstIh restIh => simpa [or_imp, forall_and] using ⟨firstIh, restIh⟩
  | definition keyword symbol sign _ ih => simpa [keyword.2, symbol.2, sign.2] using ih
  | number t | name t => simp [t.2]
  | pipe _ operator _ leftIh rightIh =>
    simpa [operator.2, or_imp, forall_and] using ⟨leftIh, rightIh⟩
  | function opening _ closing ih =>
    simpa [opening.2, closing.2, or_imp, forall_and] using ih
  | call opening _ _ closing calleeIh othersIh =>
    simpa [opening.2, closing.2, or_imp, forall_and] using ⟨calleeIh, othersIh⟩

/-- The tokens of a list of statements follow the grammar. -/
theorem SyntaxTree.derives (list : SyntaxTree TokenOf .statements) :
    Derives (.part .statementList) (list.tokens.map Token.kind) := by
  let buffer : TokenBuffer := ⟨list.tokens, .endAt .origin, list.kind_ne_endOfInput, rfl⟩
  have written : list.tokens = buffer.body := rfl
  obtain ⟨tree, parsed, -⟩ := TokenBuffer.parse_layout written
  obtain ⟨ks, split, statements⟩ :=
    Derives.program_iff.mp (buffer.parses_iff_derives.mp ⟨tree, parsed⟩)
  rw [TokenBuffer.tokens, List.map_append] at split
  rw [(List.append_inj' split rfl).1]
  exact Derives.part statements

/-! ## What the places say -/

section Places

/-- A place that stands directly behind a `let`. -/
def BehindLet (ks : List Kind) (p : Nat) : Prop := ∃ q, p = q + 1 ∧ ks[q]? = some .letKeyword

/-- Where a node of a kind can be anchored: what it is follows from the token there and from the
one before it. -/
def NodeKind.AnchoredAt (ks : List Kind) (p : Nat) : NodeKind → Prop
  | constant => ks[p]? = some .number
  | reference => ks[p]? = some .identifier ∧ ¬ BehindLet ks p
  | definition _ => ks[p]? = some .identifier ∧ BehindLet ks p
  | binary _ _ => ks[p]? = some .pipe
  | call _ _ => ks[p]? = some .leftParen
  | function _ => ks[p]? = some .leftBrace
  | argumentCell _ _ | statementCell _ _ => False

/-- At the second place there is the brace that closes the one at the first place: between them
stands a list of statements. -/
def Closes (ks : List Kind) (p q : Nat) : Prop :=
  ∃ before inner behind, ks = before ++ .leftBrace :: (inner ++ .rightBrace :: behind) ∧
    p = before.length ∧ q = before.length + 1 + inner.length ∧
    Derives (.part .statementList) inner

/-- The kinds of the nodes in an arena, by their names. -/
def Tree.kind? (tree : Tree) (id : NodeId) : Option NodeKind := (tree.node? id).map Node.kind

theorem EndsFree.not_behindLet {before behind : List Token} (free : EndsFree before) :
    ¬ BehindLet ((before ++ behind).map Token.kind) before.length := by
  rintro ⟨q, length, isLet⟩
  rw [List.getElem?_map, List.getElem?_append_left (by omega)] at isLet
  obtain ⟨t, found, kind⟩ := Option.map_eq_some_iff.mp isLet
  refine free t ?_ kind
  rw [Option.mem_def, List.getLast?_eq_getElem?, length]
  exact found

variable (kind? : NodeId → Option NodeKind) (ks : List Kind) (place : NodeId → Nat)

/-- Where the tokens of a statement or an expression start. An operator stands behind the tokens of
its left operand, and the symbol of a definition behind `let`. -/
inductive StartsAt : NodeId → Nat → Prop
  | anchor {id : NodeId} {kind : NodeKind} : kind? id = some kind → kind.isOperand →
    StartsAt id (place id)
  | left {id left right : NodeId} {p : Nat} : kind? id = some (.binary left right) →
    StartsAt left p → StartsAt id p
  | keyword {id initializer : NodeId} {p : Nat} : kind? id = some (.definition initializer) →
    place id = p + 1 → ks[p]? = some .letKeyword → StartsAt id p

/-- The sentinel at the end of a list of statements. -/
inductive EndsIn : NodeId → NodeId → Prop
  | sentinel {id : NodeId} : kind? id = some .sentinel → EndsIn id id
  | cell {id statement next last : NodeId} :
    kind? id = some (.statementCell (some statement) (some next)) → EndsIn next last →
    EndsIn id last

/-- Nodes are anchored at some places among tokens of some kinds: one node that is no cell at every
token that can anchor one, one sentinel at every token that ends a list, and the other cells where
their statement or argument starts. -/
structure Anchored (root : NodeId) : Prop where
  construct : ∀ id kind, kind? id = some kind → ¬ kind.isCell → kind.AnchoredAt ks (place id)
  construct_once : ∀ (p : Nat) k, ks[p]? = some k → k.isAnchor →
    ∃! id, ∃ kind, kind? id = some kind ∧ ¬ kind.isCell ∧ place id = p
  sentinel : ∀ id, kind? id = some .sentinel → ∃ k, ks[place id]? = some k ∧ k.endsList
  sentinel_once : ∀ (p : Nat) k, ks[p]? = some k → k.endsList →
    ∃! id, kind? id = some .sentinel ∧ place id = p
  program_end : ∃ last, EndsIn kind? root last ∧ ks[place last]? = some .endOfInput
  function_end : ∀ id body, kind? id = some (.function body) →
    ∃ last, EndsIn kind? body last ∧ Closes ks (place id) (place last)
  statement_start : ∀ id statement next, kind? id = some (.statementCell statement next) →
    NodeKind.statementCell statement next ≠ .sentinel →
      ∃ child, statement = some child ∧ StartsAt kind? ks place child (place id)
  argument_start : ∀ id argument next, kind? id = some (.argumentCell argument next) →
    StartsAt kind? ks place argument (place id)

end Places

/-! ## Arenas with numbered tokens -/

namespace Tree

/-- The number that the anchor of a node shows. -/
def numberAt (tree : Tree) (id : NodeId) : Nat :=
  ((tree.node? id).map fun node => node.token.span.start).getD 0

variable {tree : Tree} {site : Site} {node : Node} {ts : List Token} {p : Nat}

theorem kind?_eq_some {id : NodeId} {kind : NodeKind} :
    tree.kind? id = some kind ↔ ∃ node, tree.node? id = some node ∧ node.kind = kind :=
  Option.map_eq_some_iff

theorem numberAt_of_node? {id : NodeId} (found : tree.node? id = some node) :
    tree.numberAt id = node.token.span.start := by
  rw [numberAt, found]
  rfl

section Numbered

variable (numbered : Numbered ts)

include numbered

/-- In a subtree the anchor of the own node shows its place. -/
theorem HasSite.numberAt_own (has : tree.HasSite site) (stands : site.StandsIn ts p)
    (own : site.own? = some node) : tree.numberAt node.id = p + site.anchorOffset := by
  rw [numberAt_of_node? (has.own own)]
  exact numbered _ _ (stands.anchor own)

theorem HasSite.kindAt_own (has : tree.HasSite site) (stands : site.StandsIn ts p)
    (own : site.own? = some node) :
    (ts.map Token.kind)[tree.numberAt node.id]? = some node.token.kind := by
  rw [has.numberAt_own numbered stands own, List.getElem?_map, stands.anchor own]
  rfl

/-- What fills the slot of a statement, an expression or an operand starts where that does. -/
theorem HasSite.startsAt (has : tree.HasSite site) (stands : site.StandsIn ts p) {id : NodeId}
    (slot : site.slot = some id) (notList : site.part ≠ .statements)
    (notArguments : site.part ≠ .arguments) :
    StartsAt tree.kind? (ts.map Token.kind) tree.numberAt id p := by
  induction site using Site.induction generalizing p id with
  | step site ih =>
    have placed := Site.stands_parts stands
    have ownStarts {node : Node} (own : site.own? = some node) (operand : node.kind.isOperand)
        (front : site.anchorOffset = 0) :
        StartsAt tree.kind? (ts.map Token.kind) tree.numberAt id p := by
      have place := has.numberAt_own numbered stands own
      rw [front, Nat.add_zero] at place
      rw [(Site.children_own own).1] at slot
      cases slot
      rw [← place]
      exact .anchor (kind?_eq_some.mpr ⟨_, has.own own, rfl⟩) operand
    obtain ⟨form, follow, n⟩ := site
    cases form with
    | noStatements | statements => exact absurd rfl notList
    | noArguments | arguments => exact absurd rfl notArguments
    | number | name | function | call => exact ownStarts rfl rfl rfl
    | definition keyword symbol sign initializer =>
      obtain ⟨_, -, tokens⟩ := stands.getElem?
      have front : (ts.map Token.kind)[p]? = some .letKeyword := by
        rw [List.getElem?_map, ← Nat.add_zero p, tokens]
        exact congrArg some keyword.2
      cases slot
      exact .keyword (kind?_eq_some.mpr ⟨_, has.own rfl, rfl⟩)
        (has.numberAt_own numbered stands rfl) front
    | plain value =>
      obtain _ | ⟨standsValue, -⟩ := placed
      exact ih ⟨value, follow, n⟩ List.mem_cons_self (has.only rfl) standsValue
        ((SyntaxTree.slot_eq_some (by decide) value n).trans slot) nofun nofun
    | operand value =>
      obtain _ | ⟨standsValue, -⟩ := placed
      exact ih ⟨value, follow, n⟩ List.mem_cons_self (has.only rfl) standsValue
        ((SyntaxTree.slot_eq_some (by decide) value n).trans slot) nofun nofun
    | pipe left operator right =>
      obtain _ | ⟨standsLeft, -⟩ := placed
      cases slot
      exact .left (kind?_eq_some.mpr ⟨_, has.own rfl, rfl⟩)
        (ih ⟨left, follow, n⟩ List.mem_cons_self (has.both rfl).1 standsLeft
          (SyntaxTree.slot_eq_some (by decide) left n) nofun nofun)

/-- The sentinel of a list is anchored directly behind its tokens. -/
theorem HasSite.endsIn (list : SyntaxTree TokenOf .statements) (follow : Token) (n : NodeId)
    (has : tree.HasSite ⟨list, follow, n⟩) (p : Nat)
    (stands : Site.StandsIn ⟨list, follow, n⟩ ts p) :
    ∃ last, EndsIn tree.kind? n last ∧ tree.numberAt last = p + list.tokens.length := by
  cases list with
  | noStatements =>
    exact ⟨n, .sentinel (kind?_eq_some.mpr ⟨_, has.own rfl, rfl⟩),
      has.numberAt_own numbered stands rfl⟩
  | statements first rest =>
    obtain _ | ⟨-, _ | ⟨standsRest, -⟩⟩ := Site.stands_parts stands
    obtain ⟨last, ends, place⟩ := HasSite.endsIn rest follow _ (has.both rfl).2 _ standsRest
    refine ⟨last, .cell (kind?_eq_some.mpr ⟨_, has.own rfl, rfl⟩) ends, ?_⟩
    rw [place, SyntaxTree.tokens_statements, List.length_append, Nat.add_assoc]

/-- The own node of a tree is anchored at a token that tells what it is. -/
theorem HasSite.anchoredAt_own (has : tree.HasSite site) (stands : site.StandsIn ts p)
    (own : site.own? = some node) (notCell : ¬ node.kind.isCell) :
    node.kind.AnchoredAt (ts.map Token.kind) (tree.numberAt node.id) := by
  have place := has.numberAt_own numbered stands own
  have kindAt := has.kindAt_own numbered stands own
  obtain ⟨form, follow, n⟩ := site
  obtain ⟨before, behind, tokens, rfl, free, -⟩ := stands
  cases form with
  | noStatements | statements | arguments =>
    cases own
    exact absurd rfl notCell
  | plain | operand | noArguments => cases own
  | number t | pipe _ t _ | function t _ _ | call t _ _ _ =>
    cases own
    exact kindAt.trans (congrArg some t.2)
  | name word =>
    cases own
    refine ⟨kindAt.trans (congrArg some word.2), ?_⟩
    rw [place, tokens]
    exact free.not_behindLet
  | definition keyword symbol sign initializer =>
    cases own
    refine ⟨kindAt.trans (congrArg some symbol.2), before.length, place, ?_⟩
    rw [tokens]
    simp [keyword.2]

/-- The sentinel of the body of a function is anchored at the brace that closes it. -/
theorem HasSite.closes {opening : TokenOf .leftBrace} {body : SyntaxTree TokenOf .statements}
    {closing : TokenOf .rightBrace} {follow : Token} {n : NodeId}
    (has : tree.HasSite ⟨.function opening body closing, follow, n⟩)
    (stands : Site.StandsIn ⟨.function opening body closing, follow, n⟩ ts p) :
    ∃ last, EndsIn tree.kind? (body.root n) last ∧
      Closes (ts.map Token.kind) (tree.numberAt (n + body.size)) (tree.numberAt last) := by
  obtain _ | ⟨standsBody, -⟩ := Site.stands_parts stands
  obtain ⟨last, ends, place⟩ := HasSite.endsIn numbered body closing.1 n (has.only rfl) _ standsBody
  have placeOwn := has.numberAt_own numbered stands rfl
  rw [← body.root_statements n] at ends
  refine ⟨last, ends, ?_⟩
  obtain ⟨before, behind, rfl, rfl, -⟩ := stands
  refine ⟨before.map Token.kind, body.tokens.map Token.kind, behind.map Token.kind, ?_, ?_, ?_,
    body.derives⟩
  · simp [opening.2, closing.2]
  · rw [List.length_map]
    exact placeOwn
  · rw [List.length_map, List.length_map]
    exact place

end Numbered

section Program

variable {program : SyntaxTree TokenOf .statements} {last : Token} {id : NodeId}

theorem node?_of_mem (nodes : tree.nodes.toList = program.layout last 0)
    (mem : node ∈ tree.nodes.toList) : tree.node? node.id = some node := by
  obtain ⟨i, found⟩ := List.mem_iff_getElem?.mp mem
  rw [Array.getElem?_toList] at found
  rw [id_eq_of_layout nodes found]
  exact found

/-- Numbered tokens that are, one by one, the anchors of some nodes are so at one place each. -/
theorem exists_unique_of_perm (nodes : tree.nodes.toList = program.layout last 0)
    (numbered : Numbered ts) {P : NodeKind → Bool} {Q : Kind → Bool}
    (perm : ((tree.nodes.toList.filter (P ·.kind)).map Node.token).Perm (ts.filter (Q ·.kind)))
    {k : Kind} (kindAt : (ts.map Token.kind)[p]? = some k) (isQ : Q k) :
    ∃! id, ∃ kind, tree.kind? id = some kind ∧ P kind ∧ tree.numberAt id = p := by
  rw [List.getElem?_map] at kindAt
  obtain ⟨t, found, rfl⟩ := Option.map_eq_some_iff.mp kindAt
  have atNumber {u : Token} (mem : u ∈ ts) : ts[u.span.start]? = some u := by
    obtain ⟨i, atI⟩ := List.mem_iff_getElem?.mp mem
    rw [numbered i u atI]
    exact atI
  have distinct : ts.Nodup := by
    refine List.nodup_iff_pairwise_ne.mpr (List.pairwise_iff_getElem.mpr ?_)
    intro i j iBound jBound before same
    have iNumber := numbered i _ (List.getElem?_eq_getElem iBound)
    have jNumber := numbered j _ (List.getElem?_eq_getElem jBound)
    rw [same] at iNumber
    omega
  have once := List.inj_on_of_nodup_map (perm.nodup_iff.mpr (distinct.filter _))
  have mem : t ∈ ts.filter (Q ·.kind) := List.mem_filter.mpr ⟨List.mem_of_getElem? found, isQ⟩
  obtain ⟨node, isNode, rfl⟩ := List.mem_map.mp (perm.mem_iff.mpr mem)
  obtain ⟨inTree, isP⟩ := List.mem_filter.mp isNode
  have foundNode := node?_of_mem nodes inTree
  refine ⟨node.id, ⟨node.kind, kind?_eq_some.mpr ⟨node, foundNode, rfl⟩, isP, ?_⟩, ?_⟩
  · rw [numberAt_of_node? foundNode]
    exact numbered p _ found
  · rintro other ⟨_, kindOther, isP', place⟩
    obtain ⟨node', found', rfl⟩ := kind?_eq_some.mp kindOther
    have inTree' : node' ∈ tree.nodes.toList := by
      rw [nodes]
      exact mem_layout_of_node? nodes found'
    have isNode' : node' ∈ tree.nodes.toList.filter (P ·.kind) :=
      List.mem_filter.mpr ⟨inTree', isP'⟩
    have inTokens := (List.mem_filter.mp (perm.mem_iff.mp (List.mem_map_of_mem isNode'))).1
    have same := atNumber inTokens
    rw [← numberAt_of_node? found', place, found] at same
    rw [once isNode isNode' (Option.some.inj same)]
    exact (id_eq_of_layout nodes found').symm

/-- Every node of a program is the own one of a subtree that stands among its tokens. -/
theorem exists_stands (nodes : tree.nodes.toList = program.layout last 0)
    (found : tree.node? id = some node) :
    ∃ site p, tree.HasSite site ∧ site.StandsIn (program.tokens ++ [last]) p ∧
      site.own? = some node := by
  obtain ⟨site, within, own⟩ :=
    Site.exists_own ⟨program, last, 0⟩ (mem_layout_of_node? nodes found)
  obtain ⟨p, stands⟩ := within.exists_stands (Site.stands_program program last)
  exact ⟨site, p, (hasSite_of_layout nodes).within within, stands, own⟩

/-- The anchors of the nodes that are no cells are the tokens that can be one, each once. -/
theorem anchors_perm (nodes : tree.nodes.toList = program.layout last 0)
    (lastKind : last.kind = .endOfInput) :
    ((tree.nodes.toList.filter (!·.kind.isCell)).map Node.token).Perm
      ((program.tokens ++ [last]).filter (·.kind.isAnchor)) := by
  have perm := Site.filter_nodes_perm (P := (!·.isCell)) Site.anchors_step ⟨program, last, 0⟩
  have nothing : [last].filter (·.kind.isAnchor) = [] := by simp [lastKind, Kind.isAnchor]
  rw [nodes, List.filter_append, nothing, List.append_nil]
  exact perm

/-- The anchors of the sentinels are the tokens that end a list, each once. -/
theorem ends_perm (nodes : tree.nodes.toList = program.layout last 0)
    (lastKind : last.kind = .endOfInput) :
    ((tree.nodes.toList.filter (·.kind = .sentinel)).map Node.token).Perm
      ((program.tokens ++ [last]).filter (·.kind.endsList)) := by
  have perm := Site.filter_nodes_perm (P := (· = .sentinel)) Site.ends_step ⟨program, last, 0⟩
  have inner : program.tokens.filter (·.kind.endsList) =
      program.tokens.filter (·.kind = .rightBrace) := by
    refine List.filter_congr fun t mem => ?_
    have notLast := program.kind_ne_endOfInput t mem
    cases kind : t.kind <;> first | rfl | exact absurd kind notLast
  have ending : [last].filter (·.kind.endsList) = [last] := by simp [lastKind, Kind.endsList]
  rw [nodes, List.filter_append, inner, ending]
  exact perm

/-- In an arena of numbered tokens the numbers are the places of the anchors. -/
theorem anchored_of_layout (root : tree.root = 0)
    (nodes : tree.nodes.toList = program.layout last 0)
    (numbered : Numbered (program.tokens ++ [last])) (lastKind : last.kind = .endOfInput) :
    Anchored tree.kind? ((program.tokens ++ [last]).map Token.kind) tree.numberAt tree.root := by
  constructor
  case construct =>
    intro id kind kindAt notCell
    obtain ⟨node, found, rfl⟩ := kind?_eq_some.mp kindAt
    obtain ⟨site, p, has, stands, own⟩ := exists_stands nodes found
    rw [← id_eq_of_layout nodes found]
    exact has.anchoredAt_own numbered stands own notCell
  case construct_once =>
    intro p k found isAnchor
    simpa using exists_unique_of_perm nodes numbered (P := (!·.isCell))
      (anchors_perm nodes lastKind) found isAnchor
  case sentinel =>
    intro id kindAt
    obtain ⟨node, found, isSentinel⟩ := kind?_eq_some.mp kindAt
    obtain ⟨site, p, has, stands, own⟩ := exists_stands nodes found
    rw [← id_eq_of_layout nodes found]
    refine ⟨_, has.kindAt_own numbered stands own, ?_⟩
    have mem : node ∈ tree.nodes.toList.filter (·.kind = .sentinel) := by
      rw [nodes]
      exact List.mem_filter.mpr ⟨mem_layout_of_node? nodes found, decide_eq_true isSentinel⟩
    exact (List.mem_filter.mp ((ends_perm nodes lastKind).subset (List.mem_map_of_mem mem))).2
  case sentinel_once =>
    intro p k found endsList
    simpa using exists_unique_of_perm nodes numbered (P := (· = .sentinel))
      (ends_perm nodes lastKind) found endsList
  case program_end =>
    obtain ⟨sentinel, ends, place⟩ := HasSite.endsIn numbered program last 0
      (hasSite_of_layout nodes) 0 (Site.stands_program program last)
    rw [root]
    refine ⟨sentinel, ends, ?_⟩
    rw [place]
    simp [lastKind]
  case function_end =>
    intro id body kindAt
    obtain ⟨node, found, isFunction⟩ := kind?_eq_some.mp kindAt
    obtain ⟨⟨form, follow, n⟩, p, has, stands, own⟩ := exists_stands nodes found
    rw [← id_eq_of_layout nodes found]
    cases form with
    | function opening list closing =>
      cases own
      cases isFunction
      exact has.closes numbered stands
    | plain | operand | noArguments => cases own
    | _ =>
      cases own
      cases isFunction
  case statement_start =>
    intro id statement next kindAt filled
    obtain ⟨node, found, isCell⟩ := kind?_eq_some.mp kindAt
    obtain ⟨⟨form, follow, n⟩, p, has, stands, own⟩ := exists_stands nodes found
    rw [← id_eq_of_layout nodes found, has.numberAt_own numbered stands own]
    cases form with
    | noStatements =>
      cases own
      exact absurd isCell.symm filled
    | statements first rest =>
      obtain _ | ⟨standsFirst, -⟩ := Site.stands_parts stands
      cases own
      cases isCell
      exact ⟨_, rfl, (has.both rfl).1.startsAt numbered standsFirst
        (SyntaxTree.slot_eq_some (by decide) first _) nofun nofun⟩
    | plain | operand | noArguments => cases own
    | _ =>
      cases own
      cases isCell
  case argument_start =>
    intro id argument next kindAt
    obtain ⟨node, found, isCell⟩ := kind?_eq_some.mp kindAt
    obtain ⟨⟨form, follow, n⟩, p, has, stands, own⟩ := exists_stands nodes found
    rw [← id_eq_of_layout nodes found, has.numberAt_own numbered stands own]
    cases form with
    | arguments first rest =>
      obtain _ | ⟨standsFirst, -⟩ := Site.stands_parts stands
      cases own
      cases isCell
      exact (has.both rfl).1.startsAt numbered standsFirst
        (SyntaxTree.slot_eq_some (by decide) first _) nofun nofun
    | plain | operand | noArguments => cases own
    | _ =>
      cases own
      cases isCell

end Program

end Tree

/-! ## Buffers -/

namespace TokenBuffer

/-- The buffer with its tokens numbered. -/
def numbered (buffer : TokenBuffer) : TokenBuffer where
  body := buffer.body.mapIdx fun i t => t.numbered i
  last := buffer.last.numbered buffer.body.length
  body_kind := by
    intro t mem
    obtain ⟨i, bound, rfl⟩ := List.mem_mapIdx.mp mem
    exact buffer.body_kind buffer.body[i] (List.getElem_mem bound)
  last_kind := buffer.last_kind

theorem tokens_numbered (buffer : TokenBuffer) :
    buffer.numbered.tokens = buffer.tokens.mapIdx fun i t => t.numbered i :=
  List.mapIdx_concat.symm

theorem numbered_tokens (buffer : TokenBuffer) : Numbered buffer.numbered.tokens := by
  intro i t found
  rw [tokens_numbered, List.getElem?_mapIdx] at found
  obtain ⟨_, -, rfl⟩ := Option.map_eq_some_iff.mp found
  rfl

theorem kinds_numbered (buffer : TokenBuffer) :
    buffer.numbered.tokens.map Token.kind = buffer.tokens.map Token.kind := by
  refine List.ext_getElem? fun i => ?_
  rw [tokens_numbered, List.getElem?_map, List.getElem?_map, List.getElem?_mapIdx, Option.map_map]
  rfl

/-- The anchors of a program have places in its buffer, which go by the kinds of the tokens alone:
in every buffer with these kinds the nodes are anchored at the tokens in those places. There is one
node that is no cell for every number, name, operator and opening bracket, and one sentinel for
every closing brace and for the end of the input; and all other cells are anchored where their
statement or argument starts. -/
theorem parse_anchored (buffer : TokenBuffer) (tree : Tree) (parsed : buffer.parse = .ok tree) :
    ∃ place : NodeId → Nat,
      Anchored tree.kind? (buffer.tokens.map Token.kind) place tree.root ∧
      ∀ (other : TokenBuffer) (tree' : Tree),
        other.tokens.map Token.kind = buffer.tokens.map Token.kind → other.parse = .ok tree' →
        ∀ (id : NodeId) (node : Node), tree'.node? id = some node →
          other.tokens[place id]? = some node.token := by
  have sameKinds := buffer.kinds_numbered
  obtain ⟨shown, parsedShown, roots, alike⟩ :=
    parse_related (AtOnePlace.kind_eq sameKinds.symm) (forall₂_atOnePlace sameKinds.symm) parsed
  obtain ⟨program, written, root, nodes⟩ := exists_layout parsedShown
  rw [SyntaxTree.root_statements] at root
  have tokens : program.tokens ++ [buffer.numbered.last] = buffer.numbered.tokens := by
    rw [written, TokenBuffer.tokens]
  refine ⟨shown.numberAt, ?_, ?_⟩
  · have kinds : tree.kind? = shown.kind? := by
      funext id
      rcases rel_cases (Tree.node?_rel alike id) with ⟨nothing, nothing'⟩ | ⟨_, _, eq, eq', same⟩
      · rw [Tree.kind?, Tree.kind?, nothing, nothing']
      · rw [Tree.kind?, Tree.kind?, eq, eq', Option.map_some, Option.map_some, same.kind]
    rw [kinds, ← roots, ← sameKinds, ← tokens]
    refine Tree.anchored_of_layout root nodes ?_ buffer.last_kind
    rw [tokens]
    exact buffer.numbered_tokens
  · intro other tree' same parsedOther id node found
    have sameToo := sameKinds.trans same.symm
    obtain ⟨_, parsedToo, -, alikeToo⟩ := parse_related (AtOnePlace.kind_eq sameToo)
      (forall₂_atOnePlace sameToo) parsedShown
    cases parsedOther.symm.trans parsedToo
    rcases rel_cases (Tree.node?_rel alikeToo id) with ⟨-, nothing⟩ | ⟨_, _, shows, eq, related⟩
    · cases found.symm.trans nothing
    · cases found.symm.trans eq
      obtain ⟨p, atShown, atOther⟩ := related.token
      rw [Tree.numberAt_of_node? shows, buffer.numbered_tokens p _ atShown]
      exact atOther

/-- The tokens of `let x = {1} (f x |> g)`. -/
def defineThenCall : TokenBuffer where
  body := [.ofLexeme .letKeyword ['l', 'e', 't'] ⟨0, 1, 1⟩,
    .ofLexeme .identifier ['x'] ⟨4, 1, 5⟩, .ofLexeme .assign ['='] ⟨6, 1, 7⟩,
    .ofLexeme .leftBrace ['{'] ⟨8, 1, 9⟩, .ofLexeme .number ['1'] ⟨9, 1, 10⟩,
    .ofLexeme .rightBrace ['}'] ⟨10, 1, 11⟩, .ofLexeme .leftParen ['('] ⟨12, 1, 13⟩,
    .ofLexeme .identifier ['f'] ⟨13, 1, 14⟩, .ofLexeme .identifier ['x'] ⟨15, 1, 16⟩,
    .ofLexeme .pipe ['|', '>'] ⟨17, 1, 18⟩, .ofLexeme .identifier ['g'] ⟨20, 1, 21⟩,
    .ofLexeme .rightParen [')'] ⟨21, 1, 22⟩]
  last := .endAt ⟨22, 1, 23⟩
  body_kind := by decide
  last_kind := rfl

theorem defineThenCall_anchored :
    ∃ tree, defineThenCall.parse = .ok tree ∧ ∃ place : NodeId → Nat,
      Anchored tree.kind? (defineThenCall.tokens.map Token.kind) place tree.root ∧
      ∀ (other : TokenBuffer) (tree' : Tree),
        other.tokens.map Token.kind = defineThenCall.tokens.map Token.kind →
        other.parse = .ok tree' → ∀ (id : NodeId) (node : Node), tree'.node? id = some node →
          other.tokens[place id]? = some node.token :=
  ⟨_, rfl, parse_anchored defineThenCall _ rfl⟩

end TokenBuffer

end PipeScript
