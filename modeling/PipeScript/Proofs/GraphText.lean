import PipeScript.Proofs.DrawnGraph
import PipeScript.Proofs.LabelQuoting
import PipeScript.Proofs.Meaning

/-!
# From a graph to its program

The text of a graph tells its lines (`GraphItem.eq_of_join`): a name ends where the digits do, and
a label where its quote is, as what a label escapes is told from the quote. The lines that leave
one node are what is drawn of that node, so two graphs with the same lines draw every node alike
(`Tree.DrawsAlike`). From the nodes that stand for a tree one comes along the edges to all of its
parts, and finds what its tokens stand for (`SyntaxTree.pictured`).
-/

namespace PipeScript

/-! ## From the text to its lines -/

theorem toList_nodeName (id : NodeId) :
    (nodeName id).toList = ['i', 'd', '_'] ++ digitText id := by
  rw [nodeName, String.toList_append]
  exact congrArg (['i', 'd', '_'] ++ ·) String.toList_ofList

/-- A name ends where the digits do. -/
theorem nodeName_append_inj {id other : NodeId} {rest behind : List Char}
    (apart : ∀ c ∈ rest.head?, c.isDigit = false) (apartToo : ∀ c ∈ behind.head?, c.isDigit = false)
    (same : (nodeName id).toList ++ rest = (nodeName other).toList ++ behind) :
    id = other ∧ rest = behind := by
  have digits (n : Nat) : (digitText n).all Char.isDigit :=
    List.all_eq_true.mpr fun _ mem => Nat.isDigit_of_mem_toDigits (by decide) (by decide) mem
  rw [toList_nodeName, toList_nodeName, List.append_assoc, List.append_assoc] at same
  obtain ⟨texts, ends⟩ := append_inj_of_head (digits id) (digits other) apart apartToo
    (List.append_cancel_left same)
  exact ⟨digitText_injective texts, ends⟩

/-- The text of a label ends at the first quote that is not escaped. -/
theorem flatMap_labelEscape_append_inj {label other rest behind : List Char}
    (same : label.flatMap labelEscape ++ '"' :: rest = other.flatMap labelEscape ++ '"' :: behind) :
    label = other ∧ rest = behind := by
  have read := readLabel_escaped label rest
  rw [same, readLabel_escaped] at read
  exact Prod.mk.inj (Option.some.inj read.symm)

namespace GraphItem

/-- What stands before a label, up to its opening quote. -/
def opening : List Char := [' ', '[', 'l', 'a', 'b', 'e', 'l', ' ', '=', ' ', '"']

/-- What stands behind the target of an edge. -/
def closing : Option String → List Char
  | none => ['\n']
  | some label => opening ++ (label.toList ++ ['"', ']', '\n'])

/-- What stands on a line behind the name of its source. -/
def tail : GraphItem → List Char
  | node _ label => opening ++ (label.toList.flatMap labelEscape ++ ['"', ']', '\n'])
  | edge _ target label => [' ', '-', '>', ' '] ++ ((nodeName target).toList ++ closing label)

theorem toList_text (item : GraphItem) :
    item.text.toList = '\t' :: ((nodeName item.source).toList ++ item.tail) := by
  rcases item with ⟨id, label⟩ | ⟨source, target, _ | label⟩
  · simp [text, tail, opening, labelText, GraphItem.source]
  · simp [text, tail, closing, GraphItem.source]
  · simp [text, tail, closing, opening, GraphItem.source]

/-- A line that escapes nothing it would have to. The label of an edge is not escaped. -/
def Plain : GraphItem → Prop
  | node _ _ => True
  | edge _ _ label => ∀ text ∈ label, '"' ∉ text.toList

theorem tail_not_digit (item : GraphItem) (rest : List Char) :
    ∀ c ∈ (item.tail ++ rest).head?, c.isDigit = false := by
  cases item <;> rintro c ⟨⟩ <;> rfl

theorem closing_not_digit (label : Option String) (rest : List Char) :
    ∀ c ∈ (closing label ++ rest).head?, c.isDigit = false := by
  cases label <;> rintro c ⟨⟩ <;> rfl

/-- A label without quotes ends at the next one. -/
theorem closing_append_inj {label other : Option String} {rest behind : List Char}
    (plain : ∀ text ∈ label, '"' ∉ text.toList) (plainToo : ∀ text ∈ other, '"' ∉ text.toList)
    (same : closing label ++ rest = closing other ++ behind) : label = other ∧ rest = behind := by
  have quoted (text : String) (plain : '"' ∉ text.toList) : text.toList.all (· ≠ '"') :=
    List.all_eq_true.mpr fun c mem => decide_eq_true fun quote => plain (quote ▸ mem)
  cases label with
  | none =>
    cases other with
    | none => exact ⟨rfl, (List.cons.inj same).2⟩
    | some other => exact absurd (List.cons.inj same).1 (by decide)
  | some label =>
    cases other with
    | none => exact absurd (List.cons.inj same).1 (by decide)
    | some other =>
      rw [closing, closing, List.append_assoc, List.append_assoc, List.append_assoc,
        List.append_assoc] at same
      obtain ⟨texts, ends⟩ := append_inj_of_head (quoted label (plain label rfl))
        (quoted other (plainToo other rfl)) (by simp) (by simp) (List.append_cancel_left same)
      cases String.toList_injective texts
      exact ⟨rfl, List.append_cancel_left ends⟩

theorem text_append_inj {item other : GraphItem} (plain : item.Plain) (plainToo : other.Plain)
    {rest behind : List Char} (same : item.text.toList ++ rest = other.text.toList ++ behind) :
    item = other ∧ rest = behind := by
  -- The signs that tell a declaration from an edge come second behind the name.
  have apart (label : List Char) (target : List Char) :
      opening ++ label ≠ [' ', '-', '>', ' '] ++ target := by
    intro same
    exact absurd (List.cons.inj (List.cons.inj same).2).1 (by decide)
  rw [toList_text, toList_text, List.cons_append, List.cons_append, List.append_assoc,
    List.append_assoc] at same
  obtain ⟨sources, tails⟩ := nodeName_append_inj (item.tail_not_digit rest)
    (other.tail_not_digit behind) (List.cons.inj same).2
  cases item with
  | node id label =>
    cases other with
    | node id' label' =>
      rw [tail, tail, List.append_assoc, List.append_assoc, List.append_assoc,
        List.append_assoc] at tails
      obtain ⟨labels, ends⟩ := flatMap_labelEscape_append_inj (List.append_cancel_left tails)
      cases sources
      cases String.toList_injective labels
      exact ⟨rfl, List.append_cancel_left ends⟩
    | edge =>
      rw [tail, tail, List.append_assoc, List.append_assoc] at tails
      exact absurd tails (apart _ _)
  | edge source target label =>
    cases other with
    | node =>
      rw [tail, tail, List.append_assoc, List.append_assoc] at tails
      exact absurd tails.symm (apart _ _)
    | edge source' target' label' =>
      rw [tail, tail, List.append_assoc, List.append_assoc, List.append_assoc,
        List.append_assoc] at tails
      obtain ⟨targets, closings⟩ := nodeName_append_inj (closing_not_digit label rest)
        (closing_not_digit label' behind) (List.append_cancel_left tails)
      obtain ⟨labels, ends⟩ := closing_append_inj plain plainToo closings
      cases sources
      cases targets
      cases labels
      exact ⟨rfl, ends⟩

/-- The text of a graph tells its lines. -/
theorem eq_of_join {items others : List GraphItem} (plain : ∀ item ∈ items, item.Plain)
    (plainToo : ∀ item ∈ others, item.Plain)
    (same : String.join (items.map text) = String.join (others.map text)) : items = others :=
  join_map_inj text (fun item => by simp [toList_text])
    (fun _ _ plain plainToo _ _ same => text_append_inj plain plainToo same) plain plainToo same

end GraphItem

/-- The labels of edges are a few words and a sign. -/
theorem Tree.plain_drawing (tree : Tree) (node : Node) :
    ∀ item ∈ tree.drawing node, item.Plain := by
  have labels : ∀ arrow ∈ tree.arrows node, ∀ text ∈ arrow.2, '"' ∉ text.toList := by
    unfold arrows
    cases node.kind with
    | constant | reference | argumentCell => exact nofun
    | binary => simp
    | function body =>
      refine List.forall_mem_map.mpr fun id _ => ?_
      rintro text ⟨⟩
      decide
    | call callee arguments =>
      refine List.forall_mem_cons.mpr ⟨?_, List.forall_mem_map.mpr fun id _ => ?_⟩ <;>
        rintro text ⟨⟩ <;> decide
    | definition =>
      refine List.forall_mem_singleton.mpr ?_
      rintro text ⟨⟩
      decide
    | statementCell =>
      refine List.forall_mem_append.mpr
        ⟨List.forall_mem_map.mpr fun id _ => ?_, List.forall_mem_map.mpr fun id _ => ?_⟩ <;>
        rintro text ⟨⟩ <;> decide
  unfold drawing
  split
  · exact List.forall_mem_cons.mpr ⟨trivial, List.forall_mem_map.mpr labels⟩
  · exact nofun

/-! ## The lines of one node -/

namespace Tree

/-- Wherever two trees have a node of one name, the same is drawn of both. -/
def DrawsAlike (tree other : Tree) : Prop :=
  ∀ node node', tree.node? node.id = some node → other.node? node'.id = some node' →
    node.id = node'.id → tree.drawing node = other.drawing node'

/-- What is drawn of a node shows its token, and where its edges lead to. -/
theorem DrawsAlike.shown {tree other : Tree} (alike : tree.DrawsAlike other) {node node' : Node}
    (found : tree.node? node.id = some node) (found' : other.node? node'.id = some node')
    (drawn : node.isDrawn) (drawn' : node'.isDrawn) (named : node.id = node'.id) :
    node.token.display = node'.token.display ∧ tree.arrows node = other.arrows node' := by
  have drawings := alike node node' found found' named
  rw [drawing, drawing, if_pos drawn, if_pos drawn', named] at drawings
  obtain ⟨declarations, edges⟩ := List.cons.inj drawings
  refine ⟨(GraphItem.node.inj declarations).2, ?_⟩
  refine List.map_injective_iff.mpr (fun a b eq => ?_) edges
  obtain ⟨-, target, label⟩ := GraphItem.edge.inj eq
  exact Prod.ext target label

theorem filter_drawing (tree : Tree) (node : Node) (id : NodeId) :
    (tree.drawing node).filter (fun item => item.source = id) =
      if node.id = id then tree.drawing node else [] := by
  split
  · rename_i named
    refine List.filter_eq_self.mpr fun item mem => decide_eq_true ?_
    rw [source_of_drawing mem, named]
  · rename_i other
    refine List.filter_eq_nil_iff.mpr fun item mem => ?_
    rw [source_of_drawing mem]
    simp [other]

/-- The lines that leave a node are what is drawn of it, in whatever order nodes are drawn. -/
theorem filter_drawings {tree : Tree} {order : List Node} {node : Node} (mem : node ∈ order)
    (distinct : order.Pairwise fun a b => a.id ≠ b.id) :
    (order.flatMap tree.drawing).filter (fun item => item.source = node.id) =
      tree.drawing node := by
  have elsewhere (others : List Node) (apart : ∀ a ∈ others, a.id ≠ node.id) :
      (others.flatMap tree.drawing).filter (fun item => item.source = node.id) = [] := by
    rw [List.filter_flatMap, List.flatMap_eq_nil_iff]
    intro a isOther
    rw [filter_drawing, if_neg (apart a isOther)]
  induction order with
  | nil => cases mem
  | cons a order ih =>
    obtain ⟨apart, others⟩ := List.pairwise_cons.mp distinct
    rw [List.flatMap_cons, List.filter_append, filter_drawing]
    rcases List.mem_cons.mp mem with rfl | behind
    · rw [if_pos rfl, elsewhere order fun b isOther => (apart b isOther).symm, List.append_nil]
    · rw [if_neg (apart node behind), ih behind others, List.nil_append]

/-- Graphs with the same lines draw every node alike. -/
theorem drawsAlike_of_lines {tree other : Tree} {program program' : SyntaxTree TokenOf .statements}
    {last last' : Token} {order order' : List Node}
    (nodes : tree.nodes.toList = program.layout last 0)
    (nodes' : other.nodes.toList = program'.layout last' 0)
    (perm : order.Perm tree.nodes.toList) (perm' : order'.Perm other.nodes.toList)
    (same : order.flatMap tree.drawing = order'.flatMap other.drawing) :
    tree.DrawsAlike other := by
  intro node node' found found' named
  have mem : node ∈ order :=
    perm.mem_iff.mpr (Array.mem_toList_iff.mpr (Array.mem_of_getElem? found))
  have mem' : node' ∈ order' :=
    perm'.mem_iff.mpr (Array.mem_toList_iff.mpr (Array.mem_of_getElem? found'))
  rw [← filter_drawings mem (pairwise_ids nodes perm), same, named,
    filter_drawings mem' (pairwise_ids nodes' perm')]

end Tree

/-! ## From the lines to the tree -/

namespace Site

open SyntaxTree (noStatements statements definition plain operand pipe number name function call
  noArguments arguments)

variable {tree other : Tree} {site site' : Site} {node node' : Node}

/-- A node that is drawn stands for its site. -/
theorem entries_of_drawn (own : site.own? = some node) (drawn : node.isDrawn) :
    site.entries = [node.id] := by
  obtain ⟨form, follow, n⟩ := site
  cases form with
  | noStatements | arguments =>
    cases own
    cases drawn
  | plain | operand | noArguments => cases own
  | _ =>
    cases own
    rfl

/-- Where sites are drawn alike by nodes of one name, the same stands for their parts. -/
theorem entries_parts (alike : tree.DrawsAlike other) (has : tree.HasSite site)
    (has' : other.HasSite site') (own : site.own? = some node) (own' : site'.own? = some node')
    (drawn : node.isDrawn) (drawn' : node'.isDrawn) (same : site.entries = site'.entries) :
    node.token.display = node'.token.display ∧
      site.parts.flatMap entries = site'.parts.flatMap entries := by
  -- What stands for a site and the targets of its node are its own name and what stands for the
  -- parts; the name and the targets are the same on both sides.
  have entries := entries_own has
  have entries' := entries_own has'
  rw [own, Option.toList_some, List.flatMap_singleton, List.flatMap_singleton,
    entries_of_drawn own drawn, Node.declared, if_pos drawn, Tree.targets, if_pos drawn] at entries
  rw [own', Option.toList_some, List.flatMap_singleton, List.flatMap_singleton,
    entries_of_drawn own' drawn', Node.declared, if_pos drawn', Tree.targets, if_pos drawn']
    at entries'
  rw [entries_of_drawn own drawn, entries_of_drawn own' drawn'] at same
  obtain ⟨display, arrows⟩ :=
    alike.shown (has.own own) (has'.own own') drawn drawn' (List.cons.inj same).1
  refine ⟨display, ?_⟩
  rw [arrows] at entries
  exact (List.append_cancel_left entries).symm.trans (List.append_cancel_left entries')

/-- Programs that are drawn alike start alike: with a first cell, or with nothing. -/
theorem entries_program (alike : tree.DrawsAlike other)
    {program program' : SyntaxTree TokenOf .statements} {last last' : Token} {n : NodeId}
    (has : tree.HasSite ⟨program, last, n⟩) (has' : other.HasSite ⟨program', last', n⟩) :
    entries ⟨program, last, n⟩ = entries ⟨program', last', n⟩ := by
  cases program with
  | noStatements =>
    cases program' with
    | noStatements => rfl
    | statements => cases alike _ _ (has.own rfl) (has'.own rfl) rfl
  | statements =>
    cases program' with
    | noStatements => cases alike _ _ (has.own rfl) (has'.own rfl) rfl
    | statements => rfl

end Site

namespace SyntaxTree

variable {tree : Tree} {part : Part}

/-- The node of an item is drawn, and what is drawn of it shows what it is: its token, and whether
an edge leads from it to an initializer. -/
theorem exists_item (form : SyntaxTree TokenOf part) (notList : part ≠ .statements)
    (notArguments : part ≠ .arguments) {follow : Token} {n : NodeId}
    (has : tree.HasSite ⟨form, follow, n⟩) :
    ∃ node construct, tree.node? node.id = some node ∧ node.id = form.root n ∧ node.isDrawn ∧
      node.token ∈ form.tokens ∧ form.construct = some construct ∧
      node.token.kind = construct.anchor ∧
      (some "=" ∈ (tree.arrows node).map Prod.snd ↔ construct = .definition) := by
  induction form generalizing follow n with
  | noStatements | statements | noArguments | arguments => contradiction
  | definition _ symbol =>
    exact ⟨_, .definition, has.own rfl, rfl, rfl, by simp, rfl, symbol.2, by simp [Tree.arrows]⟩
  | plain value ih => exact ih (by decide) (by decide) (has.only rfl)
  | operand value ih => exact ih (by decide) (by decide) (has.only rfl)
  | pipe _ operator =>
    exact ⟨_, .operator, has.own rfl, rfl, rfl, by simp, rfl, operator.2, by simp [Tree.arrows]⟩
  | number digits =>
    exact ⟨_, .number, has.own rfl, rfl, rfl, by simp, rfl, digits.2, by simp [Tree.arrows]⟩
  | name word =>
    exact ⟨_, .name, has.own rfl, rfl, rfl, by simp, rfl, word.2, by simp [Tree.arrows]⟩
  | function opening =>
    exact ⟨_, .function, has.own rfl, rfl, rfl, by simp, rfl, opening.2, by simp [Tree.arrows]⟩
  | call opening =>
    exact ⟨_, .call, has.own rfl, rfl, rfl, by simp, rfl, opening.2, by simp [Tree.arrows]⟩

section Pictured

variable {tree' : Tree}

/-- Items that one node stands for are the same construct. -/
theorem construct_eq_of_entries (alike : tree.DrawsAlike tree') (notList : part ≠ .statements)
    (notArguments : part ≠ .arguments) {form other : SyntaxTree TokenOf part}
    {follow follow' : Token} {n n' : NodeId} (has : tree.HasSite ⟨form, follow, n⟩)
    (has' : tree'.HasSite ⟨other, follow', n'⟩) (genuine : form.Genuine)
    (genuine' : other.Genuine)
    (same : Site.entries ⟨form, follow, n⟩ = Site.entries ⟨other, follow', n'⟩) :
    form.construct = other.construct := by
  obtain ⟨node, construct, found, named, drawn, isToken, eq, anchor, defines⟩ :=
    form.exists_item notList notArguments has
  obtain ⟨node', construct', found', named', drawn', isToken', eq', anchor', defines'⟩ :=
    other.exists_item notList notArguments has'
  rw [Site.entries_single notList notArguments, Site.entries_single notList notArguments, ← named,
    ← named'] at same
  obtain ⟨display, arrows⟩ := alike.shown found found' drawn drawn' (List.cons.inj same).1
  have agrees := ((genuine _ isToken).display_eq_iff (genuine' _ isToken')).mp display
  rw [eq, eq', Construct.eq_of_anchor (anchor.symm.trans (agrees.kind.trans anchor'))
    (defines.symm.trans (arrows ▸ defines'))]

/-- Where a tree is drawn alike by the same nodes as another one, their tokens stand for the
same. -/
def Pictured (tree tree' : Tree) {part : Part} (form : SyntaxTree TokenOf part) : Prop :=
  ∀ (other : SyntaxTree TokenOf part) (follow follow' : Token) (n n' : NodeId),
    tree.HasSite ⟨form, follow, n⟩ → tree'.HasSite ⟨other, follow', n'⟩ →
    form.Genuine → other.Genuine →
    Site.entries ⟨form, follow, n⟩ = Site.entries ⟨other, follow', n'⟩ → form.Agrees other

/-- What stands for a first part that is no list, and for a second part, is told apart. -/
theorem entries_both {first second : Part} (notList : first ≠ .statements)
    (notArguments : first ≠ .arguments) {form form' : SyntaxTree TokenOf first}
    {rest rest' : SyntaxTree TokenOf second} {follow follow' : Token} {n m n' m' : NodeId}
    (same : [Site.mk form follow n, ⟨rest, follow, m⟩].flatMap Site.entries =
      [Site.mk form' follow' n', ⟨rest', follow', m'⟩].flatMap Site.entries) :
    Site.entries ⟨form, follow, n⟩ = Site.entries ⟨form', follow', n'⟩ ∧
      Site.entries ⟨rest, follow, m⟩ = Site.entries ⟨rest', follow', m'⟩ := by
  simp only [List.flatMap_cons, List.flatMap_nil, List.append_nil] at same
  rw [Site.entries_single notList notArguments, Site.entries_single notList notArguments] at same ⊢
  obtain ⟨roots, others⟩ := List.cons.inj same
  exact ⟨by rw [roots], others⟩

theorem entries_only {part : Part} {form form' : SyntaxTree TokenOf part} {follow follow' : Token}
    {n n' : NodeId} (same : [Site.mk form follow n].flatMap Site.entries =
      [Site.mk form' follow' n'].flatMap Site.entries) :
    Site.entries ⟨form, follow, n⟩ = Site.entries ⟨form', follow', n'⟩ := by
  rwa [List.flatMap_singleton, List.flatMap_singleton] at same

theorem pictured_noStatements : (noStatements (α := TokenOf)).Pictured tree tree' := by
  intro other follow follow' n n' _ _ _ _ same
  cases other with
  | noStatements => exact .nil
  | statements => cases same

theorem pictured_noArguments : (noArguments (α := TokenOf)).Pictured tree tree' := by
  intro other follow follow' n n' _ _ _ _ same
  cases other with
  | noArguments => exact .nil
  | arguments => cases same

theorem pictured_arguments {first : SyntaxTree TokenOf .expression}
    {list : SyntaxTree TokenOf .arguments} (firstPictured : first.Pictured tree tree')
    (listPictured : list.Pictured tree tree') : (arguments first list).Pictured tree tree' := by
  intro other follow follow' n n' has has' genuine genuine' same
  cases other with
  | noArguments => cases same
  | arguments first' list' =>
    obtain ⟨hasFirst, hasList⟩ := has.both rfl
    obtain ⟨hasFirst', hasList'⟩ := has'.both rfl
    obtain ⟨roots, items⟩ := List.cons.inj same
    have firstSame : Site.entries ⟨first, follow, n⟩ = Site.entries ⟨first', follow', n'⟩ := by
      rw [Site.entries_single (by decide) (by decide), Site.entries_single (by decide) (by decide),
        roots]
    have listSame : Site.entries ⟨list, follow, n + first.size⟩ =
        Site.entries ⟨list', follow', n' + first'.size⟩ := by
      rw [Site.entries_arguments, Site.entries_arguments]
      exact items
    obtain ⟨isFirst, isList⟩ := genuine_arguments.mp genuine
    obtain ⟨isFirst', isList'⟩ := genuine_arguments.mp genuine'
    have firstAgrees := firstPictured _ _ _ _ _ hasFirst hasFirst' isFirst isFirst' firstSame
    exact firstAgrees.arguments (listPictured _ _ _ _ _ hasList hasList' isList isList' listSame)

variable (alike : tree.DrawsAlike tree')

include alike

theorem pictured_statements {first : SyntaxTree TokenOf .statement}
    {list : SyntaxTree TokenOf .statements} (firstPictured : first.Pictured tree tree')
    (listPictured : list.Pictured tree tree') : (statements first list).Pictured tree tree' := by
  intro other follow follow' n n' has has' genuine genuine' same
  cases other with
  | noStatements => cases same
  | statements first' list' =>
    obtain ⟨hasFirst, hasList⟩ := has.both rfl
    obtain ⟨hasFirst', hasList'⟩ := has'.both rfl
    obtain ⟨-, parts⟩ := Site.entries_parts alike has has' rfl rfl rfl rfl same
    obtain ⟨firstSame, listSame⟩ := entries_both (by decide) (by decide) parts
    obtain ⟨isFirst, isList⟩ := genuine_statements.mp genuine
    obtain ⟨isFirst', isList'⟩ := genuine_statements.mp genuine'
    have firstAgrees := firstPictured _ _ _ _ _ hasFirst hasFirst' isFirst isFirst' firstSame
    exact firstAgrees.statements (listPictured _ _ _ _ _ hasList hasList' isList isList' listSame)

theorem pictured_definition {keyword : TokenOf .letKeyword} {symbol : TokenOf .identifier}
    {sign : TokenOf .assign} {initializer : SyntaxTree TokenOf .expression}
    (pictured : initializer.Pictured tree tree') :
    (definition keyword symbol sign initializer).Pictured tree tree' := by
  intro other follow follow' n n' has has' genuine genuine' same
  cases other with
  | definition keyword' symbol' sign' initializer' =>
    obtain ⟨display, parts⟩ := Site.entries_parts alike has has' rfl rfl rfl rfl same
    obtain ⟨-, isSymbol, -, below⟩ := genuine_definition.mp genuine
    obtain ⟨-, isSymbol', -, below'⟩ := genuine_definition.mp genuine'
    have agrees :=
      pictured _ _ _ _ _ (has.only rfl) (has'.only rfl) below below' (entries_only parts)
    exact .definition genuine genuine' ((isSymbol.display_eq_iff isSymbol').mp display) agrees
  | plain value' =>
    have constructs :=
      construct_eq_of_entries alike (by decide) (by decide) has has' genuine genuine' same
    exact absurd constructs.symm value'.construct_expression_ne

theorem pictured_plain {value : SyntaxTree TokenOf .expression}
    (pictured : value.Pictured tree tree') : (plain value).Pictured tree tree' := by
  intro other follow follow' n n' has has' genuine genuine' same
  cases other with
  | definition =>
    have constructs :=
      construct_eq_of_entries alike (by decide) (by decide) has has' genuine genuine' same
    exact absurd constructs value.construct_expression_ne
  | plain value' =>
    refine pictured _ _ _ _ _ (has.only rfl) (has'.only rfl) genuine genuine' ?_
    rw [Site.entries_single (by decide) (by decide), Site.entries_single (by decide) (by decide)]
      at same ⊢
    exact same

theorem pictured_operand {value : SyntaxTree TokenOf .operand}
    (pictured : value.Pictured tree tree') : (operand value).Pictured tree tree' := by
  intro other follow follow' n n' has has' genuine genuine' same
  cases other with
  | operand value' =>
    refine pictured _ _ _ _ _ (has.only rfl) (has'.only rfl) genuine genuine' ?_
    rw [Site.entries_single (by decide) (by decide), Site.entries_single (by decide) (by decide)]
      at same ⊢
    exact same
  | pipe =>
    have constructs :=
      construct_eq_of_entries alike (by decide) (by decide) has has' genuine genuine' same
    exact absurd constructs value.construct_operand_ne

theorem pictured_pipe {left : SyntaxTree TokenOf .expression} {operator : TokenOf .pipe}
    {right : SyntaxTree TokenOf .operand} (leftPictured : left.Pictured tree tree')
    (rightPictured : right.Pictured tree tree') :
    (pipe left operator right).Pictured tree tree' := by
  intro other follow follow' n n' has has' genuine genuine' same
  cases other with
  | operand value' =>
    have constructs :=
      construct_eq_of_entries alike (by decide) (by decide) has has' genuine genuine' same
    exact absurd constructs.symm value'.construct_operand_ne
  | pipe left' operator' right' =>
    obtain ⟨hasLeft, hasRight⟩ := has.both rfl
    obtain ⟨hasLeft', hasRight'⟩ := has'.both rfl
    obtain ⟨-, parts⟩ := Site.entries_parts alike has has' rfl rfl rfl rfl same
    obtain ⟨leftSame, rightSame⟩ := entries_both (by decide) (by decide) parts
    obtain ⟨isLeft, -, isRight⟩ := genuine_pipe.mp genuine
    obtain ⟨isLeft', -, isRight'⟩ := genuine_pipe.mp genuine'
    exact .pipe genuine genuine' (leftPictured _ _ _ _ _ hasLeft hasLeft' isLeft isLeft' leftSame)
      (rightPictured _ _ _ _ _ hasRight hasRight' isRight isRight' rightSame)

theorem pictured_number (digits : TokenOf .number) : (number digits).Pictured tree tree' := by
  intro other follow follow' n n' has has' genuine genuine' same
  have constructs :=
    construct_eq_of_entries alike (by decide) (by decide) has has' genuine genuine' same
  cases other with
  | number digits' =>
    obtain ⟨display, -⟩ := Site.entries_parts alike has has' rfl rfl rfl rfl same
    have isNumber := genuine digits.1 List.mem_cons_self
    have isNumber' := genuine' digits'.1 List.mem_cons_self
    exact .cons ((isNumber.display_eq_iff isNumber').mp display) .nil
  | _ => cases constructs

theorem pictured_name (word : TokenOf .identifier) : (name word).Pictured tree tree' := by
  intro other follow follow' n n' has has' genuine genuine' same
  have constructs :=
    construct_eq_of_entries alike (by decide) (by decide) has has' genuine genuine' same
  cases other with
  | name word' =>
    obtain ⟨display, -⟩ := Site.entries_parts alike has has' rfl rfl rfl rfl same
    have isWord := genuine word.1 List.mem_cons_self
    have isWord' := genuine' word'.1 List.mem_cons_self
    exact .cons ((isWord.display_eq_iff isWord').mp display) .nil
  | _ => cases constructs

theorem pictured_function {opening : TokenOf .leftBrace} {body : SyntaxTree TokenOf .statements}
    {closing : TokenOf .rightBrace} (pictured : body.Pictured tree tree') :
    (function opening body closing).Pictured tree tree' := by
  intro other follow follow' n n' has has' genuine genuine' same
  have constructs :=
    construct_eq_of_entries alike (by decide) (by decide) has has' genuine genuine' same
  cases other with
  | function opening' body' closing' =>
    obtain ⟨-, parts⟩ := Site.entries_parts alike has has' rfl rfl rfl rfl same
    have isBody := (genuine_function.mp genuine).2.1
    have isBody' := (genuine_function.mp genuine').2.1
    exact .function genuine genuine'
      (pictured _ _ _ _ _ (has.only rfl) (has'.only rfl) isBody isBody' (entries_only parts))
  | _ => cases constructs

theorem pictured_call {opening : TokenOf .leftParen} {callee : SyntaxTree TokenOf .expression}
    {others : SyntaxTree TokenOf .arguments} {closing : TokenOf .rightParen}
    (calleePictured : callee.Pictured tree tree') (othersPictured : others.Pictured tree tree') :
    (call opening callee others closing).Pictured tree tree' := by
  intro other follow follow' n n' has has' genuine genuine' same
  have constructs :=
    construct_eq_of_entries alike (by decide) (by decide) has has' genuine genuine' same
  cases other with
  | call opening' callee' others' closing' =>
    obtain ⟨hasCallee, hasOthers⟩ := has.both rfl
    obtain ⟨hasCallee', hasOthers'⟩ := has'.both rfl
    obtain ⟨-, parts⟩ := Site.entries_parts alike has has' rfl rfl rfl rfl same
    obtain ⟨calleeSame, othersSame⟩ := entries_both (by decide) (by decide) parts
    obtain ⟨-, isCallee, isOthers, -⟩ := genuine_call.mp genuine
    obtain ⟨-, isCallee', isOthers', -⟩ := genuine_call.mp genuine'
    exact .call genuine genuine'
      (calleePictured _ _ _ _ _ hasCallee hasCallee' isCallee isCallee' calleeSame)
      (othersPictured _ _ _ _ _ hasOthers hasOthers' isOthers isOthers' othersSame)
  | _ => cases constructs

/-- What is drawn of a tree tells what its tokens stand for. -/
theorem pictured {part : Part} (form : SyntaxTree TokenOf part) : form.Pictured tree tree' := by
  induction form with
  | noStatements => exact pictured_noStatements
  | statements _ _ first rest => exact pictured_statements alike first rest
  | definition _ _ _ _ initializer => exact pictured_definition alike initializer
  | plain _ value => exact pictured_plain alike value
  | operand _ value => exact pictured_operand alike value
  | pipe _ _ _ left right => exact pictured_pipe alike left right
  | number digits => exact pictured_number alike digits
  | name word => exact pictured_name alike word
  | function _ _ _ body => exact pictured_function alike body
  | call _ _ _ _ callee others => exact pictured_call alike callee others
  | noArguments => exact pictured_noArguments
  | arguments _ _ first rest => exact pictured_arguments first rest

end Pictured

end SyntaxTree

end PipeScript
