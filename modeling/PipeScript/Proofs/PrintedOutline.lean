import PipeScript.Proofs.Drawing
import PipeScript.Proofs.Meaning
import PipeScript.Render.Outline

/-!
# The outline of a program

`SyntaxTree.lines` lists the lines of a tree from top to bottom, for a tree that stands at a given
depth. The renderer prints them wherever such a tree was laid out (`SyntaxTree.printed`), in
whatever state it is, and it never fails there (`Outline.render_layout`).

The text of an outline tells its lines (`OutlineLine.eq_of_join`). And the lines of a tree end
where a line stands that is not deeper than the tree, so the lines of one tree are never a part of
those of another one: they tell what all tokens of the tree stand for (`SyntaxTree.told`).
-/

namespace PipeScript

/-! ## The lines of a tree -/

namespace SyntaxTree

/-- The lines of a tree, from top to bottom. Brackets and keywords have none of their own. -/
def lines : {part : Part} → SyntaxTree TokenOf part → (depth : Nat) → List OutlineLine
  | _, noStatements, _ => []
  | _, statements first rest, depth => first.lines depth ++ rest.lines depth
  | _, definition _ symbol _ initializer, depth =>
    ⟨depth, "let " ++ symbol.1.lexeme⟩ :: initializer.lines (depth + 1)
  | _, plain value, depth => value.lines depth
  | _, operand value, depth => value.lines depth
  | _, pipe left operator right, depth =>
    ⟨depth, operator.1.lexeme⟩ :: (left.lines (depth + 1) ++ right.lines (depth + 1))
  | _, number digits, depth => [⟨depth, "num " ++ (digits.1.number?.getD .zero).text⟩]
  | _, name word, depth => [⟨depth, "ref " ++ word.1.lexeme⟩]
  | _, function _ body _, depth => ⟨depth, "fn"⟩ :: body.lines (depth + 1)
  | _, call _ callee others _, depth =>
    ⟨depth, "call"⟩ :: (callee.lines (depth + 1) ++ others.lines (depth + 1))
  | _, noArguments, _ => []
  | _, arguments first rest, depth => first.lines depth ++ rest.lines depth

end SyntaxTree

/-! ## Visits that print -/

/-- A visit goes well and prints some lines, which depend on the level it starts on. -/
def Visit.Prints (visit : Visit Outline) (lines : Nat → List OutlineLine) : Prop :=
  ∀ printer : Outline,
    visit printer = .ok { printer with lines := printer.lines ++ (lines printer.depth).toArray }

namespace Visit.Prints

variable {visit second : Visit Outline} {lines others : Nat → List OutlineLine}

theorem nothing : Visit.Prints .ok fun _ => [] := by
  intro printer
  simp

theorem line (label : String) :
    Visit.Prints (fun printer => .ok (printer.line label)) fun depth => [⟨depth, label⟩] := by
  intro printer
  simp [Outline.line]

theorem andThen (prints : Visit.Prints visit lines) (printsToo : Visit.Prints second others) :
    Visit.Prints (visit >=> second) fun depth => lines depth ++ others depth := by
  intro printer
  change visit printer >>= second = _
  rw [prints]
  refine (printsToo _).trans ?_
  simp [Array.append_assoc]

theorem single {visit : Option NodeId → Visit Outline} {slot : Option NodeId}
    (prints : Visit.Prints (visit slot) lines) : Visit.Prints (visitAll visit [slot]) lines := by
  intro printer
  rw [visitAll_cons]
  exact (bind_pure (visit slot printer)).trans (prints printer)

theorem cons {visit : Option NodeId → Visit Outline} {slot : Option NodeId}
    {slots : List (Option NodeId)} (prints : Visit.Prints (visit slot) lines)
    (printsToo : Visit.Prints (visitAll visit slots) others) :
    Visit.Prints (visitAll visit (slot :: slots)) fun depth => lines depth ++ others depth := by
  rw [visitAll_cons]
  exact prints.andThen printsToo

/-- What is visited one level deeper stands below the line before it. -/
theorem nested {visit : Option NodeId → Visit Outline} {slots : List (Option NodeId)}
    (prints : Visit.Prints (visitAll visit slots) lines) (label : String) :
    Visit.Prints (fun printer => Outline.nested visit slots (printer.line label))
      fun depth => ⟨depth, label⟩ :: lines (depth + 1) := by
  intro printer
  simp only [Outline.nested, Outline.line]
  rw [prints]
  simp [bind, Except.bind, pure, Except.pure]

end Visit.Prints

/-! ## Printing along a layout -/

namespace Outline

variable {tree : Tree}

/-- At a node that is there, the renderer does what it does for a node of its kind. -/
theorem walkTo_visitor {n : NodeId} {node : Node} (found : tree.node? n = some node)
    (depth : Nat) : tree.walkTo (visitor tree) (depth + 1) (some n) =
      (visitor tree (tree.walkTo (visitor tree) depth)).onKind node := by
  rw [Tree.walkTo, Tree.dispatch, Tree.get?, Option.bind_some, found]
  rfl

end Outline

namespace SyntaxTree

open Outline (visitor walkTo_visitor)

/-- What the renderer does where a tree was laid out, with depth enough: it prints the lines of the
tree. The items of a list are visited one by one. -/
def Printed (tree : Tree) : {part : Part} → SyntaxTree TokenOf part → Prop
  | .statements, list => ∀ follow n depth, tree.HasSite ⟨list, follow, n⟩ → list.size ≤ depth →
    Visit.Prints (visitAll (tree.walkTo (visitor tree) depth) ((list.itemIds n).map some))
      list.lines
  | .arguments, list => ∀ follow n depth, tree.HasSite ⟨list, follow, n⟩ → list.size ≤ depth →
    Visit.Prints (visitAll (tree.walkTo (visitor tree) (depth + 1)) ((list.itemIds n).map some))
      list.lines
  | _, form => ∀ follow n depth, tree.HasSite ⟨form, follow, n⟩ → form.size ≤ depth →
    Visit.Prints (tree.walkTo (visitor tree) (depth + 1) (some (form.root n))) form.lines

variable {tree : Tree}

/-- A visit of a list prints all its statements. -/
theorem prints_list {list : SyntaxTree TokenOf .statements} (printed : list.Printed tree)
    {follow : Token} {n depth : Nat} (has : tree.HasSite ⟨list, follow, n⟩)
    (deep : list.size ≤ depth) :
    Visit.Prints (tree.walkTo (visitor tree) (depth + 1) (some n)) list.lines := by
  obtain ⟨cell, statement, next, own, named, kind⟩ := list.exists_own_statements follow n
  have found := has.own own
  rw [named] at found
  have chain := tree.statements_of_layout list follow n has
  have visits : (visitor tree (tree.walkTo (visitor tree) depth)).onKind cell =
      visitAll (tree.walkTo (visitor tree) depth) ((list.itemIds n).map some) := by
    funext printer
    simp only [Visitor.onKind, visitor, kind, named, chain]
    rfl
  rw [walkTo_visitor found, visits]
  exact printed follow n depth has deep

theorem printed_noStatements : (noStatements (α := TokenOf)).Printed tree :=
  fun _ _ _ _ _ => Visit.Prints.nothing

theorem printed_statements {first : SyntaxTree TokenOf .statement}
    {rest : SyntaxTree TokenOf .statements} (firstPrinted : first.Printed tree)
    (restPrinted : rest.Printed tree) : (statements first rest).Printed tree := by
  intro follow n depth has deep
  obtain ⟨hasFirst, hasRest⟩ := has.both rfl
  obtain ⟨spare, rfl⟩ := Nat.exists_eq_add_of_lt deep
  have firstPrints :=
    firstPrinted follow (n + 1) (first.size + rest.size + spare) hasFirst (by omega)
  have restPrints :=
    restPrinted follow _ (first.size + rest.size + spare + 1) hasRest (by omega)
  exact firstPrints.cons restPrints

theorem printed_definition {keyword : TokenOf .letKeyword} {symbol : TokenOf .identifier}
    {sign : TokenOf .assign} {initializer : SyntaxTree TokenOf .expression}
    (printed : initializer.Printed tree) :
    (definition keyword symbol sign initializer).Printed tree := by
  intro follow n depth has deep
  obtain ⟨spare, rfl⟩ := Nat.exists_eq_add_of_lt deep
  have below := printed follow n (initializer.size + spare) (has.only rfl) (by omega)
  rw [root, walkTo_visitor (has.own rfl)]
  exact below.single.nested _

theorem printed_plain {value : SyntaxTree TokenOf .expression} (printed : value.Printed tree) :
    (plain value).Printed tree :=
  fun follow n depth has deep => printed follow n depth (has.only rfl) deep

theorem printed_operand {value : SyntaxTree TokenOf .operand} (printed : value.Printed tree) :
    (operand value).Printed tree :=
  fun follow n depth has deep => printed follow n depth (has.only rfl) deep

theorem printed_number (digits : TokenOf .number) : (number digits).Printed tree := by
  intro follow n depth has _
  rw [root, walkTo_visitor (has.own rfl)]
  exact Visit.Prints.line _

theorem printed_name (word : TokenOf .identifier) : (name word).Printed tree := by
  intro follow n depth has _
  rw [root, walkTo_visitor (has.own rfl)]
  exact Visit.Prints.line _

theorem printed_pipe {left : SyntaxTree TokenOf .expression} {operator : TokenOf .pipe}
    {right : SyntaxTree TokenOf .operand} (leftPrinted : left.Printed tree)
    (rightPrinted : right.Printed tree) : (pipe left operator right).Printed tree := by
  intro follow n depth has deep
  obtain ⟨spare, rfl⟩ := Nat.exists_eq_add_of_lt deep
  obtain ⟨hasLeft, hasRight⟩ := has.both rfl
  have leftPrints := leftPrinted follow n (left.size + right.size + spare) hasLeft (by omega)
  have rightPrints := rightPrinted follow _ (left.size + right.size + spare) hasRight (by omega)
  rw [root, walkTo_visitor (has.own rfl)]
  exact (leftPrints.cons rightPrints.single).nested _

theorem printed_function {opening : TokenOf .leftBrace} {body : SyntaxTree TokenOf .statements}
    {closing : TokenOf .rightBrace} (printed : body.Printed tree) :
    (function opening body closing).Printed tree := by
  intro follow n depth has deep
  obtain ⟨spare, rfl⟩ := Nat.exists_eq_add_of_lt deep
  have below : Visit.Prints
      (tree.walkTo (visitor tree) (body.size + spare + 1) (some (body.root n))) body.lines := by
    rw [root_statements]
    exact prints_list printed (has.only rfl) (by omega)
  rw [root, walkTo_visitor (has.own rfl)]
  exact below.single.nested _

theorem printed_noArguments : (noArguments (α := TokenOf)).Printed tree :=
  fun _ _ _ _ _ => Visit.Prints.nothing

theorem printed_arguments {first : SyntaxTree TokenOf .expression}
    {rest : SyntaxTree TokenOf .arguments} (firstPrinted : first.Printed tree)
    (restPrinted : rest.Printed tree) : (arguments first rest).Printed tree := by
  intro follow n depth has deep
  obtain ⟨hasFirst, hasRest⟩ := has.both rfl
  rw [size] at deep
  have firstPrints := firstPrinted follow n depth hasFirst (by omega)
  have restPrints := restPrinted follow _ depth hasRest (by omega)
  exact firstPrints.cons restPrints

theorem printed_call {opening : TokenOf .leftParen} {callee : SyntaxTree TokenOf .expression}
    {others : SyntaxTree TokenOf .arguments} {closing : TokenOf .rightParen}
    (calleePrinted : callee.Printed tree) (othersPrinted : others.Printed tree) :
    (call opening callee others closing).Printed tree := by
  intro follow n depth has deep
  obtain ⟨spare, rfl⟩ := Nat.exists_eq_add_of_lt deep
  obtain ⟨hasCallee, hasOthers⟩ := has.both rfl
  have chain := tree.arguments_of_layout others follow _ hasOthers
  have calleePrints :=
    calleePrinted follow n (callee.size + others.size + spare) hasCallee (by omega)
  have othersPrint :=
    othersPrinted follow _ (callee.size + others.size + spare) hasOthers (by omega)
  rw [root, walkTo_visitor (has.own rfl)]
  intro printer
  simp only [Visitor.onKind, visitor, chain]
  exact (calleePrints.cons othersPrint).nested "call" printer

/-- The renderer prints every tree where it was laid out. -/
theorem printed {part : Part} (form : SyntaxTree TokenOf part) : form.Printed tree := by
  induction form with
  | noStatements => exact printed_noStatements
  | statements _ _ first rest => exact printed_statements first rest
  | definition _ _ _ _ initializer => exact printed_definition initializer
  | plain _ value => exact printed_plain value
  | operand _ value => exact printed_operand value
  | pipe _ _ _ left right => exact printed_pipe left right
  | number digits => exact printed_number digits
  | name word => exact printed_name word
  | function _ _ _ body => exact printed_function body
  | call _ _ _ _ callee others => exact printed_call callee others
  | noArguments => exact printed_noArguments
  | arguments _ _ first rest => exact printed_arguments first rest

end SyntaxTree

/-! ## Outlines as text -/

namespace Outline

/-- The outline of a tree that was laid out has the lines of the syntax tree, whatever was printed
before. -/
theorem render_layout {tree : Tree} {program : SyntaxTree TokenOf .statements} {last : Token}
    (root : tree.root = program.root 0) (nodes : tree.nodes.toList = program.layout last 0)
    (printer : Outline) :
    printer.render tree =
      .ok (String.join ((program.lines 0).map OutlineLine.text), empty) := by
  have has := Tree.hasSite_of_layout nodes
  have deep := Nat.le_of_eq (Tree.size_of_layout nodes)
  have prints := SyntaxTree.prints_list program.printed has deep
  rw [SyntaxTree.root_statements] at root
  rw [render, Tree.walk, root]
  change (tree.walkTo (visitor tree) (tree.size + 1) (some 0) empty >>= _) = _
  rw [prints]
  have text : (Outline.mk (#[] ++ (program.lines 0).toArray) 0).text =
      String.join ((program.lines 0).map OutlineLine.text) := by
    rw [Outline.text, ← Array.foldl_toList, foldl_text, String.empty_append, Array.toList_append]
    rfl
  exact congrArg (fun shown => Except.ok (shown, empty)) text

end Outline

/-! ## From the text to its lines -/

/-- A label that can be told from the spaces before it and from the line behind it. -/
structure PlainLabel (label : String) : Prop where
  unbroken : '\n' ∉ label.toList
  flush : label.toList.head? ≠ some ' '

/-- Behind a word of a label anything may follow that has no line feed. -/
theorem PlainLabel.append {label rest : String} (plain : PlainLabel label) (nonempty : label ≠ "")
    (unbroken : '\n' ∉ rest.toList) : PlainLabel (label ++ rest) := by
  constructor
  · rw [String.toList_append, List.mem_append]
    exact not_or_intro plain.unbroken unbroken
  · have starts : label.toList ≠ [] :=
      fun nothing => nonempty (String.toList_eq_nil_iff.mp nothing)
    rw [String.toList_append, List.head?_append_of_ne_nil _ starts]
    exact plain.flush

namespace OutlineLine

variable {line other : OutlineLine}

theorem toList_text (line : OutlineLine) :
    line.text.toList = List.replicate (2 * line.depth) ' ' ++ line.label.toList ++ ['\n'] := by
  simp [text]

theorem text_append_inj (plain : PlainLabel line.label) (plainToo : PlainLabel other.label)
    {rest behind : List Char} (same : line.text.toList ++ rest = other.text.toList ++ behind) :
    line = other ∧ rest = behind := by
  have unbroken (line : OutlineLine) (plain : PlainLabel line.label) :
      (List.replicate (2 * line.depth) ' ' ++ line.label.toList).all (· ≠ '\n') := by
    refine List.all_eq_true.mpr fun c mem => decide_eq_true ?_
    rintro rfl
    rcases List.mem_append.mp mem with indent | label
    · exact absurd (List.eq_of_mem_replicate indent) (by decide)
    · exact plain.unbroken label
  have flush (label : String) (plain : PlainLabel label) :
      ∀ c ∈ label.toList.head?, decide (c = ' ') = false := by
    intro c mem
    refine decide_eq_false ?_
    rintro rfl
    exact plain.flush mem
  have spaces (n : Nat) : (List.replicate n ' ').all (· = ' ') := by simp
  rw [toList_text, toList_text, List.append_assoc _ ['\n'], List.append_assoc _ ['\n']] at same
  obtain ⟨lines, ends⟩ := append_inj_of_head (unbroken line plain) (unbroken other plainToo)
    (by simp) (by simp) same
  obtain ⟨levels, labels⟩ := append_inj_of_head (spaces _) (spaces _)
    (flush line.label plain) (flush other.label plainToo) lines
  have depth : 2 * line.depth = 2 * other.depth := by
    rw [← List.length_replicate (n := 2 * line.depth) (a := ' '), levels, List.length_replicate]
  obtain ⟨lineDepth, label⟩ := line
  obtain ⟨otherDepth, otherLabel⟩ := other
  cases Nat.eq_of_mul_eq_mul_left (by decide) depth
  cases String.toList_injective labels
  exact ⟨rfl, List.append_cancel_left ends⟩

/-- The text of an outline tells its lines. -/
theorem eq_of_join {lines others : List OutlineLine} (plain : ∀ line ∈ lines, PlainLabel line.label)
    (plainToo : ∀ line ∈ others, PlainLabel line.label)
    (same : String.join (lines.map text) = String.join (others.map text)) : lines = others :=
  join_map_inj text (fun line => by simp [toList_text])
    (fun _ _ plain plainToo _ _ same => text_append_inj plain plainToo same) plain plainToo same

end OutlineLine

/-- Every line of a tree has a plain label. -/
theorem SyntaxTree.plain_lines {part : Part} (form : SyntaxTree TokenOf part) (depth : Nat)
    (genuine : form.Genuine) :
    ∀ line ∈ form.lines depth, PlainLabel line.label := by
  induction form generalizing depth with
  | noStatements | noArguments => exact nofun
  | statements first rest firstIh restIh =>
    obtain ⟨isFirst, isRest⟩ := genuine_statements.mp genuine
    exact List.forall_mem_append.mpr ⟨firstIh depth isFirst, restIh depth isRest⟩
  | definition _ symbol _ initializer ih =>
    obtain ⟨-, isSymbol, -, below⟩ := genuine_definition.mp genuine
    have word : PlainLabel "let " := ⟨by decide, by decide⟩
    exact List.forall_mem_cons.mpr ⟨word.append (by decide) isSymbol.unbroken, ih _ below⟩
  | plain value ih => exact ih depth genuine
  | operand value ih => exact ih depth genuine
  | pipe left operator right leftIh rightIh =>
    obtain ⟨isLeft, isOperator, isRight⟩ := genuine_pipe.mp genuine
    have sign : PlainLabel operator.1.lexeme := by
      refine ⟨isOperator.unbroken, ?_⟩
      rw [isOperator.toList_lexeme (by decide)]
      decide
    exact List.forall_mem_cons.mpr
      ⟨sign, List.forall_mem_append.mpr ⟨leftIh _ isLeft, rightIh _ isRight⟩⟩
  | number digits =>
    have isNumber := genuine digits.1 List.mem_cons_self
    have word : PlainLabel "num " := ⟨by decide, by decide⟩
    refine List.forall_mem_singleton.mpr (word.append (by decide) ?_)
    rw [isNumber.number_eq digits.2]
    exact Binary64.unbroken_text_ofNat _
  | name word =>
    have isWord := genuine word.1 List.mem_cons_self
    have start : PlainLabel "ref " := ⟨by decide, by decide⟩
    exact List.forall_mem_singleton.mpr (start.append (by decide) isWord.unbroken)
  | function _ body _ ih =>
    have word : PlainLabel "fn" := ⟨by decide, by decide⟩
    exact List.forall_mem_cons.mpr ⟨word, ih _ (genuine_function.mp genuine).2.1⟩
  | call _ callee others _ calleeIh othersIh =>
    obtain ⟨-, isCallee, isOthers, -⟩ := genuine_call.mp genuine
    have word : PlainLabel "call" := ⟨by decide, by decide⟩
    exact List.forall_mem_cons.mpr
      ⟨word, List.forall_mem_append.mpr ⟨calleeIh _ isCallee, othersIh _ isOthers⟩⟩
  | arguments first rest firstIh restIh =>
    obtain ⟨isFirst, isRest⟩ := genuine_arguments.mp genuine
    exact List.forall_mem_append.mpr ⟨firstIh depth isFirst, restIh depth isRest⟩

/-! ## From the lines to the tree -/

/-- The letter or sign that the first line of a construct starts with. -/
def Construct.letter : Construct → Char
  | definition => 'l'
  | operator => '|'
  | number => 'n'
  | name => 'r'
  | function => 'f'
  | call => 'c'

theorem Construct.letter_inj {construct other : Construct} :
    construct.letter = other.letter ↔ construct = other := by
  cases construct <;> cases other <;> decide

namespace SyntaxTree

variable {part : Part} {depth : Nat}

/-- The first line of an item shows what it is. -/
theorem exists_first_line (form : SyntaxTree TokenOf part)
    (genuine : form.Genuine) (notList : part ≠ .statements)
    (notArguments : part ≠ .arguments) (depth : Nat) :
    ∃ construct label rest, form.construct = some construct ∧
      form.lines depth = ⟨depth, label⟩ :: rest ∧
      label.toList.head? = some construct.letter := by
  induction form with
  | noStatements | statements | noArguments | arguments => contradiction
  | plain value ih => exact ih genuine (by decide) (by decide)
  | operand value ih => exact ih genuine (by decide) (by decide)
  | pipe left operator right =>
    refine ⟨_, _, _, rfl, rfl, ?_⟩
    rw [(genuine_pipe.mp genuine).2.1.toList_lexeme (by decide)]
    rfl
  | function => exact ⟨_, _, _, rfl, rfl, rfl⟩
  | call => exact ⟨_, _, _, rfl, rfl, rfl⟩
  | _ =>
    refine ⟨_, _, _, rfl, rfl, ?_⟩
    rw [String.toList_append]
    rfl

theorem depth_first_line (form : SyntaxTree TokenOf part) (depth : Nat) :
    ∀ line ∈ (form.lines depth).head?, line.depth = depth := by
  have both {lines others : List OutlineLine} (first : ∀ line ∈ lines.head?, line.depth = depth)
      (second : ∀ line ∈ others.head?, line.depth = depth) :
      ∀ line ∈ (lines ++ others).head?, line.depth = depth := by
    cases lines with
    | nil => exact second
    | cons => exact first
  induction form with
  | noStatements | noArguments => exact nofun
  | statements first rest firstIh restIh => exact both firstIh restIh
  | plain value ih => exact ih
  | operand value ih => exact ih
  | arguments first rest firstIh restIh => exact both firstIh restIh
  | _ =>
    rintro line ⟨⟩
    rfl

/-- The level that the first line behind a tree does not reach. Behind an item it may stand on the
level of the item, behind a list it may not. -/
def limit (part : Part) (depth : Nat) : Nat :=
  if part = .statements ∨ part = .arguments then depth else depth + 1

/-- Lines of which the first does not reach a level, if there is one. -/
def EndsAbove (level : Nat) (lines : List OutlineLine) : Prop :=
  ∀ line ∈ lines.head?, line.depth < level

theorem EndsAbove.succ {level : Nat} {lines : List OutlineLine} (ends : EndsAbove level lines) :
    EndsAbove (level + 1) lines := fun line mem => Nat.lt_succ_of_lt (ends line mem)

/-- A tree behind another one on its level keeps to the limit of that one. -/
theorem endsAbove_lines (form : SyntaxTree TokenOf part) {rest : List OutlineLine}
    (ends : EndsAbove (depth + 1) rest) : EndsAbove (depth + 1) (form.lines depth ++ rest) := by
  cases eq : form.lines depth with
  | nil => exact ends
  | cons first others =>
    rintro line ⟨⟩
    have first := form.depth_first_line depth
    rw [eq] at first
    exact Nat.lt_succ_of_le (Nat.le_of_eq (first _ rfl))

/-- Items with the same lines are the same construct. -/
theorem construct_eq_of_lines {form other : SyntaxTree TokenOf part}
    {rest behind : List OutlineLine}
    (notList : part ≠ .statements) (notArguments : part ≠ .arguments)
    (genuine : form.Genuine) (genuineToo : other.Genuine)
    (same : form.lines depth ++ rest = other.lines depth ++ behind) :
    form.construct = other.construct := by
  obtain ⟨construct, label, below, isConstruct, eq, starts⟩ :=
    form.exists_first_line genuine notList notArguments depth
  obtain ⟨construct', label', below', isConstruct', eq', starts'⟩ :=
    other.exists_first_line genuineToo notList notArguments depth
  rw [eq, eq'] at same
  cases (List.cons.inj same).1
  have letters := Option.some.inj (starts.symm.trans starts')
  rw [isConstruct, isConstruct', Construct.letter_inj.mp letters]

/-- An item is not found behind the end of a list on its level. -/
theorem ne_lines_of_limited {form : SyntaxTree TokenOf part} {rest behind : List OutlineLine}
    (notList : part ≠ .statements) (notArguments : part ≠ .arguments)
    (genuine : form.Genuine)
    (limited : EndsAbove depth rest) : rest ≠ form.lines depth ++ behind := by
  rintro rfl
  obtain ⟨_, label, below, -, eq, -⟩ := form.exists_first_line genuine notList notArguments depth
  rw [eq] at limited
  exact Nat.lt_irrefl depth (limited _ rfl)

/-- The lines of a tree, with what may follow them, tell what the tokens of the tree stand for, and
where its lines end. -/
def Told {part : Part} (form : SyntaxTree TokenOf part) : Prop :=
  ∀ (other : SyntaxTree TokenOf part) (depth : Nat) (rest behind : List OutlineLine),
    form.Genuine → other.Genuine →
    EndsAbove (limit part depth) rest → EndsAbove (limit part depth) behind →
    form.lines depth ++ rest = other.lines depth ++ behind →
    form.Agrees other ∧ rest = behind

theorem told_noStatements : (noStatements (α := TokenOf)).Told := by
  intro other depth rest behind _ genuineToo limited _ same
  cases other with
  | noStatements => exact ⟨.nil, same⟩
  | statements first' list' =>
    -- A statement would have a line on the level of the list, and none follows there.
    have isFirst := (genuine_statements.mp genuineToo).1
    rw [lines, lines, List.nil_append, List.append_assoc] at same
    exact absurd same (ne_lines_of_limited (by decide) (by decide) isFirst limited)

theorem told_statements {first : SyntaxTree TokenOf .statement}
    {list : SyntaxTree TokenOf .statements} (firstTold : first.Told) (listTold : list.Told) :
    (statements first list).Told := by
  intro other depth rest behind genuine genuineToo limited limitedToo same
  obtain ⟨isFirst, isList⟩ := genuine_statements.mp genuine
  cases other with
  | noStatements =>
    rw [lines, lines, List.nil_append, List.append_assoc] at same
    exact absurd same.symm (ne_lines_of_limited (by decide) (by decide) isFirst limitedToo)
  | statements first' list' =>
    obtain ⟨isFirst', isList'⟩ := genuine_statements.mp genuineToo
    -- Behind the first statement come the others, on its level, and then what follows the list.
    rw [lines, lines, List.append_assoc, List.append_assoc] at same
    obtain ⟨firstAgrees, others⟩ := firstTold first' depth _ _ isFirst isFirst'
      (endsAbove_lines list limited.succ) (endsAbove_lines list' limitedToo.succ) same
    obtain ⟨listAgrees, ends⟩ :=
      listTold list' depth _ _ isList isList' limited limitedToo others
    exact ⟨firstAgrees.statements listAgrees, ends⟩

theorem told_definition {keyword : TokenOf .letKeyword} {symbol : TokenOf .identifier}
    {sign : TokenOf .assign} {initializer : SyntaxTree TokenOf .expression}
    (told : initializer.Told) : (definition keyword symbol sign initializer).Told := by
  intro other depth rest behind genuine genuineToo limited limitedToo same
  cases other with
  | definition keyword' symbol' sign' initializer' =>
    obtain ⟨-, isSymbol, -, below⟩ := genuine_definition.mp genuine
    obtain ⟨-, isSymbol', -, below'⟩ := genuine_definition.mp genuineToo
    rw [lines, lines, List.cons_append, List.cons_append] at same
    obtain ⟨head, others⟩ := List.cons.inj same
    have lexeme : symbol.1.lexeme = symbol'.1.lexeme := by simpa using head
    obtain ⟨agrees, ends⟩ := told initializer' (depth + 1) rest behind below below'
      limited.succ limitedToo.succ others
    have symbols := isSymbol.agrees_of_lexeme isSymbol' (symbol.2.trans symbol'.2.symm) lexeme
    exact ⟨.definition genuine genuineToo symbols agrees, ends⟩
  | plain value' =>
    have constructs := construct_eq_of_lines (by decide) (by decide) genuine genuineToo same
    exact absurd constructs.symm value'.construct_expression_ne

theorem told_plain {value : SyntaxTree TokenOf .expression} (told : value.Told) :
    (plain value).Told := by
  intro other depth rest behind genuine genuineToo limited limitedToo same
  cases other with
  | definition =>
    have constructs := construct_eq_of_lines (by decide) (by decide) genuine genuineToo same
    exact absurd constructs value.construct_expression_ne
  | plain value' => exact told value' depth rest behind genuine genuineToo limited limitedToo same

theorem told_operand {value : SyntaxTree TokenOf .operand} (told : value.Told) :
    (operand value).Told := by
  intro other depth rest behind genuine genuineToo limited limitedToo same
  cases other with
  | operand value' => exact told value' depth rest behind genuine genuineToo limited limitedToo same
  | pipe =>
    have constructs := construct_eq_of_lines (by decide) (by decide) genuine genuineToo same
    exact absurd constructs value.construct_operand_ne

theorem told_pipe {left : SyntaxTree TokenOf .expression} {operator : TokenOf .pipe}
    {right : SyntaxTree TokenOf .operand} (leftTold : left.Told) (rightTold : right.Told) :
    (pipe left operator right).Told := by
  intro other depth rest behind genuine genuineToo limited limitedToo same
  cases other with
  | operand value' =>
    have constructs := construct_eq_of_lines (by decide) (by decide) genuine genuineToo same
    exact absurd constructs.symm value'.construct_operand_ne
  | pipe left' operator' right' =>
    obtain ⟨isLeft, -, isRight⟩ := genuine_pipe.mp genuine
    obtain ⟨isLeft', -, isRight'⟩ := genuine_pipe.mp genuineToo
    simp only [lines, List.cons_append, List.append_assoc] at same
    obtain ⟨leftAgrees, others⟩ := leftTold left' (depth + 1) _ _ isLeft isLeft'
      (endsAbove_lines right limited.succ) (endsAbove_lines right' limitedToo.succ)
      (List.cons.inj same).2
    obtain ⟨rightAgrees, ends⟩ := rightTold right' (depth + 1) rest behind isRight isRight'
      limited.succ limitedToo.succ others
    exact ⟨.pipe genuine genuineToo leftAgrees rightAgrees, ends⟩

theorem told_number (digits : TokenOf .number) : (number digits).Told := by
  intro other depth rest behind genuine genuineToo limited limitedToo same
  have constructs := construct_eq_of_lines (by decide) (by decide) genuine genuineToo same
  cases other with
  | number digits' =>
    have isNumber := genuine digits.1 List.mem_cons_self
    have isNumber' := genuineToo digits'.1 List.mem_cons_self
    obtain ⟨head, ends⟩ := List.cons.inj same
    have texts := (OutlineLine.mk.inj head).2
    rw [isNumber.number_eq digits.2, isNumber'.number_eq digits'.2, Option.getD_some,
      Option.getD_some, String.append_right_inj] at texts
    have numbers :=
      isNumber.agrees_of_digits isNumber' digits.2 digits'.2 (Binary64.text_ofNat_inj.mp texts)
    exact ⟨.cons numbers .nil, ends⟩
  | _ => cases constructs

theorem told_name (word : TokenOf .identifier) : (name word).Told := by
  intro other depth rest behind genuine genuineToo limited limitedToo same
  have constructs := construct_eq_of_lines (by decide) (by decide) genuine genuineToo same
  cases other with
  | name word' =>
    obtain ⟨head, ends⟩ := List.cons.inj same
    have texts := (OutlineLine.mk.inj head).2
    rw [String.append_right_inj] at texts
    have words := (genuine word.1 List.mem_cons_self).agrees_of_lexeme
      (genuineToo word'.1 List.mem_cons_self) (word.2.trans word'.2.symm) texts
    exact ⟨.cons words .nil, ends⟩
  | _ => cases constructs

theorem told_function {opening : TokenOf .leftBrace} {body : SyntaxTree TokenOf .statements}
    {closing : TokenOf .rightBrace} (told : body.Told) : (function opening body closing).Told := by
  intro other depth rest behind genuine genuineToo limited limitedToo same
  have constructs := construct_eq_of_lines (by decide) (by decide) genuine genuineToo same
  cases other with
  | function opening' body' closing' =>
    have isBody := (genuine_function.mp genuine).2.1
    have isBody' := (genuine_function.mp genuineToo).2.1
    obtain ⟨agrees, ends⟩ := told body' (depth + 1) rest behind isBody isBody' limited limitedToo
      (List.cons.inj same).2
    exact ⟨.function genuine genuineToo agrees, ends⟩
  | _ => cases constructs

theorem told_call {opening : TokenOf .leftParen} {callee : SyntaxTree TokenOf .expression}
    {others : SyntaxTree TokenOf .arguments} {closing : TokenOf .rightParen}
    (calleeTold : callee.Told) (othersTold : others.Told) :
    (call opening callee others closing).Told := by
  intro other depth rest behind genuine genuineToo limited limitedToo same
  have constructs := construct_eq_of_lines (by decide) (by decide) genuine genuineToo same
  cases other with
  | call opening' callee' others' closing' =>
    obtain ⟨-, isCallee, isOthers, -⟩ := genuine_call.mp genuine
    obtain ⟨-, isCallee', isOthers', -⟩ := genuine_call.mp genuineToo
    simp only [lines, List.cons_append, List.append_assoc] at same
    obtain ⟨calleeAgrees, tails⟩ := calleeTold callee' (depth + 1) _ _ isCallee isCallee'
      (endsAbove_lines others limited.succ) (endsAbove_lines others' limitedToo.succ)
      (List.cons.inj same).2
    obtain ⟨othersAgree, ends⟩ :=
      othersTold others' (depth + 1) rest behind isOthers isOthers' limited limitedToo tails
    exact ⟨.call genuine genuineToo calleeAgrees othersAgree, ends⟩
  | _ => cases constructs

theorem told_noArguments : (noArguments (α := TokenOf)).Told := by
  intro other depth rest behind _ genuineToo limited _ same
  cases other with
  | noArguments => exact ⟨.nil, same⟩
  | arguments first' list' =>
    have isFirst := (genuine_arguments.mp genuineToo).1
    rw [lines, lines, List.nil_append, List.append_assoc] at same
    exact absurd same (ne_lines_of_limited (by decide) (by decide) isFirst limited)

theorem told_arguments {first : SyntaxTree TokenOf .expression}
    {list : SyntaxTree TokenOf .arguments} (firstTold : first.Told) (listTold : list.Told) :
    (arguments first list).Told := by
  intro other depth rest behind genuine genuineToo limited limitedToo same
  obtain ⟨isFirst, isList⟩ := genuine_arguments.mp genuine
  cases other with
  | noArguments =>
    rw [lines, lines, List.nil_append, List.append_assoc] at same
    exact absurd same.symm (ne_lines_of_limited (by decide) (by decide) isFirst limitedToo)
  | arguments first' list' =>
    obtain ⟨isFirst', isList'⟩ := genuine_arguments.mp genuineToo
    rw [lines, lines, List.append_assoc, List.append_assoc] at same
    obtain ⟨firstAgrees, others⟩ := firstTold first' depth _ _ isFirst isFirst'
      (endsAbove_lines list limited.succ) (endsAbove_lines list' limitedToo.succ) same
    obtain ⟨listAgrees, ends⟩ :=
      listTold list' depth _ _ isList isList' limited limitedToo others
    exact ⟨firstAgrees.arguments listAgrees, ends⟩

/-- The lines of every tree tell what its tokens stand for. -/
theorem told {part : Part} (form : SyntaxTree TokenOf part) : form.Told := by
  induction form with
  | noStatements => exact told_noStatements
  | statements _ _ first rest => exact told_statements first rest
  | definition _ _ _ _ initializer => exact told_definition initializer
  | plain _ value => exact told_plain value
  | operand _ value => exact told_operand value
  | pipe _ _ _ left right => exact told_pipe left right
  | number digits => exact told_number digits
  | name word => exact told_name word
  | function _ _ _ body => exact told_function body
  | call _ _ _ _ callee others => exact told_call callee others
  | noArguments => exact told_noArguments
  | arguments _ _ first rest => exact told_arguments first rest

end SyntaxTree

end PipeScript
