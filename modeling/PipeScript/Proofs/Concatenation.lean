import PipeScript.Frontend
import PipeScript.Proofs.Diagnosis
import PipeScript.Proofs.Relocation
import PipeScript.Proofs.Sites

/-!
# Programs behind programs

Where a program may end, nothing is open: behind its last token the parser asks for what it asks
for at the start of a program, unless an operator goes on with the last expression
(`Control.BetweenStatements`). So a program can be put behind another one, with a gap between
them, and each of the two is read as if it stood alone.

The arena of both is described on syntax trees. The statements of the second program are put at
the end of the list of the first one (`SyntaxTree.append`), where they take the place of its
sentinel (`SyntaxTree.layout_append`); and their nodes differ from those of a program of their
own in names and places alone (`SyntaxTree.layout_shift`).

If the second text is no program, then the tokens of both break where its own ones do, and the
diagnosis, which goes by what is open and by the two tokens before, is the same.
-/

namespace PipeScript

/-! ## Nodes behind other nodes -/

/-- The same kind of node with children whose names are `n` further on. -/
def NodeKind.shift (n : Nat) : NodeKind → NodeKind
  | constant => constant
  | reference => reference
  | binary left right => binary (left + n) (right + n)
  | function body => function (body + n)
  | call callee arguments => call (callee + n) (arguments.map (· + n))
  | argumentCell argument next => argumentCell (argument + n) (next.map (· + n))
  | definition initializer => definition (initializer + n)
  | statementCell statement next => statementCell (statement.map (· + n)) (next.map (· + n))

/-- The same node, moved in the source, with names that are `n` further on. -/
def Node.shift (s : Shift) (n : Nat) (node : Node) : Node where
  id := node.id + n
  token := node.token.shift s
  kind := node.kind.shift n

/-- The same token at its new place. -/
def TokenOf.shift (s : Shift) (kind : Kind) (t : TokenOf kind) : TokenOf kind :=
  ⟨t.1.shift s, t.2⟩

namespace SyntaxTree

section Map

variable {α β : Kind → Type} (f : (kind : Kind) → α kind → β kind) {part : Part}
  (tree : SyntaxTree α part)

@[simp] theorem size_map : (tree.map f).size = tree.size := by
  induction tree with
  | noStatements | number | name | noArguments => rfl
  | statements _ _ firstIh restIh => simp only [map, size, firstIh, restIh]
  | definition _ _ _ _ ih => simp only [map, size, ih]
  | plain _ ih => exact ih
  | operand _ ih => exact ih
  | pipe _ _ _ leftIh rightIh => simp only [map, size, leftIh, rightIh]
  | function _ _ _ ih => simp only [map, size, ih]
  | call _ _ _ _ calleeIh othersIh => simp only [map, size, calleeIh, othersIh]
  | arguments _ _ firstIh restIh => simp only [map, size, firstIh, restIh]

@[simp] theorem root_map (n : NodeId) : (tree.map f).root n = tree.root n := by
  induction tree with
  | plain _ ih => exact ih
  | operand _ ih => exact ih
  | _ => simp only [map, root, size_map]

@[simp] theorem slot_map (n : NodeId) : (tree.map f).slot n = tree.slot n := by
  cases tree with
  | noArguments => rfl
  | _ => exact congrArg some (root_map f _ n)

end Map

section Shift

variable {α : Kind → Type} {part : Part} (tree : SyntaxTree α part) (m n : NodeId)

theorem root_add : tree.root (m + n) = tree.root m + n := by
  have behind (m k : NodeId) : m + n + k = m + k + n := Nat.add_right_comm m n k
  induction tree with
  | plain _ ih => exact ih
  | operand _ ih => exact ih
  | _ => simp only [root, behind]

theorem slot_add : tree.slot (m + n) = (tree.slot m).map (· + n) := by
  cases tree with
  | noArguments => rfl
  | _ => exact congrArg some (root_add _ m n)

end Shift

theorem tokens_shift {part : Part} (tree : SyntaxTree TokenOf part) (s : Shift) :
    (tree.map (TokenOf.shift s)).tokens = tree.tokens.map (·.shift s) := by
  rw [tokens, leaves_map, tokens, List.map_map, List.map_map]
  rfl

theorem headD_tokens_shift {part : Part} (tree : SyntaxTree TokenOf part) (s : Shift)
    (follow : Token) : (tree.map (TokenOf.shift s)).tokens.headD (follow.shift s) =
      (tree.tokens.headD follow).shift s := by
  rw [tokens_shift]
  cases tree.tokens <;> rfl

/-- A tree that stands elsewhere has the same nodes under other names, with the same tokens at
other places. -/
theorem layout_shift {part : Part} (tree : SyntaxTree TokenOf part) (s : Shift) (follow : Token)
    (m n : NodeId) : (tree.map (TokenOf.shift s)).layout (follow.shift s) (m + n) =
      (tree.layout follow m).map (Node.shift s n) := by
  have behind (m k : NodeId) : m + n + k = m + k + n := Nat.add_right_comm m n k
  induction tree generalizing follow m with
  | noStatements => rfl
  | statements first rest firstIh restIh =>
    have firstEq := firstIh follow (m + 1)
    have restEq := restIh follow (m + 1 + first.size)
    simp only [map, layout, size_map, root_map, behind, headD_tokens_shift, root_add, firstEq,
      restEq, List.map_cons, List.map_append]
    rfl
  | definition _ symbol _ initializer ih =>
    simp only [map, layout, size_map, root_map, behind, root_add, ih, List.map_append]
    rfl
  | plain _ ih => exact ih follow m
  | operand _ ih => exact ih follow m
  | pipe left operator right leftIh rightIh =>
    simp only [map, layout, size_map, root_map, behind, root_add, leftIh, rightIh, List.map_append]
    rfl
  | number | name => rfl
  | function opening body closing ih =>
    have bodyEq := ih closing.1 m
    simp only [map, layout, size_map, root_map, behind, root_add, List.map_append, ← bodyEq]
    rfl
  | call opening callee others closing calleeIh othersIh =>
    simp only [map, layout, size_map, root_map, slot_map, behind, root_add, slot_add, calleeIh,
      othersIh, List.map_append]
    rfl
  | noArguments => rfl
  | arguments first rest firstIh restIh =>
    simp only [map, layout, size_map, root_map, slot_map, behind, headD_tokens_shift, root_add,
      slot_add, firstIh, restIh, List.map_append]
    rfl

/-! ## Statements behind statements -/

/-- The statements of two lists. -/
def append {α : Kind → Type} :
    SyntaxTree α .statements → SyntaxTree α .statements → SyntaxTree α .statements
  | noStatements, others => others
  | statements first rest, others => statements first (rest.append others)

theorem tokens_append (list others : SyntaxTree TokenOf .statements) :
    (list.append others).tokens = list.tokens ++ others.tokens := by
  cases list with
  | noStatements => rw [append, tokens_noStatements, List.nil_append]
  | statements first rest =>
    rw [append, tokens_statements, tokens_statements, tokens_append rest, List.append_assoc]

/-- What follows a tree matters to the cells of statement lists alone. -/
theorem layout_of_follow {part : Part} (notList : part ≠ .statements)
    (tree : SyntaxTree TokenOf part) (follow other : Token) (n : NodeId) :
    tree.layout follow n = tree.layout other n := by
  induction tree generalizing n with
  | noStatements | statements => contradiction
  | definition _ _ _ initializer ih => simp only [layout, ih (by decide)]
  | plain _ ih => exact ih (by decide) n
  | operand _ ih => exact ih (by decide) n
  | pipe _ _ _ leftIh rightIh => simp only [layout, leftIh (by decide), rightIh (by decide)]
  | number | name | noArguments | function => rfl
  | call _ _ _ _ calleeIh othersIh =>
    simp only [layout, calleeIh (by decide), othersIh (by decide)]
  | arguments first rest firstIh restIh =>
    obtain ⟨t, ts, eq, -⟩ := first.starts
    simp only [layout, firstIh (by decide), restIh (by decide), eq, List.headD_cons]

theorem size_statements_pos {α : Kind → Type} (list : SyntaxTree α .statements) :
    0 < list.size := by
  cases list <;> exact Nat.succ_pos _

/-- A list of statements ends with its sentinel. -/
theorem getLast?_layout (list : SyntaxTree TokenOf .statements) (follow : Token) (n : NodeId) :
    ∃ id, (list.layout follow n).getLast? = some ⟨id, follow, .sentinel⟩ := by
  cases list with
  | noStatements => exact ⟨n, rfl⟩
  | statements first rest =>
    obtain ⟨id, last⟩ := getLast?_layout rest follow (n + 1 + first.size)
    refine ⟨id, ?_⟩
    rw [layout, ← List.cons_append, List.getLast?_append, last]
    rfl

/-- Statements that are put behind others take the place of their sentinel. -/
theorem layout_append (list others : SyntaxTree TokenOf .statements) (follow other : Token)
    (n : Nat) : (list.append others).layout follow n =
      (list.layout other n).dropLast ++ others.layout follow (n + (list.size - 1)) := by
  cases list with
  | noStatements =>
    rw [append]
    rfl
  | statements first rest =>
    have tail := layout_append rest others follow other (n + 1 + first.size)
    have positive := rest.size_statements_pos
    have nonempty : rest.layout other (n + 1 + first.size) ≠ [] := by
      rw [← List.length_pos_iff, length_layout]
      exact positive
    have kept (cell : Node) : (cell :: (first.layout other (n + 1) ++
          rest.layout other (n + 1 + first.size))).dropLast =
        cell :: (first.layout other (n + 1) ++
          (rest.layout other (n + 1 + first.size)).dropLast) := by
      rw [← List.cons_append, List.dropLast_append_of_ne_nil nonempty, List.cons_append]
    have same := layout_of_follow (by decide) first follow other (n + 1)
    have place : n + 1 + first.size + (rest.size - 1) = n + (first.size + rest.size + 1 - 1) := by
      omega
    obtain ⟨t, ts, eq, -⟩ := first.starts
    rw [append, layout, layout, kept, tail, place, same, eq, size, List.headD_cons,
      List.headD_cons, List.cons_append, List.append_assoc]

end SyntaxTree

/-- The same error on its new line. -/
def ParseError.shift (e : ParseError) (s : Shift) : ParseError :=
  { e with line := e.line + s.lines }

/-! ## Between two statements -/

/-- Nothing is open but the list of the program, and a statement of it may start. -/
inductive Control.BetweenStatements : Control → Prop
  | start : BetweenStatements (.opened .program)
  | behind {value : NodeId} {list : OpenList} {purpose : Purpose} :
    BetweenStatements (.operator value (.program list purpose))

namespace Parse

variable {t : Token} {value root : NodeId} {pending : Option Pending} {outer : Context}
  {draft : Draft}

theorem completeOperand_ne_accept :
    (completeOperand value pending outer draft).1 ≠ .accept root := by
  cases pending <;> exact nofun

theorem takeOperand_ne_accept : (takeOperand t pending outer draft).1 ≠ .accept root := by
  unfold takeOperand
  split
  · exact completeOperand_ne_accept
  · exact completeOperand_ne_accept
  all_goals exact nofun

theorem takeArgument_ne_accept {paren : Token} {before : List (Token × NodeId)} :
    (takeArgument t paren value before pending outer draft).1 ≠ .accept root := by
  unfold takeArgument
  split
  · exact takeOperand_ne_accept
  · dsimp only
    split
    · exact completeOperand_ne_accept
    · exact nofun

theorem takeStatement_accept {block : Block} {list : OpenList}
    (accepted : (takeStatement t block list draft).1 = .accept root) :
    t.kind = .endOfInput ∧ block = .program := by
  unfold takeStatement at accepted
  split at accepted
  case h_2 kind => exact ⟨kind, rfl⟩
  case h_5 => exact absurd accepted completeOperand_ne_accept
  case h_6 => exact absurd accepted takeOperand_ne_accept
  all_goals cases accepted

/-- A program is accepted at the end of the input, and between two statements. -/
theorem step_accept {control : Control} (accepted : (step t control draft).1 = .accept root) :
    t.kind = .endOfInput ∧ control.BetweenStatements := by
  cases control with
  | opened block =>
    obtain ⟨kind, rfl⟩ := takeStatement_accept accepted
    exact ⟨kind, .start⟩
  | symbol block list =>
    rw [step] at accepted
    split at accepted <;> cases accepted
  | assign name block list =>
    rw [step] at accepted
    split at accepted <;> cases accepted
  | operand pending outer => exact absurd accepted takeOperand_ne_accept
  | operator value outer =>
    rw [step] at accepted
    split at accepted
    · cases accepted
    cases outer with
    | program list purpose => exact ⟨(takeStatement_accept accepted).1, .behind⟩
    | function brace list purpose pending outer => cases (takeStatement_accept accepted).2
    | callee paren pending outer => exact absurd accepted takeArgument_ne_accept
    | argument first paren callee before pending outer =>
      exact absurd accepted takeArgument_ne_accept

end Parse

namespace Control.BetweenStatements

variable {control : Control}

/-- What is left to read is a program, unless it starts with an operator. -/
theorem remainder_iff (between : control.BetweenStatements) {k : Kind} (notPipe : k ≠ .pipe)
    (ks : List Kind) :
    Derives control.remainder (k :: ks) ↔ Derives (.part .program) (k :: ks) := by
  rw [← Parse.derives_opened_program]
  cases between with
  | start => rfl
  | behind =>
    refine Derives.operators_cons.trans ?_
    exact or_iff_left fun pipe => notPipe pipe.1

theorem asks_eq_none (between : control.BetweenStatements) : control.asks = none := by
  cases between <;> rfl

theorem brackets_eq_nil (between : control.BetweenStatements) : control.brackets = [] := by
  cases between <;> rfl

end Control.BetweenStatements

/-- The last two tokens before a place tell what is asked for there. Behind tokens that ask for
nothing they tell it as if those were not there. -/
theorem askedBehind_append {behind : List Kind} (free : askedBehind behind = none)
    (ks : List Kind) : askedBehind (ks ++ behind) = askedBehind ks := by
  rcases ks with _ | ⟨k, _ | ⟨l, ks⟩⟩
  · exact free
  -- Behind a name the kind before it is looked at, which is one of those that ask for nothing.
  · by_cases name : k = .identifier
    · have notSymbol : askedBehind behind ≠ some (.statement, "symbol") := by
        rw [free]
        exact nofun
      rw [name]
      exact Parse.askedBehind_identifier notSymbol
    · cases k <;> first | rfl | contradiction
  · cases k <;> cases l <;> rfl

/-! ## Tokens behind a program -/

open Parse

namespace TokenBuffer

/-- A buffer fails where it breaks, and with the diagnosis of the token there. -/
theorem parse_eq_error_iff {buffer : TokenBuffer} {e : ParseError} :
    buffer.parse = .error e ↔
      ∃ p t, buffer.tokens[p]? = some t ∧ buffer.BreaksAt p ∧
        e = diagnose (buffer.tokens.take p) t := by
  obtain ⟨before, t, after, c, d, d', split, read, last⟩ := buffer.parse_cases
  rcases last with ⟨root, taken, parsed⟩ | ⟨other, refused, failed⟩
  · refine iff_of_false (fun failed => nomatch parsed.symm.trans failed) ?_
    rintro ⟨p, t, -, breaks, -⟩
    exact breaks.2 ⟨buffer, ⟨_, parsed⟩, (List.take_prefix _ _).map _⟩
  have atToken := getElem?_of_split split
  have breaks : buffer.BreaksAt before.length := breaksAt_of_reads split read refused
  have said : other = diagnose before t := read.eq_diagnose refused
  constructor
  · intro failedToo
    cases failed.symm.trans failedToo
    exact ⟨before.length, t, atToken, breaks, by rw [take_of_split split, said]⟩
  · rintro ⟨p, u, found, breaksToo, rfl⟩
    cases breaksToo.unique breaks
    cases atToken.symm.trans found
    rw [failed, said, take_of_split split]

/-- The tokens of a program are read up to a place between two statements. -/
theorem exists_reads_body {buffer : TokenBuffer} {tree : Tree} (parsed : buffer.parse = .ok tree) :
    ∃ c d, Reads buffer.body (.opened .program) .empty c d ∧ c.BetweenStatements := by
  obtain ⟨before, t, after, c, d, d', split, read, last⟩ := buffer.parse_cases
  rcases last with ⟨root, taken, -⟩ | ⟨other, -, failed⟩
  · obtain ⟨kind, between⟩ := step_accept (congrArg Prod.fst taken)
    obtain ⟨rfl, -, -⟩ := buffer.split_at_endOfInput split kind
    exact ⟨c, d, read, between⟩
  · cases parsed.symm.trans failed

section Behind

variable {front : TokenBuffer} {tree : Tree}

/-- Behind a program the same tokens are viable that are so on their own, but for an operator
in front. -/
theorem viable_append_iff (parsed : front.parse = .ok tree) {ks : List Kind}
    (notPipe : ∀ k ∈ ks.head?, k ≠ .pipe) :
    Viable (front.body.map Token.kind ++ ks) ↔ Viable ks := by
  obtain ⟨c, d, read, between⟩ := exists_reads_body parsed
  cases ks with
  | nil =>
    have viable := read.viable
    refine iff_of_true ?_ (viable.of_isPrefix List.nil_prefix)
    rw [List.append_nil]
    exact viable
  | cons k ks =>
    rw [viable_iff, viable_iff]
    refine exists_congr fun ls => ?_
    rw [List.append_assoc, List.cons_append, ← derives_opened_program, read.derives_iff]
    exact between.remainder_iff (notPipe k rfl) _

/-- The diagnosis behind a program is the one that there is without it. -/
theorem diagnosis_append (parsed : front.parse = .ok tree) (ks : List Kind) (k : Kind) :
    diagnosis (front.body.map Token.kind ++ ks) k = diagnosis ks k := by
  obtain ⟨c, d, read, between⟩ := exists_reads_body parsed
  have start : (Control.opened .program).asks = askedBehind [] := rfl
  obtain ⟨asks, brackets⟩ := read.agrees start
  rw [between.asks_eq_none, List.append_nil] at asks
  rw [between.brackets_eq_nil] at brackets
  have closed : openBrackets (front.body.map Token.kind ++ ks) = openBrackets ks := by
    rw [openBrackets, List.foldl_append, openBrackets]
    exact congrArg (ks.foldl turnBrackets) brackets.symm
  rw [diagnosis, List.reverse_append, askedBehind_append asks.symm, closed, diagnosis]

variable {behind whole : TokenBuffer} {s : Shift}

/-- Behind a program the nodes of another one follow, under new names, in the place of the
sentinel that the first one ends with. -/
theorem parse_append {other : Tree} (parsed : front.parse = .ok tree)
    (parsedToo : behind.parse = .ok other)
    (body : whole.body = front.body ++ behind.body.map (·.shift s))
    (last : whole.last = behind.last.shift s) :
    ∃ both, whole.parse = .ok both ∧ both.root = 0 ∧
      both.nodes = tree.nodes.pop ++ other.nodes.map (Node.shift s (tree.size - 1)) := by
  obtain ⟨program, written, -, nodes⟩ := exists_layout parsed
  obtain ⟨second, writtenToo, -, nodesToo⟩ := exists_layout parsedToo
  have writtenBoth : (program.append (second.map (TokenOf.shift s))).tokens = whole.body := by
    rw [SyntaxTree.tokens_append, SyntaxTree.tokens_shift, written, writtenToo, body]
  obtain ⟨both, parsedBoth, root, nodesBoth⟩ := parse_layout writtenBoth
  refine ⟨both, parsedBoth, root.trans (SyntaxTree.root_statements _ _), ?_⟩
  apply Array.ext'
  rw [nodesBoth, SyntaxTree.layout_append _ _ _ front.last, last, SyntaxTree.layout_shift, ← nodes,
    ← nodesToo, Tree.size_of_layout nodes, Array.toList_append, Array.toList_pop, Array.toList_map]

/-- Tokens that are no program fail behind a program as they do on their own, if they do not
start with an operator. -/
theorem parse_append_error {e : ParseError} (parsed : front.parse = .ok tree)
    (failed : behind.parse = .error e)
    (notPipe : ∀ t ∈ behind.tokens.head?, t.kind ≠ .pipe)
    (body : whole.body = front.body ++ behind.body.map (·.shift s))
    (last : whole.last = behind.last.shift s) : whole.parse = .error (e.shift s) := by
  obtain ⟨p, t, found, breaks, rfl⟩ := parse_eq_error_iff.mp failed
  have tokens : whole.tokens = front.body ++ behind.tokens.map (·.shift s) := by
    rw [TokenBuffer.tokens, TokenBuffer.tokens, body, last, List.map_append, List.append_assoc]
    rfl
  have upTo (q : Nat) : whole.tokens.take (front.body.length + q) =
      front.body ++ (behind.tokens.take q).map (·.shift s) := by
    rw [tokens, List.take_length_add_append, List.map_take]
  have kinds (ts : List Token) : (ts.map (·.shift s)).map Token.kind = ts.map Token.kind :=
    List.map_map
  -- What comes before a place is viable in both buffers or in neither, so they break alike.
  have same (q : Nat) : Viable ((whole.tokens.take (front.body.length + q)).map Token.kind) ↔
      Viable ((behind.tokens.take q).map Token.kind) := by
    rw [upTo, List.map_append, kinds]
    apply viable_append_iff parsed
    intro k mem
    rw [List.head?_map] at mem
    obtain ⟨u, head, rfl⟩ := Option.map_eq_some_iff.mp mem
    refine notPipe u ?_
    rw [List.head?_take] at head
    split at head
    · cases head
    · exact head
  refine parse_eq_error_iff.mpr ⟨front.body.length + p, t.shift s, ?_, ⟨?_, ?_⟩, ?_⟩
  · rw [tokens, List.getElem?_append_right (Nat.le_add_right _ _), Nat.add_sub_cancel_left,
      List.getElem?_map, found]
    rfl
  · exact (same p).mpr breaks.1
  · rw [Nat.add_assoc, same]
    exact breaks.2
  · rw [upTo, diagnose, diagnose, List.map_append, kinds, diagnosis_append parsed]
    rfl

end Behind

end TokenBuffer

/-! ## Sources -/

theorem parseSource_eq_ok {source : String} {tree : Tree} :
    parseSource source = .ok tree ↔
      ∃ buffer, TokenBuffer.ofSource source = .ok buffer ∧ buffer.parse = .ok tree := by
  rw [parseSource]
  cases TokenBuffer.ofSource source with
  | error e => simp [Except.mapError, bind, Except.bind]
  | ok buffer => cases parsed : buffer.parse <;> simp [Except.mapError, bind, Except.bind, parsed]

theorem parseSource_eq_parse_error {source : String} {e : ParseError} :
    parseSource source = .error (.parse e) ↔
      ∃ buffer, TokenBuffer.ofSource source = .ok buffer ∧ buffer.parse = .error e := by
  rw [parseSource]
  cases TokenBuffer.ofSource source with
  | error e => simp [Except.mapError, bind, Except.bind]
  | ok buffer => cases parsed : buffer.parse <;> simp [Except.mapError, bind, Except.bind, parsed]

theorem parseSource_of_lex_error {source : String} {e : LexError}
    (failed : TokenBuffer.ofSource source = .error e) : parseSource source = .error (.lex e) := by
  rw [parseSource, failed]
  rfl

/-- The sentinel that a program ends with is its last node. -/
theorem TokenBuffer.exists_last_sentinel {buffer : TokenBuffer} {tree : Tree}
    (parsed : buffer.parse = .ok tree) :
    ∃ node, tree.nodes.back? = some node ∧ node.isSentinel := by
  obtain ⟨program, -, -, nodes⟩ := exists_layout parsed
  obtain ⟨id, last⟩ := program.getLast?_layout buffer.last 0
  refine ⟨⟨id, buffer.last, .sentinel⟩, ?_, rfl⟩
  rw [← Array.getLast?_toList, nodes, last]

/-- A source behind a program and a gap, whose first token is no operator, is a program, or
fails, as it does on its own. Its tree takes the place of the last node of the first one. -/
theorem parseSource_append (first gap second : String) (front : Tree)
    (parsed : parseSource first = .ok front) (blank : gap.toList.all isBlank)
    (nonempty : gap ≠ "") :
    (∀ behind, parseSource second = .ok behind →
      ∃ tree, parseSource (first ++ gap ++ second) = .ok tree ∧ tree.root = 0 ∧
        (∃ node, front.nodes.back? = some node ∧ node.isSentinel) ∧
        tree.nodes = front.nodes.pop ++
          behind.nodes.map (Node.shift (.past (first ++ gap).toList) (front.size - 1))) ∧
    (∀ buffer e, TokenBuffer.ofSource second = .ok buffer →
      (∀ t ∈ buffer.tokens.head?, t.kind ≠ .pipe) → buffer.parse = .error e →
      parseSource (first ++ gap ++ second) =
        .error (.parse (e.shift (.past (first ++ gap).toList)))) ∧
    (∀ e, TokenBuffer.ofSource second = .error e →
      parseSource (first ++ gap ++ second) =
        .error (.lex (e.shift (.past (first ++ gap).toList)))) := by
  obtain ⟨frontBuffer, lexed, parsedFront⟩ := parseSource_eq_ok.mp parsed
  refine ⟨?_, ?_, ?_⟩
  · intro behind parsedToo
    obtain ⟨behindBuffer, lexedToo, parsedBehind⟩ := parseSource_eq_ok.mp parsedToo
    obtain ⟨buffer, lexedBoth, body, last⟩ :=
      TokenBuffer.exists_ofSource_append lexed blank nonempty lexedToo
    obtain ⟨tree, parsedBoth, root, nodes⟩ :=
      TokenBuffer.parse_append parsedFront parsedBehind body last
    exact ⟨tree, parseSource_eq_ok.mpr ⟨buffer, lexedBoth, parsedBoth⟩, root,
      TokenBuffer.exists_last_sentinel parsedFront, nodes⟩
  · intro behindBuffer e lexedToo notPipe failed
    obtain ⟨buffer, lexedBoth, body, last⟩ :=
      TokenBuffer.exists_ofSource_append lexed blank nonempty lexedToo
    have failedBoth := TokenBuffer.parse_append_error parsedFront failed notPipe body last
    exact parseSource_eq_parse_error.mpr ⟨buffer, lexedBoth, failedBoth⟩
  · intro e failed
    exact parseSource_of_lex_error (TokenBuffer.ofSource_append_error lexed blank failed)

/-- The token of a source that is a letter, and the end behind it. -/
def TokenBuffer.ofLetter (c : Char) : TokenBuffer where
  body := [.ofLexeme .identifier [c] ⟨0, 1, 1⟩]
  last := .endAt ⟨1, 1, 2⟩
  body_kind := by simp [Token.ofLexeme]
  last_kind := rfl

/-- The tree of a source that is a letter. -/
def Tree.ofLetter (c : Char) : Tree where
  nodes := #[⟨0, .ofLexeme .identifier [c] ⟨0, 1, 1⟩, .statementCell (some 1) (some 2)⟩,
    ⟨1, .ofLexeme .identifier [c] ⟨0, 1, 1⟩, .reference⟩, ⟨2, .endAt ⟨1, 1, 2⟩, .sentinel⟩]
  root := 0

/-- The tokens of `b )`. -/
def TokenBuffer.letterAndParen : TokenBuffer where
  body := [.ofLexeme .identifier ['b'] ⟨0, 1, 1⟩, .ofLexeme .rightParen [')'] ⟨2, 1, 3⟩]
  last := .endAt ⟨3, 1, 4⟩
  body_kind := by decide
  last_kind := rfl

theorem parseSource_ofLetter_a : parseSource "a" = .ok (.ofLetter 'a') :=
  parseSource_eq_ok.mpr ⟨.ofLetter 'a',
    TokenBuffer.ofLexer_eq_ok.mpr (by decide), rfl⟩

theorem parseSource_append_letter :
    parseSource "a" = .ok (.ofLetter 'a') ∧
      (∃ tree, parseSource ("a" ++ "\n " ++ "b") = .ok tree ∧ tree.root = 0 ∧
        tree.nodes = #[
          ⟨0, .ofLexeme .identifier ['a'] ⟨0, 1, 1⟩, .statementCell (some 1) (some 2)⟩,
          ⟨1, .ofLexeme .identifier ['a'] ⟨0, 1, 1⟩, .reference⟩,
          ⟨2, .ofLexeme .identifier ['b'] ⟨3, 2, 2⟩, .statementCell (some 3) (some 4)⟩,
          ⟨3, .ofLexeme .identifier ['b'] ⟨3, 2, 2⟩, .reference⟩,
          ⟨4, .endAt ⟨4, 2, 3⟩, .sentinel⟩]) ∧
      parseSource ("a" ++ "\n " ++ "b )") =
        .error (.parse ⟨.primary, 2, "')'", some "expression"⟩) ∧
      parseSource ("a" ++ "\n " ++ "\nb#") = .error (.lex ⟨'#', 3⟩) := by
  have parsed := parseSource_ofLetter_a
  have parsedToo : parseSource "b" = .ok (.ofLetter 'b') :=
    parseSource_eq_ok.mpr ⟨.ofLetter 'b',
      TokenBuffer.ofLexer_eq_ok.mpr (by decide), rfl⟩
  have lexed : TokenBuffer.ofSource "b )" = .ok .letterAndParen :=
    TokenBuffer.ofLexer_eq_ok.mpr (by decide)
  have stray : TokenBuffer.ofSource "\nb#" = .error ⟨'#', 2⟩ :=
    TokenBuffer.ofSource_eq_error.mpr (by decide)
  obtain ⟨tree, both, root, -, nodes⟩ :=
    (parseSource_append "a" "\n " "b" _ parsed (by decide) (by decide)).1 _ parsedToo
  have refused :=
    (parseSource_append "a" "\n " "b )" _ parsed (by decide) (by decide)).2.1 _ _ lexed
      (by decide) rfl
  have strayToo :=
    (parseSource_append "a" "\n " "\nb#" _ parsed (by decide) (by decide)).2.2 _ stray
  refine ⟨parsed, ⟨tree, both, root, ?_⟩, refused, strayToo⟩
  rw [nodes, ← Array.toList_inj, Array.toList_append, Array.toList_pop, Array.toList_map]
  rfl

/-- The tokens of ` |> b`. -/
def TokenBuffer.pipeToLetter : TokenBuffer where
  body := [.ofLexeme .pipe ['|', '>'] ⟨1, 1, 2⟩, .ofLexeme .identifier ['b'] ⟨4, 1, 5⟩]
  last := .endAt ⟨5, 1, 6⟩
  body_kind := by decide
  last_kind := rfl

/-- The tokens of `a  |> b`. -/
def TokenBuffer.letterToLetter : TokenBuffer where
  body := [.ofLexeme .identifier ['a'] ⟨0, 1, 1⟩, .ofLexeme .pipe ['|', '>'] ⟨3, 1, 4⟩,
    .ofLexeme .identifier ['b'] ⟨6, 1, 7⟩]
  last := .endAt ⟨7, 1, 8⟩
  body_kind := by decide
  last_kind := rfl

/-- It is the first token that counts. A source that starts with a blank may still go on with
the last expression. -/
theorem not_parseSource_append_of_blank :
    ¬ ∀ (first gap second : String) (front : Tree) (e : ParseError),
      parseSource first = .ok front → gap.toList.all isBlank → gap ≠ "" →
      ¬ Kind.pipe.spelling <+: second.toList → parseSource second = .error (.parse e) →
      parseSource (first ++ gap ++ second) =
        .error (.parse (e.shift (.past (first ++ gap).toList))) := by
  intro always
  have failed : parseSource " |> b" =
      .error (.parse ⟨.primary, 1, "'|>'", some "expression"⟩) :=
    parseSource_eq_parse_error.mpr ⟨.pipeToLetter, TokenBuffer.ofLexer_eq_ok.mpr (by decide), rfl⟩
  obtain ⟨tree, piped⟩ : ∃ tree, parseSource ("a" ++ " " ++ " |> b") = .ok tree :=
    ⟨_, parseSource_eq_ok.mpr ⟨.letterToLetter, TokenBuffer.ofLexer_eq_ok.mpr (by decide),
      rfl⟩⟩
  have refused :=
    always "a" " " " |> b" _ _ parseSource_ofLetter_a (by decide) (by decide) (by decide) failed
  rw [piped] at refused
  cases refused

end PipeScript
