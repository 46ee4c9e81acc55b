import Mathlib.Data.List.Basic
import PipeScript.Proofs.Sites

/-!
# Tokens at nodes

Every node of a tree is anchored at a token of its program, or at the one behind it. Along the
parts of a syntax tree the tokens stay in order (`Site.tokens_sublist`), so what relates the
tokens of a program, each to those behind it, relates the anchors of the arguments of a call in
the same way (`Tree.pairwise_itemIds`).
-/

namespace PipeScript

namespace Site

variable {site part inner : Site} {node : Node}

/-- The tokens of a part stand among those of the whole, and so does the one behind it. -/
theorem tokens_sublist (isPart : part ∈ site.parts) :
    (part.form.tokens ++ [part.follow]).Sublist (site.form.tokens ++ [site.follow]) := by
  obtain ⟨form, follow, n⟩ := site
  cases form with
  | noStatements => cases isPart
  | statements first rest =>
    rw [SyntaxTree.tokens_statements]
    rcases List.mem_pair.mp isPart with rfl | rfl
    · exact (List.sublist_append_left _ _).append_right _
    · exact (List.sublist_append_right _ _).append_right _
  | definition =>
    cases List.mem_singleton.mp isPart
    exact (List.sublist_append_right [_, _, _] _).append_right _
  | plain =>
    cases List.mem_singleton.mp isPart
    exact List.Sublist.refl _
  | operand =>
    cases List.mem_singleton.mp isPart
    exact List.Sublist.refl _
  | pipe =>
    rw [SyntaxTree.tokens_pipe]
    rcases List.mem_pair.mp isPart with rfl | rfl
    · exact (List.sublist_append_left _ _).append_right _
    · exact (((List.sublist_cons_self _ _).trans (List.sublist_append_right _ _))).append_right _
  | number => cases isPart
  | name => cases isPart
  | function =>
    cases List.mem_singleton.mp isPart
    rw [SyntaxTree.tokens_function]
    exact (List.sublist_cons_self _ _).trans (List.sublist_append_left _ _)
  | call =>
    rw [SyntaxTree.tokens_call]
    rcases List.mem_pair.mp isPart with rfl | rfl
    · exact ((List.sublist_append_left _ _).trans (List.sublist_cons_self _ _)).append_right _
    · exact (((List.sublist_append_left _ _).trans (List.sublist_append_right _ _)).trans
        (List.sublist_cons_self _ _)).append_right _
  | noArguments => cases isPart
  | arguments =>
    rw [SyntaxTree.tokens_arguments]
    rcases List.mem_pair.mp isPart with rfl | rfl
    · exact (List.sublist_append_left _ _).append_right _
    · exact (List.sublist_append_right _ _).append_right _

theorem Within.tokens_sublist (within : inner.Within site) :
    (inner.form.tokens ++ [inner.follow]).Sublist (site.form.tokens ++ [site.follow]) := by
  induction within with
  | refl => exact List.Sublist.refl _
  | step _ isPart ih => exact ih.trans (Site.tokens_sublist isPart)

/-- A node is anchored at a token of its tree, and only a sentinel at the one behind it. -/
theorem token_own (own : site.own? = some node) :
    node.token ∈ site.form.tokens ∨ node.isSentinel ∧ node.token = site.follow := by
  obtain ⟨form, follow, n⟩ := site
  cases form with
  | noStatements =>
    cases own
    exact Or.inr ⟨rfl, rfl⟩
  | statements first rest =>
    obtain ⟨t, ts, eq, -⟩ := first.starts
    cases own
    simp [eq]
  | plain | operand | noArguments => cases own
  | arguments first rest =>
    obtain ⟨t, ts, eq, -⟩ := first.starts
    cases own
    simp [eq]
  | _ =>
    cases own
    simp

theorem token_mem (mem : node ∈ site.nodes) : node.token ∈ site.form.tokens ++ [site.follow] := by
  obtain ⟨inner, within, own⟩ := site.exists_own mem
  apply within.tokens_sublist.subset
  rcases token_own own with isToken | ⟨-, behind⟩
  · exact List.mem_append_left _ isToken
  · exact List.mem_append_right _ (List.mem_singleton.mpr behind)

end Site

namespace Tree

variable {tree : Tree}

/-- The node that stands for a statement, an expression or an operand is anchored at one of its
tokens. -/
theorem HasSite.exists_anchor {site : Site} (has : tree.HasSite site) {id : NodeId}
    (slot : site.slot = some id) (notList : site.part ≠ .statements)
    (notArguments : site.part ≠ .arguments) :
    ∃ node, tree.node? id = some node ∧ node.token ∈ site.form.tokens := by
  induction site using Site.induction with
  | step site ih =>
    cases own : site.own? with
    | some node =>
      rw [(Site.children_own own).1] at slot
      cases slot
      refine ⟨node, has.own own, ?_⟩
      rcases Site.token_own own with isToken | ⟨sentinel, -⟩
      · exact isToken
      · obtain ⟨form, follow, n⟩ := site
        cases form <;> first | contradiction | (cases own; cases sentinel)
    | none =>
      obtain ⟨form, follow, n⟩ := site
      cases form with
      | plain value =>
        exact ih ⟨value, follow, n⟩ List.mem_cons_self (has.only rfl)
          ((SyntaxTree.slot_eq_some (by decide) value n).trans slot) nofun nofun
      | operand value =>
        exact ih ⟨value, follow, n⟩ List.mem_cons_self (has.only rfl)
          ((SyntaxTree.slot_eq_some (by decide) value n).trans slot) nofun nofun
      | noArguments => cases slot
      | _ => cases own

/-- What relates the tokens of some arguments, each to those behind it, relates the anchors of
the arguments. -/
theorem pairwise_itemIds {before : Token → Token → Prop} (list : SyntaxTree TokenOf .arguments)
    (follow : Token) (n : NodeId) (has : tree.HasSite ⟨list, follow, n⟩)
    (pairs : list.tokens.Pairwise before) :
    (list.itemIds n).Pairwise (fun a b => ∃ u v, tree.node? a = some u ∧ tree.node? b = some v ∧
        before u.token v.token) ∧
      ∀ id ∈ list.itemIds n, ∃ node, tree.node? id = some node ∧ node.token ∈ list.tokens := by
  cases list with
  | noArguments => exact ⟨List.Pairwise.nil, nofun⟩
  | arguments first rest =>
    obtain ⟨hasFirst, hasRest⟩ := has.both rfl
    rw [SyntaxTree.tokens_arguments] at pairs ⊢
    obtain ⟨-, restPairs, across⟩ := List.pairwise_append.mp pairs
    obtain ⟨others, anchors⟩ := pairwise_itemIds rest follow _ hasRest restPairs
    obtain ⟨u, found, isToken⟩ :=
      hasFirst.exists_anchor (SyntaxTree.slot_eq_some (by decide) first n) nofun nofun
    rw [SyntaxTree.itemIds]
    refine ⟨List.pairwise_cons.mpr ⟨?_, others⟩, List.forall_mem_cons.mpr ⟨?_, ?_⟩⟩
    · intro id mem
      obtain ⟨v, foundToo, isTokenToo⟩ := anchors id mem
      exact ⟨u, v, found, foundToo, across _ isToken _ isTokenToo⟩
    · exact ⟨u, found, List.mem_append_left _ isToken⟩
    · intro id mem
      obtain ⟨v, foundToo, isTokenToo⟩ := anchors id mem
      exact ⟨v, foundToo, List.mem_append_right _ isTokenToo⟩

end Tree

end PipeScript
