import Mathlib.Data.Set.Card
import BlockTree.Proofs.Tree.Rose
import BlockTree.Proofs.Workspace.Forest

/-! The tree below a node of a forest. It is finite, because fewer nodes are below a child than
below its parent, and it shows each of them once. -/
namespace BlockTree.Link

open Rose (toLists_eq_flatMap)

inductive Spans (ls : List Link) : Rose NodeId → Prop
  | node {n : NodeId} {ts : List (Rose NodeId)} : ts.map Rose.root = childrenAt ls n →
      (∀ t ∈ ts, Spans ls t) → Spans ls (.node n ts)

variable {ls : List Link} {attached : List NodeId} {n m : NodeId}

theorem Spans.mem_toList_iff {t : Rose NodeId} (h : Spans ls t) :
    m ∈ t.toList ↔ Below ls t.root m := by
  induction h with
  | @node n ts hroots hts ih =>
    rw [Rose.toList, List.mem_cons, toLists_eq_flatMap, List.mem_flatMap, Rose.root, Below,
      Relation.ReflTransGen.cases_head_iff, ← hroots]
    constructor
    · rintro (rfl | ⟨t, ht, hm⟩)
      · exact .inl rfl
      · exact .inr ⟨t.root, List.mem_map_of_mem ht, (ih t ht).1 hm⟩
    · rintro (rfl | ⟨c, hc, hm⟩)
      · exact .inl rfl
      · obtain ⟨t, ht, rfl⟩ := List.mem_map.1 hc
        exact .inr ⟨t, ht, (ih t ht).2 hm⟩

namespace Forest

theorem nodup_children (h : Forest attached ls) (n : NodeId) : (childrenAt ls n).Nodup := by
  cases Nat.lt_or_ge n ls.length with
  | inl hn =>
    rw [childrenAt, List.getElem?_eq_getElem hn]
    exact (List.nodup_flatMap.1 h.once).1 _ (List.getElem_mem hn)
  | inr hn =>
    rw [childrenAt, List.getElem?_eq_none hn]
    exact List.nodup_nil

theorem nodup_toList (h : Forest attached ls) {t : Rose NodeId} (ht : Spans ls t) :
    t.toList.Nodup := by
  induction ht with
  | @node n ts hroots hts ih =>
    have hchild {t : Rose NodeId} (ht : t ∈ ts) : t.root ∈ childrenAt ls n :=
      hroots ▸ List.mem_map_of_mem ht
    have hdistinct : ts.Pairwise fun t u => t.root ≠ u.root := by
      rw [← List.pairwise_map, hroots]
      exact h.nodup_children n
    rw [Rose.toList, List.nodup_cons, toLists_eq_flatMap, List.nodup_flatMap]
    refine ⟨?_, ih, ?_⟩
    · intro hn
      obtain ⟨t, ht, hnt⟩ := List.mem_flatMap.1 hn
      exact h.acyclic n t.root (hchild ht) ((hts t ht).mem_toList_iff.1 hnt)
    · refine hdistinct.imp_of_mem fun {t u} ht hu hne m hmt hmu => hne ?_
      exact h.eq_of_below (hchild ht) (hchild hu) ((hts t ht).mem_toList_iff.1 hmt)
        ((hts u hu).mem_toList_iff.1 hmu)

theorem lt_of_below (h : Forest attached ls) (hn : n < ls.length) (hm : Below ls n m) :
    m < ls.length := by
  cases Relation.ReflTransGen.cases_tail hm with
  | inl heq => rwa [heq]
  | inr hlast =>
    obtain ⟨q, -, hq⟩ := hlast
    exact h.known q m hq

theorem length_toList_le (h : Forest attached ls) {t : Rose NodeId} (ht : Spans ls t)
    (hroot : t.root < ls.length) : t.toList.length ≤ ls.length := by
  have hsub : t.toList ⊆ List.range ls.length := fun m hm =>
    List.mem_range.2 (h.lt_of_below hroot (ht.mem_toList_iff.1 hm))
  simpa using ((h.nodup_toList ht).subperm hsub).length_le

noncomputable def weight (ls : List Link) (n : NodeId) : Nat :=
  Set.ncard {m | m < ls.length ∧ Below ls n m}

theorem weight_lt (h : Forest attached ls) {c : NodeId} (hc : c ∈ childrenAt ls n) :
    weight ls c < weight ls n := by
  have hfinite : Set.Finite {m | m < ls.length ∧ Below ls n m} :=
    (Set.finite_lt_nat ls.length).subset fun m hm => hm.1
  apply Set.ncard_lt_ncard _ hfinite
  refine ⟨fun m hm => ⟨hm.1, .head hc hm.2⟩, fun hsub => ?_⟩
  have hself : n < ls.length ∧ Below ls c n := hsub ⟨lt_of_mem_childrenAt hc, .refl⟩
  exact h.acyclic n c hc hself.2

theorem exists_spans (h : Forest attached ls) (n : NodeId) :
    ∃ t : Rose NodeId, t.root = n ∧ Spans ls t := by
  induction hr : weight ls n using Nat.strongRecOn generalizing n with
  | ind r ih =>
    have hsome : ∀ c ∈ childrenAt ls n, ∃ t : Rose NodeId, t.root = c ∧ Spans ls t :=
      fun c hc => ih (weight ls c) (hr ▸ h.weight_lt hc) c rfl
    have hall (cs : List NodeId) (hcs : ∀ c ∈ cs, ∃ t : Rose NodeId, t.root = c ∧ Spans ls t) :
        ∃ ts : List (Rose NodeId), ts.map Rose.root = cs ∧ ∀ t ∈ ts, Spans ls t := by
      induction cs with
      | nil => exact ⟨[], rfl, List.forall_mem_nil _⟩
      | cons c cs ihcs =>
        obtain ⟨⟨t, hroot, ht⟩, hrest⟩ := List.forall_mem_cons.1 hcs
        obtain ⟨ts, hroots, hts⟩ := ihcs hrest
        exact ⟨t :: ts, by rw [List.map_cons, hroot, hroots], List.forall_mem_cons.2 ⟨ht, hts⟩⟩
    obtain ⟨ts, hroots, hts⟩ := hall _ hsome
    exact ⟨.node n ts, rfl, .node hroots hts⟩

end Forest

end BlockTree.Link
