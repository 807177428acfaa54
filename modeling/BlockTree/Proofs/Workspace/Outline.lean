import BlockTree.Proofs.Workspace.Standing
import BlockTree.Summary
import BlockTree.Workspace.Query

/-! The outline of a tree that stands in a workspace is the outline of its nodes. -/
namespace BlockTree.Workspace

variable {w : Workspace} {doc p n : NodeId}

theorem AllStand.length_eq {ns : List NodeId} {bs : List Block} (h : w.AllStand doc p ns bs) :
    ns.length = bs.length := by
  induction ns generalizing bs with
  | nil => cases bs with
    | nil => rfl
    | cons => exact h.elim
  | cons n ns ih => cases bs with
    | nil => exact h.elim
    | cons b bs => rw [List.length_cons, List.length_cons, ih h.2]

theorem lengthOf_shared {l : ListId} {ds : List Datum} (h : w.lists[l]? = some ds) :
    w.lengthOf (.shared l) = .ok ds.length := by
  have heach : (Datum.shared l).each w.lists = .ok ds := by
    rw [Datum.each, List.getD_eq_getElem?_getD, h, Option.getD_some]
  rw [lengthOf, heach]
  · rfl
  · intro v h
    cases h

theorem Stands.summary_eq {b : Block} (h : w.Stands doc p n b) : w.summary n = .ok b.summary := by
  cases b with
  | node f bs =>
    obtain ⟨-, lines, subs, m, ns, hnode, hlines, -, -, hall⟩ := h
    have hquote (s : String) : (w.resolve (.text s)).literal = Text.quote s := by
      rw [resolve, Datum.text, Datum.resolve]
      rfl
    have hsummary : (Block.node f bs).summary = summaryText "Block"
        (w.resolve (.text f.context)).literal (Value.str f.model.name).literal
        (w.resolve (.ofText? f.style)).literal (countText f.model bs.length f.lines.length) := by
      have hname : (Value.str f.model.name).literal = Text.quote f.model.name := rfl
      rw [Block.summary, hquote, hname]
      cases f.style with
      | none => rw [Datum.ofText?, resolve, Datum.null, Datum.resolve]
      | some s => rw [Datum.ofText?, hquote]
    rw [summary, node_eq_ok_iff.2 hnode, hsummary]
    refine (except_bind_of_ok rfl).trans ?_
    dsimp only [Node.described]
    rw [hall.length_eq, lengthOf_shared hlines, List.length_map]
    -- lines are counted only where they are shown
    by_cases hmodel : f.model = .compound
    · rw [if_pos hmodel, countText, if_pos hmodel]
      refine (except_bind_of_ok rfl).trans ?_
      rw [countText, if_pos hmodel]
      rfl
    · rw [if_neg hmodel]
      rfl

mutual
theorem Stands.outline_eq {fuel : Nat} (depth : Nat) {p n : NodeId} : (b : Block) →
    w.Stands doc p n b → 2 * (b.outline depth).length ≤ fuel + 1 →
    w.outline fuel depth n = .ok (b.outline depth)
  | .node f bs, h, hfuel => by
    have hline : w.outlineLine depth n =
        .ok (String.ofList (List.replicate (2 * depth) ' ') ++ (Block.node f bs).summary) := by
      rw [outlineLine, h.summary_eq]
      rfl
    obtain ⟨-, lines, subs, m, ns, hnode, -, -, -, hall⟩ := h
    rw [Block.outline, List.length_cons] at hfuel
    obtain ⟨fuel, rfl⟩ := Nat.exists_eq_add_one.2 (by omega : 0 < fuel)
    have hbelow := AllStand.outlines_eq (depth + 1) ns bs hall (by omega : _ ≤ fuel)
    rw [outline, Block.outline, hline, node_eq_ok_iff.2 hnode]
    exact except_bind_of_ok hbelow

theorem AllStand.outlines_eq {fuel : Nat} (depth : Nat) {p : NodeId} : (ns : List NodeId) →
    (bs : List Block) → w.AllStand doc p ns bs → 2 * (Block.outlines depth bs).length ≤ fuel →
    w.outlines fuel depth ns = .ok (Block.outlines depth bs)
  | [], [], _, _ => by rw [outlines, Block.outlines]
  | [], _ :: _, h, _ => h.elim
  | _ :: _, [], h, _ => h.elim
  | n :: ns, b :: bs, h, hfuel => by
    have hpos : 0 < (b.outline depth).length := by
      cases b with
      | node f bs => exact Nat.succ_pos _
    rw [Block.outlines, List.length_append] at hfuel
    obtain ⟨fuel, rfl⟩ := Nat.exists_eq_add_one.2 (by omega : 0 < fuel)
    have hfirst := Stands.outline_eq depth b h.1 (by omega : _ ≤ fuel + 1)
    have hrest := AllStand.outlines_eq depth ns bs h.2 (by omega : _ ≤ fuel)
    rw [outlines, Block.outlines, hfirst, hrest]
    rfl
end

end BlockTree.Workspace
