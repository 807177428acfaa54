import BlockTree.Proofs.Workspace.OwnContent
import BlockTree.Proofs.Workspace.Walk

/-! Trees of blocks that nodes hold. Where all converters leave contents as they are, the content of
a node is that of the tree. -/
namespace BlockTree

namespace Workspace

variable {w : Workspace} {p : Pipeline (Run Tally)}

def Unconverted (w : Workspace) (b : Node) : Prop :=
  ∃ home, w.documentOf b = .ok home ∧ ∀ x ∈ home, x.2 = Converter.content

theorem Unconverted.converted_eq {n : NodeId} {b : Node} (hb : w.nodes[n]? = some b)
    (h : w.Unconverted b) (content : Run Tally Datum) : w.converted n content = content := by
  obtain ⟨home, hhome, hcontent⟩ := h
  rw [converted, node_eq_ok_iff.2 hb]
  refine Eq.trans (pure_bind _ _) ?_
  rw [hhome]
  refine Eq.trans (pure_bind _ _) ?_
  match home with
  | none => rfl
  | some (pipe, converter) =>
    obtain rfl : converter = .content := hcontent _ rfl
    rfl

mutual
/-- A node contains a block, under the pipeline `p`, and its children hold the children of the
block. Children have greater numbers than the node. -/
def Holds (w : Workspace) (p : Pipeline (Run Tally)) (n : NodeId) : Block → Prop
  | .node f bs => w.Contains n f.model f.lines f.subs p ∧
      ∃ b, w.nodes[n]? = some b ∧ w.Unconverted b ∧ AllHold w p n b.children bs

def AllHold (w : Workspace) (p : Pipeline (Run Tally)) (parent : NodeId) :
    List NodeId → List Block → Prop
  | [], [] => True
  | n :: ns, b :: bs => (parent < n ∧ Holds w p n b) ∧ AllHold w p parent ns bs
  | _, _ => False
end

theorem allHold_map {parent : NodeId} {ks : List Nat} {f : Nat → NodeId} {g : Nat → Block}
    (h : ∀ k ∈ ks, parent < f k ∧ w.Holds p (f k) (g k)) :
    w.AllHold p parent (ks.map f) (ks.map g) := by
  induction ks with
  | nil => trivial
  | cons k ks ih =>
    obtain ⟨hk, hks⟩ := List.forall_mem_cons.1 h
    exact ⟨hk, ih hks⟩

/-- The fuel that it takes at most to pass the nodes from `n` on: some for each of them, and one
unit more for each child that is looked at. -/
def ahead (w : Workspace) (n : NodeId) : Nat :=
  ((w.nodes.drop n).map fun b => b.children.length + 4).sum

theorem ahead_eq {n : NodeId} {b : Node} (hb : w.nodes[n]? = some b) :
    w.ahead n = b.children.length + 4 + w.ahead (n + 1) := by
  obtain ⟨hn, rfl⟩ := List.getElem?_eq_some_iff.1 hb
  rw [ahead, ahead, List.drop_eq_getElem_cons hn, List.map_cons, List.sum_cons]

theorem ahead_le {m n : NodeId} (h : m ≤ n) : w.ahead n ≤ w.ahead m := by
  obtain ⟨k, rfl⟩ := Nat.exists_eq_add_of_le h
  rw [ahead, ahead, ← List.take_append_drop k (w.nodes.drop m), List.map_append, List.sum_append,
    List.drop_drop]
  exact Nat.le_add_left _ _

theorem ahead_le_reach (n : NodeId) : w.ahead n ≤ w.reach := by
  have hfold (bs : List Node) (k : Nat) : bs.foldl (fun n b => n + b.children.length + 4) k =
      k + (bs.map fun b => b.children.length + 4).sum := by
    induction bs generalizing k with
    | nil => rfl
    | cons b bs ih => rw [List.foldl_cons, ih, List.map_cons, List.sum_cons]; omega
  have hall : w.reach = 4 + w.ahead 0 := hfold w.nodes 4
  have hn : w.ahead n ≤ w.ahead 0 := ahead_le (Nat.zero_le n)
  omega

end Workspace

theorem Block.contents_eq_mapM {m : Type → Type} [Monad m] [LawfulMonad m] (p : Pipeline m)
    (bs : List Block) :
    contents p bs = (fun cs => cs.flatMap Option.toList) <$> bs.mapM (·.content p) := by
  induction bs with
  | nil => simp [contents]
  | cons b bs ih => simp [contents, ih]

namespace Workspace

variable {w : Workspace} {p : Pipeline (Run Tally)}

theorem joinOutputs_texts (cs : List (Option String)) :
    joinOutputs (cs.map .ofText?) = .ok (.text (Text.joinLines (cs.flatMap Option.toList))) := by
  have hsome : (cs.map Datum.ofText?).filter (!·.isNull) =
      (cs.flatMap Option.toList).map Datum.text := by
    induction cs with
    | nil => rfl
    | cons c cs ih => cases c <;> simp [Datum.ofText?, Datum.isNull, Datum.null, Datum.text, ← ih]
  rw [joinOutputs, hsome]
  exact except_bind_of_ok (Datum.joined_texts 0 _)

mutual
/-- The content of a node is that of the tree that it holds. -/
theorem content_held (fuel : Nat) (n : NodeId) : (b : Block) → w.Holds p n b → w.ahead n ≤ fuel →
    w.content fuel n = .ofText? <$> b.content p
  | .node f bs, ⟨hn, b, hb, _, hbs⟩, hfuel => by
    rw [ahead_eq hb] at hfuel
    obtain ⟨fuel, rfl⟩ := Nat.exists_eq_add_one.2 (by omega : 0 < fuel)
    by_cases hf : f.model = .compound
    · have hbelow := outputs_held fuel n b.children bs hbs (by omega)
      obtain ⟨b', ls, subs, hb', hbody, -⟩ := hn
      obtain rfl : b = b' := Option.some.inj (hb.symm.trans hb')
      rw [content, node_eq_ok_iff.2 hb]
      refine Eq.trans (pure_bind _ _) ?_
      rw [hbody, Block.content, if_pos hf, Block.contents_eq_mapM]
      refine Eq.trans (if_pos hf) ?_
      simp only [hbelow, map_eq_pure_bind, bind_assoc, pure_bind, joinOutputs_texts]
      rfl
    · exact content_eq hn hf bs fuel

theorem outputs_held (fuel : Nat) (parent : NodeId) : (ns : List NodeId) → (bs : List Block) →
    w.AllHold p parent ns bs → w.ahead (parent + 1) + ns.length + 1 ≤ fuel →
    w.outputs fuel ns = (fun cs => cs.map .ofText?) <$> bs.mapM (·.content p)
  | [], [], _, _ => by
    rw [outputs]
    rfl
  | n :: ns, b :: bs, ⟨⟨hn, hb⟩, hbs⟩, hfuel => by
    rw [List.length_cons] at hfuel
    obtain ⟨fuel, rfl⟩ := Nat.exists_eq_add_of_le' (by omega : 2 ≤ fuel)
    -- all that is ahead of a child is ahead of the node after its parent, too
    have hahead : w.ahead n ≤ w.ahead (parent + 1) := ahead_le hn
    have hfirst := content_held fuel n b hb (by omega)
    have hrest := outputs_held (fuel + 1) parent ns bs hbs (by omega)
    have hconvert : w.convert (fuel + 1) n = w.content fuel n := by
      rw [convert_succ]
      obtain ⟨f, bs⟩ := b
      obtain ⟨-, c, hc, hplain, -⟩ := hb
      exact hplain.converted_eq hc _
    rw [outputs, hconvert, hfirst, hrest, List.mapM_cons]
    simp only [map_eq_pure_bind, bind_assoc, pure_bind, List.map_cons]
  | [], _ :: _, h, _ | _ :: _, [], h, _ => h.elim
end

end Workspace

end BlockTree
