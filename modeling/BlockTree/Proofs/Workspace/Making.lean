import BlockTree.Proofs.Workspace.Frame

/-! Blocks that are made from a model, attributes, substitutions and a source, by way of options
that are made from these. -/
namespace BlockTree

namespace Options

variable {w : Workspace} {model : ContentModel} {es : DataEntries} {names lines : List Datum}
  {dm da dn source : Datum}

theorem lines_place (w : Workspace) (hsource : ∀ l, source ≠ .shared l) (ls : Lists) :
    Options.lines (w.place source).2.lists (w.place source).1 = Options.lines ls source := by
  have hnew : ∀ ds, Options.lines (w.addList ds).2.lists (.shared (w.addList ds).1) = .ok ds := by
    simp [Options.lines, Datum.text?, Datum.truthy, Datum.each]
  cases source with
  | shared l => exact absurd rfl (hsource l)
  | items ds => exact (hnew ds).trans (by cases ds <;> rfl)
  | fields es => rfl
  | value v =>
    cases v with
    | list vs => exact (hnew (vs.map .value)).trans (by cases vs <;> rfl)
    | _ => rfl

/-- Options that are made from all fields hold the second mapping and the second list that are made;
the first ones were those of the default. -/
theorem ofFields_eq (hmodel : ContentModel.ofValue (w.resolve dm) = .ok model)
    (hattributes : DataEntries.ofDatum w.lists da = .ok es)
    (hsubs : convertSubs w.lists dn = .ok names) (source : Datum) :
    ofFields w [("content_model", dm), ("attributes", da), ("subs", dn), ("source", source)] =
      let w₁ := w.adding [[], names] [[], es]
      .ok (⟨model, w.maps.length + 1, w.lists.length + 1, (w₁.place source).1⟩,
        (w₁.place source).2) := by
  have hm : convert w dm .model = .ok (.model model) := except_bind_of_ok hmodel
  have ha : convert w da .attributes = .ok (.attributes es) := except_bind_of_ok hattributes
  have hn : convert w dn .subs = .ok (.subs names) := except_bind_of_ok hsubs
  have hs : convert w source .source = .ok (.source source) := rfl
  simp [ofFields, OptionField.named?, List.lookup_cons, hm, ha, hn, hs, default, assign, bind,
    Except.bind, pure, Except.pure]

end Options

theorem getElem?_append_two {α : Type} (xs ys : List α) (a b : α) :
    (xs ++ (ys ++ [a, b]))[(xs ++ ys).length]? = some a ∧
      (xs ++ (ys ++ [a, b]))[(xs ++ ys).length + 1]? = some b := by
  rw [← List.append_assoc, List.getElem?_append_right (Nat.le_refl _),
    List.getElem?_append_right (Nat.le_add_right _ _), Nat.sub_self, Nat.add_sub_cancel_left]
  exact ⟨rfl, rfl⟩

namespace Workspace

variable {w : Workspace} {model : ContentModel} {es : DataEntries} {names lines : List Datum}
  {dm da dn source : Datum}

theorem made_of_fields (hmodel : ContentModel.ofValue (w.resolve dm) = .ok model)
    (hattributes : DataEntries.ofDatum w.lists da = .ok es)
    (hsubs : Options.convertSubs w.lists dn = .ok names) (hsource : ∀ l, source ≠ .shared l)
    (hlines : Options.lines w.lists source = .ok lines) :
    ∃ o ls ms, Options.ofFields w
        [("content_model", dm), ("attributes", da), ("subs", dn), ("source", source)] =
          .ok (o, w.adding ls ms) ∧
      ∀ label context parent, (w.adding ls ms).addBlock label context parent o =
        .ok ((w.adding (ls ++ [lines, names]) (ms ++ [es])).addNode
          (.fresh w label parent context (w.maps ++ ms).length (.block model
            (.shared (w.lists ++ ls).length) (.shared ((w.lists ++ ls).length + 1))))) := by
  let w₁ := w.adding [[], names] [[], es]
  obtain ⟨ls, hplace, -⟩ := w₁.place_eq source
  refine ⟨⟨model, w.maps.length + 1, w.lists.length + 1, (w₁.place source).1⟩,
    [[], names] ++ ls, [[], es], ?_, fun label context parent => ?_⟩
  · rw [Options.ofFields_eq hmodel hattributes hsubs]
    simp only [w₁] at hplace ⊢
    rw [hplace]
    simp
  · have hlines' : Options.lines (w.adding ([[], names] ++ ls) [[], es]).lists (w₁.place source).1 =
        .ok lines := by
      rw [← hlines, ← Options.lines_place w₁ hsource w.lists, hplace]
      simp [w₁]
    rw [addBlock_of_lines hlines']
    simp [withBlock, listAt, entriesAt, Node.fresh]

end Workspace

end BlockTree
