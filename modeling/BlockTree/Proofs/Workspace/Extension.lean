import Mathlib.Data.List.Forall2
import BlockTree.Proofs.Workspace.Known

/-! Data read in a workspace that has been given more lists. What was there is read as before, and a
list that was made there reads as the items it was made of. -/
namespace BlockTree

def Workspace.extend (w : Workspace) (added : Lists) : Workspace :=
  { w with lists := w.lists ++ added }

/-- A datum as it is, with lists that have places below `k`, or a list at a new place with its
items. -/
inductive Datum.Realizes (k : Nat) (ls : Lists) : Datum → Datum → Prop
  | same {d : Datum} : d.Known k → Realizes k ls d d
  | list {ds : List Datum} {l : ListId} : k ≤ l → ls[l]? = some ds → (∀ d ∈ ds, d.Known k) →
      Realizes k ls (.items ds) (.shared l)

namespace Datum

variable {ls added more : Lists} {d d' : Datum} {k : Nat}

theorem getD_append {l : ListId} (hl : l < ls.length) :
    (ls ++ added).getD l [] = ls.getD l [] := by
  rw [List.getD_eq_getElem?_getD, List.getElem?_append_left hl, List.getD_eq_getElem?_getD]

theorem Known.each_append (h : d.Known ls.length) : d.each (ls ++ added) = d.each ls := by
  cases h with
  | shared hl => rw [Datum.each, getD_append hl, Datum.each]
  | value | items | fields => rfl

theorem Known.truthy_append (h : d.Known ls.length) :
    d.truthy (ls ++ added) = d.truthy ls := by
  cases h with
  | shared hl => rw [truthy, getD_append hl, truthy]
  | value | items | fields => rfl

/-- Lists that are above a datum count only where it can refer to them. -/
theorem Known.resolve_append (hls : ls.Known ls.length) (h : d.Known ls.length) (depth : Nat)
    {above above' : List ListId} (habove : ∀ l < ls.length, above'.contains l = above.contains l) :
    d.resolve (ls ++ added) depth above' = d.resolve ls depth above := by
  induction depth generalizing d above above' with
  | zero => cases h <;> rfl
  | succ depth ih =>
    cases h with
    | value => rfl
    | @shared l hl =>
      rw [resolve, resolve, habove l hl, getD_append hl]
      split
      · rfl
      · refine congrArg Value.list (List.map_congr_left fun x hx => ?_)
        refine ih (known_getD hls l x hx) fun m hm => ?_
        rw [List.contains_cons, List.contains_cons, habove m hm]
    | items hds => exact congrArg Value.list (List.map_congr_left fun x hx => ih (hds x hx) habove)
    | fields hes =>
      refine congrArg Value.map (List.map_congr_left fun e he => ?_)
      rw [ih (hes e he) habove]

theorem Known.pair_append (h : d.Known ls.length) (i : Nat) :
    Datum.pair (ls ++ added) i d = Datum.pair ls i d := by
  unfold Datum.pair
  split
  · rfl
  · rw [h.each_append]

theorem pairs_append {ds : List Datum} (hds : ∀ d ∈ ds, d.Known ls.length) (i : Nat) :
    pairs (ls ++ added) i ds = pairs ls i ds := by
  induction ds generalizing i with
  | nil => rfl
  | cons d ds ih =>
    obtain ⟨hd, hds⟩ := List.forall_mem_cons.1 hds
    rw [pairs, pairs, hd.pair_append, ih hds]

namespace Realizes

theorem mono (h : Realizes k ls d d') : Realizes k (ls ++ more) d d' := by
  cases h with
  | same h => exact .same h
  | list hk hl hds =>
    have hlt := (List.getElem?_eq_some_iff.1 hl).1
    exact .list hk (by rw [List.getElem?_append_left hlt, hl]) hds

theorem items_eq {ds : List Datum} {l : ListId} (hl : ls[l]? = some ds) : ls.getD l [] = ds := by
  rw [List.getD_eq_getElem?_getD, hl]
  rfl

theorem each (h : Realizes ls.length (ls ++ added) d d') : d'.each (ls ++ added) = d.each ls := by
  cases h with
  | same h => exact h.each_append
  | list _ hl => rw [Datum.each, items_eq hl, Datum.each]

theorem known_each (hls : ls.Known k) {ls' : Lists} (h : Realizes k ls' d d') {ds : List Datum}
    (hds : d.each ls = .ok ds) : ∀ x ∈ ds, x.Known k := by
  cases h with
  | same h => exact h.each hls hds
  | list _ _ hitems =>
    cases hds
    exact hitems

theorem truthy (h : Realizes ls.length (ls ++ added) d d') :
    d'.truthy (ls ++ added) = d.truthy ls := by
  cases h with
  | same h => exact h.truthy_append
  | list _ hl => rw [Datum.truthy, items_eq hl, Datum.truthy]

theorem join (h : Realizes ls.length (ls ++ added) d d') : d'.join (ls ++ added) = d.join ls := by
  rw [Datum.join, h.each, Datum.join]

theorem resolve (hls : ls.Known ls.length) (h : Realizes ls.length (ls ++ added) d d')
    (depth : Nat) : d'.resolve (ls ++ added) depth [] = d.resolve ls depth [] := by
  cases h with
  | same h => exact h.resolve_append hls depth fun _ _ => rfl
  | @list ds l hk hl hds =>
    cases depth with
    | zero => rfl
    | succ depth =>
      rw [Datum.resolve, Datum.resolve, items_eq hl]
      refine congrArg Value.list (List.map_congr_left fun x hx => ?_)
      refine (hds x hx).resolve_append hls depth fun m hm => ?_
      -- the new list is above its items, but none of them can refer to it
      have hne : m ≠ l := Nat.ne_of_lt (Nat.lt_of_lt_of_le hm hk)
      simp [hne]

theorem isNull (h : Realizes k ls d d') : d'.isNull = d.isNull := by
  cases h <;> rfl

theorem text? (h : Realizes k ls d d') : d'.text? = d.text? := by
  cases h <;> rfl

theorem kind (h : Realizes k ls d d') : d'.kind = d.kind := by
  cases h <;> rfl

theorem joined {ds ds' : List Datum} (h : List.Forall₂ (Realizes k ls) ds ds') (i : Nat) :
    Datum.joined i ds' = Datum.joined i ds := by
  induction h generalizing i with
  | nil => rfl
  | @cons d d' ds ds' hd _ ih =>
    rw [Datum.joined, Datum.joined, hd.text?, hd.kind, ih]

theorem joinOutputs {ds ds' : List Datum} (h : List.Forall₂ (Realizes k ls) ds ds') :
    Workspace.joinOutputs ds' = Workspace.joinOutputs ds := by
  have hfilter : List.Forall₂ (Realizes k ls) (ds.filter (!·.isNull)) (ds'.filter (!·.isNull)) := by
    refine List.rel_filter (fun d d' hd => ?_) h
    change (!d.isNull) = true ↔ (!d'.isNull) = true
    rw [hd.isNull]
  rw [Workspace.joinOutputs, joined hfilter, Workspace.joinOutputs]

end Realizes

end Datum

variable {ls added : Lists} {d : Datum}

theorem DataEntries.ofDatum_append (hls : ls.Known ls.length) (h : d.Known ls.length) :
    ofDatum (ls ++ added) d = ofDatum ls d := by
  unfold ofDatum
  rw [h.truthy_append]
  split
  · split
    · rfl
    · rfl
    · rw [h.each_append]
      cases hds : d.each ls with
      | error f => rfl
      | ok ds =>
        change (Datum.pairs (ls ++ added) 0 ds >>= _) = (Datum.pairs ls 0 ds >>= _)
        rw [Datum.pairs_append (h.each hls hds)]
  · rfl

namespace Options

theorem convertSubs_append (h : d.Known ls.length) :
    convertSubs (ls ++ added) d = convertSubs ls d := by
  unfold convertSubs
  split
  · rfl
  · rw [h.truthy_append, h.each_append]

theorem lines_append (h : d.Known ls.length) : lines (ls ++ added) d = lines ls d := by
  unfold lines
  split
  · rfl
  · rw [h.truthy_append, h.each_append]

theorem convertIn_append (hls : ls.Known ls.length) (h : d.Known ls.length) (depth : Nat)
    (f : OptionField) : convertIn (ls ++ added) depth d f = convertIn ls depth d f := by
  cases f with
  | model => simp only [convertIn, h.resolve_append hls depth fun _ _ => rfl]
  | attributes => simp only [convertIn, DataEntries.ofDatum_append hls h]
  | subs => simp only [convertIn, convertSubs_append h]
  | source => rfl

end Options

end BlockTree
