import BlockTree.Workspace.Move

/-! Stores: lists and mappings, what every node and all options hold of them, and the lists that can
be changed from outside. As long as nothing is held twice, or held and open to others, what is done
through one holder is not seen at another. -/
namespace BlockTree

structure Holding where
  slots : List Datum
  attributes : MapId

/-- What a holder holds, with the items of its lists and the entries of its mapping. -/
structure Stored where
  slots : List Datum
  attributes : DataEntries

inductive Place
  | list (l : ListId)
  | map (m : MapId)

/-- A place in a table that was `k` long and is `k'` long now, of what has been added. -/
def IsNew (k k' i : Nat) : Prop := k ≤ i ∧ i < k'

theorem IsNew.mono {k k' k'' i : Nat} (h : IsNew k k' i) (hle : k' ≤ k'') : IsNew k k'' i :=
  ⟨h.1, Nat.lt_of_lt_of_le h.2 hle⟩

theorem IsNew.later {k k' k'' i : Nat} (h : IsNew k' k'' i) (hle : k ≤ k') : IsNew k k'' i :=
  ⟨Nat.le_trans hle h.1, h.2⟩

theorem IsNew.ne {k k' k'' i j : Nat} (hi : IsNew k k' i) (hj : IsNew k' k'' j) : i ≠ j :=
  Nat.ne_of_lt (Nat.lt_of_lt_of_le hi.2 hj.1)

def Holding.Has (h : Holding) : Place → Prop
  | .list l => .shared l ∈ h.slots
  | .map m => h.attributes = m

/-- The lists, the mappings, what refers to them, and the lists that are open, so that anyone may
change them. -/
structure Store where
  lists : Lists
  maps : List DataEntries
  holding : Holder → Option Holding
  opened : List ListId

namespace Store

def Owns (s : Store) (x : Holder) (p : Place) : Prop := ∃ h, s.holding x = some h ∧ h.Has p

def Known (s : Store) : Place → Prop
  | .list l => l < s.lists.length
  | .map m => m < s.maps.length

def New (s : Store) (ls : Lists) (ms : List DataEntries) : Place → Prop
  | .list l => IsNew s.lists.length (s.lists.length + ls.length) l
  | .map m => IsNew s.maps.length (s.maps.length + ms.length) m

def contents (s : Store) : Datum → Datum
  | .shared l => .items (s.lists.getD l [])
  | d => d

def stored (s : Store) (x : Holder) : Option Stored :=
  (s.holding x).map fun h => ⟨h.slots.map s.contents, s.maps.getD h.attributes []⟩

/-- What is done to a store at once. A holder that is there already comes to hold something else
only if it is the target, and it then holds what it held or what is new. -/
inductive Step (s : Store) (target : Option Holder) : Store → Prop
  | grow {opened : List ListId} (ls : Lists) (ms : List DataEntries) :
      (∀ l ∈ opened, l ∈ s.opened ∨ s.New ls ms (.list l)) →
      Step s target ⟨s.lists ++ ls, s.maps ++ ms, s.holding, opened⟩
  | hold {x : Holder} {h : Holding} {holding : Holder → Option Holding} {opened : List ListId}
      (ls : Lists) (ms : List DataEntries) : s.holding x = none ∨ target = some x →
      holding x = some h → (∀ y, y ≠ x → holding y = s.holding y) →
      (∀ p, h.Has p → s.Owns x p ∨ s.New ls ms p) →
      (∀ l ∈ opened,
        l ∈ s.opened ∨ s.New ls ms (.list l) ∧ (h.Has (.list l) → s.Owns x (.list l))) →
      Step s target ⟨s.lists ++ ls, s.maps ++ ms, holding, opened⟩
  | rewrite {l : ListId} (ds : List Datum) :
      l ∈ s.opened ∨ (∃ x, target = some x ∧ s.Owns x (.list l)) →
      Step s target { s with lists := s.lists.set l ds }
  | remap {m : MapId} {x : Holder} (es : DataEntries) : target = some x → s.Owns x (.map m) →
      Step s target { s with maps := s.maps.set m es }

/-- Nothing is held twice, and no list that is held is open. -/
structure Separate (s : Store) : Prop where
  known {x : Holder} {p : Place} : s.Owns x p → s.Known p
  single {x y : Holder} {p : Place} : s.Owns x p → s.Owns y p → x = y
  closed {x : Holder} {l : ListId} : s.Owns x (.list l) → l ∉ s.opened
  listed {l : ListId} : l ∈ s.opened → s.Known (.list l)

variable {s s' : Store} {target : Option Holder} {x : Holder} {p : Place}
  {ls : Lists} {ms : List DataEntries} {holding : Holder → Option Holding} {opened : List ListId}

theorem Step.keep : Step s target s := by
  have h : Step s target ⟨s.lists ++ [], s.maps ++ [], s.holding, s.opened⟩ :=
    .grow [] [] fun _ hl => .inl hl
  rwa [List.append_nil, List.append_nil] at h

theorem Separate.empty (holding : Holder → Option Holding) (h : ∀ x, holding x = none) :
    Separate ⟨[], [], holding, []⟩ := by
  have hnone {x : Holder} {p : Place} : ¬ Owns ⟨[], [], holding, []⟩ x p := by
    rintro ⟨k, hk, -⟩
    cases (h x).symm.trans hk
  exact ⟨fun h => absurd h hnone, fun h => absurd h hnone, fun _ => List.not_mem_nil,
    fun h => absurd h List.not_mem_nil⟩

theorem Known.adding (h : s.Known p) : Known ⟨s.lists ++ ls, s.maps ++ ms, holding, opened⟩ p := by
  cases p <;> simp only [Known, List.length_append] at h ⊢ <;> exact Nat.lt_add_right _ h

theorem New.known (h : s.New ls ms p) :
    Known ⟨s.lists ++ ls, s.maps ++ ms, holding, opened⟩ p := by
  cases p <;> simp only [Known, List.length_append] <;> exact h.2

theorem New.not_known (h : s.New ls ms p) : ¬ s.Known p := by
  cases p <;> exact Nat.not_lt.2 h.1

theorem Owns.congr (h : s'.Owns x p) (hx : s'.holding x = s.holding x) : s.Owns x p := by
  obtain ⟨k, hk, hp⟩ := h
  exact ⟨k, hx.symm.trans hk, hp⟩

theorem stored_congr (hx : s'.holding x = s.holding x)
    (hl : ∀ l, s.Owns x (.list l) → s'.lists[l]? = s.lists[l]?)
    (hm : ∀ m, s.Owns x (.map m) → s'.maps[m]? = s.maps[m]?) : s'.stored x = s.stored x := by
  rw [stored, stored, hx]
  cases hh : s.holding x with
  | none => rfl
  | some h =>
    have hslots : h.slots.map s'.contents = h.slots.map s.contents := by
      refine List.map_congr_left fun d hd => ?_
      cases d with
      | shared l => simp only [contents, List.getD_eq_getElem?_getD, hl l ⟨h, hh, hd⟩]
      | _ => rfl
    have hmap : s'.maps.getD h.attributes [] = s.maps.getD h.attributes [] := by
      rw [List.getD_eq_getElem?_getD, List.getD_eq_getElem?_getD, hm _ ⟨h, hh, rfl⟩]
    simp only [Option.map_some, hslots, hmap]

theorem Separate.stored_adding (hs : s.Separate) (hx : holding x = s.holding x) :
    stored ⟨s.lists ++ ls, s.maps ++ ms, holding, opened⟩ x = s.stored x :=
  stored_congr hx (fun _ hl => List.getElem?_append_left (hs.known hl))
    fun _ hm => List.getElem?_append_left (hs.known hm)

/-- What a step is not done to is stored as before. -/
theorem Step.stored_eq (hs : s.Separate) (hstep : Step s target s') (hx : s.holding x ≠ none)
    (hother : target ≠ some x) : s'.stored x = s.stored x := by
  cases hstep with
  | grow => exact hs.stored_adding rfl
  | @hold y _ _ _ _ _ hy _ hrest =>
    have hne : x ≠ y := by
      rintro rfl
      exact hy.elim hx hother
    exact hs.stored_adding (hrest x hne)
  | @rewrite l _ hl =>
    refine stored_congr rfl (fun l' hl' => List.getElem?_set_ne ?_) fun _ _ => rfl
    rintro rfl
    obtain hopen | ⟨y, htarget, hown⟩ := hl
    · exact hs.closed hl' hopen
    · exact hother (htarget.trans (congrArg some (hs.single hown hl')))
  | @remap m y _ htarget hown =>
    refine stored_congr rfl (fun _ _ => rfl) fun m' hm' => List.getElem?_set_ne ?_
    rintro rfl
    exact hother (htarget.trans (congrArg some (hs.single hown hm')))

theorem Separate.rewrite (hs : s.Separate) {lists : Lists} {maps : List DataEntries}
    (hl : lists.length = s.lists.length) (hm : maps.length = s.maps.length) :
    Separate { s with lists := lists, maps := maps } := by
  have hknown {p : Place} (h : s.Known p) : Known { s with lists := lists, maps := maps } p := by
    cases p with
    | list l => exact Nat.lt_of_lt_of_eq h hl.symm
    | map m => exact Nat.lt_of_lt_of_eq h hm.symm
  exact ⟨fun h => hknown (hs.known h), hs.single, hs.closed, fun h => hknown (hs.listed h)⟩

theorem Separate.hold (hs : s.Separate) {h : Holding} (hx : holding x = some h)
    (hrest : ∀ y, y ≠ x → holding y = s.holding y)
    (hhas : ∀ p, h.Has p → s.Owns x p ∨ s.New ls ms p)
    (hopened : ∀ l ∈ opened,
      l ∈ s.opened ∨ s.New ls ms (.list l) ∧ (h.Has (.list l) → s.Owns x (.list l))) :
    Separate ⟨s.lists ++ ls, s.maps ++ ms, holding, opened⟩ := by
  have howns {y : Holder} {p : Place}
      (hy : Owns ⟨s.lists ++ ls, s.maps ++ ms, holding, opened⟩ y p) :
      s.Owns y p ∨ y = x ∧ h.Has p ∧ s.New ls ms p := by
    by_cases hyx : y = x
    · subst hyx
      obtain ⟨k, hk, hp⟩ := hy
      obtain rfl : h = k := Option.some.inj (hx.symm.trans hk)
      exact (hhas p hp).imp_right fun hnew => ⟨rfl, hp, hnew⟩
    · exact .inl (hy.congr (hrest y hyx))
  refine ⟨fun hy => ?_, fun hy hz => ?_, fun {y l} hy hl => ?_, fun hl => ?_⟩
  · obtain hy | ⟨-, -, hnew⟩ := howns hy
    · exact (hs.known hy).adding
    · exact hnew.known
  · -- what was held before is not new, so both hold it as before or now
    obtain hy | ⟨rfl, -, hnew⟩ := howns hy <;> obtain hz | ⟨rfl, -, hnew'⟩ := howns hz
    · exact hs.single hy hz
    · exact absurd (hs.known hy) hnew'.not_known
    · exact absurd (hs.known hz) hnew.not_known
    · rfl
  · obtain hopen | ⟨hnew, hown⟩ := hopened l hl
    · obtain hy | ⟨-, -, hnew⟩ := howns hy
      · exact hs.closed hy hopen
      · exact hnew.not_known (hs.listed hopen)
    · obtain hy | ⟨-, hp, -⟩ := howns hy
      · exact hnew.not_known (hs.known hy)
      · exact hnew.not_known (hs.known (hown hp))
  · obtain hopen | ⟨hnew, -⟩ := hopened _ hl
    · exact (hs.listed hopen).adding
    · exact hnew.known

theorem Step.separate (hs : s.Separate) (hstep : Step s target s') : s'.Separate := by
  cases hstep with
  | grow ls ms hopened =>
    refine ⟨fun h => (hs.known h).adding, hs.single, fun h hl => ?_, fun hl => ?_⟩
    · obtain hopen | hnew := hopened _ hl
      · exact hs.closed h hopen
      · exact hnew.not_known (hs.known h)
    · obtain hopen | hnew := hopened _ hl
      · exact (hs.listed hopen).adding
      · exact hnew.known
  | hold ls ms _ hx hrest hhas hopened => exact hs.hold hx hrest hhas hopened
  | rewrite ds _ => exact hs.rewrite List.length_set rfl
  | remap es _ _ => exact hs.rewrite rfl List.length_set

end Store

end BlockTree
