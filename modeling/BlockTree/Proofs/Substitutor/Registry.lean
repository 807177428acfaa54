import BlockTree.Substitutor.Plugin

/-! Registries as ordered maps. A change binds one name or lets it go; what a sequence of changes
comes to can be read off it: the last change of a name decides what it stands for, and the order is
that in which the names came in. -/
namespace BlockTree

/-- A change of a registry: what a name is bound to from now on, if it is bound. -/
structure Binding (σ : Type) where
  name : String
  bound : Option (Substitution σ)

namespace Substitutor

variable {σ : Type}

def change (s : Substitutor σ) (b : Binding σ) : Substitutor σ :=
  match b.bound with
  | some f => ⟨bind b.name f s.entries⟩
  | none => s.unregister b.name

def replay (s : Substitutor σ) (bs : List (Binding σ)) : Substitutor σ := bs.foldl change s

@[simp]
theorem replay_append (s : Substitutor σ) (bs cs : List (Binding σ)) :
    s.replay (bs ++ cs) = (s.replay bs).replay cs := List.foldl_append

theorem replay_concat (s : Substitutor σ) (bs : List (Binding σ)) (b : Binding σ) :
    s.replay (bs ++ [b]) = (s.replay bs).change b := replay_append s bs [b]

theorem lookup_cons_eq_if (n : String) (e : String × Substitution σ)
    (es : List (String × Substitution σ)) :
    (e :: es).lookup n = if n = e.1 then some e.2 else es.lookup n := by
  rw [List.lookup_cons]
  by_cases h : n = e.1
  · simp [h]
  · simp [h, beq_false_of_ne h]

@[simp]
theorem lookup_bind (name : String) (f : Substitution σ) (es : List (String × Substitution σ))
    (n : String) : (bind name f es).lookup n = if n = name then some f else es.lookup n := by
  induction es with
  | nil => rw [bind, lookup_cons_eq_if]
  | cons e es ih =>
    rw [bind]
    by_cases he : e.1 = name
    · rw [if_pos he, lookup_cons_eq_if, lookup_cons_eq_if, he]
      by_cases h : n = name <;> simp [h]
    · rw [if_neg he, lookup_cons_eq_if, lookup_cons_eq_if, ih]
      by_cases h : n = name
      · simp [h, Ne.symm he]
      · simp [h]

/-- What puts an entry under a name, in its old place if the name has one, adds no other name. -/
theorem map_fst_of_put {α : Type} {name : String} {a : α}
    {p : List (String × α) → List (String × α)} (hnil : p [] = [(name, a)])
    (hcons : ∀ n b es, p ((n, b) :: es) = if n = name then (n, a) :: es else (n, b) :: p es)
    (es : List (String × α)) : (p es).map (·.1) =
      if name ∈ es.map (·.1) then es.map (·.1) else es.map (·.1) ++ [name] := by
  induction es with
  | nil => rw [hnil]; rfl
  | cons e es ih =>
    rw [hcons]
    by_cases he : e.1 = name
    · simp [he]
    · rw [if_neg he, List.map_cons, ih]
      by_cases h : name ∈ es.map (·.1)
      · simp only [List.map_cons, List.mem_cons, h, or_true, if_true]
      · simp only [List.map_cons, List.mem_cons, h, Ne.symm he, or_self, if_false, List.cons_append]

theorem nodup_concat {names : List String} {name : String} (h : names.Nodup)
    (hname : name ∉ names) : (names ++ [name]).Nodup := by
  refine List.pairwise_append.2 ⟨h, List.pairwise_singleton .., fun m hm n hn => ?_⟩
  rintro rfl
  exact hname (List.mem_singleton.1 hn ▸ hm)

theorem lookup_filter_ne (name : String) (es : List (String × Substitution σ)) (n : String) :
    (es.filter (·.1 ≠ name)).lookup n = if n = name then none else es.lookup n := by
  induction es with
  | nil => simp
  | cons e es ih =>
    rw [lookup_cons_eq_if]
    by_cases he : e.1 = name
    · rw [List.filter_cons_of_neg (by simpa using he), ih, he]
      by_cases h : n = name <;> simp [h]
    · rw [List.filter_cons_of_pos (by simpa using he), lookup_cons_eq_if, ih]
      by_cases h : n = name
      · simp [h, Ne.symm he]
      · simp [h]

@[simp]
theorem find?_change (s : Substitutor σ) (b : Binding σ) (name : String) :
    (s.change b).find? name = if name = b.name then b.bound else s.find? name := by
  unfold change
  split
  next f hf => simp [find?, hf]
  next hf => rw [hf]; exact lookup_filter_ne b.name s.entries name

theorem names_change_some {s : Substitutor σ} {b : Binding σ} {f : Substitution σ}
    (h : b.bound = some f) :
    (s.change b).names = if b.name ∈ s.names then s.names else s.names ++ [b.name] := by
  rw [change, h]
  exact map_fst_of_put (p := bind b.name f) rfl (fun _ _ _ => rfl) s.entries

theorem names_change_none {s : Substitutor σ} {b : Binding σ} (h : b.bound = none) :
    (s.change b).names = s.names.filter (· ≠ b.name) := by
  rw [change, h, names, names, unregister, List.filter_map]
  rfl

theorem mem_names_iff (s : Substitutor σ) (name : String) :
    name ∈ s.names ↔ (s.find? name).isSome := by
  rw [names, find?, List.lookup_isSome_iff, List.mem_map]
  simp only [beq_iff_eq, eq_comm (a := name)]

@[simp]
theorem mem_names_change_iff (s : Substitutor σ) (b : Binding σ) (name : String) :
    name ∈ (s.change b).names ↔
      if name = b.name then b.bound.isSome = true else name ∈ s.names := by
  simp only [mem_names_iff, find?_change]
  split <;> rfl

end Substitutor

end BlockTree
