import BlockTree.Run

/-! How runs are taken apart: a run of two steps goes on where the first one ends. -/
namespace BlockTree.Run

variable {σ α β : Type} {x : Run σ α} {e e' : Effects σ}

theorem bind_ok {a : α} (f : α → Run σ β) (h : x.run e = (.ok a, e')) :
    (x >>= f).run e = (f a).run e' := by
  change (x.run >>= ExceptT.bindCont f) e = _
  change ExceptT.bindCont f (x.run e).1 (x.run e).2 = _
  rw [h]
  rfl

theorem bind_error {r : Failure} (f : α → Run σ β) (h : x.run e = (.error r, e')) :
    (x >>= f).run e = (.error r, e') := by
  change ExceptT.bindCont f (x.run e).1 (x.run e).2 = _
  rw [h]
  rfl

theorem bind_eq_ok {f : α → Run σ β} {b : β} {e'' : Effects σ}
    (h : (x >>= f).run e = (.ok b, e'')) :
    ∃ a e', x.run e = (.ok a, e') ∧ (f a).run e' = (.ok b, e'') := by
  match hx : x.run e with
  | (.error r, e') =>
    rw [bind_error f hx] at h
    cases h
  | (.ok a, e') =>
    rw [bind_ok f hx] at h
    exact ⟨a, e', rfl, h⟩

theorem map_run (f : α → β) (x : Run σ α) (e : Effects σ) :
    (f <$> x).run e = ((x.run e).1.map f, (x.run e).2) := by
  rw [map_eq_pure_bind]
  match h : x.run e with
  | (.error r, e') =>
    rw [bind_error _ h]
    rfl
  | (.ok a, e') =>
    rw [bind_ok _ h]
    rfl

theorem ofExcept_eq_ok {r : Except Failure α} {a : α}
    (h : (ofExcept r : Run σ α).run e = (.ok a, e')) : r = .ok a ∧ e' = e := by
  cases r <;> cases h
  exact ⟨rfl, rfl⟩

theorem bind_congr_run {f g : α → Run σ β}
    (h : ∀ e a e', x.run e = (.ok a, e') → (f a).run e' = (g a).run e') : x >>= f = x >>= g := by
  funext e
  change (x >>= f).run e = (x >>= g).run e
  match hx : x.run e with
  | (.error r, e') => rw [bind_error f hx, bind_error g hx]
  | (.ok a, e') => rw [bind_ok f hx, bind_ok g hx, h e a e' hx]

/-- Ends with a result whatever log and state it starts from. -/
def Returns (x : Run σ α) : Prop := ∀ e, ∃ a e', x.run e = (.ok a, e')

theorem returns_pure (a : α) : Returns (pure a : Run σ α) := fun e => ⟨a, e, rfl⟩

theorem returns_bind {f : α → Run σ β} (hx : Returns x) (hf : ∀ a, Returns (f a)) :
    Returns (x >>= f) := by
  intro e
  obtain ⟨a, e', ha⟩ := hx e
  obtain ⟨b, e'', hb⟩ := hf a e'
  exact ⟨b, e'', (bind_ok f ha).trans hb⟩

theorem returns_note (n : Notice) : Returns (note n : Run σ Unit) :=
  fun e => ⟨(), _, note_run n e⟩

theorem returns_act {y : ExceptT Failure (StateM σ) α} (h : ∀ s, ∃ a s', y.run s = (.ok a, s')) :
    Returns (act y) := by
  intro e
  obtain ⟨a, s', hy⟩ := h e.state
  exact ⟨a, { e with state := s' }, by simp [hy]⟩

/-- Ends with the given result whatever log and state it starts from. -/
def Gives (x : Run σ α) (r : Except Failure α) : Prop := ∀ e, (x.run e).1 = r

theorem gives_pure (a : α) : Gives (pure a : Run σ α) (.ok a) := fun _ => rfl

theorem gives_throw (f : Failure) : Gives (throw f : Run σ α) (.error f) := fun _ => rfl

theorem gives_note (n : Notice) : Gives (note n : Run σ Unit) (.ok ()) := fun _ => rfl

theorem gives_ofExcept {r r' : Except Failure α} (h : r = r') :
    Gives (ofExcept r : Run σ α) r' := by
  subst h
  intro e
  cases r <;> rfl

theorem gives_bind_ok {f : α → Run σ β} {a : α} {r : Except Failure β} (hx : Gives x (.ok a))
    (hf : Gives (f a) r) : Gives (x >>= f) r := by
  intro e
  rw [bind_ok f (Prod.ext (hx e) rfl)]
  exact hf _

theorem gives_bind_error {f : α → Run σ β} {r : Failure} (hx : Gives x (.error r)) :
    Gives (x >>= f) (.error r) := by
  intro e
  rw [bind_error f (Prod.ext (hx e) rfl)]

/-- A property of computations that holds of results and of steps one after the other. -/
structure Composable (P : {α : Type} → Run σ α → Prop) : Prop where
  pure {α : Type} (a : α) : P (pure a : Run σ α)
  bind {α β : Type} {x : Run σ α} {f : α → Run σ β} : P x → (∀ a, P (f a)) → P (x >>= f)

theorem returns_composable : Composable (Returns (σ := σ)) where
  pure := returns_pure
  bind := returns_bind

/-- The result depends neither on the log nor on the state. -/
def Steady (x : Run σ α) : Prop := ∃ r, Gives x r

theorem steady_composable : Composable (fun x : Run σ _ => Steady x) where
  pure a := ⟨_, gives_pure a⟩
  bind := by
    rintro α β x f ⟨r, hx⟩ hf
    cases r with
    | error r => exact ⟨_, gives_bind_error hx⟩
    | ok a =>
      obtain ⟨r, ha⟩ := hf a
      exact ⟨r, gives_bind_ok hx ha⟩

theorem Steady.gives {a : α} (h : Steady x) (hx : x.run e = (.ok a, e')) : Gives x (.ok a) := by
  obtain ⟨r, hr⟩ := h
  have hra : r = .ok a := by rw [← hr e, hx]
  rwa [← hra]

/-- The result is one and the same value, whatever the log and the state are. -/
def Settles (x : Run σ α) : Prop := ∃ a, Gives x (.ok a)

theorem settles_composable : Composable (fun x : Run σ _ => Settles x) where
  pure a := ⟨a, gives_pure a⟩
  bind := by
    rintro α β x f ⟨a, ha⟩ hf
    obtain ⟨b, hb⟩ := hf a
    exact ⟨b, gives_bind_ok ha hb⟩

theorem Returns.settles [Inhabited α] (h : Returns x) (hx : Steady x) : Settles x := by
  obtain ⟨r, hr⟩ := hx
  cases r with
  | ok a => exact ⟨a, hr⟩
  | error f =>
    refine ⟨default, fun e => ?_⟩
    obtain ⟨a, e', ha⟩ := h e
    have herror := hr e
    rw [ha] at herror
    cases herror

end BlockTree.Run
