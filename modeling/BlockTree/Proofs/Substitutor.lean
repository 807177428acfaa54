import BlockTree.Proofs.Run
import BlockTree.Substitutor

/-! Substitutors whose functions return: applying them to texts and to lines returns as well. -/
namespace BlockTree.Substitutor

variable {σ : Type}

/-- Every registered function gives a result, whatever the text and the state are. -/
def Returns (s : Substitutor σ) : Prop :=
  ∀ name f, s.find? name = some f → ∀ text st, ∃ r st', (f text).run st = (.ok r, st')

theorem step_returns {s : Substitutor σ} (hs : s.Returns) (text name : String) :
    (s.step text name).Returns := by
  unfold step
  cases h : s.find? name with
  | some f => exact Run.returns_act (hs name f h text)
  | none => exact Run.returns_bind (Run.returns_note _) fun _ => Run.returns_pure _

/-- Every registered function gives what the text alone decides. -/
def Stateless (s : Substitutor σ) : Prop :=
  ∀ name f, s.find? name = some f → ∀ text, ∃ r, ∀ st, ((f text).run st).1 = r

theorem step_steady {s : Substitutor σ} (hs : s.Stateless) (text name : String) :
    (s.step text name).Steady := by
  unfold step
  cases h : s.find? name with
  | some f =>
    obtain ⟨r, hr⟩ := hs name f h text
    exact ⟨r, fun e => hr e.state⟩
  | none =>
    exact Run.steady_composable.bind ⟨_, Run.gives_note _⟩ fun _ => Run.steady_composable.pure _

section

variable {P : {α : Type} → Run σ α → Prop} {s : Substitutor σ}

theorem applyText_composed (hP : Run.Composable P) (hstep : ∀ text name, P (s.step text name))
    (text : String) (names : List String) : P (s.applyText text names) := by
  induction names generalizing text with
  | nil => exact hP.pure text
  | cons name names ih =>
    rw [applyText, List.foldlM_cons]
    exact hP.bind (hstep text name) ih

theorem applyLines_composed (hP : Run.Composable P) (hstep : ∀ text name, P (s.step text name))
    (lines names : List String) : P (s.applyLines lines names) := by
  unfold applyLines
  split
  · exact hP.pure lines
  · split
    · exact hP.pure []
    · exact hP.bind (applyText_composed hP hstep _ _) fun _ => hP.pure _

end

theorem applyText_returns {s : Substitutor σ} (hs : s.Returns) (text : String)
    (names : List String) : (s.applyText text names).Returns :=
  applyText_composed Run.returns_composable (step_returns hs) text names

theorem applyLines_returns {s : Substitutor σ} (hs : s.Returns) (lines names : List String) :
    (s.applyLines lines names).Returns :=
  applyLines_composed Run.returns_composable (step_returns hs) lines names

/-- Substitutions may change the number of lines, but not whether there are any. -/
theorem applyLines_eq_nil_iff {s : Substitutor σ} {lines names rs : List String}
    {e e' : Effects σ} (h : (s.applyLines lines names).run e = (.ok rs, e')) :
    rs = [] ↔ lines = [] := by
  unfold applyLines at h
  split at h
  · cases h
    rfl
  · split at h
    next hl =>
      cases h
      simpa using hl
    next hl =>
      obtain ⟨t, e₁, _, h⟩ := Run.bind_eq_ok h
      cases h
      simpa using hl

def marking : Substitutor Unit := ⟨[("mark", fun text => pure (text ++ "!"))]⟩

theorem marking_gives {name : String} {f : Substitution Unit}
    (h : marking.find? name = some f) (text : String) :
    (f text).run () = (.ok (text ++ "!"), ()) := by
  simp only [find?, marking, List.lookup_cons, List.lookup_nil] at h
  split at h
  · cases h
    rfl
  · cases h

theorem marking_returns : marking.Returns :=
  fun _ _ h text _ => ⟨_, _, marking_gives h text⟩

theorem marking_stateless : marking.Stateless :=
  fun _ _ h text => ⟨.ok (text ++ "!"), fun _ => congrArg Prod.fst (marking_gives h text)⟩

end BlockTree.Substitutor
