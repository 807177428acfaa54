import BlockTree.Proofs.Run
import BlockTree.Substitutor

/-! Which functions a substitutor uses, and on which texts. Uses are put on record beside the state,
and that changes neither the result nor the state nor the log. -/
namespace BlockTree

/-- One use of a function: the name it is registered under, and the text it is given. -/
structure Use where
  name : String
  text : String
deriving DecidableEq, Repr

namespace Substitutor

variable {σ α β : Type}

def recording (name : String) (f : Substitution σ) : Substitution (σ × List Use) :=
  fun text => ExceptT.mk fun (st, us) =>
    let (r, st) := (f text).run st
    (r, st, us ++ [⟨name, text⟩])

def recorded (s : Substitutor σ) : Substitutor (σ × List Use) :=
  ⟨s.entries.map fun e => (e.1, recording e.1 e.2)⟩

/-- The uses that a computation makes of the functions of a substitutor. -/
def usesOf (s : Substitutor σ) (x : Substitutor (σ × List Use) → Run (σ × List Use) α)
    (e : Effects σ) : List Use :=
  ((x s.recorded).run ⟨(e.state, []), e.log⟩).2.state.2

@[simp]
theorem find?_recorded (s : Substitutor σ) (name : String) :
    s.recorded.find? name = (s.find? name).map (recording name) := by
  unfold find? recorded
  induction s.entries with
  | nil => rfl
  | cons e es ih =>
    rw [List.map_cons, List.lookup_cons, List.lookup_cons]
    by_cases hname : name = e.1
    · subst hname
      simp
    · have hother : (name == e.1) = false := beq_false_of_ne hname
      simpa [hother] using ih

/-- A computation on record does what the plain one does, and only adds uses. -/
def Transparent (x : Run (σ × List Use) α) (y : Run σ α) : Prop :=
  ∀ e us, ∃ more, x.run ⟨(e.state, us), e.log⟩ =
    ((y.run e).1, ⟨((y.run e).2.state, us ++ more), (y.run e).2.log⟩)

namespace Transparent

theorem pure (a : α) : Transparent (pure a : Run (σ × List Use) α) (pure a) :=
  fun _ us => ⟨[], by rw [List.append_nil]; rfl⟩

theorem bind {x : Run (σ × List Use) α} {y : Run σ α} {f : α → Run (σ × List Use) β}
    {g : α → Run σ β} (hx : Transparent x y) (hf : ∀ a, Transparent (f a) (g a)) :
    Transparent (x >>= f) (y >>= g) := by
  intro e us
  obtain ⟨more, hmore⟩ := hx e us
  match hy : y.run e with
  | (.error r, e') =>
    rw [hy] at hmore
    exact ⟨more, by rw [Run.bind_error f hmore, Run.bind_error g hy]⟩
  | (.ok a, e') =>
    rw [hy] at hmore
    obtain ⟨rest, hrest⟩ := hf a e' (us ++ more)
    exact ⟨more ++ rest, by
      rw [Run.bind_ok f hmore, Run.bind_ok g hy, hrest, List.append_assoc]⟩

theorem step (s : Substitutor σ) (text name : String) :
    Transparent (s.recorded.step text name) (s.step text name) := by
  unfold Substitutor.step
  rw [find?_recorded]
  cases s.find? name with
  | some f => exact fun e us => ⟨[⟨name, text⟩], rfl⟩
  | none => exact fun e us => ⟨[], by rw [List.append_nil]; rfl⟩

theorem applyText (s : Substitutor σ) (text : String) (names : List String) :
    Transparent (s.recorded.applyText text names) (s.applyText text names) := by
  induction names generalizing text with
  | nil => exact pure text
  | cons name names ih =>
    unfold Substitutor.applyText
    rw [List.foldlM_cons, List.foldlM_cons]
    exact (step s text name).bind ih

theorem applyLines (s : Substitutor σ) (lines names : List String) :
    Transparent (s.recorded.applyLines lines names) (s.applyLines lines names) := by
  unfold Substitutor.applyLines
  split
  · exact pure lines
  · split
    · exact pure []
    · exact (applyText s _ names).bind fun t => pure (Text.splitFeeds t)

end Transparent

end Substitutor

end BlockTree
