import BlockTree.Proofs.Substitutor
import BlockTree.Proofs.Substitutor.Uses
import BlockTree.Proofs.Text.Feeds

/-! Substitution on lines is substitution on the text that they join to, cut again. With no names to
apply nothing is joined and nothing is cut, which comes to the same. -/
namespace BlockTree.Substitutor

variable {σ : Type}

@[simp]
theorem applyText_nil (s : Substitutor σ) (text : String) : s.applyText text [] = pure text := rfl

@[simp]
theorem applyLines_nil (s : Substitutor σ) (names : List String) :
    s.applyLines [] names = pure [] := by
  cases names <;> rfl

theorem applyLines_eq_split (s : Substitutor σ) {lines : List String} (hne : lines ≠ [])
    (hfree : ∀ l ∈ lines, '\n' ∉ l.toList) (names : List String) :
    s.applyLines lines names = Text.splitFeeds <$> s.applyText (Text.joinLines lines) names := by
  cases names with
  | nil =>
    simp [applyLines, Text.splitFeeds_joinLines hne hfree]
  | cons name names =>
    have hlines : lines.isEmpty = false := List.isEmpty_eq_false_iff.2 hne
    rw [applyLines, if_neg (by simp), if_neg (by simp [hlines]), map_eq_pure_bind]

/-- Without lines nothing is done. Some lines are treated as the text that they join to, with the
same failures, uses of functions, notes and changes of state; what comes out are the only lines that
join to the text that comes out, so an unchanged text gives the same lines. -/
theorem applyLines_agrees (s : Substitutor σ) (lines names : List String)
    (hfree : ∀ l ∈ lines, '\n' ∉ l.toList) (e : Effects σ) :
    if lines = [] then
      (s.applyLines lines names).run e = (.ok [], e) ∧ s.usesOf (·.applyLines lines names) e = []
    else
      s.applyLines lines names = Text.splitFeeds <$> s.applyText (Text.joinLines lines) names ∧
      s.usesOf (·.applyLines lines names) e =
        s.usesOf (·.applyText (Text.joinLines lines) names) e ∧
      match (s.applyText (Text.joinLines lines) names).run e with
      | (.error r, e') => (s.applyLines lines names).run e = (.error r, e')
      | (.ok t, e') => ∃ ms, (s.applyLines lines names).run e = (.ok ms, e') ∧
          (∀ ks, ks = ms ↔ ks ≠ [] ∧ (∀ k ∈ ks, '\n' ∉ k.toList) ∧ Text.joinLines ks = t) ∧
          (t = Text.joinLines lines → ms = lines) := by
  by_cases hne : lines = []
  · subst hne
    simp only [if_true, usesOf, applyLines_nil]
    exact ⟨rfl, rfl⟩
  · rw [if_neg hne]
    refine ⟨applyLines_eq_split s hne hfree names, ?_, ?_⟩
    · rw [usesOf, usesOf, applyLines_eq_split _ hne hfree, Run.map_run]
    · rw [applyLines_eq_split s hne hfree, Run.map_run]
      match (s.applyText (Text.joinLines lines) names).run e with
      | (.error r, e') => rfl
      | (.ok t, e') =>
        refine ⟨Text.splitFeeds t, rfl, fun ks => ?_, ?_⟩
        · rw [eq_comm]
          exact Text.splitFeeds_eq_iff
        · rintro rfl
          exact Text.splitFeeds_joinLines hne hfree

def breaking : Substitutor Unit := ⟨[("break", fun text => pure (text ++ "\n"))]⟩

theorem breaking_stateless : breaking.Stateless := by
  intro name f h text
  rw [find?, breaking, List.lookup_cons, List.lookup_nil] at h
  split at h
  · cases h
    exact ⟨.ok (text ++ "\n"), fun _ => rfl⟩
  · cases h

theorem applyLines_agrees_breaking :
    (∀ l ∈ ["", "a", ""], '\n' ∉ l.toList) ∧
    (breaking.applyLines ["", "a", ""] ["break", "none", "break"]).run ⟨(), []⟩ =
      (.ok ["", "a", "", "", ""], ⟨(), [.unknownSubstitution (.str "none")]⟩) ∧
    breaking.usesOf (·.applyLines ["", "a", ""] ["break", "none", "break"]) ⟨(), []⟩ =
      [⟨"break", "\na\n"⟩, ⟨"break", "\na\n\n"⟩] := by
  have hfree : ∀ l ∈ ["", "a", ""], '\n' ∉ l.toList := by decide
  have h := applyLines_agrees breaking ["", "a", ""] ["break", "none", "break"] hfree ⟨(), []⟩
  have htext : (breaking.applyText (Text.joinLines ["", "a", ""]) ["break", "none", "break"]).run
      ⟨(), []⟩ = (.ok "\na\n\n\n", ⟨(), [.unknownSubstitution (.str "none")]⟩) := rfl
  rw [if_neg (List.cons_ne_nil _ _), htext] at h
  obtain ⟨-, huses, ms, hms, honly, -⟩ := h
  refine ⟨hfree, ?_, huses.trans rfl⟩
  have hsame : ["", "a", "", "", ""] = ms :=
    (honly _).2 ⟨List.cons_ne_nil _ _, by decide, rfl⟩
  rw [hms, hsame]

end BlockTree.Substitutor
