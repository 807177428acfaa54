import BlockTree.Text.LowerCase

/-! Lower-casing and ASCII. What a character beyond ASCII lowers to holds a character beyond ASCII,
the sign of the kelvin apart, which lowers to the letter k. So a word of ASCII without this letter
is the lower case of texts of ASCII only, in which nothing but the letters A to Z is lowered. -/
namespace BlockTree.Text

/-- A run that starts beyond ASCII and has all its images there, unless it has the letter k for its
only image. -/
def CaseRun.beyond (r : CaseRun) : Bool :=
  0x80 ≤ r.first &&
    (r.first == r.last && r.image == 0x6b ||
      0x80 ≤ r.image && (r.image + (r.last - r.first) < 0xd800 ||
        0xdfff < r.image && r.image + (r.last - r.first) < 0x110000))

theorem caseRuns_cons : caseRuns = ⟨0x41, 0x5a, 1, 0x61⟩ :: caseRuns.tail := rfl

theorem all_beyond : caseRuns.tail.all CaseRun.beyond = true := by decide +kernel

theorem beyond_of_mem {r : CaseRun} (h : r ∈ caseRuns.tail) : r.beyond = true :=
  List.all_eq_true.1 all_beyond r h

theorem CaseRun.lowered?_of_beyond {r : CaseRun} (hr : r.beyond = true) {n : Nat}
    (hn : n < 0x80) : r.lowered? n = none := by
  simp only [CaseRun.beyond, Bool.and_eq_true, decide_eq_true_eq] at hr
  exact if_neg fun h => by omega

theorem CaseRun.image_of_beyond {r : CaseRun} (hr : r.beyond = true) {n i : Nat}
    (h : r.lowered? n = some i) : i = 0x6b ∨ 0x80 ≤ (Char.ofNat i).toNat := by
  simp only [CaseRun.beyond, Bool.and_eq_true, Bool.or_eq_true, decide_eq_true_eq,
    beq_iff_eq] at hr
  unfold CaseRun.lowered? at h
  split at h
  next hin =>
    obtain rfl := Option.some.inj h
    obtain ⟨-, ⟨hone, hk⟩ | ⟨himage, hvalid⟩⟩ := hr
    · exact .inl (by omega)
    · have hchar : (n - r.first + r.image).isValidChar := by
        unfold Nat.isValidChar
        omega
      have hcode : (Char.ofNat (n - r.first + r.image)).toNat = n - r.first + r.image := by
        rw [Char.ofNat, dif_pos hchar]
        rfl
      exact .inr (by omega)
  next => cases h

theorem lowerChar_of_ascii {c : Char} (h : c.toNat < 0x80) : lowerChar c = c.toLower := by
  have htail : caseRuns.tail.findSome? (·.lowered? c.toNat) = none :=
    List.findSome?_eq_none_iff.2 fun r hr => CaseRun.lowered?_of_beyond (beyond_of_mem hr) h
  have hletters : ∀ n < 0x80, (CaseRun.lowered? ⟨0x41, 0x5a, 1, 0x61⟩ n).elim (Char.ofNat n)
      Char.ofNat = (Char.ofNat n).toLower := by decide
  have hc := hletters c.toNat h
  rw [Char.ofNat_toNat] at hc
  rw [lowerChar, caseRuns_cons, List.findSome?_cons, htail, ← hc]
  cases CaseRun.lowered? ⟨0x41, 0x5a, 1, 0x61⟩ c.toNat <;> rfl

theorem toLower_of_beyond {c : Char} (h : 0x80 ≤ c.toNat) : c.toLower = c :=
  dif_neg fun hc => by
    have hz : c.toNat ≤ 0x5a := UInt32.le_iff_toNat_le.1 hc.2
    omega

theorem lowerChar_of_beyond {c : Char} (h : 0x80 ≤ c.toNat) :
    lowerChar c = 'k' ∨ 0x80 ≤ (lowerChar c).toNat := by
  unfold lowerChar
  split
  next i hi =>
    rw [caseRuns_cons, List.findSome?_cons] at hi
    have hfirst : CaseRun.lowered? ⟨0x41, 0x5a, 1, 0x61⟩ c.toNat = none :=
      if_neg fun hin => by simp only at hin; omega
    rw [hfirst] at hi
    obtain ⟨r, hr, hri⟩ := List.exists_of_findSome?_eq_some hi
    exact (CaseRun.image_of_beyond (beyond_of_mem hr) hri).imp_left fun hk => by rw [hk]
  next => exact .inr h

theorem lowerFrom_of_ascii {cs : List Char} (h : ∀ c ∈ cs, c.toNat < 0x80) (seen : List Char) :
    lowerFrom seen cs = cs.map Char.toLower := by
  induction cs generalizing seen with
  | nil => rfl
  | cons c cs ih =>
    obtain ⟨hc, hcs⟩ := List.forall_mem_cons.1 h
    have hsigma : c ≠ 'Σ' := by
      rintro rfl
      exact absurd hc (by decide)
    have hdotted : c ≠ 'İ' := by
      rintro rfl
      exact absurd hc (by decide)
    rw [lowerFrom, if_neg hsigma, if_neg hdotted, ih hcs, lowerChar_of_ascii hc]
    rfl

/-- What lowers to a word of ASCII without the letter k is ASCII itself. -/
theorem ascii_of_lowerFrom {cs seen : List Char}
    (h : ∀ c ∈ lowerFrom seen cs, c.toNat < 0x80 ∧ c ≠ 'k') : ∀ c ∈ cs, c.toNat < 0x80 := by
  induction cs generalizing seen with
  | nil => exact List.forall_mem_nil _
  | cons c cs ih =>
    rw [lowerFrom, List.forall_mem_append] at h
    refine List.forall_mem_cons.2 ⟨Nat.lt_of_not_le fun hc => ?_, ih h.2⟩
    have hlowered := h.1
    split at hlowered
    · -- both forms of a small sigma are beyond ASCII
      split at hlowered
      · exact absurd (hlowered _ (List.mem_singleton_self _)).1 (by decide)
      · exact absurd (hlowered _ (List.mem_singleton_self _)).1 (by decide)
    split at hlowered
    · exact absurd (hlowered '\u0307' (by decide)).1 (by decide)
    · obtain ⟨hascii, hk⟩ := hlowered _ (List.mem_singleton_self _)
      cases lowerChar_of_beyond hc with
      | inl heq => exact hk heq
      | inr hbeyond => omega

theorem ascii_of_lowerAscii {t : String} (h : ∀ c ∈ (lowerAscii t).toList, c.toNat < 0x80) :
    ∀ c ∈ t.toList, c.toNat < 0x80 := by
  intro c hc
  refine Nat.lt_of_not_le fun hbeyond => ?_
  have hkept : c ∈ (lowerAscii t).toList := by
    rw [lowerAscii, String.toList_map, List.mem_map]
    exact ⟨c, hc, toLower_of_beyond hbeyond⟩
  exact absurd (h c hkept) (Nat.not_lt_of_le hbeyond)

/-- A word of ASCII without the letter k is the lower case of a text exactly if lowering the
letters A to Z makes it of the text. -/
theorem lower_eq_iff {t w : String} (hw : ∀ c ∈ w.toList, c.toNat < 0x80 ∧ c ≠ 'k') :
    lower t = w ↔ lowerAscii t = w := by
  have hsame (ht : ∀ c ∈ t.toList, c.toNat < 0x80) : lower t = lowerAscii t := by
    rw [lower, lowerFrom_of_ascii ht, ← String.toList_inj, String.toList_ofList, lowerAscii,
      String.toList_map]
  constructor
  · rintro rfl
    rw [lower, String.toList_ofList] at hw
    exact (hsame (ascii_of_lowerFrom hw)).symm
  · rintro rfl
    exact hsame (ascii_of_lowerAscii fun c hc => (hw c hc).1)

end BlockTree.Text
