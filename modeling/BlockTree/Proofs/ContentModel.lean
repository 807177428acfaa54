import BlockTree.Proofs.Definition.Check
import BlockTree.Proofs.Text.LowerCase
import BlockTree.Proofs.Value.Marked

/-! How values name content models. A text names a model if nothing but white space around the name
and the case of the letters A to Z tells them apart, whatever full lower-casing makes of other
letters. No other value has a text that does, because these texts hold more than letters, or are
other words. -/
namespace BlockTree

namespace Text

theorem lowerAscii_strip_eq_iff {s w : String} :
    lowerAscii (strip s) = w ↔ (trimEnds isSpace s.toList).map Char.toLower = w.toList := by
  rw [← String.toList_inj, lowerAscii, String.toList_map, strip, String.toList_ofList]

theorem toLower_of_not_alpha {c : Char} (h : c.isAlpha = false) : c.toLower = c := by
  have hupper : c.isUpper = false := (Bool.or_eq_false_iff.1 h).1
  exact dif_neg (of_decide_eq_false hupper)

end Text

namespace ContentModel

open Text (Marked lowerAscii strip trimEnds isSpace)

theorem ascii_name (m : ContentModel) : ∀ c ∈ m.name.toList, c.toNat < 0x80 ∧ c ≠ 'k' := by
  have hall : m.name.toList.all (fun c => c.toNat < 0x80 ∧ c ≠ 'k') = true := by
    cases m <;> decide
  exact fun c hc => of_decide_eq_true (List.all_eq_true.1 hall c hc)

theorem alpha_name (m : ContentModel) : ∀ c ∈ m.name.toList, c.isAlpha = true :=
  List.all_eq_true.1 (by cases m <;> decide)

theorem nameForm_eq_name_iff {s : String} {m : ContentModel} :
    nameForm s = m.name ↔ lowerAscii (strip s) = m.name :=
  Text.lower_eq_iff m.ascii_name

theorem ascii_of_spells {s : String} {m : ContentModel} (h : lowerAscii (strip s) = m.name) :
    ∀ c ∈ (strip s).toList, c.toNat < 0x80 :=
  Text.ascii_of_lowerAscii fun c hc => (m.ascii_name c (h ▸ hc)).1

theorem not_marked_of_spells {s : String} {m : ContentModel}
    (h : lowerAscii (strip s) = m.name) : ¬ Marked s := by
  rintro ⟨c, hc, hspace, halpha⟩
  have hmem : c ∈ m.name.toList := by
    rw [← Text.lowerAscii_strip_eq_iff.1 h, List.mem_map]
    exact ⟨c, Text.mem_trimEnds hc hspace, Text.toLower_of_not_alpha halpha⟩
  rw [m.alpha_name c hmem] at halpha
  cases halpha

theorem words_spell_no_name (m : ContentModel) :
    ∀ w ∈ Value.words, lowerAscii (strip w) ≠ m.name := by
  have hwords : ∀ w ∈ Value.words,
      (trimEnds isSpace w.toList).map Char.toLower ≠ m.name.toList := by
    cases m <;> decide
  exact fun w hw h => hwords w hw (Text.lowerAscii_strip_eq_iff.1 h)

theorem not_spells_text {v : Value} (h : ∀ s, v ≠ .str s) (m : ContentModel) :
    lowerAscii (strip v.text) ≠ m.name := by
  intro hname
  cases v.marked_text h with
  | inl hmarked => exact not_marked_of_spells hname hmarked
  | inr hword => exact m.words_spell_no_name _ hword hname

theorem ofValue_str (s : String) : ofValue (.str s) =
    (named? (nameForm s)).elim (.error (.unknownModel (nameForm s))) .ok := by
  have hnull : Value.str s ≠ .null := nofun
  have hmodel (m : ContentModel) : Value.str s ≠ .model m := nofun
  have hwritable : (Value.str s).writable = true := rfl
  have htext : (Value.str s).text = s := rfl
  rw [Definition.ofValue_of_text hnull hmodel, if_pos hwritable, htext]
  generalize nameForm s = t
  cases named? t <;> rfl

theorem ofValue_str_eq_ok_iff {s : String} {m : ContentModel} :
    ofValue (.str s) = .ok m ↔ lowerAscii (strip s) = m.name := by
  rw [ofValue_str, ← nameForm_eq_name_iff, ← named?_eq_some_iff]
  generalize nameForm s = t
  cases named? t <;> simp

/-- Reading a model fails with a fault of the value only. -/
theorem ofValue_cases (v : Value) :
    (∃ m, ofValue v = .ok m) ∨ ∃ f, ofValue v = .error f ∧ f.category = .value := by
  cases h : ofValue v with
  | ok m => exact .inl ⟨m, rfl⟩
  | error f =>
    refine .inr ⟨f, rfl, ?_⟩
    obtain ⟨-, s, rfl⟩ | ⟨-, rfl⟩ := Definition.ofValue_error h <;> rfl

theorem ofValue_ne_ok {v : Value} (hnull : v ≠ .null) (hmodel : ∀ m, v ≠ .model m)
    (hstr : ∀ s, v ≠ .str s) (m : ContentModel) : ofValue v ≠ .ok m := by
  intro h
  obtain ⟨-, n, hn⟩ := ((Definition.ofValue_ok_iff.1 ⟨m, h⟩).resolve_left hnull).resolve_left
    fun ⟨n, hn⟩ => hmodel n hn
  exact not_spells_text hstr n (nameForm_eq_name_iff.1 hn)

/-- A text gives the model whose name it is but for white space at its ends and capital letters of
ASCII, and then holds nothing beyond ASCII between these ends; every other text is a fault. So is
every value that is no text, if it is neither missing nor a model itself. -/
theorem ofValue_names (s : String) (v : Value) :
    (∀ m, ofValue (.str s) = .ok m ↔ lowerAscii (strip s) = m.name) ∧
    ((∃ m : ContentModel, lowerAscii (strip s) = m.name) ∨
      ∃ f, ofValue (.str s) = .error f ∧ f.category = .value) ∧
    (∀ m, ofValue (.str s) = .ok m → ∀ c ∈ (strip s).toList, c.toNat < 0x80) ∧
    (v = .null ∨ (∃ m, v = .model m) ∨ (∃ t, v = .str t) ∨
      ∃ f, ofValue v = .error f ∧ f.category = .value) := by
  refine ⟨fun m => ofValue_str_eq_ok_iff, ?_, ?_, ?_⟩
  · exact (ofValue_cases (.str s)).imp_left fun ⟨m, hm⟩ => ⟨m, ofValue_str_eq_ok_iff.1 hm⟩
  · exact fun m hm => ascii_of_spells (ofValue_str_eq_ok_iff.1 hm)
  · by_cases hnull : v = .null
    · exact .inl hnull
    by_cases hmodel : ∃ m, v = .model m
    · exact .inr (.inl hmodel)
    by_cases hstr : ∃ t, v = .str t
    · exact .inr (.inr (.inl hstr))
    obtain ⟨m, hm⟩ | hfault := ofValue_cases v
    · exact absurd hm (ofValue_ne_ok hnull (not_exists.1 hmodel) (not_exists.1 hstr) m)
    · exact .inr (.inr (.inr hfault))

/-- A wide space and capitals do not matter. A dotted capital I lowers to a letter i, but not to
this letter alone; a list with a name in it is no name. -/
theorem ofValue_names_dotted :
    ofValue (.str "\u3000Simple\n") = .ok .simple ∧
      (∀ c ∈ (strip "\u3000Simple\n").toList, c.toNat < 0x80) ∧
      (∃ f, ofValue (.str "S\u0130mple") = .error f ∧ f.category = .value) ∧
      ∃ f, ofValue (.list [.str "simple"]) = .error f ∧ f.category = .value := by
  have hsimple : ofValue (.str "\u3000Simple\n") = .ok .simple :=
    ((ofValue_names "\u3000Simple\n" .null).1 .simple).2
      (Text.lowerAscii_strip_eq_iff.2 (by decide))
  obtain ⟨-, hdotted, -, hlist⟩ := ofValue_names "S\u0130mple" (.list [.str "simple"])
  refine ⟨hsimple, (ofValue_names _ .null).2.2.1 .simple hsimple, hdotted.resolve_left ?_,
    ((hlist.resolve_left nofun).resolve_left nofun).resolve_left nofun⟩
  rintro ⟨m, hm⟩
  have hletters : ∀ m : ContentModel,
      (trimEnds isSpace "S\u0130mple".toList).map Char.toLower ≠ m.name.toList := by
    intro m
    cases m <;> decide
  exact hletters m (Text.lowerAscii_strip_eq_iff.1 hm)

end ContentModel

end BlockTree
