import BlockTree.Proofs.Json.Reading
import Mathlib.Data.List.Forall2

/-! What is written is read. The writers differ only in the gaps that they leave, so that what they
write for a value spells it. -/
namespace BlockTree.Json

variable {d : Dialect}

theorem Setting.gap_isGap (s : Setting) : Gap s.gap := by
  cases s with
  | line => exact gap_nil
  | indented n =>
    refine List.forall_mem_cons.2 ⟨rfl, fun c hc => ?_⟩
    rw [List.eq_of_mem_replicate hc]
    rfl

theorem Setting.comma_gap (d : Dialect) (s : Setting) : ∃ g, Gap g ∧ s.comma d = ',' :: g := by
  cases s with
  | indented n => exact ⟨_, (Setting.indented n).gap_isGap, rfl⟩
  | line => cases d with
    | narrow => exact ⟨[], gap_nil, rfl⟩
    | wide => exact ⟨[' '], by decide, rfl⟩

theorem Setting.colon_gap (d : Dialect) (s : Setting) : ∃ g, Gap g ∧ s.colon d = ':' :: g := by
  cases s with
  | indented n => exact ⟨[' '], by decide, rfl⟩
  | line => cases d with
    | narrow => exact ⟨[], gap_nil, rfl⟩
    | wide => exact ⟨[' '], by decide, rfl⟩

theorem Spells.after {v : Value} {g t : List Char} (hg : Gap g) (h : Spells v t) :
    Spells v (g ++ t) := by
  simpa using h.between hg gap_nil

theorem Spells.before {v : Value} {t g : List Char} (h : Spells v t) (hg : Gap g) :
    Spells v (t ++ g) := .between gap_nil h hg

theorem SpellsItems.after {vs : List Value} {g t : List Char} (hg : Gap g) (h : SpellsItems vs t) :
    SpellsItems vs (g ++ t) := by
  cases h with
  | last h =>
    rw [← List.append_assoc]
    exact .last (h.after hg)
  | more h hs =>
    rw [← List.append_assoc]
    exact .more (h.after hg) hs

theorem SpellsEntries.after {es : Entries} {g t : List Char} (hg : Gap g)
    (h : SpellsEntries es t) : SpellsEntries es (g ++ t) := by
  cases h with
  | last hg' h =>
    simpa only [List.append_assoc] using SpellsEntries.last (gap_append hg hg') h
  | more hg' h hs =>
    simpa only [List.append_assoc] using SpellsEntries.more (gap_append hg hg') h hs

theorem spellsItems_joined {g g' : List Char} (hg : Gap g) (hg' : Gap g') {v : Value}
    {vs : List Value} {t : List Char} {ts : List (List Char)} (h : Spells v t)
    (hs : List.Forall₂ Spells vs ts) :
    SpellsItems (v :: vs) ((',' :: g).intercalate (t :: ts) ++ (g' ++ [']'])) := by
  induction hs generalizing v t with
  | nil =>
    rw [List.intercalate_singleton, ← List.append_assoc]
    exact .last (h.before hg')
  | cons hw _ ih =>
    have hmore := SpellsItems.more h ((ih hw).after hg)
    simpa only [List.intercalate_cons_cons, List.append_assoc, List.cons_append] using hmore

def SpellsEntry (e : Value × Value) (t : List Char) : Prop :=
  ∃ k u, e.1 = .str k ∧ t = quoted k ++ ':' :: u ∧ Spells e.2 u

theorem spellsEntries_joined {g g' : List Char} (hg : Gap g) (hg' : Gap g') {e : Value × Value}
    {es : Entries} {t : List Char} {ts : List (List Char)} (h : SpellsEntry e t)
    (hs : List.Forall₂ SpellsEntry es ts) :
    SpellsEntries (e :: es) ((',' :: g).intercalate (t :: ts) ++ (g' ++ ['\x7d'])) := by
  induction hs generalizing e t with
  | nil =>
    obtain ⟨k, v⟩ := e
    obtain ⟨k, u, rfl, rfl, hu⟩ := h
    have hlast := SpellsEntries.last (k := k) gap_nil (hu.before hg')
    simpa using hlast
  | cons hw _ ih =>
    obtain ⟨k, v⟩ := e
    obtain ⟨k, u, rfl, rfl, hu⟩ := h
    have hmore := SpellsEntries.more (k := k) gap_nil hu ((ih hw).after hg)
    simpa [List.intercalate_cons_cons] using hmore

theorem spells_enclosed_items (d : Dialect) (s outer : Setting) {vs : List Value}
    {ts : List (List Char)} (h : List.Forall₂ Spells vs ts) :
    Spells (.list vs) (enclose d s '[' ']' outer ts) := by
  obtain ⟨g, hg, hcomma⟩ := s.comma_gap d
  cases h with
  | nil => exact .emptyList
  | cons h hs =>
    have hitems := (spellsItems_joined hg outer.gap_isGap h hs).after s.gap_isGap
    simpa only [enclose, hcomma, List.append_assoc] using Spells.list hitems

theorem spells_enclosed_entries (d : Dialect) (s outer : Setting) {es : Entries}
    {ts : List (List Char)} (h : List.Forall₂ SpellsEntry es ts) :
    Spells (.map es) (enclose d s '\x7b' '\x7d' outer ts) := by
  obtain ⟨g, hg, hcomma⟩ := s.comma_gap d
  cases h with
  | nil => exact .emptyMap
  | cons h hs =>
    have hentries := (spellsEntries_joined hg outer.gap_isGap h hs).after s.gap_isGap
    simpa only [enclose, hcomma, List.append_assoc] using Spells.map hentries

theorem intForm_portable (d : Dialect) {n : Int} (h : (Value.int n).Portable) :
    intForm d n = .ok (Decimal.intText n).toList := by
  have hsmall : n.natAbs < Value.largest := by
    unfold Value.largest
    apply natAbs_portable h
    decide
  have hwritable : (Value.int n).writable = true := decide_eq_true hsmall
  simp [intForm, admitsInt_portable d h, hwritable]

theorem enter_eq_ok (d : Dialect) (depth : Nat) (h : depth < nestingLimit d) :
    enter d depth = .ok () :=
  if_neg (Nat.not_le.2 h)

mutual
/-- What is written for a value that both dialects know and that is not nested too deeply spells
it. -/
theorem writeChars_spells : (v : Value) → v.Portable → ∀ (s : Setting) depth,
    depth + v.nesting ≤ nestingLimit d → ∃ t, writeChars d s depth v = .ok t ∧ Spells v t
  | .null, _, _, _, _ => ⟨_, rfl, .null⟩
  | .bool b, _, _, _, _ => ⟨_, rfl, .bool b⟩
  | .int n, h, _, _, _ => ⟨_, intForm_portable d h, .int n⟩
  | .str s, _, _, _, _ => ⟨_, rfl, .str s⟩
  | .list vs, h, s, depth, hdepth => by
    rw [Value.nesting] at hdepth
    have henter := enter_eq_ok d depth (by omega)
    obtain ⟨ts, hts, hspells⟩ := writeItems_spells vs h s.deeper (depth + 1) (by omega)
    refine ⟨_, ?_, spells_enclosed_items d s.deeper s hspells⟩
    simp [writeChars, henter, hts, bind, Except.bind, pure, Except.pure]
  | .map es, h, s, depth, hdepth => by
    rw [Value.nesting] at hdepth
    have henter := enter_eq_ok d depth (by omega)
    obtain ⟨ts, hts, hspells⟩ := writeEntries_spells es h.2 s.deeper (depth + 1) (by omega)
    refine ⟨_, ?_, spells_enclosed_entries d s.deeper s hspells⟩
    simp [writeChars, henter, hts, bind, Except.bind, pure, Except.pure]

theorem writeItems_spells : (vs : List Value) → Value.ArePortable vs → ∀ (s : Setting) depth,
    depth + Value.nestingItems vs ≤ nestingLimit d →
    ∃ ts, writeItems d s depth vs = .ok ts ∧ List.Forall₂ Spells vs ts
  | [], _, _, _, _ => ⟨[], rfl, .nil⟩
  | v :: vs, h, s, depth, hdepth => by
    rw [Value.nestingItems] at hdepth
    obtain ⟨t, ht, hspells⟩ := writeChars_spells v h.1 s depth (by omega)
    obtain ⟨ts, hts, hall⟩ := writeItems_spells vs h.2 s depth (by omega)
    refine ⟨t :: ts, ?_, .cons hspells hall⟩
    simp [writeItems, ht, hts, bind, Except.bind, pure, Except.pure]

theorem writeEntries_spells : (es : List (Value × Value)) → Value.EntriesPortable es →
    ∀ (s : Setting) depth, depth + Value.nestingEntries es ≤ nestingLimit d →
    ∃ ts, writeEntries d s depth es = .ok ts ∧ List.Forall₂ SpellsEntry es ts
  | [], _, _, _, _ => ⟨[], rfl, .nil⟩
  | (.str k, v) :: es, ⟨hv, hes⟩, s, depth, hdepth => by
    rw [Value.nestingEntries] at hdepth
    obtain ⟨g, hg, hcolon⟩ := s.colon_gap d
    obtain ⟨t, ht, hspells⟩ := writeChars_spells v hv s depth (by omega)
    obtain ⟨ts, hts, hall⟩ := writeEntries_spells es hes s depth (by omega)
    have hkey : keyText d s (.str k) = .ok (quoted k) := by cases d <;> rfl
    refine ⟨_, ?_, .cons ⟨k, g ++ t, rfl, rfl, hspells.after hg⟩ hall⟩
    simp [writeEntries, hkey, ht, hts, hcolon, bind, Except.bind, pure, Except.pure]
end

/-- A value that both dialects know is written in each of them as a text that spells it, and each of
them reads it back, from the text and from its bytes, as far as no limit of nesting is hit. -/
theorem read_write (d d' : Dialect) (indent : Bool) {v : Value} (hv : v.Portable)
    (hwrite : v.nesting ≤ nestingLimit d) (hread : v.nesting ≤ depthLimit d') :
    ∃ s, write d indent v = .ok s ∧ Spells v s.toList ∧ Json.read d' s = .ok v ∧
      readBytes d' s.toUTF8 = .ok v := by
  obtain ⟨t, ht, hspells⟩ := writeChars_spells (d := d) v hv
    (if indent then .indented 0 else .line) 0 (by omega)
  have hwritten : write d indent v = .ok (String.ofList t) := by
    simp [write, ht, bind, Except.bind, pure, Except.pure]
  have hback := read_spelled d' hspells hv hread
  have hbytes := (readBytes_toUTF8 d' (String.ofList t)).trans hback
  exact ⟨String.ofList t, hwritten, by rwa [String.toList_ofList], hback, hbytes⟩

def limits : Value := .map [
  (.str "\x00\n\"\\é\x7f", .list [.null, .bool true, .int (-9223372036854775808),
    .int 18446744073709551615, .list [], .map []]),
  (.str "", .map [(.str "b", .str (String.ofList ['\x1f', '\t', '😀', Char.ofNat 0x10f000])),
    (.str "a", .int 0)])]

theorem limits_portable : limits.Portable :=
  ⟨by simp, ⟨trivial, trivial, ⟨by decide, by decide⟩, ⟨by decide, by decide⟩, trivial,
    ⟨.nil, trivial⟩, trivial⟩, ⟨by simp, trivial, ⟨by decide, by decide⟩, trivial⟩, trivial⟩

theorem read_write_limits :
    limits.Portable ∧ limits.nesting ≤ nestingLimit .narrow ∧ limits.nesting ≤ depthLimit .wide ∧
      ∃ s, write .narrow true limits = .ok s ∧ Spells limits s.toList ∧
        Json.read .wide s = .ok limits ∧ readBytes .wide s.toUTF8 = .ok limits :=
  ⟨limits_portable, by decide, by decide,
    read_write .narrow .wide true limits_portable (by decide) (by decide)⟩

end BlockTree.Json
