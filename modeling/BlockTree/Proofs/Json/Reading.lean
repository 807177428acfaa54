import BlockTree.Proofs.Json.Portable
import BlockTree.Proofs.Json.Spelling
import BlockTree.Proofs.Json.Text

/-! Reading what spells a value. A value is read from each of its texts, up to what follows it. -/
namespace BlockTree.Json

variable {d : Dialect} {depth fuel : Nat} {cs rest : List Char}

theorem value_gap {g : List Char} (hg : Gap g) :
    value d depth fuel (g ++ cs) = value d depth fuel cs := by
  cases fuel with
  | zero => rfl
  | succ fuel => simp only [value, skip_gap hg]

-- One equation for each character that opens a text, a list or a mapping.

theorem value_quote : value d depth (fuel + 1) ('"' :: cs) = (do
    let (t, cs) ← orJson (text? d cs)
    return (.ofCodes t, cs)) := rfl

theorem ofCodes_chars (s : String) : Value.ofCodes (s.toList.map .char) = .str s := by
  have hwhole : ¬ (s.toList.map Text.Code.char).any Text.Code.isHalf = true := by
    simp [Text.Code.isHalf]
  rw [Value.ofCodes, dif_neg hwhole, List.filterMap_map]
  exact congrArg Value.str ((congrArg String.ofList List.filterMap_some).trans String.ofList_toList)

theorem value_str (s : String) :
    value d depth (fuel + 1) (quoted s ++ rest) = .ok (.str s, rest) := by
  obtain ⟨u, hu, htext⟩ := text?_quoted (d := d) s rest
  rw [hu, value_quote, htext]
  simp [orJson, ofCodes_chars, bind, Except.bind, pure, Except.pure]

theorem value_null : value d depth (fuel + 1) ("null".toList ++ rest) = .ok (.null, rest) := by
  cases d <;> rfl

theorem value_bool (b : Bool) : value d depth (fuel + 1)
    ((if b then "true" else "false").toList ++ rest) = .ok (.bool b, rest) := by
  cases d <;> cases b <;> rfl

theorem value_int {n : Int} (hn : n.natAbs < Nat.pow 10 digitLimit) (hd : d.admitsInt n = true)
    (hrest : Ends rest) :
    value d depth (fuel + 1) ((Decimal.intText n).toList ++ rest) = .ok (.int n, rest) := by
  have hscalar := scalar_intText hn hd hrest
  obtain ⟨c, cs, htext, hgap, hc⟩ := intText_starts n
  rw [htext, List.cons_append] at hscalar ⊢
  have hskip := skip_token hgap (cs ++ rest)
  simp only [List.mem_cons, List.not_mem_nil, or_false, not_or] at hc
  simp [value, hskip, hc, hscalar]

theorem value_bracket : value d depth (fuel + 1) ('[' :: cs) = (do
    if depthLimit d ≤ depth then throw (tooDeep d)
    match skip cs with
    | ']' :: rest => return (.list [], rest)
    | _ =>
      let (vs, cs) ← items d (depth + 1) fuel cs
      return (.list vs, cs)) := rfl

theorem value_list {vs : List Value} (hdepth : depth < depthLimit d)
    (hopen : ∀ u, skip cs ≠ ']' :: u) (h : items d (depth + 1) fuel cs = .ok (vs, rest)) :
    value d depth (fuel + 1) ('[' :: cs) = .ok (.list vs, rest) := by
  rw [value_bracket, if_neg (Nat.not_le.2 hdepth)]
  simp [h, bind, Except.bind, pure, Except.pure]

theorem value_emptyList (hdepth : depth < depthLimit d) :
    value d depth (fuel + 1) ('[' :: ']' :: rest) = .ok (.list [], rest) := by
  rw [value_bracket, if_neg (Nat.not_le.2 hdepth)]
  rfl

theorem value_brace : value d depth (fuel + 1) ('\x7b' :: cs) = (do
    if depthLimit d ≤ depth then throw (tooDeep d)
    match skip cs with
    | '\x7d' :: rest => return (.map [], rest)
    | _ =>
      let (es, cs) ← entries d (depth + 1) fuel [] cs
      return (.map es, cs)) := rfl

theorem value_map {es : Entries} (hdepth : depth < depthLimit d)
    (hopen : ∀ u, skip cs ≠ '\x7d' :: u) (h : entries d (depth + 1) fuel [] cs = .ok (es, rest)) :
    value d depth (fuel + 1) ('\x7b' :: cs) = .ok (.map es, rest) := by
  rw [value_brace, if_neg (Nat.not_le.2 hdepth)]
  simp [h, bind, Except.bind, pure, Except.pure]

theorem value_emptyMap (hdepth : depth < depthLimit d) :
    value d depth (fuel + 1) ('\x7b' :: '\x7d' :: rest) = .ok (.map [], rest) := by
  rw [value_brace, if_neg (Nat.not_le.2 hdepth)]
  rfl

theorem items_succ : items d depth (fuel + 1) cs = (do
    let (v, cs) ← value d depth fuel cs
    match skip cs with
    | ',' :: cs =>
      let (vs, cs) ← items d depth fuel cs
      return (v :: vs, cs)
    | ']' :: cs => return ([v], cs)
    | _ => throw .json) := rfl

theorem items_more {v : Value} {vs : List Value} {r : List Char}
    (hv : value d depth fuel cs = .ok (v, r)) {cs' : List Char} (hr : skip r = ',' :: cs')
    (h : items d depth fuel cs' = .ok (vs, rest)) :
    items d depth (fuel + 1) cs = .ok (v :: vs, rest) := by
  rw [items_succ, hv]
  simp [hr, h, bind, Except.bind, pure, Except.pure]

theorem items_last {v : Value} {r : List Char} (hv : value d depth fuel cs = .ok (v, r))
    (hr : skip r = ']' :: rest) : items d depth (fuel + 1) cs = .ok ([v], rest) := by
  rw [items_succ, hv]
  simp [hr, bind, Except.bind, pure, Except.pure]

theorem entries_gap {g : List Char} (hg : Gap g) (es : Entries) :
    entries d depth fuel es (g ++ cs) = entries d depth fuel es cs := by
  cases fuel with
  | zero => rfl
  | succ fuel => simp only [entries, skip_gap hg]

theorem entries_quote (es : Entries) : entries d depth (fuel + 1) es ('"' :: cs) = (do
    let (k, cs) ← orJson (text? d cs)
    let ':' :: cs := skip cs | throw .json
    let (v, cs) ← value d depth fuel cs
    let es := Entries.put (.ofCodes k) v es
    match skip cs with
    | ',' :: cs => entries d depth fuel es cs
    | '\x7d' :: cs => return (es, cs)
    | _ => throw .json) := rfl

theorem entries_step {g : List Char} (hg : Gap g) (k : String) {v : Value} {r : List Char}
    (hv : value d depth fuel cs = .ok (v, r)) (es : Entries) :
    entries d depth (fuel + 1) es (g ++ quoted k ++ ':' :: cs) =
      match skip r with
      | ',' :: cs => entries d depth fuel (Entries.put (.str k) v es) cs
      | '\x7d' :: cs => .ok (Entries.put (.str k) v es, cs)
      | _ => .error .json := by
  obtain ⟨u, hu, htext⟩ := text?_quoted (d := d) k (':' :: cs)
  have hcolon : skip (':' :: cs) = ':' :: cs := rfl
  rw [List.append_assoc, entries_gap hg, hu, entries_quote, htext]
  simp only [orJson, hcolon, hv, bind, Except.bind, pure, Except.pure, ofCodes_chars]
  rfl

theorem entries_more {g : List Char} (hg : Gap g) {k : String} {v : Value} {r cs' : List Char}
    (hv : value d depth fuel cs = .ok (v, r)) (hr : skip r = ',' :: cs') {es es' : Entries}
    (hkeys : ((es ++ (.str k, v) :: es').map Prod.fst).Nodup) :
    entries d depth (fuel + 1) es (g ++ quoted k ++ ':' :: cs) =
      entries d depth fuel (es ++ [(.str k, v)]) cs' := by
  rw [entries_step hg k hv, hr, Entries.put_fresh hkeys]
  rfl

theorem entries_last {g : List Char} (hg : Gap g) {k : String} {v : Value} {r : List Char}
    (hv : value d depth fuel cs = .ok (v, r)) (hr : skip r = '\x7d' :: rest) {es : Entries}
    (hkeys : ((es ++ [(Value.str k, v)]).map Prod.fst).Nodup) :
    entries d depth (fuel + 1) es (g ++ quoted k ++ ':' :: cs) =
      .ok (es ++ [(.str k, v)], rest) := by
  rw [entries_step hg k hv, hr, Entries.put_fresh hkeys]
  rfl

mutual
/-- Where a text spells a value that both dialects know and that is not nested too deeply, the value
is read, and what is left is what follows the text. -/
theorem Spells.read : ∀ {v t}, Spells v t → v.Portable → ∀ depth fuel rest,
    depth + v.nesting ≤ depthLimit d → 2 * t.length ≤ fuel → Ends rest →
    ∃ r, value d depth fuel (t ++ rest) = .ok (v, r) ∧ skip r = skip rest
  -- by the derivation; each character pays for two steps, so that a bracket pays for the call of
  -- `items` or `entries` as well
  | _, _, .between hg h hg', hv, depth, fuel, rest, hdepth, hfuel, hrest => by
    simp only [List.length_append] at hfuel
    obtain ⟨r, hr, hskip⟩ := h.read hv depth fuel _ hdepth (by omega) (ends_gap hg' hrest)
    refine ⟨r, ?_, hskip.trans (skip_gap hg' _)⟩
    rw [List.append_assoc, List.append_assoc, value_gap hg, hr]
  | _, _, h, hv, depth, 0, rest, hdepth, hfuel, hrest => by
    have hlength := h.length_pos
    omega
  | _, _, .null, _, _, fuel + 1, _, _, _, _ => ⟨_, value_null, rfl⟩
  | _, _, .bool b, _, _, fuel + 1, _, _, _, _ => ⟨_, value_bool b, rfl⟩
  | _, _, .int n, hv, _, fuel + 1, _, _, _, hrest =>
    ⟨_, value_int (natAbs_portable hv (by decide)) (admitsInt_portable d hv) hrest, rfl⟩
  | _, _, .str s, _, _, fuel + 1, _, _, _, _ => ⟨_, value_str s, rfl⟩
  | _, _, .emptyList, _, depth, fuel + 1, _, hdepth, _, _ => by
    rw [Value.nesting] at hdepth
    exact ⟨_, value_emptyList (by omega), rfl⟩
  | _, _, .list h, hv, depth, fuel + 1, rest, hdepth, hfuel, _ => by
    rw [Value.nesting] at hdepth
    rw [List.length_cons] at hfuel
    have hitems := h.read hv (depth + 1) fuel rest (by omega) (by omega)
    exact ⟨_, value_list (by omega) (h.not_closed _) hitems, rfl⟩
  | _, _, .emptyMap, _, depth, fuel + 1, _, hdepth, _, _ => by
    rw [Value.nesting] at hdepth
    exact ⟨_, value_emptyMap (by omega), rfl⟩
  | _, _, .map h, hv, depth, fuel + 1, rest, hdepth, hfuel, _ => by
    rw [Value.nesting] at hdepth
    rw [List.length_cons] at hfuel
    have hentries := h.read [] hv.2 hv.1 (depth + 1) fuel rest
      (by omega) (by omega)
    exact ⟨_, value_map (by omega) (h.not_closed _) hentries, rfl⟩

theorem SpellsItems.read : ∀ {vs t}, SpellsItems vs t → Value.ArePortable vs →
    ∀ depth fuel rest, depth + Value.nestingItems vs ≤ depthLimit d → 2 * t.length + 1 ≤ fuel →
    items d depth fuel (t ++ rest) = .ok (vs, rest)
  | _, _, .last h, hvs, depth, fuel + 1, rest, hdepth, hfuel => by
    rw [Value.nestingItems, Value.nestingItems] at hdepth
    rw [List.length_append] at hfuel
    obtain ⟨r, hr, hskip⟩ := h.read hvs.1 depth fuel (']' :: rest)
      (by omega) (by omega) (.inr (by decide))
    rw [List.append_assoc]
    exact items_last hr hskip
  | _, _, .more (u := u) h hs, hvs, depth, fuel + 1, rest, hdepth, hfuel => by
    rw [Value.nestingItems] at hdepth
    rw [List.length_append, List.length_cons] at hfuel
    obtain ⟨r, hr, hskip⟩ := h.read hvs.1 depth fuel (',' :: (u ++ rest))
      (by omega) (by omega) (.inr (by decide))
    have hitems := hs.read hvs.2 depth fuel rest (by omega) (by omega)
    rw [List.append_assoc]
    exact items_more hr hskip hitems

theorem SpellsEntries.read : ∀ {es t} (es₀ : Entries), SpellsEntries es t →
    Value.EntriesPortable es → ((es₀ ++ es).map Prod.fst).Nodup →
    ∀ depth fuel rest, depth + Value.nestingEntries es ≤ depthLimit d →
    2 * t.length + 1 ≤ fuel → entries d depth fuel es₀ (t ++ rest) = .ok (es₀ ++ es, rest)
  | _, _, es₀, .last hg h, hes, hkeys, depth, fuel + 1, rest, hdepth, hfuel => by
    rw [Value.nestingEntries, Value.nestingEntries] at hdepth
    simp only [List.length_append, List.length_cons] at hfuel
    obtain ⟨r, hr, hskip⟩ := h.read hes.1 depth fuel ('\x7d' :: rest)
      (by omega) (by omega) (.inr (by decide))
    have hstep := entries_last hg hr hskip hkeys
    simpa only [List.append_assoc, List.cons_append, List.nil_append] using hstep
  | _, _, es₀, .more (u := u) hg h hs, hes, hkeys, depth, fuel + 1, rest, hdepth, hfuel => by
    rw [Value.nestingEntries] at hdepth
    simp only [List.length_append, List.length_cons] at hfuel
    obtain ⟨r, hr, hskip⟩ := h.read hes.1 depth fuel (',' :: (u ++ rest))
      (by omega) (by omega) (.inr (by decide))
    -- the keys read so far and those to come stay distinct as entries move over
    have hkeys' := hkeys
    rw [List.append_cons] at hkeys'
    have hentries := hs.read _ hes.2 hkeys' depth fuel rest (by omega) (by omega)
    have hstep := (entries_more hg hr hskip hkeys).trans hentries
    simpa only [List.append_assoc, List.cons_append, List.nil_append] using hstep
end

theorem read_spelled (d : Dialect) {v : Value} {t : List Char} (h : Spells v t) (hv : v.Portable)
    (hdepth : v.nesting ≤ depthLimit d) : Json.read d (String.ofList t) = .ok v := by
  obtain ⟨r, hr, hskip⟩ := h.read hv (d := d) 0 (2 * t.length + 2) []
    (by omega) (by omega) trivial
  rw [List.append_nil] at hr
  have hnil : skip [] = [] := rfl
  simp [Json.read, hr, hskip, hnil, bind, Except.bind, pure, Except.pure]

theorem readBytes_toUTF8 (d : Dialect) (s : String) : readBytes d s.toUTF8 = Json.read d s := by
  have hbytes : String.fromUTF8? s.toUTF8 = some s := by
    rw [String.fromUTF8?, String.toUTF8_eq_toByteArray, dif_pos s.isValidUTF8]
    rfl
  rw [readBytes, hbytes]

end BlockTree.Json
