import BlockTree.Proofs.Definition.Building

/-! What the blocks of a built document hold and how they are nested, read off the definition. -/
namespace BlockTree.Definition

inductive GivesText : Value → Option String → Prop
  | absent : GivesText .null none
  | written {v : Value} {s : String} : v ≠ .null → v.form = .ok s → GivesText v (some s)

inductive GivesEntries : Value → Entries → Prop
  | absent : GivesEntries .null []
  | mapping (es : Entries) : GivesEntries (.map es) es

/-- An empty text names nothing, any other is one name. -/
inductive GivesNames : Value → List String → Prop
  | absent : GivesNames .null []
  | unnamed {v : Value} : v.text? = some "" → GivesNames v []
  | lone {v : Value} {s : String} : v.text? = some s → s ≠ "" → GivesNames v [s]
  | list {vs : List Value} {ss : List String} : vs.map Value.text? = ss.map some →
      GivesNames (.list vs) ss

inductive GivesLines : Value → List String → Prop
  | absent : GivesLines .null []
  | text {v : Value} {s : String} : v.text? = some s → GivesLines v (Text.linesOf s)
  | list {vs : List Value} {ss : List String} : vs.map Value.text? = ss.map some →
      GivesLines (.list vs) ss

def GivesAttributes (v : Value) (as : Entries) : Prop :=
  v = .map as ∨ v.truthy = false ∧ as = []

structure Describes (v : Value) (f : Fields) : Prop where
  present : (v.field "context").truthy
  context : (v.field "context").form = .ok f.context
  model : ContentModel.ofValue (v.field "content_model") = .ok f.model
  attributes : GivesEntries (v.field "attributes") f.attributes
  subs : GivesNames (v.field "subs") f.subs
  lines : GivesLines (v.field "source") f.lines
  style : GivesText (v.field "style") f.style
  id : GivesText (v.field "id") f.id
  title : GivesText (v.field "title") f.title

theorem Describes.isMap {v : Value} {f : Fields} (h : Describes v f) : ∃ es, v = .map es := by
  have hpresent := h.present
  cases v with
  | map es => exact ⟨es, rfl⟩
  | _ => cases hpresent

mutual
/-- A block with the fields that a definition describes, and children like the definitions listed in
it. -/
def Mirrors (v : Value) : Block → Prop
  | .node f bs => Describes v f ∧ AllMirror (listed v) bs

def AllMirror : List Value → List Block → Prop
  | [], [] => True
  | v :: vs, b :: bs => Mirrors v b ∧ AllMirror vs bs
  | _, _ => False
end

theorem givesText_of_formIfAny {v : Value} {o : Option String} (h : v.formIfAny = .ok o) :
    GivesText v o := by
  by_cases hv : v = .null
  · subst hv
    cases h
    exact .absent
  · rw [Value.formIfAny.eq_2 v hv] at h
    cases hs : v.form with
    | error f => rw [hs] at h; cases h
    | ok s =>
      rw [hs] at h
      cases h
      exact .written hv hs

theorem givesEntries_of_attributes? {v : Value} {as : Entries} (h : attributes? v = some as) :
    GivesEntries v as := by
  cases v <;> cases h
  · exact .absent
  · exact .mapping as

theorem givesNames_of_subs? {v : Value} {ss : List String} (h : subs? v = some ss) :
    GivesNames v ss := by
  cases v with
  | null =>
    cases h
    exact .absent
  | str _ | ragged _ =>
    simp only [subs?, Option.map_eq_some_iff] at h
    obtain ⟨s, htext, rfl⟩ := h
    by_cases hs : s = ""
    · subst hs
      exact .unnamed htext
    · rw [if_neg hs]
      exact .lone htext hs
  | list vs => exact .list (strings?_eq_some_iff.1 h)
  | _ => cases h

theorem givesLines_of_lines? {v : Value} {ls : List String} (h : lines? v = some ls) :
    GivesLines v ls := by
  cases v with
  | null =>
    cases h
    exact .absent
  | str _ | ragged _ =>
    simp only [lines?, Option.map_eq_some_iff] at h
    obtain ⟨s, htext, rfl⟩ := h
    exact .text htext
  | list vs => exact .list (strings?_eq_some_iff.1 h)
  | _ => cases h

theorem describes_of_fields {path : List Nat} {es : Entries} {f : Fields}
    (h : fields path es = .ok f) : Describes (.map es) f := by
  have hwf := (sound_of_fields h).wellFormed
  have hc : (es.get "context").truthy = true := hwf.context
  obtain ⟨m, hm⟩ := ofValue_ok_iff.2 hwf.model
  obtain ⟨as, has⟩ := Option.isSome_iff_exists.1 (attributes?_isSome_iff.2 hwf.attributes)
  obtain ⟨ss, hss⟩ := Option.isSome_iff_exists.1 (subs?_isSome_iff.2 hwf.subs)
  obtain ⟨ls, hls⟩ := Option.isSome_iff_exists.1 (lines?_isSome_iff.2 hwf.source)
  simp only [Value.field] at has hss hls hm
  simp only [fields, hc, hm, has, hss, hls] at h
  obtain ⟨_, hmodel, h⟩ := except_bind_ok h
  cases hmodel
  obtain ⟨c, hcontext, h⟩ := except_bind_ok h
  obtain ⟨s, hstyle, h⟩ := except_bind_ok h
  obtain ⟨i, hid, h⟩ := except_bind_ok h
  obtain ⟨t, htitle, h⟩ := except_bind_ok h
  cases h
  exact {
    present := hc
    context := hcontext
    model := hm
    attributes := givesEntries_of_attributes? has
    subs := givesNames_of_subs? hss
    lines := givesLines_of_lines? hls
    style := givesText_of_formIfAny hstyle
    id := givesText_of_formIfAny hid
    title := givesText_of_formIfAny htitle }

section

variable {σ : Type} {e e' : Effects σ}

theorem children_eq_nil {path : List Nat} {v : Value} {bs : List Block} (hv : ∀ vs, v ≠ .list vs)
    (h : (children path v : Run σ (List Block)).run e = (.ok bs, e')) : bs = [] := by
  rw [children_of_not_list hv] at h
  cases ht : v.truthy with
  | false =>
    rw [ht, if_neg Bool.false_ne_true] at h
    cases h
    rfl
  | true =>
    rw [ht, if_pos rfl, refuse] at h
    obtain ⟨ws, e₁, hws, h⟩ := Run.bind_eq_ok h
    cases ws with
    | nil =>
      cases h
      rfl
    | cons w ws => cases h

mutual
theorem block_mirrors (path : List Nat) (e e' : Effects σ) (b : Block) : (v : Value) →
    (block path v).run e = (.ok b, e') → Mirrors v b
  | .map es, h => by
    obtain ⟨f, e₁, hf, h⟩ := Run.bind_eq_ok h
    obtain ⟨_, e₂, _, h⟩ := Run.bind_eq_ok h
    obtain ⟨bs, e₃, hbs, h⟩ := Run.bind_eq_ok h
    cases h
    exact ⟨describes_of_fields (Run.ofExcept_eq_ok hf).1, nestedIn_mirrors path _ _ bs es hbs⟩
  | .again _, h | .null, h | .bool _, h | .int _, h | .float _, h | .str _, h | .ragged _, h
  | .bytes _, h | .list _, h | .pair .., h | .set _, h | .date _, h | .datetime _, h
  | .model _, h => by cases h

theorem nestedIn_mirrors (path : List Nat) (e e' : Effects σ) (bs : List Block) :
    (es : List (Value × Value)) → (nestedIn path es).run e = (.ok bs, e') →
      AllMirror (listItems (Entries.get es "blocks")) bs
  | [], h => by
    cases h
    trivial
  | (k, v) :: es, h => by
    rw [nestedIn] at h
    rw [Entries.get, Entries.find?]
    split at h
    next hk =>
      rw [if_pos hk]
      exact children_mirror path e e' bs v h
    next hk =>
      rw [if_neg hk]
      exact nestedIn_mirrors path e e' bs es h

theorem children_mirror (path : List Nat) (e e' : Effects σ) (bs : List Block) : (v : Value) →
    (children path v).run e = (.ok bs, e') → AllMirror (listItems v) bs
  | .list vs, h => blocks_mirror path 0 e e' bs vs h
  | .null, h | .bool _, h | .int _, h | .float _, h | .str _, h | .ragged _, h | .bytes _, h
  | .map _, h | .pair .., h | .set _, h | .date _, h | .datetime _, h | .model _, h
  | .again _, h => by
    obtain rfl := children_eq_nil (fun _ hv => by cases hv) h
    trivial

theorem blocks_mirror (path : List Nat) (i : Nat) (e e' : Effects σ) (bs : List Block) :
    (vs : List Value) → (blocks path i vs).run e = (.ok bs, e') → AllMirror vs bs
  | [], h => by
    cases h
    trivial
  | v :: vs, h => by
    obtain ⟨c, e₁, hc, h⟩ := Run.bind_eq_ok h
    obtain ⟨cs, e₂, hcs, h⟩ := Run.bind_eq_ok h
    cases h
    exact ⟨block_mirrors _ _ _ c v hc, blocks_mirror _ _ _ _ cs vs hcs⟩
end

theorem givesAttributes_of_ok {v : Value} {as : Entries}
    (hv : v.truthy = false ∨ ∃ es, v = .map es) (h : v.attributes = .ok as) :
    GivesAttributes v as := by
  cases ht : v.truthy with
  | false =>
    rw [Value.attributes.eq_def, ht] at h
    cases h
    exact .inr ⟨ht, rfl⟩
  | true =>
    obtain ⟨es, rfl⟩ := hv.resolve_left (by simp [ht])
    rw [Value.attributes, ht] at h
    cases h
    exact .inl rfl

theorem document_tree {es : Entries} {d : Document}
    (h : (document (.map es)).run e = (.ok d, e')) :
    (Entries.get es "attributes").attributes = .ok d.attributes ∧
      AllMirror (listed (.map es)) d.blocks := by
  obtain ⟨as, e₁, has, h⟩ := Run.bind_eq_ok h
  obtain ⟨bs, e₂, hbs, h⟩ := Run.bind_eq_ok h
  obtain ⟨_, e₃, _, h⟩ := Run.bind_eq_ok h
  cases h
  exact ⟨(Run.ofExcept_eq_ok has).1, nestedIn_mirrors [] e₁ e₂ bs es hbs⟩

end

/-- What the definition of a block says about its fields is said of all blocks by all definitions.
-/
theorem everywhere_iff_preorder {P : Value → Prop} {Q : Fields → Prop}
    (hPQ : ∀ v f, Describes v f → (P v ↔ Q f)) {vs : List Value} {bs : List Block}
    (h : AllMirror vs bs) :
    (∀ v ∈ vs, Everywhere P v) ↔ ∀ c ∈ Block.preorderAll bs, Q c.fields := by
  refine all bs vs h
where
  one : (b : Block) → (v : Value) → Mirrors v b →
      (Everywhere P v ↔ ∀ c ∈ b.preorder, Q c.fields)
    | .node f bs, v, h => by
      rw [everywhere_iff, Block.preorder, List.forall_mem_cons, hPQ v f h.1, all bs (listed v) h.2]
      rfl
  all : (bs : List Block) → (vs : List Value) → AllMirror vs bs →
      ((∀ v ∈ vs, Everywhere P v) ↔ ∀ c ∈ Block.preorderAll bs, Q c.fields)
    | [], [], _ => by simp [Block.preorderAll]
    | b :: bs, v :: vs, h => by
      rw [List.forall_mem_cons, Block.preorderAll, List.forall_mem_append, one b v h.1,
        all bs vs h.2]

end BlockTree.Definition
