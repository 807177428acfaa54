import BlockTree.Proofs.Definition.Mirror
import BlockTree.Proofs.Rendering.Visit

/-! Notes about children that will not be rendered. Building a document leaves one for every block
that hides its children, and rendering leaves out the blocks below these and no others. -/
namespace BlockTree

variable {σ : Type}

def Effects.noted (e : Effects σ) (ns : List Notice) : Effects σ := { e with log := e.log ++ ns }

@[simp]
theorem Effects.noted_nil (e : Effects σ) : e.noted [] = e := by simp [noted]

@[simp]
theorem Effects.noted_noted (e : Effects σ) (ns ms : List Notice) :
    (e.noted ns).noted ms = e.noted (ns ++ ms) := by simp [noted]

def Notice.place? : Notice → Option (List Nat)
  | .unrendered path .. => some path
  | _ => none

namespace Definition

open Block (Hides Open placed placedAll)

variable {root : Value} {path : List Nat} {e e' : Effects σ}

@[simp]
theorem at?_append {v : Value} {π ρ : List Nat} : at? (π ++ ρ) v = (at? π v).bind (at? ρ) := by
  induction π generalizing v with
  | nil => rfl
  | cons i π ih =>
    cases h : (listed v)[i]? with
    | none => simp [at?, h]
    | some u => simpa [at?, h] using ih

def contextAt (root : Value) (π : List Nat) : Value := ((at? π root).getD .null).field "context"

/-- The note about a block at a place, if it hides children. -/
def note? (root : Value) (x : List Nat × Block) : Option Notice :=
  if x.2.Hides then
    some (.unrendered x.1 x.2.fields.model (contextAt root x.1) x.2.children.length)
  else none

theorem note?_place {x : List Nat × Block} {n : Notice} (h : note? root x = some n) :
    n.place? = some x.1 ∧ n.level = .warning ∧ x.2.Hides := by
  unfold note? at h
  split at h
  next hx =>
    cases h
    exact ⟨rfl, rfl, hx⟩
  next => cases h

theorem exists_note?_of_hides (root : Value) {x : List Nat × Block} (h : x.2.Hides) :
    ∃ n, note? root x = some n := ⟨_, if_pos h⟩

theorem AllMirror.length_eq : {vs : List Value} → {bs : List Block} → AllMirror vs bs →
    vs.length = bs.length
  | [], [], _ => rfl
  | _ :: _, _ :: _, h => congrArg (· + 1) (AllMirror.length_eq h.2)
  | [], _ :: _, h => h.elim
  | _ :: _, [], h => h.elim

theorem children_eq_blocks {v : Value} (h : HoldsBlocks v) :
    (children path v : Run σ (List Block)) = blocks path 0 (listItems v) := by
  by_cases hl : ∃ vs, v = .list vs
  · obtain ⟨vs, rfl⟩ := hl
    rfl
  · have hv : ∀ vs, v ≠ .list vs := fun vs hvs => hl ⟨vs, hvs⟩
    have ht : v.truthy = false := h.resolve_right hl
    rw [children_of_not_list hv, listItems_of_not_list hv, ht]
    rfl

theorem truthy_iff_of_holdsBlocks {v : Value} (h : HoldsBlocks v) :
    v.truthy = true ↔ listItems v ≠ [] := by
  by_cases hl : ∃ vs, v = .list vs
  · obtain ⟨vs, rfl⟩ := hl
    simp [Value.truthy, listItems]
  · have hv : ∀ vs, v ≠ .list vs := fun vs hvs => hl ⟨vs, hvs⟩
    simp [listItems_of_not_list hv, h.resolve_right hl]

theorem noteUnrendered_noted {es : Entries} {f : Fields} (h : HoldsBlocks (es.get "blocks")) :
    (noteUnrendered path es f : Run σ Unit).run e = (.ok (), e.noted
      (if f.model ≠ .compound ∧ listed (.map es) ≠ [] then
        [.unrendered path f.model (es.get "context") (listed (.map es)).length] else [])) := by
  have htruthy := truthy_iff_of_holdsBlocks h
  change _ ↔ listed (.map es) ≠ [] at htruthy
  unfold noteUnrendered
  by_cases hcond : f.model ≠ .compound ∧ listed (.map es) ≠ []
  · have ht : (es.get "blocks").truthy = true := htruthy.2 hcond.2
    obtain ⟨vs, hvs⟩ : ∃ vs, es.get "blocks" = .list vs :=
      h.resolve_left fun hf => Bool.false_ne_true (hf.symm.trans ht)
    have hn : nested (es.get "blocks") = .ok (listed (.map es)).length := by
      rw [listed, Value.field, hvs]
      rfl
    have htrue : ((es.get "blocks").truthy && decide (f.model ≠ .compound)) = true := by
      rw [ht, decide_eq_true hcond.1, Bool.and_self]
    rw [if_pos hcond]
    simp only [htrue, hn]
    rfl
  · have hfalse : ((es.get "blocks").truthy && decide (f.model ≠ .compound)) = false := by
      rw [Bool.eq_false_iff, ne_eq, Bool.and_eq_true, htruthy, decide_eq_true_eq, and_comm]
      exact hcond
    simp only [if_neg hcond, Effects.noted_nil, hfalse]
    rfl

theorem holdsBlocks_of_nestedIn {es : Entries} {bs : List Block}
    (h : (nestedIn path es).run e = (.ok bs, e')) : HoldsBlocks (es.get "blocks") := by
  cases nestedIn_nested (σ := σ) path es with
  | held hb _ => exact hb
  | broken _ hx =>
    have herror := hx e
    rw [h] at herror
    cases herror

theorem filterMap_note?_cons (x : List Nat × Block) (xs : List (List Nat × Block)) :
    (x :: xs).filterMap (note? root) = (note? root x).toList ++ xs.filterMap (note? root) := by
  cases h : note? root x <;> simp [h]

theorem note?_toList {es : Entries} {f : Fields} {bs : List Block}
    (hv : at? path root = some (.map es)) (hlen : (listed (.map es)).length = bs.length) :
    (note? root (path, .node f bs)).toList =
      if f.model ≠ .compound ∧ listed (.map es) ≠ [] then
        [.unrendered path f.model (es.get "context") (listed (.map es)).length] else [] := by
  have hcontext : contextAt root path = es.get "context" := by
    rw [contextAt, hv]
    rfl
  have hnil : listed (.map es) ≠ [] ↔ bs ≠ [] := by
    rw [← List.length_pos_iff, ← List.length_pos_iff, hlen]
  have hhides : (Block.node f bs).Hides ↔ f.model ≠ .compound ∧ listed (.map es) ≠ [] := by
    rw [hnil]
    rfl
  unfold note?
  simp only [hhides, hcontext, Block.fields, Block.children, ← hlen]
  split <;> rfl

theorem at?_child {v : Value} (hv : at? path root = some v) (j : Nat) :
    at? (path ++ [j]) root = (listed v)[j]? := by
  cases h : (listed v)[j]? <;> simp [hv, at?, h]

mutual
/-- Building a block adds the notes about it and about all below it, in pre-order. -/
theorem block_noted {path : List Nat} {e e' : Effects σ} {v : Value} : (b : Block) →
    at? path root = some v → (block path v).run e = (.ok b, e') →
      e' = e.noted ((b.placed path).filterMap (note? root))
  | .node f bs, hv, h => by
    obtain ⟨hf, hmirror⟩ := block_mirrors path e e' _ v h
    obtain ⟨es, rfl⟩ := hf.isMap
    obtain ⟨g, e₁, hg, h⟩ := Run.bind_eq_ok h
    obtain ⟨-, he₁⟩ := Run.ofExcept_eq_ok hg
    obtain ⟨_, e₂, hnote, h⟩ := Run.bind_eq_ok h
    obtain ⟨cs, e₃, hcs, h⟩ := Run.bind_eq_ok h
    cases h
    have hb := holdsBlocks_of_nestedIn hcs
    have he₂ : e₂ = e.noted (note? root (path, .node f bs)).toList := by
      rw [note?_toList hv hmirror.length_eq, ← he₁]
      exact (congrArg Prod.snd ((noteUnrendered_noted hb).symm.trans hnote)).symm
    rw [nestedIn_eq_children, children_eq_blocks hb] at hcs
    have he' := blocks_noted bs (fun j => by rw [Nat.zero_add, at?_child hv]; rfl) hcs
    simp [he', he₂, placed, filterMap_note?_cons]

theorem blocks_noted {path : List Nat} {i : Nat} {e e' : Effects σ} {vs : List Value} :
    (bs : List Block) → (∀ j, at? (path ++ [i + j]) root = vs[j]?) →
      (blocks path i vs).run e = (.ok bs, e') →
        e' = e.noted ((placedAll path i bs).filterMap (note? root))
  | [], hvs, h => by
    cases vs with
    | nil =>
      cases h
      exact e.noted_nil.symm
    | cons v vs => exact (blocks_mirror path i e e' [] (v :: vs) h).elim
  | b :: bs, hvs, h => by
    cases vs with
    | nil => exact (blocks_mirror path i e e' (b :: bs) [] h).elim
    | cons v vs =>
      obtain ⟨c, e₁, hc, h⟩ := Run.bind_eq_ok h
      obtain ⟨cs, e₂, hcs, h⟩ := Run.bind_eq_ok h
      cases h
      have hv : at? (path ++ [i]) root = some v := hvs 0
      have he₁ := block_noted b hv hc
      have he₂ := blocks_noted bs (fun j => by rw [Nat.add_right_comm]; exact hvs (j + 1)) hcs
      simp [he₂, he₁, placedAll]
end

/-- Building a document adds the notes about its blocks and one about the document itself. -/
theorem document_noted {es : Entries} {d : Document}
    (h : (document (.map es)).run e = (.ok d, e')) :
    e' = e.noted ((placedAll [] 0 d.blocks).filterMap (note? (.map es)) ++
      [.built d.blocks.length]) := by
  obtain ⟨as, e₁, has, h⟩ := Run.bind_eq_ok h
  obtain ⟨-, he₁⟩ := Run.ofExcept_eq_ok has
  obtain ⟨bs, e₂, hbs, h⟩ := Run.bind_eq_ok h
  obtain ⟨_, e₃, hbuilt, h⟩ := Run.bind_eq_ok h
  cases h
  have hb := holdsBlocks_of_nestedIn hbs
  rw [nestedIn_eq_children, children_eq_blocks hb] at hbs
  have hroot : at? [] (.map es) = some (.map es) := rfl
  have he₂ := blocks_noted bs (fun j => by rw [Nat.zero_add, at?_child hroot]; rfl) hbs
  have hnoted : e' = e₂.noted [.built bs.length] :=
    (congrArg Prod.snd ((Run.note_run _ e₂).symm.trans hbuilt)).symm
  simp [hnoted, he₂, he₁]

theorem AllMirror.mirrors : {vs : List Value} → {bs : List Block} → AllMirror vs bs →
    ∀ {i : Nat} {b : Block}, bs[i]? = some b → ∃ v, vs[i]? = some v ∧ Mirrors v b
  | [], [], _, _, _, hb => by cases hb
  | v :: _, _ :: _, h, 0, _, hb => by
    cases hb
    exact ⟨v, rfl, h.1⟩
  | _ :: _, _ :: _, h, _ + 1, _, hb => AllMirror.mirrors h.2 hb
  | [], _ :: _, h, _, _, _ => h.elim
  | _ :: _, [], h, _, _, _ => h.elim

theorem Mirrors.at? {π : List Nat} {v : Value} {b c : Block} (h : Mirrors v b)
    (hc : b.at? π = some c) : ∃ u, Definition.at? π v = some u ∧ Mirrors u c := by
  induction π generalizing v b with
  | nil =>
    cases hc
    exact ⟨v, rfl, h⟩
  | cons i π ih =>
    obtain ⟨f, bs⟩ := b
    obtain ⟨b, hb, hc⟩ := Option.bind_eq_some_iff.1 hc
    obtain ⟨w, hw, hmirror⟩ := h.2.mirrors hb
    obtain ⟨u, hu, hmirror⟩ := ih hmirror hc
    exact ⟨u, by rw [Definition.at?, hw]; exact hu, hmirror⟩

theorem mirrors_of_mem_placedAll {bs : List Block} (h : AllMirror (listed root) bs)
    {x : List Nat × Block} (hx : x ∈ placedAll [] 0 bs) :
    ∃ v, at? x.1 root = some v ∧ Mirrors v x.2 := by
  obtain ⟨i, π, hπ, hb⟩ := (Block.mem_placedAll_iff bs).1 (show (x.1, x.2) ∈ _ from hx)
  obtain ⟨b, hb, hc⟩ := Option.bind_eq_some_iff.1 hb
  obtain ⟨w, hw, hmirror⟩ := h.mirrors hb
  obtain ⟨v, hv, hmirror⟩ := hmirror.at? hc
  have hplace : x.1 = i :: π := by simpa using hπ
  exact ⟨v, by rw [hplace, at?, hw]; exact hv, hmirror⟩

theorem mem_places_iff {bs : List Block} {x : List Nat × Block} (hx : x ∈ placedAll [] 0 bs) :
    x.1 ∈ ((placedAll [] 0 bs).filterMap (note? root)).filterMap Notice.place? ↔ x.2.Hides := by
  simp only [List.mem_filterMap]
  constructor
  · rintro ⟨n, ⟨y, hy, hn⟩, hplace⟩
    obtain ⟨hyplace, -, hyhides⟩ := note?_place hn
    have hxy : y.1 = x.1 := Option.some.inj (hyplace.symm.trans hplace)
    have hx' : (y.1, x.2) ∈ placedAll [] 0 bs := by rw [hxy]; exact hx
    rwa [← Block.eq_of_mem_placedAll (c := y.2) hy hx']
  · intro hhides
    obtain ⟨n, hn⟩ := exists_note?_of_hides root hhides
    exact ⟨n, ⟨x, hx, hn⟩, (note?_place hn).1⟩

theorem open_child_of_root (bs : List Block) (i : Nat) :
    Open (((placedAll [] 0 bs).filterMap (note? root)).filterMap Notice.place?) ([] ++ [i]) := by
  refine Open.snoc (fun ρ _ hprefix => List.prefix_nil.1 hprefix) ?_ i
  simp only [List.mem_filterMap, not_exists, not_and]
  rintro n ⟨x, hx, hn⟩ hplace
  obtain ⟨j, π, hπ, -⟩ := (Block.mem_placedAll_iff bs).1 (show (x.1, x.2) ∈ _ from hx)
  have hnil : x.1 = [] := Option.some.inj ((note?_place hn).1.symm.trans hplace)
  rw [hπ] at hnil
  exact absurd hnil (by simp)

/-- Building a document warns once, in pre-order, about every block that hides children, with its
place and their number. Rendering the document hands to its pipeline, in pre-order, the lines of the
blocks that are below none of those. -/
theorem warnings_tell_unrendered {es : Entries} {d : Document}
    (h : (document (.map es)).run e = (.ok d, e')) :
    ∃ ns, e' = e.noted (ns ++ [.built d.blocks.length]) ∧
      ns = (placedAll [] 0 d.blocks).filterMap (note? (.map es)) ∧
      (∀ n ∈ ns, n.level = .warning) ∧
      (∀ x ∈ placedAll [] 0 d.blocks, ∃ v, at? x.1 (.map es) = some v ∧ Mirrors v x.2) ∧
      ∀ {m : Type → Type} [Monad m] [LawfulMonad m] (p : Pipeline m),
        Records (d.render p.recorded) (d.render p) (Block.callsOf
          (((placedAll [] 0 d.blocks).filter fun x => Open (ns.filterMap Notice.place?) x.1).map
            (·.2))) := by
  refine ⟨_, document_noted h, rfl, ?_, ?_, ?_⟩
  · intro n hn
    obtain ⟨x, -, hx⟩ := List.mem_filterMap.1 hn
    exact (note?_place hx).2.1
  · intro x hx
    exact mirrors_of_mem_placedAll (document_tree h).2 hx
  · intro m _ _ p
    rw [Block.filter_placedAll (open_child_of_root d.blocks) 0 d.blocks
        fun x hx => mem_places_iff hx,
      Block.map_snd_visitedAll]
    exact d.records_render p

def hiddenSection : Entries :=
  let chapter (text : String) : Value := .map [(.str "context", .str "section"),
    (.str "content_model", .str "compound"), (.str "blocks", .list [
      .map [(.str "context", .str "p"), (.str "source", .str text)]])]
  [(.str "blocks", .list [.map [(.str "context", .str "listing"),
    (.str "content_model", .str "raw"), (.str "source", .str "a"),
    (.str "blocks", .list [chapter "x"])], chapter "y"])]

def hiddenSectionDocument : Document :=
  let paragraph (text : String) : Block :=
    .node ⟨"p", .simple, none, none, none, [], [], [text]⟩ []
  let chapter (text : String) : Block :=
    .node ⟨"section", .compound, none, none, none, [], [], []⟩ [paragraph text]
  ⟨[], [.node ⟨"listing", .raw, none, none, none, [], [], ["a"]⟩ [chapter "x"], chapter "y"]⟩

theorem warnings_tell_unrendered_hiddenSection :
    (document (.map hiddenSection)).run (⟨(), []⟩ : Effects Unit) = (.ok hiddenSectionDocument,
        ⟨(), [.unrendered [0] .raw (.str "listing") 1, .built 2]⟩) ∧
      Records (m := Id) (hiddenSectionDocument.render Pipeline.detached.recorded)
        (hiddenSectionDocument.render .detached) [.lines [] ["a"], .text [] "y"] := by
  have hbuilt : (document (.map hiddenSection)).run (⟨(), []⟩ : Effects Unit) =
      (.ok hiddenSectionDocument, ⟨(), [.unrendered [0] .raw (.str "listing") 1, .built 2]⟩) := by
    with_unfolding_all rfl
  obtain ⟨ns, -, rfl, -, -, hcalls⟩ := warnings_tell_unrendered hbuilt
  have hrecords := hcalls (m := Id) .detached
  exact ⟨hbuilt, hrecords⟩

end Definition

end BlockTree
