import BlockTree.Proofs.Definition.Place

/-! Building from a definition: it succeeds if no definition has a fault, and otherwise fails with
the fault of the first one that has. -/
namespace BlockTree.Definition

variable {σ : Type}

/-- What a run over the value under `blocks` comes to: if that is false or a list, to the fault of
the first definition that has one; otherwise to a fault of its own. -/
inductive Nested (base : List Nat) (v : Value) (x : Run σ (List Block)) : Prop
  | held : HoldsBlocks v → Decided (FaultIn base 0 (listItems v)) x → Nested base v x
  | broken {f : Failure} : BlocksFault base .compound v f → x.Gives (.error f) → Nested base v x

theorem nested_ok {v : Value} {ws : List Value} (h : v.items = .ok ws) : ∃ n, nested v = .ok n := by
  unfold nested
  split
  · exact ⟨_, rfl⟩
  · rw [h]
    exact ⟨_, rfl⟩

theorem nested_endless {v : Value} (h : v.items = .error .endless) :
    nested v = .error .endless := by
  cases v <;> cases h
  rfl

theorem nested_notIterable {v : Value} {kind : String} (h : v.items = .error (.notIterable kind)) :
    nested v = .error (.noLength v.kind) := by
  cases v <;> cases h <;> rfl

section

variable {path : List Nat} {v : Value}

theorem refuse_cons {w : Value} {ws : List Value} (h : v.items = .ok (w :: ws)) :
    (refuse path v : Run σ (List Block)).Gives (.error (.definition (path ++ [0]) .notMapping)) :=
  Run.gives_bind_ok (Run.gives_ofExcept h) (Run.gives_throw _)

theorem refuse_error {f : Failure} (h : v.items = .error f) :
    (refuse path v : Run σ (List Block)).Gives (.error f) :=
  Run.gives_bind_error (Run.gives_ofExcept h)

theorem children_of_not_list (h : ∀ vs, v ≠ .list vs) :
    (children path v : Run σ (List Block)) = if v.truthy then refuse path v else pure [] := by
  cases v with
  | list vs => exact absurd rfl (h vs)
  | _ => rfl

theorem nestedIn_eq_children (path : List Nat) : (es : Entries) →
    (nestedIn path es : Run σ (List Block)) = children path (es.get "blocks")
  | [] => rfl
  | (k, v) :: es => by
    rw [nestedIn, Entries.get, Entries.find?]
    split
    next hk => rfl
    next hk => exact nestedIn_eq_children path es

theorem children_nested_of_not_list (h : ∀ vs, v ≠ .list vs) :
    Nested path v (children path v : Run σ (List Block)) := by
  rw [children_of_not_list h]
  cases ht : v.truthy with
  | false =>
    refine .held (.inl ht) (.built (fun π f => ?_) (Run.gives_pure []))
    rw [listItems_of_not_list h]
    exact not_faultIn_nil
  | true =>
    rw [if_pos rfl]
    cases hi : v.items with
    | ok ws =>
      cases ws with
      | nil => exact absurd ((truthy_of_items_nil hi).symm.trans ht) Bool.false_ne_true
      | cons w ws => exact .broken (.item h ht hi) (refuse_cons hi)
    | error f =>
      cases items_error hi with
      | inl hf =>
        subst hf
        exact .broken (.endless ht hi) (refuse_error hi)
      | inr hf =>
        obtain ⟨kind, rfl⟩ := hf
        exact .broken (.unread ht hi rfl) (refuse_error hi)

end

section

variable {base : List Nat} {es : Entries} {g : Fields}

theorem noteUnrendered_ok (h : ((Entries.get es "blocks").truthy = true → g.model ≠ .compound →
    ∃ n, nested (Entries.get es "blocks") = .ok n)) :
    (noteUnrendered base es g : Run σ Unit).Gives (.ok ()) := by
  rw [noteUnrendered]
  split
  next hcond =>
    rw [Bool.and_eq_true, decide_eq_true_eq] at hcond
    obtain ⟨n, hn⟩ := h hcond.1 hcond.2
    exact Run.gives_bind_ok (Run.gives_ofExcept hn) (Run.gives_note _)
  next => exact Run.gives_pure ()

theorem noteUnrendered_of_holdsBlocks (h : HoldsBlocks (Entries.get es "blocks")) :
    (noteUnrendered base es g : Run σ Unit).Gives (.ok ()) := by
  refine noteUnrendered_ok fun ht _ => ?_
  cases h with
  | inl hf => exact absurd (hf.symm.trans ht) Bool.false_ne_true
  | inr hl =>
    obtain ⟨vs, hvs⟩ := hl
    exact nested_ok (congrArg Value.items hvs)

theorem noteUnrendered_error {f : Failure} (ht : (Entries.get es "blocks").truthy = true)
    (hm : g.model ≠ .compound) (hn : nested (Entries.get es "blocks") = .error f) :
    (noteUnrendered base es g : Run σ Unit).Gives (.error f) := by
  have hcond : ((Entries.get es "blocks").truthy && decide (g.model ≠ .compound)) = true := by
    rw [Bool.and_eq_true, decide_eq_true_eq]
    exact ⟨ht, hm⟩
  rw [noteUnrendered]
  simp only [hcond, if_true]
  exact Run.gives_bind_error (Run.gives_ofExcept hn)

/-- Below a block that is not compound, what has no items is counted before it is read. -/
theorem block_of_broken {f : Failure} {x : Run σ (List Block)}
    (hf : BlocksFault base .compound (Entries.get es "blocks") f) (hx : x.Gives (.error f)) :
    ∃ f', BlocksFault base g.model (Entries.get es "blocks") f' ∧
      (do noteUnrendered base es g; return Block.node g (← x) : Run σ Block).Gives (.error f') := by
  by_cases hm : g.model = .compound
  · have hnote : (noteUnrendered base es g : Run σ Unit).Gives (.ok ()) :=
      noteUnrendered_ok fun _ hm' => absurd hm hm'
    exact ⟨f, hm ▸ hf, Run.gives_bind_ok hnote (Run.gives_bind_error hx)⟩
  cases hf with
  | item hl ht hi =>
    have hnote : (noteUnrendered base es g : Run σ Unit).Gives (.ok ()) :=
      noteUnrendered_ok fun _ _ => nested_ok hi
    exact ⟨_, .item hl ht hi, Run.gives_bind_ok hnote (Run.gives_bind_error hx)⟩
  | endless ht hi =>
    exact ⟨_, .endless ht hi,
      Run.gives_bind_error (noteUnrendered_error ht hm (nested_endless hi))⟩
  | unread ht hi _ =>
    exact ⟨_, .uncounted ht hi hm,
      Run.gives_bind_error (noteUnrendered_error ht hm (nested_notIterable hi))⟩
  | uncounted _ _ hc => exact absurd rfl hc

theorem block_decided_of_nested
    (h : Nested base (Entries.get es "blocks") (nestedIn base es : Run σ (List Block))) :
    Decided (FaultAt base (.map es)) (block base (.map es) : Run σ Block) := by
  cases hg : fields base es with
  | error f =>
    exact .failed (first_of_own (.verdict (verdict_of_fields hg)))
      (Run.gives_bind_error (Run.gives_ofExcept hg))
  | ok g =>
    have hfields : (Run.ofExcept (fields base es) : Run σ Fields).Gives (.ok g) :=
      Run.gives_ofExcept hg
    cases h with
    | held hb hd =>
      have hnote : (noteUnrendered base es g : Run σ Unit).Gives (.ok ()) :=
        noteUnrendered_of_holdsBlocks hb
      have hclear : Clear (.map es) := ⟨sound_of_fields hg, hb⟩
      refine Decided.above hclear hd (fun bs hbs => ?_) fun f hf => ?_
      · exact ⟨.node g bs, Run.gives_bind_ok hfields <| Run.gives_bind_ok hnote <|
          Run.gives_bind_ok hbs (Run.gives_pure _)⟩
      · exact Run.gives_bind_ok hfields <| Run.gives_bind_ok hnote <| Run.gives_bind_error hf
    | broken hf hx =>
      obtain ⟨f', hf', hgives⟩ := block_of_broken (g := g) hf hx
      exact .failed (first_of_own (.blocks rfl hg hf')) (Run.gives_bind_ok hfields hgives)

end

mutual
/-- The outcome of building a block, for the definition and all below it. -/
theorem block_decided (base : List Nat) : (v : Value) →
    Decided (FaultAt base v) (block base v : Run σ Block)
  | .map es => block_decided_of_nested (nestedIn_nested base es)
  | .again _ => .failed (first_of_own (.verdict (.endless rfl))) (Run.gives_throw _)
  | .null | .bool _ | .int _ | .float _ | .str _ | .ragged _ | .bytes _ | .list _ | .pair ..
  | .set _ | .date _ | .datetime _ | .model _ =>
    .failed (first_of_own (ownFault_notMapping nofun nofun)) (Run.gives_throw _)

theorem nestedIn_nested (base : List Nat) : (es : List (Value × Value)) →
    Nested base (Entries.get es "blocks") (nestedIn base es : Run σ (List Block))
  | [] => .held (.inl rfl) (.built (fun _ _ => not_faultIn_nil) (Run.gives_pure []))
  | (k, v) :: es => by
    rw [Entries.get, Entries.find?, nestedIn]
    split
    · exact children_nested base v
    · exact nestedIn_nested base es

theorem children_nested (base : List Nat) : (v : Value) →
    Nested base v (children base v : Run σ (List Block))
  | .list vs => .held (.inr ⟨vs, rfl⟩) (blocks_decided base 0 vs)
  | .null | .bool _ | .int _ | .float _ | .str _ | .ragged _ | .bytes _ | .map _ | .pair ..
  | .set _ | .date _ | .datetime _ | .model _ | .again _ => children_nested_of_not_list nofun

theorem blocks_decided (base : List Nat) (i : Nat) : (vs : List Value) →
    Decided (FaultIn base i vs) (blocks base i vs : Run σ (List Block))
  | [] => .built (fun _ _ => not_faultIn_nil) (Run.gives_pure [])
  | v :: vs => by
    cases block_decided (base ++ [i]) v with
    | failed hfirst hb => exact .failed (first_of_head hfirst) (Run.gives_bind_error hb)
    | built hv hb =>
      cases blocks_decided base (i + 1) vs with
      | built hvs hbs =>
        refine .built (fun π f h => ?_)
          (Run.gives_bind_ok hb <| Run.gives_bind_ok hbs (Run.gives_pure _))
        match π, h with
        | 0 :: π, h => exact hv π f (faultIn_cons_zero.1 h)
        | (j + 1) :: π, h => exact hvs _ f (faultIn_cons_succ.1 h)
      | @failed π f hfirst hbs =>
        cases π with
        | nil => exact absurd hfirst.here id
        | cons j π =>
          exact .failed (first_of_tail hv hfirst) (Run.gives_bind_ok hb (Run.gives_bind_error hbs))
end

end BlockTree.Definition
