import BlockTree.Proofs.Export.Composed

/-! Exports whose contents agree. Every content comes from a rendering of its own, and yet what is
given for a document or a compound block is what its entries join to, where the substitutions have
no state. -/
namespace BlockTree

open Text (joinLines)

variable {σ : Type} {p : Pipeline (Run σ)}

namespace Exported

def fields : Exported → Fields
  | .node f _ _ => f

def content : Exported → Option String
  | .node _ c _ => c

def blocks : Exported → List Exported
  | .node _ _ xs => xs

mutual
def block : Exported → Block
  | .node f _ xs => .node f (blockAll xs)

def blockAll : List Exported → List Block
  | [] => []
  | x :: xs => x.block :: blockAll xs
end

mutual
def preorder : Exported → List Exported
  | .node f c xs => .node f c xs :: preorderAll xs

def preorderAll : List Exported → List Exported
  | [] => []
  | x :: xs => x.preorder ++ preorderAll xs
end

@[simp]
theorem mem_preorder_self (x : Exported) : x ∈ x.preorder := by
  cases x with
  | node f c xs => exact List.mem_cons_self

def texts (xs : List Exported) : List String := xs.filterMap content

/-- What the content of an entry is: that of its block, for a compound one the join of the contents
of its own entries, for an empty one none, and the same with any blocks inside for all that are not
compound. -/
structure Agrees (p : Pipeline (Run σ)) (x : Exported) : Prop where
  rendered : (x.block.content p).Gives (.ok x.content)
  compound : x.fields.model = .compound → x.content = some (joinLines (texts x.blocks))
  empty : x.fields.model = .empty → x.content = none
  sealed : x.fields.model ≠ .compound → ∀ bs, ∃ xs,
    ((Block.node x.fields bs).exported p).Gives (.ok (.node x.fields x.content xs))

theorem ownContent_settles (hp : p.Every Run.Settles) (f : Fields) :
    ∃ c, (Block.ownContent p f).Gives (.ok c) ∧ (f.model = .empty → c = none) := by
  cases hm : f.model with
  | compound | empty =>
    have hown : Block.ownContent p f = pure none := by simp only [Block.ownContent, hm]
    exact ⟨none, hown ▸ Run.gives_pure none, fun _ => rfl⟩
  | simple | verbatim | raw =>
    obtain ⟨c, hc⟩ := hp.ownContent Run.settles_composable f
    exact ⟨c, hc, fun hempty => by cases hempty⟩

mutual
/-- A block is exported as an entry of the same shape that agrees with all inside it. -/
theorem exported_agrees (hp : p.Every Run.Settles) : (b : Block) →
    ∃ x, (b.exported p).Gives (.ok x) ∧ x.block = b ∧ ∀ y ∈ x.preorder, y.Agrees p
  | .node f bs => by
    obtain ⟨xs, hxs, hblocks, hcontents, hall⟩ := exportedAll_agree hp bs
    by_cases hf : f.model = .compound
    · have hcontent : ((Block.node f bs).content p).Gives (.ok (some (joinLines (texts xs)))) := by
        rw [Block.content, if_pos hf]
        exact Run.gives_bind_ok hcontents (Run.gives_pure _)
      refine ⟨.node f (some (joinLines (texts xs))) xs,
        Run.gives_bind_ok hcontent (Run.gives_bind_ok hxs (Run.gives_pure _)),
        by rw [block, hblocks], List.forall_mem_cons.2 ⟨?_, hall⟩⟩
      exact {
        rendered := by rwa [block, hblocks]
        compound := fun _ => rfl
        empty := fun hempty => by cases hf.symm.trans hempty
        sealed := fun hne => absurd hf hne }
    · obtain ⟨c, hown, hempty⟩ := ownContent_settles hp f
      have hcontent (bs' : List Block) : ((Block.node f bs').content p).Gives (.ok c) := by
        rwa [Block.content, if_neg hf]
      refine ⟨.node f c xs,
        Run.gives_bind_ok (hcontent bs) (Run.gives_bind_ok hxs (Run.gives_pure _)),
        by rw [block, hblocks], List.forall_mem_cons.2 ⟨?_, hall⟩⟩
      exact {
        rendered := by rw [block, hblocks]; exact hcontent bs
        compound := fun hcompound => absurd hcompound hf
        empty := hempty
        sealed := fun _ bs' => by
          obtain ⟨ys, hys⟩ := hp.exportedAll Run.settles_composable bs'
          exact ⟨ys, Run.gives_bind_ok (hcontent bs') (Run.gives_bind_ok hys (Run.gives_pure _))⟩ }

theorem exportedAll_agree (hp : p.Every Run.Settles) : (bs : List Block) →
    ∃ xs, (Block.exportedAll p bs).Gives (.ok xs) ∧ blockAll xs = bs ∧
      (Block.contents p bs).Gives (.ok (texts xs)) ∧ ∀ y ∈ preorderAll xs, y.Agrees p
  | [] => ⟨[], Run.gives_pure [], rfl, Run.gives_pure [], List.forall_mem_nil _⟩
  | b :: bs => by
    obtain ⟨x, hx, rfl, hagrees⟩ := exported_agrees hp b
    obtain ⟨xs, hxs, rfl, hcontents, hall⟩ := exportedAll_agree hp bs
    have hcontent := (hagrees x x.mem_preorder_self).rendered
    have htexts : texts (x :: xs) = x.content.toList ++ texts xs := by
      cases hc : x.content <;> simp [texts, hc]
    refine ⟨x :: xs, Run.gives_bind_ok hx (Run.gives_bind_ok hxs (Run.gives_pure _)), rfl, ?_,
      List.forall_mem_append.2 ⟨hagrees, hall⟩⟩
    rw [htexts]
    exact Run.gives_bind_ok hcontent (Run.gives_bind_ok hcontents (Run.gives_pure _))
end

end Exported

theorem Substitutor.step_settles {s : Substitutor σ} (hs : s.Returns) (hstateless : s.Stateless)
    (text name : String) : (s.step text name).Settles :=
  (step_returns hs text name).settles (step_steady hstateless text name)

/-- Without failures and state a document has one export. Its entries have the shape of its blocks,
its content is its rendering and what its entries join to, and all its entries agree. -/
theorem Document.export_agrees {s : Substitutor σ} (hs : s.Returns) (hstateless : s.Stateless)
    (d : Document) :
    ∃ x, (d.exported (.ofSubstitutor s)).Gives (.ok x) ∧ x.attributes = d.attributes ∧
      Exported.blockAll x.blocks = d.blocks ∧
      (d.render (.ofSubstitutor s)).Gives (.ok x.content) ∧
      x.content = joinLines (Exported.texts x.blocks) ∧
      ∀ y ∈ Exported.preorderAll x.blocks, y.Agrees (.ofSubstitutor s) := by
  have hp : (Pipeline.ofSubstitutor s).Every Run.Settles :=
    Substitutor.every Run.settles_composable (Substitutor.step_settles hs hstateless)
  obtain ⟨xs, hxs, hblocks, hcontents, hall⟩ := Exported.exportedAll_agree hp d.blocks
  have hrender : (d.render (.ofSubstitutor s)).Gives (.ok (joinLines (Exported.texts xs))) :=
    Run.gives_bind_ok hcontents (Run.gives_pure _)
  exact ⟨⟨d.attributes, joinLines (Exported.texts xs), xs⟩,
    Run.gives_bind_ok hrender (Run.gives_bind_ok hxs (Run.gives_pure _)), rfl, hblocks, hrender,
    rfl, hall⟩

def markedSection : Document := ⟨[], [
  .node ⟨"section", .compound, none, none, none, [], [], []⟩ [
    .node ⟨"p", .simple, none, none, none, [], ["mark"], ["c"]⟩ [],
    .node ⟨"rule", .empty, none, none, none, [], [], ["d"]⟩ [],
    .node ⟨"section", .compound, none, none, none, [], [], []⟩ []],
  .node ⟨"listing", .raw, none, none, none, [], [], ["a"]⟩ [
    .node ⟨"p", .simple, none, none, none, [], ["mark"], ["c"]⟩ []]]⟩

theorem Document.export_agrees_markedSection :
    Substitutor.marking.Returns ∧ Substitutor.marking.Stateless ∧
      ∃ x, (markedSection.exported (.ofSubstitutor .marking)).Gives (.ok x) ∧
        x.content = "c!\n\na" ∧ Exported.texts x.blocks = ["c!\n", "a"] ∧
        ∀ y ∈ Exported.preorderAll x.blocks, y.Agrees (.ofSubstitutor .marking) := by
  obtain ⟨x, hx, -, -, -, -, hagrees⟩ :=
    export_agrees Substitutor.marking_returns Substitutor.marking_stateless markedSection
  have hrun : ((markedSection.exported (.ofSubstitutor .marking)).run ⟨(), []⟩).1 = .ok x :=
    hx ⟨(), []⟩
  refine ⟨Substitutor.marking_returns, Substitutor.marking_stateless, x, hx, ?_, ?_, hagrees⟩
  · cases hrun
    with_unfolding_all rfl
  · cases hrun
    with_unfolding_all rfl

end BlockTree
