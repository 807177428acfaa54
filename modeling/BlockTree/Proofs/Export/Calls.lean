import BlockTree.Proofs.Export.Composed
import BlockTree.Proofs.Rendering.Visit
import BlockTree.Proofs.Rendering.Wrapping

/-! What exporting asks of its pipeline: the document is rendered, and then every block on its own,
so that the lines of a block are handed over once for itself and once more for every compound block
in a row above it. -/
namespace BlockTree

open Block (placedAll preorderAll visitedAll callsOf)

variable {m : Type → Type} [Monad m]

namespace Block

variable [LawfulMonad m] (p : Pipeline m)

mutual
theorem records_exported : ∀ b : Block, Records (b.exported p.recorded) (b.exported p)
    (b.preorder.flatMap fun c => callsOf c.reached)
  | .node f bs => by
    rw [preorder, List.flatMap_cons]
    refine (records_content p (.node f bs)).bind fun c => ?_
    simpa using (records_exportedAll bs).map fun xs => Exported.node f c xs

theorem records_exportedAll : ∀ bs : List Block,
    Records (exportedAll p.recorded bs) (exportedAll p bs)
      ((preorderAll bs).flatMap fun c => callsOf c.reached)
  | [] => Records.pure []
  | b :: bs => by
    rw [preorderAll, List.flatMap_append]
    refine (records_exported b).bind fun x => ?_
    simpa using (records_exportedAll bs).map fun xs => x :: xs
end

/-- The models of the blocks above a place, the nearest first; `above` are those above the block
itself. -/
def modelsAbove (above : List ContentModel) : List Nat → Block → List ContentModel
  | [], _ => above
  | i :: π, .node f bs => bs[i]?.elim [] (modelsAbove (f.model :: above) π)

/-- The places that the content of a block visits. -/
def contentPlaces (base : List Nat) (b : Block) : List (List Nat) := (b.visited base).map (·.1)

/-- The places that the export of a block visits: its content, and then the blocks below it. -/
def exportPlaces (base : List Nat) (b : Block) : List (List Nat) :=
  ((b.placed base).flatMap fun x => x.2.visited x.1).map (·.1)

/-- What `g` gives for children of the block at `base`, the first of which has the number `i`. -/
def spread (g : List Nat → Block → List (List Nat)) (base : List Nat) :
    Nat → List Block → List (List Nat)
  | _, [] => []
  | i, b :: bs => g (base ++ [i]) b ++ spread g base (i + 1) bs

section

variable {g : List Nat → Block → List (List Nat)} {base π : List Nat} {bs : List Block}

theorem prefix_of_mem_spread (hg : ∀ base b, ∀ π ∈ g base b, base <+: π) {i : Nat}
    (h : π ∈ spread g base i bs) : ∃ j, i ≤ j ∧ base ++ [j] <+: π := by
  induction bs generalizing i with
  | nil => exact absurd h List.not_mem_nil
  | cons b bs ih =>
    obtain h | h := List.mem_append.1 h
    · exact ⟨i, Nat.le_refl i, hg _ b π h⟩
    · obtain ⟨j, hj, hprefix⟩ := ih h
      exact ⟨j, Nat.le_of_succ_le hj, hprefix⟩

theorem eq_of_child_prefix {i j : Nat} (h : base ++ [i] <+: base ++ j :: π) : i = j := by
  rw [List.prefix_append_right_inj, List.cons_prefix_cons] at h
  exact h.1

theorem count_spread (hg : ∀ base b, ∀ π ∈ g base b, base <+: π) (base π : List Nat) (i : Nat)
    {j : Nat} {b : Block} (hb : bs[j]? = some b) :
    (spread g base i bs).count (base ++ (i + j) :: π) =
      (g (base ++ [i + j]) b).count (base ++ (i + j) :: π) := by
  induction bs generalizing i j with
  | nil => cases hb
  | cons c bs ih =>
    rw [spread, List.count_append]
    cases j with
    | zero =>
      cases hb
      have hrest : base ++ (i + 0) :: π ∉ spread g base (i + 1) bs := by
        intro h
        obtain ⟨k, hk, hprefix⟩ := prefix_of_mem_spread hg h
        have hki := eq_of_child_prefix hprefix
        omega
      rw [List.count_eq_zero_of_not_mem hrest, Nat.add_zero, Nat.add_zero]
    | succ j =>
      have hfirst : base ++ (i + (j + 1)) :: π ∉ g (base ++ [i]) c := by
        intro h
        have hij := eq_of_child_prefix (hg _ c _ h)
        omega
      have hshift : i + (j + 1) = i + 1 + j := by omega
      rw [List.count_eq_zero_of_not_mem hfirst, Nat.zero_add, hshift]
      exact ih (i + 1) hb

end

theorem prefix_of_mem_visited {base : List Nat} {b : Block} {x : List Nat × Block}
    (hx : x ∈ b.visited base) : base <+: x.1 := by
  have hplaced : (x.1, x.2) ∈ b.placed base := (visited_sublist base b).mem hx
  obtain ⟨ρ, hρ, -⟩ := (mem_placed_iff b).1 hplaced
  exact ⟨ρ, hρ.symm⟩

theorem prefix_of_mem_contentPlaces (base : List Nat) (b : Block) :
    ∀ π ∈ contentPlaces base b, base <+: π := by
  intro π hπ
  obtain ⟨x, hx, rfl⟩ := List.mem_map.1 hπ
  exact prefix_of_mem_visited hx

theorem prefix_of_mem_exportPlaces (base : List Nat) (b : Block) :
    ∀ π ∈ exportPlaces base b, base <+: π := by
  intro π hπ
  obtain ⟨x, hx, rfl⟩ := List.mem_map.1 hπ
  obtain ⟨y, hy, hx⟩ := List.mem_flatMap.1 hx
  obtain ⟨ρ, hρ, -⟩ := (mem_placed_iff b).1 (show (y.1, y.2) ∈ _ from hy)
  exact (List.prefix_append base ρ).trans (hρ ▸ prefix_of_mem_visited hx)

theorem spread_contentPlaces (base : List Nat) (i : Nat) (bs : List Block) :
    (visitedAll base i bs).map (·.1) = spread contentPlaces base i bs := by
  induction bs generalizing i with
  | nil => rfl
  | cons b bs ih => rw [visitedAll, List.map_append, ih, spread, contentPlaces]

theorem spread_exportPlaces (base : List Nat) (i : Nat) (bs : List Block) :
    ((placedAll base i bs).flatMap fun x => x.2.visited x.1).map (·.1) =
      spread exportPlaces base i bs := by
  induction bs generalizing i with
  | nil => rfl
  | cons b bs ih =>
    rw [placedAll, List.flatMap_append, List.map_append, ih, spread, exportPlaces]

theorem contentPlaces_node (base : List Nat) (f : Fields) (bs : List Block) :
    contentPlaces base (.node f bs) =
      base :: if f.model = .compound then spread contentPlaces base 0 bs else [] := by
  rw [contentPlaces, visited, List.map_cons]
  split
  · rw [spread_contentPlaces]
  · rfl

theorem exportPlaces_node (base : List Nat) (f : Fields) (bs : List Block) :
    exportPlaces base (.node f bs) =
      contentPlaces base (.node f bs) ++ spread exportPlaces base 0 bs := by
  rw [exportPlaces, placed, List.flatMap_cons, List.map_append, spread_exportPlaces, contentPlaces]

end Block

def compoundRun (ms : List ContentModel) : Nat := (ms.takeWhile (· = .compound)).length

@[simp]
theorem compoundRun_cons (m : ContentModel) (ms : List ContentModel) :
    compoundRun (m :: ms) = if m = .compound then compoundRun ms + 1 else 0 := by
  rw [compoundRun, List.takeWhile_cons]
  by_cases hm : m = .compound <;> simp [hm, compoundRun]

namespace Block

theorem base_not_mem_spread {g : List Nat → Block → List (List Nat)}
    (hg : ∀ base b, ∀ π ∈ g base b, base <+: π) (base : List Nat) (i : Nat) (bs : List Block) :
    base ∉ spread g base i bs := by
  intro h
  obtain ⟨j, -, hprefix⟩ := prefix_of_mem_spread hg h
  have hlength : base.length + 1 ≤ base.length := by simpa using hprefix.length_le
  omega

/-- A place in a block that is rendered once for each compound block in a row above it, and then
exported, is visited once for itself and once for each compound block in a row above it. -/
theorem count_exportPlaces (base : List Nat) (above : List ContentModel) {π : List Nat}
    {b c : Block} (hc : b.at? π = some c) :
    compoundRun above * (contentPlaces base b).count (base ++ π) +
        (exportPlaces base b).count (base ++ π) =
      1 + compoundRun (b.modelsAbove above π) := by
  induction π generalizing base above b with
  | nil =>
    obtain ⟨f, bs⟩ := b
    have hcontent : (contentPlaces base (.node f bs)).count base = 1 := by
      have hbelow := base_not_mem_spread prefix_of_mem_contentPlaces base 0 bs
      rw [contentPlaces_node, List.count_cons_self]
      split
      · rw [List.count_eq_zero_of_not_mem hbelow]
      · rfl
    have hbelow := base_not_mem_spread prefix_of_mem_exportPlaces base 0 bs
    rw [List.append_nil, exportPlaces_node, List.count_append, hcontent,
      List.count_eq_zero_of_not_mem hbelow, modelsAbove]
    omega
  | cons i π ih =>
    obtain ⟨f, bs⟩ := b
    obtain ⟨b, hb, hc⟩ := Option.bind_eq_some_iff.1 hc
    have hne : base ≠ base ++ i :: π := fun h => by simpa using congrArg List.length h
    have hbelow := count_spread prefix_of_mem_contentPlaces base π 0 hb
    have hexport := count_spread prefix_of_mem_exportPlaces base π 0 hb
    rw [Nat.zero_add] at hbelow hexport
    have hsplit : base ++ i :: π = base ++ [i] ++ π := by simp
    have hih := ih (base ++ [i]) (f.model :: above) hc
    rw [← hsplit, ← hbelow, ← hexport, compoundRun_cons] at hih
    rw [exportPlaces_node, List.count_append, contentPlaces_node, List.count_cons_of_ne hne,
      modelsAbove, hb, Option.elim_some]
    by_cases hf : f.model = .compound
    · rw [if_pos hf, Nat.succ_mul] at hih
      rw [if_pos hf]
      omega
    · rw [if_neg hf] at hih
      rw [if_neg hf, List.count_nil]
      omega

end Block

namespace Document

def modelsAbove (d : Document) : List Nat → List ContentModel
  | [] => []
  | i :: π => d.blocks[i]?.elim [] (Block.modelsAbove [.compound] π)

/-- What exporting visits: all that rendering does, and then, for every block in pre-order, all that
its own content does. -/
def exportVisits (d : Document) : List (List Nat × Block) :=
  visitedAll [] 0 d.blocks ++ (placedAll [] 0 d.blocks).flatMap fun x => x.2.visited x.1

theorem records_export [LawfulMonad m] (p : Pipeline m) (d : Document) :
    Records (d.exported p.recorded) (d.exported p)
      (d.calls ++ (preorderAll d.blocks).flatMap fun b => callsOf b.reached) := by
  refine (records_render p d).bind fun content => ?_
  simpa using (Block.records_exportedAll p d.blocks).map fun xs =>
    ExportedDocument.mk d.attributes content xs

theorem callsOf_exportVisits (d : Document) :
    callsOf (d.exportVisits.map (·.2)) =
      d.calls ++ (preorderAll d.blocks).flatMap fun b => callsOf b.reached := by
  have hblocks : ((placedAll [] 0 d.blocks).flatMap fun x => x.2.visited x.1).map (·.2) =
      (preorderAll d.blocks).flatMap Block.reached := by
    rw [List.map_flatMap, ← Block.map_snd_placedAll [] 0 d.blocks, List.flatMap_map]
    simp only [Block.map_snd_visited]
  simp only [exportVisits, List.map_append, Block.callsOf_append, Block.map_snd_visitedAll, hblocks,
    calls]
  congr 1
  exact List.filterMap_flatMap

theorem at?_of_mem_exportVisits {d : Document} {x : List Nat × Block} (hx : x ∈ d.exportVisits) :
    d.at? x.1 = some x.2 := by
  obtain hx | hx := List.mem_append.1 hx
  · exact mem_placedAll_iff.1 ((Block.visitedAll_sublist [] 0 d.blocks).mem hx)
  · obtain ⟨y, hy, hx⟩ := List.mem_flatMap.1 hx
    have hyat : d.at? y.1 = some y.2 := mem_placedAll_iff.1 hy
    have hplaced : (x.1, x.2) ∈ y.2.placed y.1 := (Block.visited_sublist y.1 y.2).mem hx
    obtain ⟨ρ, hρ, hat⟩ := (Block.mem_placed_iff y.2).1 hplaced
    rw [hρ, at?_append hyat, hat]

theorem count_exportVisits {d : Document} {π : List Nat} {b : Block} (hb : d.at? π = some b) :
    (d.exportVisits.map (·.1)).count π = 1 + compoundRun (d.modelsAbove π) := by
  cases π with
  | nil => cases hb
  | cons i π =>
    obtain ⟨c, hc, hb⟩ := Option.bind_eq_some_iff.1 hb
    have hcount := Block.count_exportPlaces ([] ++ [i]) [.compound] hb
    have hcontent := Block.count_spread Block.prefix_of_mem_contentPlaces [] π 0 hc
    have hexport := Block.count_spread Block.prefix_of_mem_exportPlaces [] π 0 hc
    rw [Nat.zero_add] at hcontent hexport
    have hsplit : [] ++ [i] ++ π = [] ++ i :: π := by simp
    rw [hsplit, ← hcontent, ← hexport] at hcount
    have hone : compoundRun [.compound] = 1 := rfl
    rw [hone, Nat.one_mul] at hcount
    rw [exportVisits, List.map_append, List.count_append, Block.spread_contentPlaces,
      Block.spread_exportPlaces, modelsAbove, hc, Option.elim_some]
    exact hcount

end Document

theorem Fields.call?_eq_none_iff {f : Fields} :
    f.call? = none ↔ f.model = .compound ∨ f.model = .empty := by
  unfold call?
  cases f.model <;> simp

/-- Exporting a document makes the calls of rendering it, and then those of the content of every
block in pre-order. So it hands over the lines of a block once for itself and once for every
compound block in a row above it, the document among them, and those of compound and empty blocks
never. The content that it gives for the document is that of rendering alone. -/
theorem Document.export_calls {σ : Type} {p : Pipeline (Run σ)} (hp : p.Every Run.Returns)
    (d : Document) (e : Effects σ) :
    ∃ x e₁ e₂ calls,
      (d.render p).run e = (.ok x.content, e₁) ∧
      ((d.render p.recorded).run []).run e = (.ok (x.content, d.calls), e₁) ∧
      (d.exported p).run e = (.ok x, e₂) ∧
      ((d.exported p.recorded).run []).run e = (.ok (x, calls), e₂) ∧
      calls = d.calls ++ (preorderAll d.blocks).flatMap (fun b => callsOf b.reached) ∧
      (∀ b : Block, Records (b.content p.recorded) (b.content p) (callsOf b.reached)) ∧
      calls = callsOf (d.exportVisits.map (·.2)) ∧
      (∀ x ∈ d.exportVisits, d.at? x.1 = some x.2) ∧
      (∀ π b, d.at? π = some b →
        (d.exportVisits.map (·.1)).count π = 1 + compoundRun (d.modelsAbove π)) ∧
      ∀ f : Fields, f.call? = none ↔ f.model = .compound ∨ f.model = .empty := by
  obtain ⟨content, e₁, hcontent⟩ := hp.render Run.returns_composable d e
  obtain ⟨xs, e₂, hxs⟩ := hp.exportedAll Run.returns_composable d.blocks e₁
  have hexported : (d.exported p).run e = (.ok ⟨d.attributes, content, xs⟩, e₂) :=
    (Run.bind_ok _ hcontent).trans ((Run.bind_ok _ hxs).trans rfl)
  refine ⟨⟨d.attributes, content, xs⟩, e₁, e₂, _, hcontent, ?_, hexported, ?_, rfl,
    Block.records_content p, d.callsOf_exportVisits.symm, fun x => at?_of_mem_exportVisits,
    fun π b => count_exportVisits, fun f => Fields.call?_eq_none_iff⟩
  · rw [d.records_render p, map_eq_pure_bind, Run.bind_ok _ hcontent]
    rfl
  · rw [d.records_export p, map_eq_pure_bind, Run.bind_ok _ hexported]
    rfl

def Document.countedNest : Document :=
  ⟨[], [.node (.counted .compound []) [
    .node (.counted .raw ["a"]) [.node (.counted .simple ["b"]) []]]]⟩

theorem Document.export_calls_countedNest :
    (Pipeline.ofSubstitutor Substitutor.counting).Every Run.Returns ∧
      ∃ x e₂, (countedNest.exported (.ofSubstitutor .counting)).run ⟨⟨[0], []⟩, []⟩ = (.ok x, e₂) ∧
        x.content = "a#1" ∧
        (countedNest.exportVisits.map (·.1)).count [0, 0] = 3 ∧
        (countedNest.exportVisits.map (·.1)).count [0, 0, 0] = 1 := by
  have hp : (Pipeline.ofSubstitutor Substitutor.counting).Every Run.Returns :=
    Substitutor.every Run.returns_composable (Substitutor.step_returns Substitutor.counting_returns)
  obtain ⟨x, e₁, e₂, calls, hrender, -, hexported, -, -, -, -, -, hcount, -⟩ :=
    export_calls hp countedNest ⟨⟨[0], []⟩, []⟩
  have hcontent : (countedNest.render (.ofSubstitutor .counting)).run ⟨⟨[0], []⟩, []⟩ =
      (.ok "a#1", ⟨⟨[1], []⟩, []⟩) := by with_unfolding_all rfl
  have hx : x.content = "a#1" := by
    rw [hcontent] at hrender
    exact (Except.ok.inj (congrArg Prod.fst hrender)).symm
  exact ⟨hp, x, e₂, hexported, hx, hcount [0, 0] _ rfl, hcount [0, 0, 0] _ rfl⟩

end BlockTree
