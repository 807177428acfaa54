import BlockTree.Definition
import BlockTree.Proofs.Export.Agreement
import BlockTree.Proofs.Json.Admitted
import BlockTree.Proofs.Tree.Place

/-! Exports that are written as JSON. All that can keep an export from being written are the
attributes, which come to it as they were given. Every level of blocks takes two levels of nesting
from those below it. -/
namespace BlockTree

open Block (placedAll)
open Json (Dialect nestingLimit)

namespace Json.Dialect

variable {d : Dialect} {room : Nat}

theorem admits_record (d : Dialect) (room : Nat) (fields : List (String × Value)) :
    d.admits room (.record fields) = true ↔
      0 < room ∧ ∀ f ∈ fields, d.admits (room - 1) f.2 = true := by
  rw [Value.record, admits, Bool.and_eq_true, decide_eq_true_iff]
  refine and_congr_right fun _ => ?_
  induction fields with
  | nil => simp [admitsEntries]
  | cons f fs ih =>
    rw [List.forall_mem_cons, List.map_cons, admitsEntries, admitsKey, Bool.true_and,
      Bool.and_eq_true, ih]

@[simp]
theorem admits_ofText? (d : Dialect) (room : Nat) (o : Option String) :
    d.admits room (.ofText? o) = true := by
  cases o <;> rfl

@[simp]
theorem admitsItems_texts (d : Dialect) (room : Nat) (ss : List String) :
    d.admitsItems room (ss.map .str) = true := by
  induction ss with
  | nil => rfl
  | cons s ss ih => rw [List.map_cons, admitsItems, admits, ih, Bool.and_self]

end Json.Dialect

/-- The attributes of a block are admitted with the room that is left in its entry. -/
def Fields.Admitted (d : Dialect) (room : Nat) (f : Fields) : Prop :=
  d.admits room (.map f.attributes) = true

namespace Exported

variable {d : Dialect}

theorem admits_entry (d : Dialect) (room : Nat) (f : Fields) (c : Option String)
    (xs : List Exported) : d.admits room (Exported.node f c xs).toValue = true ↔
      f.Admitted d (room - 1) ∧ d.admitsItems (room - 2) (toValues xs) = true := by
  rw [toValue, Dialect.admits_record]
  simp only [blockFields, Fields.Admitted, List.forall_mem_cons, List.not_mem_nil, false_imp_iff,
    implies_true, and_true, Dialect.admits, Dialect.admits_ofText?, Dialect.admitsItems_texts,
    true_and, Bool.and_eq_true, decide_eq_true_iff, Nat.sub_sub]
  constructor
  · rintro ⟨-, hattributes, -, -, hblocks⟩
    exact ⟨hattributes, hblocks⟩
  · rintro ⟨hattributes, hblocks⟩
    have hroom : 0 < room - 1 := hattributes.1
    exact ⟨by omega, hattributes, hroom, hroom, hblocks⟩

mutual
/-- An entry is admitted exactly if the attributes of all its blocks are, each with the room that
its place leaves. -/
theorem admits_toValue_iff (d : Dialect) (limit : Nat) (base : List Nat) : (x : Exported) →
    (d.admits (limit - 2 * base.length) x.toValue = true ↔
      ∀ b ∈ x.block.placed base, b.2.fields.Admitted d (limit - 2 * b.1.length - 1))
  | .node f c xs => by
    have hbelow := admitsItems_toValues_iff d limit base 0 xs
    have hroom : limit - 2 * base.length - 2 = limit - 2 * (base.length + 1) := by omega
    rw [admits_entry, hroom, hbelow, block, Block.placed, List.forall_mem_cons]
    exact Iff.rfl

theorem admitsItems_toValues_iff (d : Dialect) (limit : Nat) (base : List Nat) (i : Nat) :
    (xs : List Exported) →
    (d.admitsItems (limit - 2 * (base.length + 1)) (toValues xs) = true ↔
      ∀ b ∈ placedAll base i (blockAll xs), b.2.fields.Admitted d (limit - 2 * b.1.length - 1))
  | [] => by simp [toValues, Dialect.admitsItems, blockAll, placedAll]
  | x :: xs => by
    have hfirst := admits_toValue_iff d limit (base ++ [i]) x
    have hrest := admitsItems_toValues_iff d limit base (i + 1) xs
    rw [List.length_append, List.length_singleton] at hfirst
    rw [toValues, Dialect.admitsItems, Bool.and_eq_true, hfirst, hrest, blockAll, placedAll,
      List.forall_mem_append]
end

end Exported

theorem ExportedDocument.admits_toValue_iff (d : Dialect) (x : ExportedDocument) :
    d.admits (nestingLimit d) x.toValue = true ↔
      d.admits (nestingLimit d - 1) (.map x.attributes) = true ∧
        ∀ b ∈ placedAll [] 0 (Exported.blockAll x.blocks),
          b.2.fields.Admitted d (nestingLimit d - 2 * b.1.length - 1) := by
  have hlimit : 0 < nestingLimit d := by cases d <;> decide
  have hlimit' : 0 < nestingLimit d - 1 := by cases d <;> decide
  have hblocks := Exported.admitsItems_toValues_iff d (nestingLimit d) [] 0 x.blocks
  rw [toValue, Dialect.admits_record, ← hblocks]
  simp [documentFields, Dialect.admits, hlimit, hlimit', Nat.sub_sub]

end BlockTree
