import BlockTree.Json.Writer
import BlockTree.Proofs.Failure

/-! Which values a dialect writes. The answer is read off the value and the levels that are left for
it, and it is the same for every setting of the text. -/
namespace BlockTree

theorem except_isOk_bind {α β : Type} {x : Except Failure α} {f : α → Except Failure β} {b : Bool}
    (h : ∀ a, (f a).isOk = b) : (x >>= f).isOk = (x.isOk && b) := by
  cases x with
  | error r => rfl
  | ok a => exact h a

theorem except_isOk_map {α β : Type} {x : Except Failure α} {f : α → β} :
    (x >>= fun a => pure (f a)).isOk = x.isOk := by
  cases x <;> rfl

namespace Json

namespace Dialect

/-- Keys are texts, and in the wide dialect also the scalars of its own. -/
def admitsKey : Dialect → Value → Bool
  | _, .str _ => true
  | .wide, .null | .wide, .bool _ | .wide, .float _ | .wide, .ragged _ => true
  | .wide, .int n => (Value.int n).writable
  | _, _ => false

mutual
/-- Whether a value can be written where `room` levels of lists and mappings are left. -/
def admits (d : Dialect) (room : Nat) : Value → Bool
  | .null | .bool _ | .float _ | .str _ => true
  | .int n => d.admitsInt n && (Value.int n).writable
  | .ragged _ => d = .wide
  | .date _ | .datetime _ | .model _ => d = .narrow
  | .list vs => 0 < room && d.admitsItems (room - 1) vs
  | .pair v w => 0 < room && (d.admits (room - 1) v && d.admits (room - 1) w)
  | .map es => 0 < room && d.admitsEntries (room - 1) es
  | .bytes _ | .set _ | .again _ => false

def admitsItems (d : Dialect) (room : Nat) : List Value → Bool
  | [] => true
  | v :: vs => d.admits room v && d.admitsItems room vs

def admitsEntries (d : Dialect) (room : Nat) : List (Value × Value) → Bool
  | [] => true
  | (k, v) :: es => d.admitsKey k && (d.admits room v && d.admitsEntries room es)
end

end Dialect

variable {d : Dialect}

@[simp]
theorem intForm_isOk (d : Dialect) (n : Int) :
    (intForm d n).isOk = (d.admitsInt n && (Value.int n).writable) := by
  unfold intForm
  cases hd : d.admitsInt n with
  | false => rfl
  | true => cases hw : (Value.int n).writable <;> rfl

@[simp]
theorem keyText_isOk (d : Dialect) (s : Setting) (k : Value) :
    (keyText d s k).isOk = d.admitsKey k := by
  cases k with
  | int n =>
    cases d with
    | narrow => rfl
    | wide =>
      rw [keyText, except_isOk_map, intForm_isOk, Dialect.admitsInt, Bool.true_and,
        Dialect.admitsKey]
  | _ => cases d <;> rfl

@[simp]
theorem enter_isOk (d : Dialect) (depth : Nat) :
    (enter d depth).isOk = decide (0 < nestingLimit d - depth) := by
  unfold enter
  by_cases h : nestingLimit d ≤ depth
  · rw [if_pos h, Nat.sub_eq_zero_of_le h]
    rfl
  · rw [if_neg h, decide_eq_true (Nat.sub_pos_of_lt (Nat.lt_of_not_le h))]
    rfl

mutual
/-- A value is written exactly if the dialect admits it. -/
@[simp]
theorem writeChars_isOk (d : Dialect) (s : Setting) (depth : Nat) : (v : Value) →
    (writeChars d s depth v).isOk = d.admits (nestingLimit d - depth) v
  | .list vs => by
    rw [writeChars, Dialect.admits, ← enter_isOk, Nat.sub_sub]
    refine except_isOk_bind fun _ => ?_
    rw [← writeItems_isOk d s.deeper (depth + 1) vs]
    exact except_isOk_map
  | .pair v w => by
    rw [writeChars, Dialect.admits, ← enter_isOk, Nat.sub_sub]
    refine except_isOk_bind fun _ => ?_
    rw [← writeChars_isOk d s.deeper (depth + 1) v, ← writeChars_isOk d s.deeper (depth + 1) w]
    refine except_isOk_bind fun _ => ?_
    exact except_isOk_map
  | .map es => by
    rw [writeChars, Dialect.admits, ← enter_isOk, Nat.sub_sub]
    refine except_isOk_bind fun _ => ?_
    rw [← writeEntries_isOk d s.deeper (depth + 1) es]
    exact except_isOk_map
  | .int n => intForm_isOk d n
  | .ragged _ | .date _ | .datetime _ | .model _ => by cases d <;> rfl
  | .null | .bool _ | .float _ | .str _ | .bytes _ | .set _ | .again _ => rfl

@[simp]
theorem writeItems_isOk (d : Dialect) (s : Setting) (depth : Nat) : (vs : List Value) →
    (writeItems d s depth vs).isOk = d.admitsItems (nestingLimit d - depth) vs
  | [] => rfl
  | v :: vs => by
    rw [writeItems, Dialect.admitsItems, ← writeChars_isOk d s depth v,
      ← writeItems_isOk d s depth vs]
    refine except_isOk_bind fun _ => ?_
    exact except_isOk_map

@[simp]
theorem writeEntries_isOk (d : Dialect) (s : Setting) (depth : Nat) :
    (es : List (Value × Value)) →
    (writeEntries d s depth es).isOk = d.admitsEntries (nestingLimit d - depth) es
  | [] => rfl
  | (k, v) :: es => by
    rw [writeEntries, Dialect.admitsEntries, ← keyText_isOk d s k, ← writeChars_isOk d s depth v,
      ← writeEntries_isOk d s depth es]
    refine except_isOk_bind fun _ => ?_
    refine except_isOk_bind fun _ => ?_
    exact except_isOk_map
end

end Json

end BlockTree
