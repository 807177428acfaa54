import BlockTree.Json.Reader

/-! Values that both dialects know alike. Their integers are numbers in both, and the keys of their
mappings are kept apart. -/
namespace BlockTree

namespace Value

mutual
/-- Made of what both dialects know alike: null, booleans, integers of 64 bits, texts of any
characters, lists, and mappings from distinct texts. -/
def Portable : Value → Prop
  | .null | .bool _ | .str _ => True
  | .int n => -Int.pow 2 63 ≤ n ∧ n < Int.pow 2 64
  | .list vs => ArePortable vs
  | .map es => (es.map Prod.fst).Nodup ∧ EntriesPortable es
  | _ => False

def ArePortable : List Value → Prop
  | [] => True
  | v :: vs => v.Portable ∧ ArePortable vs

def EntriesPortable : List (Value × Value) → Prop
  | [] => True
  | (.str _, v) :: es => v.Portable ∧ EntriesPortable es
  | _ => False
end

mutual
def nesting : Value → Nat
  | .list vs => nestingItems vs + 1
  | .map es => nestingEntries es + 1
  | _ => 0

def nestingItems : List Value → Nat
  | [] => 0
  | v :: vs => max v.nesting (nestingItems vs)

def nestingEntries : List (Value × Value) → Nat
  | [] => 0
  | (_, v) :: es => max v.nesting (nestingEntries es)
end

theorem same_str_iff {v : Value} {s : String} : v.same (.str s) = true ↔ v = .str s := by
  cases v <;> simp [same, identical, eqv, eqvScalar, integer?]

end Value

theorem Entries.put_fresh {es es' : Entries} {s : String} {v : Value}
    (h : ((es ++ (.str s, v) :: es').map Prod.fst).Nodup) :
    put (.str s) v es = es ++ [(.str s, v)] := by
  induction es with
  | nil => rfl
  | cons e es ih =>
    obtain ⟨hfresh, h⟩ := List.nodup_cons.1 h
    have hne : ¬ e.1.same (.str s) = true := fun hsame => hfresh (by
      rw [Value.same_str_iff.1 hsame]
      simp)
    rw [put, if_neg hne, ih h, List.cons_append]

namespace Json

theorem admitsInt_portable (d : Dialect) {n : Int} (h : (Value.int n).Portable) :
    d.admitsInt n = true := by
  cases d with
  | narrow => simpa [Dialect.admitsInt, Value.Portable] using h
  | wide => rfl

theorem natAbs_portable {n : Int} (h : (Value.int n).Portable) {k : Nat} (hk : 20 ≤ k) :
    n.natAbs < Nat.pow 10 k := by
  have hlow : -9223372036854775808 ≤ n := h.1
  have hhigh : n < 18446744073709551616 := h.2
  have habs : n.natAbs < 100000000000000000000 := by omega
  exact Nat.lt_of_lt_of_le habs (Nat.pow_le_pow_right (by decide) hk : 10 ^ 20 ≤ 10 ^ k)

end Json

end BlockTree
