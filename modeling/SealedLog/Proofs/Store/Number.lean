import Mathlib.Tactic.SplitIfs
import SealedLog.Store.Database

/-!
# Row numbers

The order of 64-bit numbers is the order of the integers that they denote, and the number after the
greatest one of a table is the next integer as long as numbers are left.

* `le_maxId`, `maxId_mem`: the greatest row number;
* `toInt_succ`, `toInt_ofNat_succ`: no number given out wraps around.
-/

namespace SealedLog

theorem int64_max_eq (a b : Int64) : max a b = if a ≤ b then b else a := rfl

instance int64MaxEqOr : Std.MaxEqOr Int64 where
  max_eq_or a b := by
    rw [int64_max_eq]
    split_ifs
    · exact .inr rfl
    · exact .inl rfl

instance int64LawfulOrderSup : Std.LawfulOrderSup Int64 where
  max_le_iff a b c := by
    rw [int64_max_eq]
    simp only [Int64.le_iff_toInt_le]
    split_ifs <;> omega

theorem le_maxId {ids : List Int64} {id : Int64} (h : id ∈ ids) : id ≤ Query.maxId ids := by
  unfold Query.maxId
  cases hm : ids.max? with
  | none => rw [List.max?_eq_none_iff.1 hm] at h; cases h
  | some m => exact (List.max?_le_iff hm).1 (Int64.le_refl m) id h

theorem maxId_mem {ids : List Int64} (h : ids ≠ []) : Query.maxId ids ∈ ids := by
  unfold Query.maxId
  cases hm : ids.max? with
  | none => exact absurd (List.max?_eq_none_iff.1 hm) h
  | some m => exact List.max?_mem hm

/-- As long as numbers are left, the number after the greatest one is the next integer. -/
theorem toInt_succ {n : Int64} (h : n < Int64.maxValue) : (n + 1).toInt = n.toInt + 1 := by
  have bound : n.toInt < 9223372036854775807 := by
    have := Int64.lt_iff_toInt_lt.1 h
    rwa [show Int64.maxValue.toInt = 9223372036854775807 by decide] at this
  have low := n.le_toInt
  rw [Int64.toInt_add, show (1 : Int64).toInt = 1 by decide, Int.bmod_eq_of_le] <;> omega

theorem toInt_ofNat_succ {n : Nat} (h : n < Int64.maxValue.toInt.toNat) :
    (Int64.ofNat (n + 1)).toInt = n + 1 := by
  rw [show Int64.maxValue.toInt.toNat = 9223372036854775807 by decide] at h
  rw [Int64.toInt_ofNat_of_lt (by omega)]
  rfl

end SealedLog
