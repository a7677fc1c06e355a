/-
  RedisAgent.Lib.Words — machine words read as numbers.
-/
import Mathlib.Algebra.Group.Int.Defs
import Mathlib.Algebra.GroupWithZero.Nat

namespace RedisAgent

/-- An unsigned word that is small enough is the same number when it is read as a
signed one. -/
theorem toInt32_of_small {u : UInt32} (h : u.toNat < 2 ^ 31) : u.toInt32.toInt = u.toNat := by
  have hbv : u.toInt32.toInt = u.toBitVec.toInt := rfl
  rw [hbv, BitVec.toInt_eq_toNat_of_lt]
  · rfl
  · show 2 * u.toNat < 2 ^ 32
    omega

/-- An `int` passed as `size_t`. -/
def sizeT (n : Int) : Nat := (n % 2 ^ 64).toNat

theorem sizeT_of_small {n : Nat} (h : n < 2 ^ 31) : sizeT n = n := by
  unfold sizeT
  omega

end RedisAgent
