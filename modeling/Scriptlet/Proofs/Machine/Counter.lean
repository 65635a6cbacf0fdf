import Scriptlet.Machine
import Scriptlet.Number.Integer

/-!
# Counter: what a word tells of the steps

The counter of a machine is a word that begins again with the least number after the greatest. As
long as it does not begin again, it grows with the steps; it tells the multiples of 64 at any time,
and shows every number again and again.
-/

namespace Scriptlet

/-- How often a word has begun again by the time it has counted to `n`. -/
def turns (n : Nat) : Nat := (n + signedBound) / unsignedBound

/-- A word lacks the turns that it has made. -/
theorem toInt_ofNat_eq (n : Nat) : (Int64.ofNat n).toInt = n - unsignedBound * turns n := by
  have hsize : (Int64.size : Int) = 18446744073709551616 := rfl
  rw [Int64.toInt_ofNat', Int.bmod_def, turns, signedBound, unsignedBound]
  simp only [hsize, Int64.size]
  split
  · omega
  · omega

theorem ofNat_lt_ofNat_iff {n k : Nat} (h : turns n = turns k) :
    Int64.ofNat n < Int64.ofNat k ↔ n < k := by
  rw [Int64.lt_iff_toInt_lt, toInt_ofNat_eq, toInt_ofNat_eq, h]
  omega

theorem ofNat_le_ofNat_iff {n k : Nat} (h : turns n = turns k) :
    Int64.ofNat n ≤ Int64.ofNat k ↔ n ≤ k := by
  rw [Int64.le_iff_toInt_le, toInt_ofNat_eq, toInt_ofNat_eq, h]
  omega

/-- One step more adds one, or begins again with the least number. -/
theorem toInt_ofNat_succ_le (n : Nat) :
    (Int64.ofNat (n + 1)).toInt ≤ (Int64.ofNat n).toInt + 1 := by
  rw [toInt_ofNat_eq, toInt_ofNat_eq, turns, turns, signedBound, unsignedBound]
  omega

/-- Begun again or not, a word tells the multiples of 64. -/
theorem ofNat_mod_cancelInterval (n : Nat) :
    Int64.ofNat n % cancelInterval = 0 ↔ n % 64 = 0 := by
  rw [← Int64.toInt_inj, Int64.toInt_mod, toInt_ofNat_eq, unsignedBound]
  have hinterval : cancelInterval.toInt = 64 := rfl
  have hzero : (0 : Int64).toInt = 0 := rfl
  rw [hinterval, hzero, ← Int.dvd_iff_tmod_eq_zero]
  omega

/-- Every number is shown again and again. -/
theorem exists_ofNat_eq (c : Int64) (n : Nat) : ∃ k, n < k ∧ Int64.ofNat k = c := by
  have hlow := c.le_toInt
  have hhigh := c.toInt_lt
  -- One turn more than `n`, and from there to the word.
  refine ⟨(((n + 1) * unsignedBound : Nat) + c.toInt).toNat, ?_, ?_⟩
  · rw [unsignedBound]
    omega
  · rw [← Int64.toInt_inj, toInt_ofNat_eq, turns, signedBound, unsignedBound]
    omega

end Scriptlet
