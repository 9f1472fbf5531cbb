import Mathlib.Data.BitVec
import Mathlib.Tactic.Common

set_option autoImplicit false

/-! # Timestamps of a clock that wraps around

A clock counts without bound, but a timestamp keeps `w` bits of it and is read as a signed number.
Two timestamps are compared by their difference, which is the timestamp of the time that has passed
between them (`stamp_sub`). Compared with a bound, the difference is right as long as the time
passed is below half the range, and looks short in every other half of it (`stamp_slt`). -/

namespace Stamp

variable {w t u b : Nat}

/-- The timestamp of time `t`. -/
def stamp (w t : Nat) : BitVec w := BitVec.ofNat w t

@[simp] theorem toNat_stamp : (stamp w t).toNat = t % 2 ^ w := BitVec.toNat_ofNat ..

theorem stamp_add : stamp w (t + u) = stamp w t + stamp w u := BitVec.ofNat_add ..

/-- **The difference of two timestamps is that of the time between them.** -/
theorem stamp_sub (h : u ≤ t) : stamp w t - stamp w u = stamp w (t - u) := by
  have hsum : stamp w (t - u) + stamp w u = stamp w t := by
    rw [← stamp_add, Nat.sub_add_cancel h]
  rw [← hsum, BitVec.add_sub_cancel]

/-- The timestamps whose bits are all set, which read as `-1`. -/
theorem stamp_eq_neg_one : stamp w t = -1 ↔ t % 2 ^ w = 2 ^ w - 1 := by
  have hones : (-1 : BitVec w) = BitVec.allOnes w := BitVec.neg_one_eq_allOnes
  rw [hones, ← BitVec.toNat_inj, toNat_stamp, BitVec.toNat_allOnes]

/-- A time that is read as negative counts as short. -/
theorem stamp_slt (hb : 2 * b < 2 ^ w) :
    (stamp w t).slt (stamp w b) = true ↔ t % 2 ^ w < b ∨ 2 ^ w ≤ 2 * (t % 2 ^ w) := by
  have hbmod : b % 2 ^ w = b := Nat.mod_eq_of_lt (by omega)
  have hlt : t % 2 ^ w < 2 ^ w := Nat.mod_lt _ (Nat.two_pow_pos w)
  rw [BitVec.slt_iff_toInt_lt, BitVec.toInt_eq_toNat_cond, BitVec.toInt_eq_toNat_cond, toNat_stamp,
    toNat_stamp, hbmod]
  rw [if_pos hb]
  split
  case isTrue h =>
    constructor
    · intro hless
      exact Or.inl (by exact_mod_cast hless)
    · rintro (hless | hbig)
      · exact_mod_cast hless
      · omega
  case isFalse h =>
    have hcast : ((t % 2 ^ w : Nat) : Int) < ((2 ^ w : Nat) : Int) := Int.ofNat_lt.2 hlt
    refine ⟨fun _ => Or.inr (not_lt.1 h), fun _ => ?_⟩
    omega

end Stamp
