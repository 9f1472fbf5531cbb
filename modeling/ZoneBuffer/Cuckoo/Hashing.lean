import ZoneBuffer.Cuckoo.Table
import Mathlib.Data.Nat.Bitwise
import Mathlib.Tactic.Common

set_option autoImplicit false

/-! # The two buckets of a key

A mask of low bits is a remainder, and remainders commute with exclusive or. So taking the other
bucket twice gives the first one back (`altIndex_altIndex`), whichever one it started from, and in
a table twice the size each of the two buckets is the old one or the old one a table's size
further (`indexHash_succ`, `altIndex_succ`). -/

namespace ZoneBuffer.Cuckoo

theorem hashsize_eq (hp : Nat) : hashsize hp = 2 ^ hp := Nat.one_shiftLeft hp

theorem hashsize_pos (hp : Nat) : 0 < hashsize hp := by
  rw [hashsize_eq]
  exact Nat.two_pow_pos hp

theorem hashsize_succ (hp : Nat) : hashsize (hp + 1) = 2 * hashsize hp := by
  rw [hashsize_eq, hashsize_eq, Nat.pow_succ']

theorem and_hashmask (hp i : Nat) : i &&& hashmask hp = i % hashsize hp := by
  unfold hashmask
  rw [hashsize_eq, Nat.and_two_pow_sub_one_eq_mod]

theorem indexHash_eq (hp : Nat) (hv : UInt64) : indexHash hp hv = hv.toNat % hashsize hp :=
  and_hashmask hp _

/-- The number a partial key is turned into. -/
def tagOf (p : UInt8) : Nat := ((p.toUInt64 + 1) * 0xc6a4a7935bd1e995).toNat

theorem altIndex_eq (hp : Nat) (p : UInt8) (i : Nat) :
    altIndex hp p i = (i ^^^ tagOf p) % hashsize hp := and_hashmask hp _

theorem indexHash_lt (hp : Nat) (hv : UInt64) : indexHash hp hv < hashsize hp := by
  rw [indexHash_eq]
  exact Nat.mod_lt _ (hashsize_pos hp)

theorem altIndex_lt (hp : Nat) (p : UInt8) (i : Nat) : altIndex hp p i < hashsize hp := by
  rw [altIndex_eq]
  exact Nat.mod_lt _ (hashsize_pos hp)

/-- **The other bucket of the other bucket is the first one.** -/
theorem altIndex_altIndex {hp i : Nat} (p : UInt8) (hi : i < hashsize hp) :
    altIndex hp p (altIndex hp p i) = i := by
  rw [hashsize_eq] at hi
  rw [altIndex_eq, altIndex_eq, hashsize_eq]
  calc ((i ^^^ tagOf p) % 2 ^ hp ^^^ tagOf p) % 2 ^ hp
      = ((i ^^^ tagOf p) ^^^ tagOf p) % 2 ^ hp := by
        rw [Nat.xor_mod_two_pow, Nat.mod_mod, ← Nat.xor_mod_two_pow]
    _ = i % 2 ^ hp := by rw [Nat.xor_assoc, Nat.xor_self, Nat.xor_zero]
    _ = i := Nat.mod_eq_of_lt hi

/-- A number below twice the size of a table is its remainder, or that and the size. -/
theorem eq_or_eq_add {hp x i : Nat} (hx : x < hashsize (hp + 1)) (hi : x % hashsize hp = i) :
    x = i ∨ x = i + hashsize hp := by
  rw [hashsize_succ] at hx
  have hdiv := Nat.mod_add_div x (hashsize hp)
  have hlt : x / hashsize hp < 2 := Nat.div_lt_of_lt_mul (by omega)
  rw [hi] at hdiv
  rcases Nat.lt_succ_iff_lt_or_eq.1 hlt with h0 | h1
  · rw [Nat.lt_one_iff.1 h0] at hdiv
    omega
  · rw [h1] at hdiv
    omega

theorem indexHash_succ_mod (hp : Nat) (hv : UInt64) :
    indexHash (hp + 1) hv % hashsize hp = indexHash hp hv := by
  rw [indexHash_eq, indexHash_eq, hashsize_succ, Nat.mod_mul_left_mod]

theorem altIndex_succ_mod (hp : Nat) (p : UInt8) (i : Nat) :
    altIndex (hp + 1) p i % hashsize hp = altIndex hp p (i % hashsize hp) := by
  rw [altIndex_eq, altIndex_eq, hashsize_succ, Nat.mod_mul_left_mod, hashsize_eq,
    Nat.xor_mod_two_pow, Nat.xor_mod_two_pow, Nat.mod_mod]

/-- **The first bucket of a key in a table twice the size.** -/
theorem indexHash_succ (hp : Nat) (hv : UInt64) :
    indexHash (hp + 1) hv = indexHash hp hv ∨
      indexHash (hp + 1) hv = indexHash hp hv + hashsize hp :=
  eq_or_eq_add (indexHash_lt _ _) (indexHash_succ_mod hp hv)

/-- **The second one.** -/
theorem altIndex_succ (hp : Nat) (p : UInt8) (hv : UInt64) :
    altIndex (hp + 1) p (indexHash (hp + 1) hv) = altIndex hp p (indexHash hp hv) ∨
      altIndex (hp + 1) p (indexHash (hp + 1) hv)
        = altIndex hp p (indexHash hp hv) + hashsize hp := by
  apply eq_or_eq_add (altIndex_lt _ _ _)
  rw [altIndex_succ_mod, indexHash_succ_mod]

/-! ## Belonging to a bucket -/

variable {K V : Type} {hash : K → UInt64} {hp i : Nat} {key : K}

/-- Bucket `i` is one of the two of `key`. -/
def BucketOf (hash : K → UInt64) (hp : Nat) (key : K) (i : Nat) : Prop :=
  i = indexHash hp (hash key) ∨
    i = altIndex hp (partialKey (hash key)) (indexHash hp (hash key))

theorem isBucketOf_iff : isBucketOf hp (hashedKey hash key) i = true ↔ BucketOf hash hp key i := by
  unfold isBucketOf BucketOf hashedKey
  simp

theorem BucketOf.lt (h : BucketOf hash hp key i) : i < hashsize hp := by
  rcases h with rfl | rfl
  · exact indexHash_lt _ _
  · exact altIndex_lt _ _ _

/-- A key may move to its other bucket. -/
theorem BucketOf.alt (h : BucketOf hash hp key i) :
    BucketOf hash hp key (altIndex hp (partialKey (hash key)) i) := by
  rcases h with rfl | rfl
  · exact Or.inr rfl
  · exact Or.inl (altIndex_altIndex _ (indexHash_lt _ _))

/-- A key that goes up belongs in the new bucket. -/
theorem bucketOf_of_goesUp (h : goesUp hash hp i key = true) :
    BucketOf hash (hp + 1) key (i + hashsize hp) := by
  unfold goesUp hashedKey at h
  simp only [Bool.or_eq_true, Bool.and_eq_true, decide_eq_true_eq] at h
  rcases h with ⟨-, h⟩ | ⟨-, h⟩
  · exact Or.inl h.symm
  · exact Or.inr h.symm

/-- **A key in one of its buckets goes up or stays where it is**, as `move_bucket` asserts. -/
theorem BucketOf.staysDown (h : BucketOf hash hp key i) (hup : goesUp hash hp i key = false) :
    staysDown hash hp i key = true := by
  unfold goesUp hashedKey at hup
  unfold Cuckoo.staysDown hashedKey
  simp only [Bool.or_eq_false_iff, Bool.and_eq_false_imp, decide_eq_true_eq, decide_eq_false_iff_not,
    Bool.or_eq_true, Bool.and_eq_true] at hup ⊢
  rcases h with rfl | rfl
  · exact Or.inl ⟨rfl, (indexHash_succ hp _).resolve_right (hup.1 rfl)⟩
  · exact Or.inr ⟨rfl, (altIndex_succ hp _ _).resolve_right (hup.2 rfl)⟩

theorem bucketOf_of_staysDown (h : staysDown hash hp i key = true) :
    BucketOf hash (hp + 1) key i := by
  unfold staysDown hashedKey at h
  simp only [Bool.or_eq_true, Bool.and_eq_true, decide_eq_true_eq] at h
  rcases h with ⟨rfl, h⟩ | ⟨rfl, h⟩
  · exact Or.inl h.symm
  · exact Or.inr h.symm

end ZoneBuffer.Cuckoo
