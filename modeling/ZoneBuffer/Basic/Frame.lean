import ZoneBuffer.Basic.Parameter
import Mathlib.Data.Set.Function

set_option autoImplicit false

/-! # The page id in the header of a frame

A frame starts with the id of the page it holds, in the eight bytes of a `long int`, least
significant byte first. The controller finds the page to relocate, and `read_page` checks what
it returns, by reading these bytes back.

The frames the test driver makes (`generate_random_frame`) do not all start so: the terminator
meant for the end of the frame is written over the last byte of the id. The ids that survive are
those whose last byte is zero already (`generateRandomFrame_faithful_iff`). -/

namespace ZoneBuffer

/-- The number whose base-256 digits, least significant first, are `bs`. -/
def leValue : List UInt8 → Nat
  | [] => 0
  | b :: bs => b.toNat + 256 * leValue bs

/-- The id in the first `sizeof(PAGE_ID)` bytes of a page. -/
def readId (b : Page) : PageId :=
  (UInt64.ofNat (leValue (List.ofFn fun i : Fin 8 => b ⟨i, lt_trans i.isLt (by decide)⟩))).toInt64

/-- Byte `i` of the representation of `p`. -/
def idByte (p : PageId) (i : Nat) : UInt8 := UInt8.ofNat (p.toUInt64.toNat / 256 ^ i)

/-- The frame with header `p` whose other bytes are `fill`. -/
def frameOf (p : PageId) (fill : UInt8) : Page :=
  fun i => if i.val < 8 then idByte p i else fill

/-- The first `k` base-256 digits of `n` make up `n` modulo `256 ^ k`. -/
theorem leValue_digits (k n : Nat) :
    leValue (List.ofFn fun i : Fin k => UInt8.ofNat (n / 256 ^ (i : Nat))) = n % 256 ^ k := by
  induction k generalizing n with
  | zero => simp [leValue, Nat.mod_one]
  | succ k ih =>
      rw [List.ofFn_succ, leValue]
      have htail : (List.ofFn fun i : Fin k => UInt8.ofNat (n / 256 ^ (i.succ : Nat)))
          = List.ofFn fun i : Fin k => UInt8.ofNat (n / 256 / 256 ^ (i : Nat)) := by
        congr 1
        funext i
        rw [Fin.val_succ, Nat.pow_succ', Nat.div_div_eq_div_mul]
      rw [htail, ih, Nat.pow_succ', Nat.mod_mul]
      simp

/-- A page whose header holds the bytes of `p` is read as page `p`. -/
theorem readId_of_header {b : Page} {p : PageId}
    (h : ∀ i : Fin PAGE_SIZE, i.val < 8 → b i = idByte p i) : readId b = p := by
  have hlist : (List.ofFn fun i : Fin 8 => b ⟨i, lt_trans i.isLt (by decide)⟩)
      = List.ofFn fun i : Fin 8 => UInt8.ofNat (p.toUInt64.toNat / 256 ^ (i : Nat)) := by
    congr 1
    funext i
    exact h _ i.isLt
  have hlt : p.toUInt64.toNat < 256 ^ 8 := p.toUInt64.toNat_lt
  rw [readId, hlist, leValue_digits, Nat.mod_eq_of_lt hlt, UInt64.ofNat_toNat]
  rfl

@[simp] theorem readId_frameOf (p : PageId) (fill : UInt8) : readId (frameOf p fill) = p :=
  readId_of_header fun i hi => by rw [frameOf, if_pos hi]

/-! ## The frames of the test driver -/

/-- The first `sizeof(PAGE_ID)` bytes of a page. -/
def header (b : Page) : List UInt8 :=
  List.ofFn fun i : Fin 8 => b ⟨i, lt_trans i.isLt (by decide)⟩

/-- `generate_random_frame`, from what `memalign` returned. -/
def generateRandomFrame (mem : Page) (p : PageId) : Page := fun i =>
  -- `frame[sizeof(PAGE_ID) - 1] = 0` comes last
  if i.val = 7 then 0
  else if i.val < 8 then idByte p i
  else if i.val < PAGE_SIZE - 1 then 97
  else mem i

theorem readId_eq (b : Page) : readId b = (UInt64.ofNat (leValue (header b))).toInt64 := rfl

theorem leValue_append (bs cs : List UInt8) :
    leValue (bs ++ cs) = leValue bs + 256 ^ bs.length * leValue cs := by
  induction bs with
  | nil => simp [leValue]
  | cons b bs ih =>
      rw [List.cons_append, leValue, leValue, ih, List.length_cons, Nat.pow_succ',
        Nat.mul_add, Nat.mul_assoc, Nat.add_assoc]

variable (mem : Page) (p : PageId)

/-- The header is that of the id without its last byte. -/
theorem header_generateRandomFrame : header (generateRandomFrame mem p) =
    (List.ofFn fun i : Fin 7 => UInt8.ofNat (p.toUInt64.toNat / 256 ^ (i : Nat))) ++ [0] := by
  unfold header
  rw [List.ofFn_succ', List.concat_eq_append]
  congr 2
  funext i
  have hne : (i.castSucc : Nat) ≠ 7 := by
    have := i.isLt
    simp only [Fin.val_castSucc]
    omega
  have hlt : (i.castSucc : Nat) < 8 := i.castSucc.isLt
  unfold generateRandomFrame
  rw [if_neg hne, if_pos hlt]
  rfl

theorem leValue_generateRandomFrame :
    leValue (header (generateRandomFrame mem p)) = p.toUInt64.toNat % 256 ^ 7 := by
  rw [header_generateRandomFrame, leValue_append, leValue_digits]
  simp [leValue]

/-- The representations of the ids from 0 up to `2 ^ 56` are the numbers below `2 ^ 56`. -/
theorem toUInt64_lt_iff :
    p.toUInt64.toNat < 256 ^ 7 ↔ 0 ≤ p.toInt ∧ p.toInt < 72057594037927936 := by
  have hnat : p.toUInt64.toNat = p.toBitVec.toNat := rfl
  have hint : p.toInt = p.toBitVec.toInt := rfl
  have hlt := p.toBitVec.isLt
  rw [hnat, hint, BitVec.toInt_eq_toNat_cond]
  split <;> omega

/-- **An id survives exactly if it is not negative and below `2 ^ 56`.** -/
theorem readId_generateRandomFrame_iff :
    readId (generateRandomFrame mem p) = p ↔ 0 ≤ p.toInt ∧ p.toInt < 72057594037927936 := by
  rw [← toUInt64_lt_iff, readId_eq, leValue_generateRandomFrame]
  have hlt : p.toUInt64.toNat < 2 ^ 64 := p.toUInt64.toNat_lt
  constructor
  · intro h
    have hnat := congrArg (fun x : Int64 => x.toUInt64.toNat) h
    simp only [UInt64.toUInt64_toInt64, UInt64.toNat_ofNat'] at hnat
    omega
  · intro h
    rw [Nat.mod_eq_of_lt h, UInt64.ofNat_toNat]
    rfl

/-- **The header gives the id back for the ids from 0 up to `2 ^ 56`, and for no others**,
whatever the memory held that the frames were made in. -/
theorem generateRandomFrame_faithful_iff (mem : PageId → Page) (S : Set PageId) :
    (Set.LeftInvOn readId (fun p => generateRandomFrame (mem p) p) S ∧
      Set.InjOn (fun p => header (generateRandomFrame (mem p) p)) S) ↔
    ∀ p ∈ S, 0 ≤ p.toInt ∧ p.toInt < 72057594037927936 := by
  constructor
  · rintro ⟨hleft, -⟩ p hp
    exact (readId_generateRandomFrame_iff (mem p) p).mp (hleft hp)
  · intro hS
    have hleft : Set.LeftInvOn readId (fun p => generateRandomFrame (mem p) p) S :=
      fun p hp => (readId_generateRandomFrame_iff (mem p) p).mpr (hS p hp)
    refine ⟨hleft, ?_⟩
    -- what is read only depends on the header
    intro p hp q hq hheader
    beta_reduce at hheader
    have hread : readId (generateRandomFrame (mem p) p)
        = readId (generateRandomFrame (mem q) q) := by
      rw [readId_eq, readId_eq, hheader]
    exact (hleft hp).symm.trans (hread.trans (hleft hq))

/-- The id -1 is read as another one, and the ids 0 and `2 ^ 56` have the same header. -/
theorem generateRandomFrame_unfaithful :
    ¬ Function.LeftInverse readId (generateRandomFrame fun _ => 0) ∧
    ¬ Function.Injective fun p => header (generateRandomFrame (fun _ => 0) p) := by
  constructor
  · intro hleft
    exact absurd (hleft (-1)) (by decide +kernel)
  · intro hinj
    have hsame : header (generateRandomFrame (fun _ => 0) 0)
        = header (generateRandomFrame (fun _ => 0) 72057594037927936) := by decide +kernel
    exact absurd (hinj hsame) (by decide)

end ZoneBuffer
