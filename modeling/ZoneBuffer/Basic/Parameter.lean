import Mathlib.Tactic.Common
import Mathlib.Algebra.Order.Ring.Nat
import Mathlib.Order.Interval.Finset.Nat

set_option autoImplicit false

/-! # Parameters, types and faults

The constants of `include/parameter.h`, the integer types the program is written with, the
geometry of the zoned device, and the ways a call can go wrong. -/

namespace ZoneBuffer

/-- `PAGE_SIZE`, also `FRAME_SIZE`: the bytes of a page. -/
def PAGE_SIZE : Nat := 4096

/-- The pages one `pwrite64` of `write_cluster` transfers. -/
def WRITE_BATCH : Nat := 100

/-- Sectors of 512 bytes on the device the program was written for. -/
def CAPACITY : Nat := 0x1dc724000

/-- `PAGE_ID` is a 64-bit `long int`. -/
abbrev PageId := Int64

/-- `FRAME_ID`: an index into the frame arrays. -/
abbrev FrameId := Nat

/-- `ACCTIME` is a 32-bit `int`. -/
abbrev AccTime := Int32

/-- The contents of a page or a frame. -/
abbrev Page := Fin PAGE_SIZE → UInt8

/-- The zone conditions the program distinguishes (`ZBD_ZONE_COND_*`). -/
inductive ZoneCond where
  | empty
  | expOpen
  | full
  deriving DecidableEq, Repr

/-- Why a call does not return: an assertion fails, a lookup throws, or the behaviour is
undefined. -/
inductive Fault where
  /-- The final `assert(0)` of `select_write_zone`. -/
  | noZone
  /-- The `assert(0)` of `set_valid` and `set_valid_gc`. -/
  | setValid
  /-- `find(key)` of a map without `key` throws. -/
  | outOfRange
  /-- A page is read that holds nothing since the last reset of its zone. -/
  | lostPage
  /-- A write found its zone closed more often than it was allowed to retry. -/
  | retry
  /-- A detector waits for a flag no running thread will clear. -/
  | spin
  /-- An iterator is used whose node is gone, or one past the ends of a list. -/
  | badIter
  /-- An array is indexed outside its bounds. -/
  | badIndex
  /-- `assert(cList->size() != 0)` of `get_frame`. -/
  | emptyClean
  /-- The `assert(0)` of `ZALP::update`. -/
  | notListed
  /-- The assertion of `dirty_to_clean`. -/
  | alreadyClean
  /-- `assert(cf != -1)` of `evict_victim`. -/
  | noCluster
  /-- `assert(*read_id == page_id)` of `read_page`. -/
  | wrongId
  /-- The assertions of `is_correct`. -/
  | incorrect
  deriving DecidableEq, Repr

/-- The zoned device as the controller sees it: zone `i` starts at byte `i * zoneSize`, and
the controller uses its first `cap` bytes. `clusterNum` is set by the buffer manager. -/
structure Geometry where
  maxZoneNum : Nat
  zoneSize : Nat
  cap : Nat
  clusterNum : Nat
  zone_aligned : PAGE_SIZE ∣ zoneSize
  page_le_cap : PAGE_SIZE ≤ cap
  cap_lt : cap < zoneSize
  cluster_pos : 0 < clusterNum

/-- `cap` as `init` computes it from the number of zones of the device, in `unsigned int`. -/
def deviceCap (nrZones : Nat) : Nat := CAPACITY * 512 / nrZones % 2 ^ 32 / 4

/-- The geometry `init` reads off a device with `nrZones` zones of `zoneSize` bytes that is
large enough for `CAPACITY`. -/
def Geometry.ofDevice (maxZoneNum nrZones zoneSize clusterNum : Nat)
    (haligned : PAGE_SIZE ∣ zoneSize) (hpage : PAGE_SIZE ≤ deviceCap nrZones)
    (hfits : CAPACITY * 512 ≤ nrZones * zoneSize) (hcluster : 0 < clusterNum) : Geometry where
  maxZoneNum := maxZoneNum
  zoneSize := zoneSize
  cap := deviceCap nrZones
  clusterNum := clusterNum
  zone_aligned := haligned
  page_le_cap := hpage
  cap_lt := by
    have hzone : CAPACITY * 512 / nrZones ≤ zoneSize := Nat.div_le_of_le_mul hfits
    have hmod : CAPACITY * 512 / nrZones % 2 ^ 32 ≤ zoneSize := le_trans (Nat.mod_le _ _) hzone
    have hpos : 0 < deviceCap nrZones := lt_of_lt_of_le (by decide) hpage
    unfold deviceCap at hpos ⊢
    omega
  cluster_pos := hcluster

/-- The device of the experiments, with four clusters. -/
def Geometry.experiment : Geometry :=
  Geometry.ofDevice 500 3624 (2 ^ 31) 4 (by decide) (by decide) (by decide) (by decide)

/-- A device of many small zones: eight pages each, of which the controller uses two. -/
def Geometry.small : Geometry :=
  Geometry.ofDevice 500 124897536 32768 4 (by decide) (by decide) (by decide) (by decide)

/-- Where zone `i` starts (`Zone[i].ofst`, set once by `init`). -/
def Geometry.ofst (g : Geometry) (i : Nat) : Nat := i * g.zoneSize

/-- The pages of a zone, counting the part the controller does not use. -/
def Geometry.zonePages (g : Geometry) : Nat := g.zoneSize / PAGE_SIZE

/-- The indices of zone `i` in the bitmap. -/
def Geometry.pagesOf (g : Geometry) (i : Nat) : Finset Nat :=
  Finset.Ico (i * g.zonePages) ((i + 1) * g.zonePages)

namespace Geometry

@[simp] theorem small_cap : Geometry.small.cap = 8192 := by decide

@[simp] theorem small_maxZoneNum : Geometry.small.maxZoneNum = 500 := rfl

variable (g : Geometry)

theorem zoneSize_pos : 0 < g.zoneSize := lt_of_le_of_lt (Nat.zero_le _) g.cap_lt

theorem zoneSize_eq : g.zoneSize = g.zonePages * PAGE_SIZE :=
  (Nat.div_mul_cancel g.zone_aligned).symm

theorem ofst_dvd (i : Nat) : PAGE_SIZE ∣ g.ofst i := Dvd.dvd.mul_left g.zone_aligned i

/-- Every byte of the used part of zone `i` belongs to zone `i`. -/
theorem div_zoneSize {i a : Nat} (h : g.ofst i ≤ a) (h' : a < g.ofst i + g.zoneSize) :
    a / g.zoneSize = i := by
  unfold ofst at h h'
  rw [Nat.div_eq_iff g.zoneSize_pos]
  omega

theorem zonePages_pos : 0 < g.zonePages := by
  have h := g.zoneSize_pos
  rw [zoneSize_eq] at h
  exact Nat.pos_of_mul_pos_right h

/-- The bitmap index of a page address lies in the region of its zone. -/
theorem mem_pagesOf {i a : Nat} : a / PAGE_SIZE ∈ g.pagesOf i ↔ a / g.zoneSize = i := by
  rw [pagesOf, Finset.mem_Ico, g.zoneSize_eq, Nat.mul_comm g.zonePages PAGE_SIZE,
    ← Nat.div_div_eq_div_mul, Nat.div_eq_iff g.zonePages_pos]
  have h := g.zonePages_pos
  rw [Nat.add_mul, Nat.one_mul]
  omega

theorem ofst_le_of_div {i a : Nat} (h : a / g.zoneSize = i) :
    g.ofst i ≤ a ∧ a < g.ofst i + g.zoneSize := by
  subst h
  have h1 := Nat.div_mul_le_self a g.zoneSize
  have h2 := Nat.lt_div_mul_add g.zoneSize_pos (a := a)
  unfold ofst
  omega

end Geometry

end ZoneBuffer
