import ZoneBuffer.Lib.Outcome
import Mathlib.Logic.Function.Basic
import Mathlib.Algebra.Order.Field.Rat
import Mathlib.Algebra.BigOperators.Group.Finset.Basic

set_option autoImplicit false

/-! # The cuckoo hash map

`libcuckoo::cuckoohash_map` (`libcuckoo/cuckoohash_map.hh`, `libcuckoo/bucket_container.hh`), the
map behind `Table`, `page2frame` and `accessH`, as functions from state to state. A key may lie in
two buckets. If both are full, a path of keys that could each move to their other bucket is
searched breadth first and moved along; if there is none, the number of buckets is doubled. In a
large table the buckets are then moved to their new places only when their lock is next taken.

One thread is in the map. So a lock is never contended, the hashpower never changes between its
reading and the taking of a lock, and of a lock only what it records is kept: a count of elements
and whether its buckets have been moved. Indices are natural numbers, for a table of 2^64 buckets
cannot be allocated. The load factor is an exact rational where the program has a double. -/

namespace ZoneBuffer.Cuckoo

/-! ## Constants -/

/-- `DEFAULT_SLOT_PER_BUCKET`. -/
def SLOT_PER_BUCKET : Nat := 4

def MAX_BFS_PATH_LEN : Nat := 5

/-- The length of the array behind the queue of the search. -/
def MAX_CUCKOO_COUNT : Nat :=
  2 * ((SLOT_PER_BUCKET ^ MAX_BFS_PATH_LEN - 1) / (SLOT_PER_BUCKET - 1))

def kMaxNumLocks : Nat := 1 <<< 16

/-- Why an operation does not return. -/
inductive Stop where
  | loadFactorTooLow
  | maximumHashpowerExceeded
  /-- `find` of an absent key throws `std::out_of_range`. -/
  | outOfRange
  /-- An `assert` fails. -/
  | assertion
  /-- The old buckets are read after they have been deallocated. -/
  | deallocated
  /-- A loop is still running after more rounds than it was given. -/
  | spin
  deriving DecidableEq, Repr

/-! ## Buckets -/

/-- An occupied slot. -/
structure Slot (K V : Type) where
  partialKey : UInt8
  key : K
  mapped : V
  deriving DecidableEq

/-- `bucket_container`: the slots of each bucket, `none` where not occupied. -/
structure Buckets (K V : Type) where
  hashpower : Nat
  slot : Nat → Nat → Option (Slot K V)

/-- `hashsize`: the number of buckets. -/
def hashsize (hp : Nat) : Nat := 1 <<< hp

def hashmask (hp : Nat) : Nat := hashsize hp - 1

namespace Buckets

variable {K V : Type}

def new (hp : Nat) : Buckets K V := ⟨hp, fun _ _ => none⟩

def size (b : Buckets K V) : Nat := hashsize b.hashpower

/-- Change slot `j` of bucket `i`. -/
def set (b : Buckets K V) (i j : Nat) (o : Option (Slot K V)) : Buckets K V :=
  { b with slot := fun i' j' => if i' = i ∧ j' = j then o else b.slot i' j' }

/-- `setKV` asserts that the slot is not occupied. -/
def setKV (b : Buckets K V) (i j : Nat) (s : Slot K V) : Except Stop (Buckets K V) :=
  match b.slot i j with
  | some _ => .error .assertion
  | none => .ok (b.set i j (some s))

/-- `eraseKV` asserts that it is. -/
def eraseKV (b : Buckets K V) (i j : Nat) : Except Stop (Buckets K V) :=
  match b.slot i j with
  | some _ => .ok (b.set i j none)
  | none => .error .assertion

end Buckets

/-! ## Hashing -/

structure HashValue where
  hash : UInt64
  partialKey : UInt8
  deriving DecidableEq

/-- The bytes of a hash combined into one. -/
def partialKey (hash : UInt64) : UInt8 :=
  let hash32 := hash.toUInt32 ^^^ (hash >>> 32).toUInt32
  let hash16 := hash32.toUInt16 ^^^ (hash32 >>> 16).toUInt16
  hash16.toUInt8 ^^^ (hash16 >>> 8).toUInt8

def indexHash (hp : Nat) (hv : UInt64) : Nat := hv.toNat &&& hashmask hp

/-- `alt_index`, with the hash constant of MurmurHash2. -/
def altIndex (hp : Nat) (partialKey : UInt8) (index : Nat) : Nat :=
  let nonzeroTag := partialKey.toUInt64 + 1
  (index ^^^ (nonzeroTag * 0xc6a4a7935bd1e995).toNat) &&& hashmask hp

variable {K V : Type}

def hashedKey (hash : K → UInt64) (key : K) : HashValue := ⟨hash key, partialKey (hash key)⟩

/-! ## The table -/

/-- What a lock records. -/
structure Spinlock where
  elemCounter : Int
  isMigrated : Bool

/-- The members of `cuckoohash_map`. The lock array is the current one, of `numLocks` locks. -/
structure CuckooMap (K V : Type) where
  buckets : Buckets K V
  /-- `none` once deallocated. -/
  oldBuckets : Option (Buckets K V)
  locks : Nat → Spinlock
  numLocks : Nat
  numRemainingLazyRehashLocks : Nat
  minimumLoadFactor : Rat
  /-- `none` for `NO_MAXIMUM_HASHPOWER`. -/
  maximumHashpower : Option Nat

/-- `reserve_calc`: the least hashpower that holds `n` elements. -/
def reserveCalc (n : Nat) : Nat :=
  let buckets := (n + SLOT_PER_BUCKET - 1) / SLOT_PER_BUCKET
  ((List.range 64).find? fun blog2 => buckets ≤ 1 <<< blog2).getD 64

namespace CuckooMap

/-- The constructor. -/
def new (n : Nat) : CuckooMap K V where
  buckets := .new (reserveCalc n)
  oldBuckets := some (.new 0)
  locks _ := ⟨0, true⟩
  numLocks := min (hashsize (reserveCalc n)) kMaxNumLocks
  numRemainingLazyRehashLocks := 0
  minimumLoadFactor := 5 / 100
  maximumHashpower := none

def hashpower (m : CuckooMap K V) : Nat := m.buckets.hashpower

/-- `size`: the sum of the counts; `assert(s >= 0)`. -/
def size (m : CuckooMap K V) : Except Stop Nat :=
  let s := ∑ l ∈ Finset.range m.numLocks, (m.locks l).elemCounter
  if 0 ≤ s then .ok s.toNat else .error .assertion

def capacity (m : CuckooMap K V) : Nat := m.buckets.size * SLOT_PER_BUCKET

def loadFactor (m : CuckooMap K V) : Except Stop Rat := do
  let size ← m.size
  .ok (size / m.capacity)

/-- Store the number of locks that are still to be migrated. At zero the old buckets are
deallocated. -/
def setNumRemaining (n : Nat) (m : CuckooMap K V) : CuckooMap K V :=
  { m with
    numRemainingLazyRehashLocks := n
    oldBuckets := if n = 0 then none else m.oldBuckets }

/-- `decrement_num_remaining_lazy_rehash_locks`. -/
def decrementNumRemaining (m : CuckooMap K V) : Except Stop (CuckooMap K V) :=
  if m.numRemainingLazyRehashLocks = 0 then .error .assertion
  else .ok (m.setNumRemaining (m.numRemainingLazyRehashLocks - 1))

def setMigrated (b : Bool) (l : Nat) (m : CuckooMap K V) : CuckooMap K V :=
  { m with locks := Function.update m.locks l { m.locks l with isMigrated := b } }

def addCounter (d : Int) (l : Nat) (m : CuckooMap K V) : CuckooMap K V :=
  { m with
    locks := Function.update m.locks l
      { m.locks l with elemCounter := (m.locks l).elemCounter + d } }

end CuckooMap

/-! ## Moving buckets after a doubling -/

variable (hash : K → UInt64)

/-- Whether the key in bucket `oldBucketInd` goes to the new bucket, `hashsize oldHp` later. -/
def goesUp (oldHp oldBucketInd : Nat) (key : K) : Bool :=
  let hv := hashedKey hash key
  let newBucketInd := oldBucketInd + hashsize oldHp
  let oldIhash := indexHash oldHp hv.hash
  let oldAhash := altIndex oldHp hv.partialKey oldIhash
  let newIhash := indexHash (oldHp + 1) hv.hash
  let newAhash := altIndex (oldHp + 1) hv.partialKey newIhash
  (oldBucketInd = oldIhash && newIhash = newBucketInd) ||
    (oldBucketInd = oldAhash && newAhash = newBucketInd)

/-- The assertion of `move_bucket` about a key that does not. -/
def staysDown (oldHp oldBucketInd : Nat) (key : K) : Bool :=
  let hv := hashedKey hash key
  let oldIhash := indexHash oldHp hv.hash
  let oldAhash := altIndex oldHp hv.partialKey oldIhash
  let newIhash := indexHash (oldHp + 1) hv.hash
  let newAhash := altIndex (oldHp + 1) hv.partialKey newIhash
  (oldBucketInd = oldIhash && newIhash = oldIhash) ||
    (oldBucketInd = oldAhash && newAhash = oldAhash)

/-- One iteration of the loop of `move_bucket`, with `new_bucket_slot`. -/
def moveSlot (oldBuckets : Buckets K V) (i : Nat) (acc : Buckets K V × Nat) (j : Nat) :
    Except Stop (Buckets K V × Nat) :=
  match oldBuckets.slot i j with
  | none => .ok acc
  | some s =>
      if goesUp hash oldBuckets.hashpower i s.key then do
        let b ← acc.1.setKV (i + oldBuckets.size) acc.2 s
        .ok (b, acc.2 + 1)
      else if staysDown hash oldBuckets.hashpower i s.key then do
        let b ← acc.1.setKV i j s
        .ok (b, acc.2)
      else .error .assertion

def moveBucket (oldBuckets newBuckets : Buckets K V) (i : Nat) : Except Stop (Buckets K V) := do
  let (b, _) ← (List.range SLOT_PER_BUCKET).foldlM (moveSlot hash oldBuckets i) (newBuckets, 0)
  .ok b

/-- `lock_ind`: the lock of a bucket. -/
def lockInd (bucketInd : Nat) : Nat := bucketInd &&& (kMaxNumLocks - 1)

/-- The buckets of lock `l` among the first `size`. -/
def ownBuckets (l size : Nat) : List Nat :=
  (List.range ((size - l + (kMaxNumLocks - 1)) / kMaxNumLocks)).map fun i => l + i * kMaxNumLocks

namespace CuckooMap

/-- The three assertions of `rehash_lock` about the old buckets. -/
def CanRehash (m : CuckooMap K V) (old : Buckets K V) : Prop :=
  m.numLocks = kMaxNumLocks ∧ old.hashpower + 1 = m.hashpower ∧ kMaxNumLocks ≤ old.size

instance (m : CuckooMap K V) (old : Buckets K V) : Decidable (m.CanRehash old) :=
  inferInstanceAs (Decidable (_ ∧ _ ∧ _))

/-- `rehash_lock`: move the buckets of a lock that have not been moved yet. -/
def rehashLock (isLazy : Bool) (l : Nat) (m : CuckooMap K V) : Except Stop (CuckooMap K V) :=
  if (m.locks l).isMigrated then .ok m
  else
    match m.oldBuckets with
    | none => .error .deallocated
    | some old =>
        if m.CanRehash old then do
          let b ← (ownBuckets l old.size).foldlM (moveBucket hash old) m.buckets
          let m := { m with buckets := b }.setMigrated true l
          if isLazy then m.decrementNumRemaining else .ok m
        else .error .assertion

/-! ## Taking locks -/

def lockOne (i : Nat) (m : CuckooMap K V) : Except Stop (CuckooMap K V) :=
  m.rehashLock hash true (lockInd i)

/-- Two locks are taken in the order of their indices. -/
def lockTwo (i₁ i₂ : Nat) (m : CuckooMap K V) : Except Stop (CuckooMap K V) := do
  let (l₁, l₂) :=
    if lockInd i₂ < lockInd i₁ then (lockInd i₂, lockInd i₁) else (lockInd i₁, lockInd i₂)
  let m ← m.rehashLock hash true l₁
  m.rehashLock hash true l₂

/-- The three swaps of `lock_three`. -/
def sortThree (l : Nat × Nat × Nat) : Nat × Nat × Nat :=
  let l := if l.2.2 < l.2.1 then (l.1, l.2.2, l.2.1) else l
  let l := if l.2.2 < l.1 then (l.2.2, l.2.1, l.1) else l
  if l.2.1 < l.1 then (l.2.1, l.1, l.2.2) else l

def lockThree (i₁ i₂ i₃ : Nat) (m : CuckooMap K V) : Except Stop (CuckooMap K V) := do
  let (l₁, l₂, l₃) := sortThree (lockInd i₁, lockInd i₂, lockInd i₃)
  let m ← m.rehashLock hash true l₁
  let m ← m.rehashLock hash true l₂
  m.rehashLock hash true l₃

/-- The two buckets of a key, their locks taken. -/
def snapshotAndLockTwo (hv : HashValue) (m : CuckooMap K V) :
    Except Stop (Nat × Nat × CuckooMap K V) := do
  let hp := m.hashpower
  let i₁ := indexHash hp hv.hash
  let i₂ := altIndex hp hv.partialKey i₁
  let m ← m.lockTwo hash i₁ i₂
  .ok (i₁, i₂, m)

end CuckooMap

/-! ## Searching -/

/-- `table_position` without its status. -/
structure Position where
  index : Nat
  slot : Nat
  deriving DecidableEq, Repr

/-- `b_slot`. The digits of the path code to the base `SLOT_PER_BUCKET` are the slots of the path,
the first one being the bucket it starts from; 16 bits hold it. -/
structure BSlot where
  bucket : Nat
  pathcode : Nat
  depth : Nat
  deriving DecidableEq, Repr

/-- `b_queue`: the entries from `first_` on, and `last_`. -/
structure BQueue where
  slots : List BSlot
  last : Nat

def BQueue.enqueue (q : BQueue) (x : BSlot) : Except Stop BQueue :=
  -- `assert(!full())`
  if q.last = MAX_CUCKOO_COUNT then .error .assertion else .ok ⟨q.slots ++ [x], q.last + 1⟩

/-- The slots of a bucket in the order `slot_search` looks at them. -/
def scanOrder (pathcode : Nat) : List Nat :=
  (List.range SLOT_PER_BUCKET).map fun i => (pathcode % SLOT_PER_BUCKET + i) % SLOT_PER_BUCKET

/-- The loop of `slot_search` over the slots of one bucket: the path to a slot that is not
occupied, or the queue with the buckets the keys could move to. -/
def scanSlots (hp : Nat) (b : Nat → Option (Slot K V)) (x : BSlot) :
    List Nat → BQueue → Except Stop (BSlot ⊕ BQueue)
  | [], q => .ok (.inr q)
  | j :: js, q =>
      match b j with
      | none => .ok (.inl { x with pathcode := x.pathcode * SLOT_PER_BUCKET + j })
      | some s =>
          if x.depth < MAX_BFS_PATH_LEN - 1 then do
            let q ← q.enqueue ⟨altIndex hp s.partialKey x.bucket,
              x.pathcode * SLOT_PER_BUCKET + j, x.depth + 1⟩
            scanSlots hp b x js q
          else scanSlots hp b x js q

/-- The loop of `slot_search` over the queue; `none` if no path is short enough. -/
def searchQueue (hp : Nat) : Nat → BQueue → CuckooMap K V →
    Except Stop (Option BSlot × CuckooMap K V)
  | 0, _, _ => .error .spin
  | rounds + 1, q, m =>
      match q.slots with
      | [] => .ok (none, m)
      | x :: rest => do
          let m ← m.lockOne hash x.bucket
          match ← scanSlots hp (m.buckets.slot x.bucket) x (scanOrder x.pathcode)
              ⟨rest, q.last⟩ with
          | .inl y => .ok (some y, m)
          | .inr q => searchQueue hp rounds q m

/-- Every round takes an entry off the queue, which never has more than `MAX_CUCKOO_COUNT`. -/
def slotSearch (hp i₁ i₂ : Nat) (m : CuckooMap K V) :
    Except Stop (Option BSlot × CuckooMap K V) :=
  searchQueue hash hp (MAX_CUCKOO_COUNT + 1) ⟨[⟨i₁, 0, 0⟩, ⟨i₂, 1, 0⟩], 2⟩ m

/-- `CuckooRecord`. The hash is not set where the slot was not occupied. -/
structure CuckooRecord where
  bucket : Nat
  slot : Nat
  hv : Option HashValue

/-- The slots of a path of `n` components, and what is left of its code. -/
def pathSlots : Nat → Nat → List Nat × Nat
  | 0, code => ([], code)
  | n + 1, code =>
      let (slots, rest) := pathSlots n (code / SLOT_PER_BUCKET)
      (slots ++ [code % SLOT_PER_BUCKET], rest)

/-- Whether `bucket` is one of the two buckets of a key. -/
def isBucketOf (hp : Nat) (hv : HashValue) (bucket : Nat) : Bool :=
  bucket = indexHash hp hv.hash || bucket = altIndex hp hv.partialKey (indexHash hp hv.hash)

/-- The loop of `cuckoopath_search` that fills in the buckets and hashes of the components. It
ends early at a slot that is not occupied. -/
def fillPath (hp : Nat) : Nat → List Nat → CuckooMap K V →
    Except Stop (List CuckooRecord × CuckooMap K V)
  | _, [], m => .ok ([], m)
  | bucket, j :: js, m => do
      let m ← m.lockOne hash bucket
      match m.buckets.slot bucket j with
      | none => .ok ([⟨bucket, j, none⟩], m)
      | some s =>
          let hv := hashedKey hash s.key
          if js = [] then .ok ([⟨bucket, j, some hv⟩], m)
          else if isBucketOf hp hv bucket then do
            let (path, m) ← fillPath hp (altIndex hp hv.partialKey bucket) js m
            .ok (⟨bucket, j, some hv⟩ :: path, m)
          else .error .assertion

/-- `cuckoopath_search`: the components of a path, `none` if there is none. -/
def cuckoopathSearch (hp i₁ i₂ : Nat) (m : CuckooMap K V) :
    Except Stop (Option (List CuckooRecord) × CuckooMap K V) := do
  match ← slotSearch hash hp i₁ i₂ m with
  | (none, m) => .ok (none, m)
  | (some x, m) => do
      let (slots, code) := pathSlots (x.depth + 1) x.pathcode
      if code = 0 then do
        let (path, m) ← fillPath hash hp i₁ slots m
        .ok (some path, m)
      else if code = 1 then do
        let (path, m) ← fillPath hash hp i₂ slots m
        .ok (some path, m)
      else .error .assertion

/-- Move the key of one component of a path to the next, unless something has changed since the
path was found. -/
def moveKey (src dst : CuckooRecord) (m : CuckooMap K V) :
    Except Stop (Bool × CuckooMap K V) :=
  match m.buckets.slot dst.bucket dst.slot, m.buckets.slot src.bucket src.slot with
  | none, some s =>
      match src.hv with
      | none => .error .assertion
      | some hv =>
          if hash s.key = hv.hash then do
            let b ← m.buckets.setKV dst.bucket dst.slot s
            let b ← b.eraseKV src.bucket src.slot
            .ok (true, { m with buckets := b })
          else .ok (false, m)
  | _, _ => .ok (false, m)

/-- The loop of `cuckoopath_move`, over the components from the last one to the first. The last
move takes the locks of both insert buckets as well. -/
def moveAlong (i₁ i₂ : Nat) : List CuckooRecord → CuckooMap K V →
    Except Stop (Bool × CuckooMap K V)
  | dst :: src :: path, m => do
      let m ← if path = [] then m.lockThree hash i₁ i₂ dst.bucket
        else m.lockTwo hash src.bucket dst.bucket
      let (moved, m) ← moveKey hash src dst m
      if moved then moveAlong i₁ i₂ (src :: path) m else .ok (false, m)
  | _, m => .ok (true, m)

/-- `cuckoopath_move`. -/
def cuckoopathMove (i₁ i₂ : Nat) (path : List CuckooRecord) (m : CuckooMap K V) :
    Except Stop (Bool × CuckooMap K V) :=
  match path with
  | [first] => do
      let m ← m.lockTwo hash i₁ i₂
      .ok ((m.buckets.slot first.bucket first.slot).isNone, m)
  | _ => moveAlong hash i₁ i₂ path.reverse m

/-- `run_cuckoo`: the slot that was freed, `none` on failure. A path found is followed again as
long as moving along it fails, at most `attempts` times in all. -/
def runCuckoo (hp i₁ i₂ : Nat) : Nat → CuckooMap K V →
    Except Stop (Option Position × CuckooMap K V)
  | 0, _ => .error .spin
  | attempts + 1, m => do
      match ← cuckoopathSearch hash hp i₁ i₂ m with
      | (none, m) => .ok (none, m)
      | (some [], _) => .error .assertion
      | (some (first :: path), m) => do
          let (moved, m) ← cuckoopathMove hash i₁ i₂ (first :: path) m
          if ¬ moved then runCuckoo hp i₁ i₂ attempts m
          else if (first.bucket = i₁ ∨ first.bucket = i₂) ∧
              m.buckets.slot first.bucket first.slot = none then
            .ok (some ⟨first.bucket, first.slot⟩, m)
          else .error .assertion

/-! ## Doubling -/

namespace CuckooMap

/-- `check_resize_validity`, for an automatic resize. -/
def checkResizeValidity (newHp : Nat) (m : CuckooMap K V) : Except Stop Unit :=
  if m.maximumHashpower.any (· < newHp) then .error .maximumHashpowerExceeded
  else do
    let loadFactor ← m.loadFactor
    if loadFactor < m.minimumLoadFactor then .error .loadFactorTooLow else .ok ()

/-- `maybe_resize_locks`. -/
def maybeResizeLocks (newBucketCount : Nat) (m : CuckooMap K V) : CuckooMap K V :=
  if m.numLocks < kMaxNumLocks ∧ m.numLocks < newBucketCount then
    { m with
      locks := fun l => if l < m.numLocks then m.locks l else ⟨0, true⟩
      numLocks := min kMaxNumLocks newBucketCount }
  else m

/-- Mark all locks, so that their buckets are moved when they are next taken. -/
def unmigrateLocks (m : CuckooMap K V) : CuckooMap K V :=
  { m with locks := fun l =>
      if l < m.numLocks then { m.locks l with isMigrated := false } else m.locks l }

end CuckooMap

/-- `cuckoo_fast_double`. -/
def cuckooFastDouble (currentHp : Nat) (m : CuckooMap K V) : Except Stop (CuckooMap K V) := do
  m.checkResizeValidity (currentHp + 1)
  let m ← (List.range m.numLocks).foldlM (fun m l => m.rehashLock hash false l) m
  let m := (m.setNumRemaining 0).maybeResizeLocks (hashsize (currentHp + 1))
  let old := m.buckets
  let m : CuckooMap K V := { m with oldBuckets := some old, buckets := .new (currentHp + 1) }
  if old.size < kMaxNumLocks then do
    let b ← (List.range old.size).foldlM (moveBucket hash old) m.buckets
    .ok ({ m with buckets := b }.setNumRemaining 0)
  else
    .ok (m.unmigrateLocks.setNumRemaining m.numLocks)

/-! ## The slots of the table -/

namespace CuckooMap

/-- The value in an occupied slot. -/
def mappedAt (m : CuckooMap K V) (pos : Position) : Except Stop V :=
  match m.buckets.slot pos.index pos.slot with
  | some s => .ok s.mapped
  | none => .error .assertion

/-- Assign to the value in an occupied slot. -/
def assignAt (f : V → V) (pos : Position) (m : CuckooMap K V) : Except Stop (CuckooMap K V) :=
  match m.buckets.slot pos.index pos.slot with
  | some s => .ok { m with
      buckets := m.buckets.set pos.index pos.slot (some { s with mapped := f s.mapped }) }
  | none => .error .assertion

def addToBucket (pos : Position) (s : Slot K V) (m : CuckooMap K V) :
    Except Stop (CuckooMap K V) := do
  let b ← m.buckets.setKV pos.index pos.slot s
  .ok ({ m with buckets := b }.addCounter 1 (lockInd pos.index))

def delFromBucket (pos : Position) (m : CuckooMap K V) : Except Stop (CuckooMap K V) := do
  let b ← m.buckets.eraseKV pos.index pos.slot
  .ok ({ m with buckets := b }.addCounter (-1) (lockInd pos.index))

/-- More rounds than `cuckoo_insert_loop` can make: the load factor gets too low before. -/
def rounds (m : CuckooMap K V) : Except Stop Nat := do
  let size ← m.size
  .ok (size + 4)

end CuckooMap

/-! ## Inserting -/

variable [DecidableEq K]

/-- `try_read_from_bucket`. The keys are simple, so partial keys are not compared. -/
def tryReadFromBucket (b : Nat → Option (Slot K V)) (key : K) : Option Nat :=
  (List.range SLOT_PER_BUCKET).find? fun j => (b j).any fun s => s.key = key

def CuckooMap.cuckooFind (key : K) (i₁ i₂ : Nat) (m : CuckooMap K V) : Option Position :=
  match tryReadFromBucket (m.buckets.slot i₁) key with
  | some j => some ⟨i₁, j⟩
  | none => (tryReadFromBucket (m.buckets.slot i₂) key).map fun j => ⟨i₂, j⟩

/-- What `try_find_insert_bucket` finds: the key, or else the last slot that is not occupied, if
there is one. -/
inductive Room where
  | duplicated (slot : Nat)
  | room (slot : Option Nat)
  deriving DecidableEq

/-- The loop of `try_find_insert_bucket` over the slots left. -/
def findRoom (b : Nat → Option (Slot K V)) (key : K) : List Nat → Option Nat → Room
  | [], slot => .room slot
  | j :: js, slot =>
      match b j with
      | some s => if s.key = key then .duplicated j else findRoom b key js slot
      | none => findRoom b key js (some j)

def tryFindInsertBucket (b : Nat → Option (Slot K V)) (key : K) : Room :=
  findRoom b key (List.range SLOT_PER_BUCKET) none

/-- The answers of `cuckoo_insert`. -/
inductive CuckooStatus where
  | ok (pos : Position)
  | failureKeyDuplicated (pos : Position)
  | failureTableFull
  deriving DecidableEq

/-- The end of `cuckoo_insert`: cuckoo hashing, where neither bucket has room. -/
def cuckooInsertFull (key : K) (i₁ i₂ : Nat) (m : CuckooMap K V) :
    Except Stop (CuckooStatus × CuckooMap K V) := do
  match ← runCuckoo hash m.hashpower i₁ i₂ 1 m with
  | (none, m) => .ok (.failureTableFull, m)
  | (some pos, m) =>
      if ¬ isBucketOf m.hashpower (hashedKey hash key) pos.index then .error .assertion
      else
        match m.cuckooFind key i₁ i₂ with
        | some pos => .ok (.failureKeyDuplicated pos, m)
        | none => .ok (.ok pos, m)

def cuckooInsert (key : K) (i₁ i₂ : Nat) (m : CuckooMap K V) :
    Except Stop (CuckooStatus × CuckooMap K V) :=
  match tryFindInsertBucket (m.buckets.slot i₁) key with
  | .duplicated j => .ok (.failureKeyDuplicated ⟨i₁, j⟩, m)
  | .room room₁ =>
      match tryFindInsertBucket (m.buckets.slot i₂) key, room₁ with
      | .duplicated j, _ => .ok (.failureKeyDuplicated ⟨i₂, j⟩, m)
      | .room _, some j => .ok (.ok ⟨i₁, j⟩, m)
      | .room (some j), none => .ok (.ok ⟨i₂, j⟩, m)
      | .room none, none => cuckooInsertFull hash key i₁ i₂ m

/-! ## The operations -/

/-- `cuckoo_insert_loop`, cut off after `rounds` doublings. -/
def cuckooInsertLoop (key : K) : Nat → Nat → Nat → CuckooMap K V →
    Except Stop (CuckooStatus × CuckooMap K V)
  | 0, _, _, _ => .error .spin
  | rounds + 1, i₁, i₂, m => do
      match ← cuckooInsert hash key i₁ i₂ m with
      | (.failureTableFull, m) => do
          let m ← cuckooFastDouble hash m.hashpower m
          let (i₁, i₂, m) ← m.snapshotAndLockTwo hash (hashedKey hash key)
          cuckooInsertLoop key rounds i₁ i₂ m
      | (status, m) => .ok (status, m)

namespace CuckooMap

/-- `find(key, val)`: the value it copies, if the key is there. -/
def find? (key : K) (m : CuckooMap K V) : Except Stop (Option V × CuckooMap K V) := do
  let (i₁, i₂, m) ← m.snapshotAndLockTwo hash (hashedKey hash key)
  match m.cuckooFind key i₁ i₂ with
  | some pos => do
      let v ← m.mappedAt pos
      .ok (some v, m)
  | none => .ok (none, m)

/-- `find(key)`. -/
def find (key : K) (m : CuckooMap K V) : Except Stop (V × CuckooMap K V) := do
  let (i₁, i₂, m) ← m.snapshotAndLockTwo hash (hashedKey hash key)
  match m.cuckooFind key i₁ i₂ with
  | some pos => do
      let v ← m.mappedAt pos
      .ok (v, m)
  | none => .error .outOfRange

/-- `upsert`: `f` is what the functor assigns to the value of a key that exists already. -/
def upsert (key : K) (f : V → V) (val : V) (m : CuckooMap K V) :
    Except Stop (Bool × CuckooMap K V) := do
  let hv := hashedKey hash key
  let (i₁, i₂, m) ← m.snapshotAndLockTwo hash hv
  let rounds ← m.rounds
  match ← cuckooInsertLoop hash key rounds i₁ i₂ m with
  | (.ok pos, m) => do
      let m ← m.addToBucket pos ⟨hv.partialKey, key, val⟩
      .ok (true, m)
  | (.failureKeyDuplicated pos, m) => do
      let m ← m.assignAt f pos
      .ok (false, m)
  | (.failureTableFull, _) => .error .assertion

def insert (key : K) (val : V) (m : CuckooMap K V) : Except Stop (Bool × CuckooMap K V) :=
  m.upsert hash key (fun v => v) val

def insertOrAssign (key : K) (val : V) (m : CuckooMap K V) :
    Except Stop (Bool × CuckooMap K V) :=
  m.upsert hash key (fun _ => val) val

def erase (key : K) (m : CuckooMap K V) : Except Stop (Bool × CuckooMap K V) := do
  let (i₁, i₂, m) ← m.snapshotAndLockTwo hash (hashedKey hash key)
  match m.cuckooFind key i₁ i₂ with
  | some pos => do
      let m ← m.delFromBucket pos
      .ok (true, m)
  | none => .ok (false, m)

end CuckooMap

end ZoneBuffer.Cuckoo
