import ZoneBuffer.Basic.Frame
import ZoneBuffer.Lib.PartialMap

set_option autoImplicit false

/-! # The zone controller

`ZNSController` (`src/zController.cpp`) as functions from state to state. A call that fails an
assertion, looks up an absent key or touches lost data stops with a `Fault`.

The device is an array of pages with a condition and a write pointer per zone. `pwrites`
records every `pwrite64` together with what the device knew of the zone at that moment; no
function of the program reads it.

The rates of a zone are exact rationals where the program has doubles. The detectors compare
them through `RateTests`, an argument, so that what is proved holds however the comparisons of
rounded values come out; `RateTests.exact` compares the rationals themselves. -/

namespace ZoneBuffer

/-- A zone as the device reports it. -/
structure DevZone where
  cond : ZoneCond
  wp : Nat

/-- One call of `pwrite64`, with the zone's state on the device before it. -/
structure Pwrite where
  zone : Nat
  before : DevZone
  ofst : Nat
  pages : List Page

/-- The device. A page has no content until it is written and after a reset of its zone. -/
structure Device where
  page : Nat → Option Page
  zone : Nat → DevZone

/-- The rates of a zone, as of the last time they were computed. -/
structure Rates where
  idle : Rat
  gc : Rat
  gcLast : Rat

/-- `ZoneDesc`: what the controller keeps about a zone. -/
structure ZoneDesc where
  wp : Nat
  cond : ZoneCond
  validPage : Int
  cf : Int
  inGc : Bool
  rates : Rates

/-- The state of `ZNSController` and of the device behind it. -/
structure Controller where
  zone : Nat → ZoneDesc
  table : PartialMap PageId Nat
  metaPage : Nat → Bool
  dev : Device
  pwrites : List Pwrite
  writeCount : UInt32
  ioCount : UInt32
  gcValidCount : UInt32
  gcCount : Int32
  cdCount : Int32
  gc : Bool
  cd : Bool

/-- The state `init` leaves: every zone reset, nothing mapped. The rates are not initialised;
they have the values `rates`. -/
def Controller.init (g : Geometry) (rates : Nat → Rates) : Controller where
  zone i := {
    wp := g.ofst i
    cond := .empty
    validPage := 0
    cf := -1
    inGc := false
    rates := rates i }
  table := .empty
  metaPage _ := false
  dev := { page := fun _ => none, zone := fun i => ⟨.empty, g.ofst i⟩ }
  pwrites := []
  writeCount := 0
  ioCount := 0
  gcValidCount := 0
  gcCount := 0
  cdCount := 0
  gc := false
  cd := false

/-! ## The device -/

/-- The pages `bs` stored one after the other from byte `a` on. -/
def storePages : List Page → Nat → (Nat → Option Page) → Nat → Option Page
  | [], _, f => f
  | b :: bs, a, f => storePages bs (a + PAGE_SIZE) (Function.update f a (some b))

/-- `pwrite64` at byte `ofst`. A write at the write pointer of its zone advances it. -/
def Device.pwrite (g : Geometry) (d : Device) (pages : List Page) (ofst : Nat) : Device :=
  let z := ofst / g.zoneSize
  let dz := d.zone z
  { page := storePages pages ofst d.page
    zone := Function.update d.zone z
      { dz with wp := if dz.wp = ofst then dz.wp + PAGE_SIZE * pages.length else dz.wp } }

namespace Controller

variable (g : Geometry)

/-- Change the descriptor of one zone. -/
def modifyZone (s : Controller) (i : Nat) (f : ZoneDesc → ZoneDesc) : Controller :=
  { s with zone := Function.update s.zone i (f (s.zone i)) }

/-- Change what the device knows of one zone. -/
def modifyDev (s : Controller) (i : Nat) (f : DevZone → DevZone) : Controller :=
  { s with dev := { s.dev with zone := Function.update s.dev.zone i (f (s.dev.zone i)) } }

/-- `pread` of the page at byte `a`. -/
def pread (s : Controller) (a : Nat) : Except Fault Page :=
  match s.dev.page a with
  | some b => .ok b
  | none => .error .lostPage

/-- `pwrite64` of `pages` at byte `ofst`; the second component is the number of bytes written. -/
def pwrite64 (s : Controller) (pages : List Page) (ofst : Nat) : Controller × Nat :=
  let z := ofst / g.zoneSize
  ({ s with
      dev := s.dev.pwrite g pages ofst
      pwrites := s.pwrites ++ [⟨z, s.dev.zone z, ofst, pages⟩] },
    PAGE_SIZE * pages.length)

def openZone (s : Controller) (i : Nat) : Controller :=
  s.modifyDev i fun z => { z with cond := .expOpen }

def finishZone (s : Controller) (i : Nat) : Controller :=
  s.modifyDev i fun _ => ⟨.full, g.ofst i + g.zoneSize⟩

/-- `reset_zone`: the zone becomes empty and its pages lose their content. -/
def resetZone (s : Controller) (i : Nat) : Controller :=
  { s with
    dev := {
      page := fun a => if a / g.zoneSize = i then none else s.dev.page a
      zone := Function.update s.dev.zone i ⟨.empty, g.ofst i⟩ } }

def incIoCount (s : Controller) : Controller := { s with ioCount := s.ioCount + 1 }

def ioCountClear (s : Controller) : Controller := { s with ioCount := 0 }

def addWriteCount (s : Controller) (n : Nat) : Controller :=
  { s with writeCount := s.writeCount + UInt32.ofNat n }

/-! ## The table and the valid bits -/

def getPageAddr (s : Controller) (p : PageId) : Except Fault Nat :=
  match s.table p with
  | some a => .ok a
  | none => .error .outOfRange

def setPageAddr (s : Controller) (p : PageId) (addr : Nat) : Controller :=
  let t := match s.table p with
    | some _ => s.table.erase p
    | none => s.table
  { s with table := t.insert p addr }

def getValid (s : Controller) (addr : Nat) : Bool := s.metaPage (addr / PAGE_SIZE)

def setValid (s : Controller) (addr : Nat) (isValid : Bool) : Except Fault Controller :=
  let i := addr / PAGE_SIZE
  let z := addr / g.zoneSize
  if s.metaPage i = false ∧ isValid = true then
    let s := s.modifyZone z fun d => { d with validPage := d.validPage + 1 }
    .ok { s with metaPage := Function.update s.metaPage i isValid }
  else if s.metaPage i = true ∧ isValid = false then
    let s := s.modifyZone z fun d => { d with validPage := d.validPage - 1 }
    .ok { s with metaPage := Function.update s.metaPage i isValid }
  else
    -- the bit is already as asked: `assert(0)`
    .error .setValid

/-- `set_valid_gc` has the text of `set_valid`. -/
def setValidGc (s : Controller) (addr : Nat) (isValid : Bool) : Except Fault Controller :=
  s.setValid g addr isValid

/-! ## Choosing a zone -/

/-- The first loop of `select_write_zone`: return the open zone of cluster `cf` that has room
for `n` pages, finishing the open zones of the cluster that have not. -/
def selectOpen (cf : Int) (n : Nat) : List Nat → Controller → Controller × Option Nat
  | [], s => (s, none)
  | i :: is, s =>
      if (s.zone i).cf = cf ∧ (s.zone i).cond = .expOpen ∧
          (s.zone i).wp + n * PAGE_SIZE ≤ g.ofst i + g.cap then
        (s, some i)
      else if (s.zone i).cf = cf ∧ (s.zone i).cond = .expOpen ∧
          g.ofst i + g.cap < (s.zone i).wp + n * PAGE_SIZE then
        selectOpen cf n is
          ((s.finishZone g i).modifyZone i fun d => { d with cond := .full })
      else
        selectOpen cf n is s

/-- The second loop: open the first empty zone for cluster `cf`. -/
def selectEmpty (cf : Int) : List Nat → Controller → Except Fault (Nat × Controller)
  -- the loop falls through to `assert(0)`
  | [], _ => .error .noZone
  | i :: is, s =>
      if (s.zone i).cf = -1 ∧ (s.zone i).cond = .empty then
        .ok (i, (s.openZone i).modifyZone i fun d => { d with cond := .expOpen, cf := cf })
      else
        selectEmpty cf is s

def selectWriteZone (cf : Int) (clusterSize : Nat) (s : Controller) :
    Except Fault (Nat × Controller) :=
  -- `%` of C: a negative cluster stays negative
  let cf := cf.tmod g.clusterNum
  match selectOpen g cf clusterSize (List.range g.maxZoneNum) s with
  | (s, some i) => .ok (i, s)
  | (s, none) => selectEmpty cf (List.range g.maxZoneNum) s

/-! ## Reading and writing pages -/

/-- `read_page` returns the zone of the page besides its content. -/
def readPage (s : Controller) (p : PageId) : Except Fault (Nat × Page × Controller) := do
  let addr ← s.getPageAddr p
  let b ← s.pread addr
  .ok (addr / g.zoneSize, b, s.incIoCount)

/-- The body of `write_page` under the zone's mutex. -/
def writePageLocked (z : Nat) (p : PageId) (b : Page) (s : Controller) :
    Except Fault Controller := do
  let old ← s.getPageAddr p
  let s ← s.setValid g old false
  let s := s.setPageAddr p (s.zone z).wp
  let (s, ret) := s.pwrite64 g [b] (s.zone z).wp
  let s := s.modifyZone z fun d => { d with wp := d.wp + ret }
  let addr ← s.getPageAddr p
  let s ← s.setValid g addr true
  .ok ((s.addWriteCount 1).incIoCount)

/-- `write_page`. A zone that is no longer open once its mutex is taken sends the call back to
the start, at most `attempts` times in all. -/
def writePage : Nat → Int → PageId → Page → Controller → Except Fault Controller
  | 0, _, _, _, _ => .error .retry
  | attempts + 1, cf, p, b, s => do
      let (z, s) ← selectWriteZone g cf 1 s
      if (s.zone z).cond ≠ .expOpen then writePage attempts cf p b s
      else writePageLocked g z p b s

/-- The body of `write_page_gc` under the zone's mutex: the page is stored before it is
mapped. -/
def writePageGcLocked (z : Nat) (p : PageId) (b : Page) (s : Controller) :
    Except Fault Controller := do
  let old ← s.getPageAddr p
  let s ← s.setValidGc g old false
  let wp := (s.zone z).wp
  let (s, ret) := s.pwrite64 g [b] wp
  let s := s.setPageAddr p (s.zone z).wp
  let addr ← s.getPageAddr p
  let s ← s.setValidGc g addr true
  let s := s.modifyZone z fun d => { d with wp := d.wp + ret }
  .ok (s.incIoCount.addWriteCount 1)

def writePageGc : Nat → Int → PageId → Page → Controller → Except Fault Controller
  | 0, _, _, _, _ => .error .retry
  | attempts + 1, cf, p, b, s => do
      let (z, s) ← selectWriteZone g cf 1 s
      if (s.zone z).cond ≠ .expOpen then writePageGc attempts cf p b s
      else writePageGcLocked g z p b s

/-- One iteration of the loop of `write_cluster` that maps the pages. -/
def mapClusterPage (z : Nat) (s : Controller) (pi : PageId × Nat) : Except Fault Controller := do
  let old ← s.getPageAddr pi.1
  let s ← s.setValid g old false
  let s := s.setPageAddr pi.1 ((s.zone z).wp + pi.2 * PAGE_SIZE)
  let addr ← s.getPageAddr pi.1
  s.setValid g addr true

/-- One `pwrite64` of `write_cluster`, of the `n` pages from page `first` of the buffer on. -/
def writeBatch (z : Nat) (buf : List Page) (first n : Nat) (s : Controller) : Controller :=
  let (s, ret) := s.pwrite64 g ((buf.drop first).take n) (s.zone z).wp
  (s.modifyZone z fun d => { d with wp := d.wp + ret }).addWriteCount n

/-- One iteration of the loop of `write_cluster` that stores the pages. -/
def storeBatch (z : Nat) (buf : List Page) (n : Nat) (s : Controller) (i : Nat) : Controller :=
  if i ≠ n / WRITE_BATCH then writeBatch g z buf (i * WRITE_BATCH) WRITE_BATCH s
  -- the last iteration stores what is left, which may be nothing
  else writeBatch g z buf (i * WRITE_BATCH) (n % WRITE_BATCH) s

/-- The body of `write_cluster` under the zone's mutex. -/
def writeClusterLocked (z : Nat) (buf : List Page) (pageList : List PageId) (s : Controller) :
    Except Fault Controller := do
  let n := pageList.length
  let s ← pageList.zipIdx.foldlM (mapClusterPage g z) s
  let s := (List.range (n / WRITE_BATCH + 1)).foldl (storeBatch g z buf n) s
  .ok s.incIoCount

def writeCluster : Nat → Int → List Page → List PageId → Controller → Except Fault Controller
  | 0, _, _, _, _ => .error .retry
  | attempts + 1, cf, buf, pageList, s => do
      let (z, s) ← selectWriteZone g cf pageList.length s
      if (s.zone z).cond ≠ .expOpen then writeCluster attempts cf buf pageList s
      else writeClusterLocked g z buf pageList s

/-- The body of `create_new_page` under the zone's mutex. -/
def createNewPageLocked (z : Nat) (p : PageId) (b : Page) (s : Controller) :
    Except Fault Controller := do
  let s := s.setPageAddr p (s.zone z).wp
  let addr ← s.getPageAddr p
  let s ← s.setValid g addr true
  let (s, ret) := s.pwrite64 g [b] (s.zone z).wp
  let s := s.modifyZone z fun d => { d with wp := d.wp + ret }
  .ok (s.incIoCount.addWriteCount 1)

def createNewPage (attempts : Nat) (p : PageId) (b : Page) (s : Controller) :
    Except Fault Controller := do
  let (z, s) ← selectWriteZone g 0 1 s
  if (s.zone z).cond ≠ .expOpen then writePage g attempts 0 p b s
  else createNewPageLocked g z p b s

/-! ## Rates -/

/-- `get_gc_info` for one zone. -/
def zoneRates (i : Nat) (d : ZoneDesc) : Rates :=
  if d.cond = .expOpen ∨ d.cond = .full then
    { d.rates with
      idle := ((d.wp : Rat) - (g.ofst i : Rat)) / (g.cap : Rat)
      gc := 1 - (d.validPage : Rat) / ((g.cap / PAGE_SIZE : Nat) : Rat) }
  else d.rates

/-- `get_gc_info`; `print_gc_info` computes the same before it prints. -/
def getGcInfo (s : Controller) : Controller :=
  { s with zone := fun i =>
      if i < g.maxZoneNum then { s.zone i with rates := zoneRates g i (s.zone i) } else s.zone i }

/-! ## Relocation -/

/-- The addresses `pos` of a scan of zone `z`: from its start in steps of a page while below
`ofst + cap`. -/
def scanPositions (z : Nat) : List Nat :=
  (List.range ((g.cap + (PAGE_SIZE - 1)) / PAGE_SIZE)).map fun i => g.ofst z + i * PAGE_SIZE

/-- The end of a relocation: reset the zone, clear what is still marked valid in it, and set
its rates to zero. -/
def recycleZone (z : Nat) (s : Controller) : Except Fault Controller := do
  let s := s.resetZone g z
  let s := s.modifyZone z fun d => { d with cond := .empty, cf := -1, wp := g.ofst z }
  let s ← (scanPositions g z).foldlM
    (fun s pos => if s.getValid pos then s.setValid g pos false else .ok s) s
  .ok (s.modifyZone z fun d => { d with rates := { d.rates with idle := 0, gc := 0 } })

/-- One iteration of the scan of `garbage_collection`. -/
def gcPosition (z : Nat) (s : Controller) (pos : Nat) : Except Fault Controller :=
  if s.getValid pos then do
    let s := { s with gcValidCount := s.gcValidCount + 1 }
    let buf ← s.pread pos
    -- counted here and once more by `write_page_gc`
    let s := s.addWriteCount 1
    writePageGc g 1 (s.zone z).cf (readId buf) buf s
  else .ok s

def garbageCollection (z : Nat) (s : Controller) : Except Fault Controller := do
  let s := { s with gc := true, gcCount := s.gcCount + 1 }
  let s := s.getGcInfo g
  let s ← (scanPositions g z).foldlM (gcPosition g z) s
  let s ← recycleZone g z s
  let s := s.modifyZone z fun d => { d with inGc := false }
  .ok { s with gc := false }

/-- One iteration of the scan of `cold_data_restruct`. -/
def restructPosition (s : Controller) (pos : Nat) : Except Fault Controller :=
  if s.getValid pos then do
    let buf ← s.pread pos
    let s := s.addWriteCount 1
    writePageGc g 1 0 (readId buf) buf s
  else .ok s

/-- One iteration of the loop of `cold_data_restruct` over the zones it is given. -/
def restructZone (s : Controller) (z : Nat) : Except Fault Controller := do
  let s ← (scanPositions g z).foldlM (restructPosition g) s
  recycleZone g z s

def coldDataRestruct (restruct : List Nat) (s : Controller) : Except Fault Controller := do
  let s := { s with cd := true, cdCount := s.cdCount + 1 }
  let s ← restruct.foldlM (restructZone g) s
  .ok { s with cd := false }

end Controller

/-! ## The detectors -/

/-- The comparisons of rates: `gc_rate > 0.85` of `garbage_collection_detect`, and the three
conditions of `cd_detect` on the rates of a zone. -/
structure RateTests where
  garbage : Rat → Bool
  cold : Rates → Bool

/-- The comparisons, made on the exact values. -/
def RateTests.exact : RateTests where
  garbage gc := 85 / 100 < gc
  cold r := r.gc - r.gcLast < 5 / 1000 ∧ 0 < r.gc - r.gcLast ∧ r.idle * (1 - r.gc) < 6 / 10

namespace Controller

variable (g : Geometry) (t : RateTests)

/-- One iteration of the loop of `garbage_collection_detect`; a collection it starts runs to
its end. -/
def detectZone (s : Controller) (i : Nat) : Except Fault Controller :=
  if (s.zone i).cond = .full ∧ t.garbage (s.zone i).rates.gc = true ∧
      (s.zone i).inGc = false then
    garbageCollection g i (s.modifyZone i fun d => { d with inGc := true })
  else .ok s

def garbageCollectionDetect (s : Controller) : Except Fault Controller :=
  -- nobody clears `Cd` while this thread waits for it
  if s.cd then .error .spin
  else
    let s := s.getGcInfo g
    if s.gc then .ok s else (List.range g.maxZoneNum).foldlM (detectZone g t) s

/-- The zones `cd_detect` collects for restructuring. -/
def coldZones (s : Controller) : List Nat :=
  (List.range g.maxZoneNum).filter fun i => (s.zone i).cond = .full && t.cold (s.zone i).rates

/-- The end of `cd_detect`: remember the garbage rates for the next time. -/
def keepRates (s : Controller) : Controller :=
  { s with zone := fun i =>
      if i < g.maxZoneNum then
        { s.zone i with rates := { (s.zone i).rates with gcLast := (s.zone i).rates.gc } }
      else s.zone i }

/-- `cd_detect`; the restructuring it starts runs to its end. -/
def cdDetect (s : Controller) : Except Fault Controller :=
  if s.gc then .error .spin
  else if s.cd then .ok s
  else do
    let s := s.getGcInfo g
    let restruct := s.coldZones g t
    let s ← if 3 ≤ restruct.length then coldDataRestruct g restruct s else .ok s
    .ok ((s.getGcInfo g).keepRates g)

end Controller

end ZoneBuffer
