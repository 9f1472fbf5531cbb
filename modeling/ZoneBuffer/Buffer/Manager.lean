import ZoneBuffer.Buffer.Zalp
import ZoneBuffer.Zone.Controller

set_option autoImplicit false

/-! # The buffer manager

`BufferManager` (`src/zBuffer.cpp`) as functions from state to state. The constants and flags it
is compiled with are a `Config`. `fix_page` and `fix_new_page` begin with the same lines, here
`takeFrame`; `evict_victim` is cut into the choice of victims, their flush and their
unmapping.

Collections and restructurings the manager starts run to their end before the call goes on. The
counters of `unsigned int` and the access times are machine integers and wrap around; the
counters of type `int` that nothing compares do not. -/

namespace ZoneBuffer

/-- The replacement modes, as the flags of the class are set for them. -/
inductive Mode where
  | achOnly
  | zalp
  /-- `zalp_wc` without `wh_only`. -/
  | zalpWc
  /-- `zalp_wc` with `wh_only`. -/
  | whOnly
  | cflru
  | lru
  deriving DecidableEq, Repr

/-- `CLUSTER_NUM` and `HC_LV`. -/
def CLUSTER_NUM : Nat := 4

def HC_LV : Nat := 3

namespace Mode

/-- The flag `zalp_wc`. -/
def isZalpWc : Mode → Bool
  | zalpWc => true
  | whOnly => true
  | _ => false

/-- The modes whose victims give up their frames; in the others the frames stay resident. -/
def releases : Mode → Bool
  | zalpWc => true
  | cflru => true
  | _ => false

/-- The clusters the constructor of the manager sets up. -/
def clusterNum : Mode → Nat
  | achOnly => 3
  | zalpWc => HC_LV
  | whOnly => HC_LV
  | zalp => CLUSTER_NUM
  | cflru => 1
  | lru => 1

end Mode

/-- The constants and flags of a build, and the device it runs on. A flush fits in a zone. -/
structure Config where
  mode : Mode
  cdDetect : Bool
  defBufSize : Nat
  workRegSize : Nat
  g : Geometry
  tests : RateTests
  /-- What `cList->back()` gives when the list is empty. -/
  junk : Zalp → FrameId
  cluster_eq : g.clusterNum = mode.clusterNum
  work_pos : 0 < workRegSize
  work_lt : workRegSize < defBufSize
  wh_le : mode = .whOnly → 4 ≤ defBufSize - workRegSize
  flush_fits : (defBufSize - workRegSize) * PAGE_SIZE ≤ g.cap
  interval_pos : 2 * PAGE_SIZE ≤ g.cap

/-- `cd_interval`. -/
def Config.cdInterval (cfg : Config) : Int32 := Int32.ofNat (cfg.g.cap / PAGE_SIZE / 2)

/-- The state of `BufferManager`. Counters that overflow wrap around. -/
structure Buffer where
  zdsm : Controller
  strategy : Zalp
  lrus : Lru
  accessH : PartialMap PageId (AccTime × AccTime)
  buffer : FrameId → Page
  clusterFlag : FrameId → Int32
  writeCount : FrameId → Int32
  readCount : FrameId → Int32
  freeFramesNum : Nat
  evictCount : UInt32
  insertCount : UInt32
  cdCount : Int32
  frameToPage : FrameId → PageId
  frameDirty : FrameId → Bool
  page2frame : PartialMap PageId FrameId
  hitCount : Int32
  flushCount : Nat → Int32

/-- What the constructors leave uninitialised: the memory of the frames, `cd_count` and the
rates of the zones. -/
structure Memory where
  frames : FrameId → Page
  cdCount : Int32
  rates : Nat → Rates

def Buffer.init (cfg : Config) (mem : Memory) : Buffer where
  zdsm := .init cfg.g mem.rates
  strategy := .init cfg.defBufSize
  lrus := .init
  accessH := .empty
  buffer := mem.frames
  clusterFlag _ := 0
  writeCount _ := 0
  readCount _ := 0
  freeFramesNum := cfg.defBufSize
  evictCount := 0
  insertCount := 0
  cdCount := mem.cdCount
  frameToPage _ := 0
  frameDirty _ := false
  page2frame := .empty
  hitCount := 0
  flushCount _ := 0

namespace Buffer

variable (cfg : Config)

def getPageId (s : Buffer) (f : FrameId) : PageId := s.frameToPage f

def setPageId (s : Buffer) (f : FrameId) (p : PageId) : Buffer :=
  { s with frameToPage := Function.update s.frameToPage f p }

def setDirty (f : FrameId) (s : Buffer) : Except Fault Buffer :=
  let s := { s with frameDirty := Function.update s.frameDirty f true }
  if cfg.mode = .lru then .ok s
  else do
    let strategy ← s.strategy.setDirty f
    .ok { s with strategy := strategy }

def incHitCount (s : Buffer) : Buffer := { s with hitCount := s.hitCount + 1 }

def setClusterFlag (s : Buffer) (f : FrameId) (v : Int32) : Buffer :=
  { s with clusterFlag := Function.update s.clusterFlag f v }

/-- Forget how often the frame was accessed. -/
def clearCounts (s : Buffer) (f : FrameId) : Buffer :=
  { s with
    writeCount := Function.update s.writeCount f 0
    readCount := Function.update s.readCount f 0 }

/-- `memcpy` into a frame. -/
def fill (s : Buffer) (f : FrameId) (b : Page) : Buffer :=
  { s with buffer := Function.update s.buffer f b }

/-- `zdsm->read_page` into frame `f`; the first component is the zone. -/
def loadPage (s : Buffer) (p : PageId) (f : FrameId) : Except Fault (Nat × Buffer) := do
  let (zone, b, zdsm) ← s.zdsm.readPage cfg.g p
  .ok (zone, { s with zdsm := zdsm }.fill f b)

/-! ## The detectors -/

/-- The lines of the evictions that start `cd_detect`. -/
def detectCold (s : Buffer) : Except Fault Buffer :=
  if cfg.cdDetect = true ∧ cfg.cdInterval < s.cdCount then do
    let zdsm ← s.zdsm.cdDetect cfg.g cfg.tests
    .ok { s with cdCount := s.cdCount % cfg.cdInterval, zdsm := zdsm }
  else .ok s

def detectGarbage (s : Buffer) : Except Fault Buffer := do
  let zdsm ← s.zdsm.garbageCollectionDetect cfg.g cfg.tests
  .ok { s with zdsm := zdsm }

/-! ## Eviction -/

/-- The numbers of frames per level, counted one by one. -/
def tally (levels : List Nat) : Nat → Nat :=
  levels.foldl (fun d i => Function.update d i (d i + 1)) fun _ => 0

/-- The loop that looks for the largest count among the first `n`; the last of several wins. -/
def largest (n : Nat) (d : Nat → Nat) (cf : Int) : Int :=
  ((List.range n).foldl
    (fun (c : Int × Int) i => if c.2 > d i then c else (i, d i)) (cf, -1)).1

/-- `HC_Lv`: cold, warm and hot are the levels 0, 1 and 2. -/
def hcLv (clusterFlag _max : Int32) : Nat :=
  if clusterFlag = 0 then 0 else if clusterFlag = 1 then 1 else 2

def maxFlag (s : Buffer) (candidates : List FrameId) : Int32 :=
  candidates.foldl (fun m f => if m < s.clusterFlag f then s.clusterFlag f else m) 0

/-- The levels `evict_victim` sorts the candidates by. -/
def levelOf (s : Buffer) (candidates : List FrameId) (f : FrameId) : Nat :=
  if cfg.mode.isZalpWc then hcLv (s.clusterFlag f) (s.maxFlag candidates)
  else (s.clusterFlag f).toInt.toNat

/-- The cluster `evict_victim` flushes. With `wh_only` it is the hot one unless that is small,
which is compared in `int`. -/
def clusterOf (s : Buffer) (candidates : List FrameId) : Int :=
  let d := tally (candidates.map (s.levelOf cfg candidates))
  match cfg.mode with
  | .whOnly => if d 2 < (cfg.defBufSize - cfg.workRegSize) / 4 then largest HC_LV d 2 else 2
  | .zalpWc => largest HC_LV d (-1)
  | _ => largest cfg.g.clusterNum d (-1)

/-- The candidates in the cluster flushed. -/
def victimsOf (s : Buffer) (candidates : List FrameId) : List FrameId :=
  candidates.filter fun f => (s.levelOf cfg candidates f : Int) = s.clusterOf cfg candidates

/-- The victims leave the lists with `zalp_wc` alone, and become clean with the others. -/
def retireVictims (victims : List FrameId) (s : Buffer) : Except Fault Zalp :=
  if cfg.mode = .zalpWc then s.strategy.updateDirty victims
  else s.strategy.dirtyToClean victims

/-- The choice of a cluster. In mode `zalp` the flags index an array of `cluster_num` counts. -/
def chooseCluster (s : Buffer) : Except Fault (Int × List FrameId × Zalp) := do
  let candidates ← s.strategy.getCandidate cfg.defBufSize cfg.workRegSize
  if cfg.mode.isZalpWc = false ∧
      ∃ f ∈ candidates, (s.clusterFlag f).toInt < 0 ∨ cfg.g.clusterNum ≤ (s.clusterFlag f).toInt then
    .error .badIndex
  else if s.clusterOf cfg candidates = -1 then .error .noCluster
  else do
    let strategy ← s.retireVictims cfg (s.victimsOf cfg candidates)
    .ok (s.clusterOf cfg candidates, s.victimsOf cfg candidates, strategy)

/-- The choice of mode `cflru`. -/
def chooseLast (s : Buffer) : Except Fault (Int × List FrameId × Zalp) := do
  let victims ← s.strategy.getCandidateCflru
  let strategy ← s.strategy.updateDirty victims
  .ok (0, victims, strategy)

/-- The first half of `evict_victim`: the cluster, the victims, and the lists without them. -/
def chooseVictims (s : Buffer) : Except Fault (Int × List FrameId × Zalp) :=
  if cfg.mode = .cflru then s.chooseLast else s.chooseCluster cfg

/-- `evict_count` and `cd_count` after `n` more evictions. -/
def countEvicted (s : Buffer) (n : Nat) : Buffer :=
  { s with
    evictCount := s.evictCount + UInt32.ofNat n
    cdCount := s.cdCount + Int32.ofNat n }

def addFlushCount (s : Buffer) (cf : Int) (n : Nat) : Buffer :=
  { s with
    flushCount := Function.update s.flushCount cf.toNat (s.flushCount cf.toNat + Int32.ofNat n) }

/-- Write a cluster of frames back. -/
def writeVictims (cf : Int) (victims : List FrameId) (s : Buffer) : Except Fault Buffer := do
  let zdsm ← s.zdsm.writeCluster cfg.g 1 cf (victims.map s.buffer) (victims.map s.getPageId)
  .ok ({ s with zdsm := zdsm }.addFlushCount cf victims.length)

/-- The flush of `evict_victim`: a single victim is written with `write_page`. -/
def flushVictims (cf : Int) (victims : List FrameId) (s : Buffer) : Except Fault Buffer :=
  match victims with
  | [v] => do
      let zdsm ← s.zdsm.writePage cfg.g 1 cf (s.getPageId v) (s.buffer v)
      .ok ({ s with zdsm := zdsm }.addFlushCount cf 1)
  | _ => s.writeVictims cfg cf victims

/-- Unmap the victims' pages and clear the frames' dirty flags. -/
def unmapVictims (victims : List FrameId) (s : Buffer) : Buffer :=
  victims.foldl (fun s v =>
    { s with
      page2frame := s.page2frame.erase (s.getPageId v)
      frameDirty := Function.update s.frameDirty v false }) s

def evictVictim (s : Buffer) : Except Fault Buffer := do
  let (cf, victims, strategy) ← s.chooseVictims cfg
  let s := { s with strategy := strategy }.countEvicted victims.length
  let s ← s.flushVictims cfg cf victims
  let s := s.unmapVictims victims
  let s ← s.detectCold cfg
  s.detectGarbage cfg

/-! ## Eviction by access history -/

/-- `evict_count + insert_count` as an access time. -/
def accessTime (s : Buffer) : AccTime := (s.evictCount + s.insertCount).toInt32

/-- The update of `accessH` for one candidate. -/
def recordAccess (now : AccTime) (p : PageId) (h : PartialMap PageId (AccTime × AccTime)) :
    PartialMap PageId (AccTime × AccTime) :=
  match h p with
  | none => h.insert p (-1, now)
  | some (_, second) => h.insertOrAssign p (second, now)

def recordAccesses (candidates : List FrameId) (s : Buffer) : Buffer :=
  let accessH := candidates.foldl (fun h f => recordAccess s.accessTime (s.getPageId f) h) s.accessH
  { s with accessH := accessH }

/-- `ach_clutser`. -/
def achClutser (lv : Nat) (acht : AccTime × AccTime) : Bool :=
  let bound := Int32.ofNat (16 * (cfg.defBufSize - cfg.workRegSize))
  match lv with
  | 0 => acht.1 = -1
  | 1 => acht.2 - acht.1 < bound
  | _ => bound ≤ acht.2 - acht.1

/-- The victims of level `lv`. -/
def achVictims (lv : Nat) (candidates : List FrameId) (s : Buffer) :
    Except Fault (List FrameId) :=
  candidates.filterM fun f =>
    match s.accessH (s.getPageId f) with
    | some acht => .ok (achClutser cfg lv acht)
    | none => .error .outOfRange

/-- One iteration of the loop of `evict_victim_ach` over the levels. -/
def flushLevel (candidates : List FrameId) (s : Buffer) (lv : Nat) : Except Fault Buffer := do
  let victims ← s.achVictims cfg lv candidates
  s.writeVictims cfg lv victims

/-- The first half of `evict_victim_ach`: record the accesses and flush the three levels. -/
def flushAch (candidates : List FrameId) (s : Buffer) : Except Fault Buffer := do
  let s ← [0, 1, 2].foldlM (flushLevel cfg candidates) (s.recordAccesses candidates)
  .ok (s.countEvicted candidates.length)

def evictVictimAch (s : Buffer) : Except Fault Buffer := do
  let candidates ← s.strategy.getCandidate cfg.defBufSize cfg.workRegSize
  let s ← s.flushAch cfg candidates
  let s := s.unmapVictims candidates
  let s ← s.detectCold cfg
  let strategy ← s.strategy.dirtyToClean candidates
  ({ s with strategy := strategy } : Buffer).detectGarbage cfg

/-! ## Fixing pages -/

/-- `is_evict`, as the manager asks for it. -/
def isEvict (s : Buffer) : Except Fault Bool :=
  s.strategy.isEvict cfg.workRegSize (cfg.junk s.strategy)

def evict (s : Buffer) : Except Fault Buffer :=
  if cfg.mode = .achOnly then s.evictVictimAch cfg else s.evictVictim cfg

/-- The eviction, if one is due. -/
def makeRoom (s : Buffer) : Except Fault Buffer := do
  let due ← s.isEvict cfg
  if due then s.evict cfg else .ok s

/-- The frame for a page that is not resident, after an eviction if one is due. A frame that was
not free gives up the page it is recorded for. -/
def takeFrame (s : Buffer) : Except Fault (FrameId × Buffer) := do
  let s ← s.makeRoom cfg
  let (f, isFree, strategy) ← s.strategy.getFrame
  if isFree then .ok (f, { s with strategy := strategy })
  else .ok (f, { s with
    strategy := strategy
    page2frame := s.page2frame.erase (s.getPageId f) })

/-- The lines of `select_victim` that write a dirty frame back. -/
def writeBack (f : FrameId) (s : Buffer) : Except Fault Buffer :=
  if s.frameDirty f then do
    let zdsm ← s.zdsm.writePage cfg.g 1 0 (s.getPageId f) (s.buffer f)
    ({ s with zdsm := zdsm }.addFlushCount 0 1).detectGarbage cfg
  else .ok s

/-- `select_victim`. The dirty flag of the victim stays as it is. -/
def selectVictim (s : Buffer) : Except Fault (FrameId × Buffer) := do
  let (f, lrus) ← s.lrus.getVictim
  let s ← { s with lrus := lrus }.writeBack cfg f
  .ok (f, { s with page2frame := s.page2frame.erase (s.frameToPage f) })

/-- The frame for a page that is not resident, in mode `lru`. -/
def takeFrameLru (s : Buffer) : Except Fault (FrameId × Buffer) :=
  if s.freeFramesNum = 0 then s.selectVictim cfg
  else .ok (cfg.defBufSize - s.freeFramesNum, { s with freeFramesNum := s.freeFramesNum - 1 })

/-- The lines of `fix_page` that load a page which is not about to be overwritten. -/
def loadFixed (p : PageId) (f : FrameId) (s : Buffer) : Except Fault Buffer := do
  let (zone, s) ← s.loadPage cfg p f
  match cfg.mode with
  | .zalpWc => .ok ((s.setClusterFlag f 0).clearCounts f)
  | .whOnly => .ok ((s.setClusterFlag f 0).clearCounts f)
  | .zalp => .ok (s.setClusterFlag f (Int32.ofNat (zone % cfg.g.clusterNum)))
  | _ => .ok s

def fixPage (isWrite : Bool) (p : PageId) (s : Buffer) : Except Fault (FrameId × Buffer) :=
  if cfg.mode = .lru then
    match s.page2frame p with
    | none => do
        let (f, s) ← s.takeFrameLru cfg
        let s := { s with page2frame := s.page2frame.insert p f, lrus := s.lrus.push f }
        let s := s.setPageId f p
        if isWrite then .ok (f, s)
        else do
          let (_, s) ← s.loadPage cfg p f
          .ok (f, s)
    | some f => do
        let lrus ← s.lrus.update f
        .ok (f, { s with lrus := lrus }.incHitCount)
  else
    match s.page2frame p with
    | none => do
        let (f, s) ← s.takeFrame cfg
        let s := { s with
          page2frame := s.page2frame.insert p f
          strategy := s.strategy.push f false }
        let s := s.setPageId f p
        if isWrite then .ok (f, s)
        else do
          let s ← s.loadFixed cfg p f
          .ok (f, s)
    | some f => do
        let s := if cfg.mode.isZalpWc then s.setClusterFlag f (s.clusterFlag f + 1) else s
        let strategy ← s.strategy.update f (s.frameDirty f)
        .ok (f, { s with strategy := strategy }.incHitCount)

/-- The flags `fix_new_page` sets for a new page. -/
def markNew (p : PageId) (f : FrameId) (s : Buffer) : Buffer :=
  match cfg.mode with
  | .zalpWc => (s.setClusterFlag f 0).clearCounts f
  | .whOnly => (s.setClusterFlag f 0).clearCounts f
  | .zalp => s.setClusterFlag f (Int32.ofInt (p.toInt.tmod cfg.g.clusterNum))
  | _ => s

def fixNewPage (p : PageId) (frame : Page) (s : Buffer) : Except Fault Buffer :=
  if cfg.mode = .lru then do
    let (f, s) ← s.takeFrameLru cfg
    let s := s.fill f frame
    let zdsm ← s.zdsm.createNewPage cfg.g 1 p frame
    let s : Buffer := { s with
      zdsm := zdsm
      page2frame := s.page2frame.insert p f
      lrus := s.lrus.push f }
    .ok (s.setPageId f p)
  else do
    let (f, s) ← s.takeFrame cfg
    let s := s.fill f frame
    let zdsm ← s.zdsm.createNewPage cfg.g 1 p frame
    let s : Buffer := { s with
      zdsm := zdsm
      insertCount := s.insertCount + 1
      cdCount := s.cdCount + 1 }
    let s := s.markNew cfg p f
    let s := { s with
      page2frame := s.page2frame.insert p f
      strategy := s.strategy.push f false }
    .ok (s.setPageId f p)

/-! ## The calls -/

def incReadCount (s : Buffer) (f : FrameId) : Buffer :=
  { s with readCount := Function.update s.readCount f (s.readCount f + 1) }

/-- `read_page` returns the bytes of the frame after it has checked the id they start with. -/
def readPage (p : PageId) (s : Buffer) : Except Fault (Page × Buffer) := do
  let (f, s) ← s.fixPage cfg false p
  let s := s.incReadCount f
  if readId (s.buffer f) = p then .ok (s.buffer f, s) else .error .wrongId

def writePage (p : PageId) (frame : Page) (s : Buffer) : Except Fault Buffer := do
  let (f, s) ← s.fixPage cfg true p
  let s := s.fill f frame
  (s.incReadCount f).setDirty cfg f

/-- One iteration of the loop of `clean_buffer`. -/
def cleanOne (s : Buffer) (f : FrameId) : Except Fault Buffer :=
  if s.frameDirty f then do
    let zdsm ← s.zdsm.writePage cfg.g 1 0 (s.frameToPage f) (s.buffer f)
    .ok { s with zdsm := zdsm }
  else .ok s

/-- `clean_buffer`; the dirty flags stay as they are. -/
def cleanBuffer (s : Buffer) : Except Fault Buffer := do
  let s ← (List.range cfg.defBufSize).foldlM (cleanOne cfg) s
  .ok { s with zdsm := s.zdsm.getGcInfo cfg.g }

def hitCountClear (s : Buffer) : Buffer := { s with hitCount := 0, zdsm := s.zdsm.ioCountClear }

end Buffer

end ZoneBuffer
