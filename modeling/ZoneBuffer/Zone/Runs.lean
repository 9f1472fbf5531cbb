import ZoneBuffer.Zone.Relocation
import ZoneBuffer.Lib.Machine
import Mathlib.Data.Int.Interval

set_option autoImplicit false

/-! # Runs of the controller

A client of the controller sees a map from page ids to contents. `Op` lists the calls, `Op.spec`
is what each means for the map, and `Op.Pre` says which calls the program makes: a page is
created once and written after that, every buffer starts with its page's id, and a cluster fits
in a zone. Relocation means nothing for the map.

`run_spec` is the simulation between the two; its consequences are the refinement theorem
`readPage_run`, the bookkeeping of every reachable state (`consistent_run`) and the discipline
of every write (`disciplined_run`). -/

namespace ZoneBuffer

open Outcome Machine

/-- What a client believes is stored. -/
abbrev Contents := PartialMap PageId Page

/-- The calls. The detectors are included, with the relocations they start running to their
end. -/
inductive Op where
  | createNewPage (p : PageId) (b : Page)
  | readPage (p : PageId)
  | writePage (cf : Int) (p : PageId) (b : Page)
  | writePageGc (cf : Int) (p : PageId) (b : Page)
  | writeCluster (cf : Int) (buf : List Page) (pageList : List PageId)
  | garbageCollection (z : Nat)
  | coldDataRestruct (restruct : List Nat)
  | garbageCollectionDetect (t : RateTests)
  | cdDetect (t : RateTests)

namespace Op

/-- The contents a call sets, in order. -/
def writes : Op → List (PageId × Page)
  | createNewPage p b => [(p, b)]
  | writePage _ p b => [(p, b)]
  | writePageGc _ p b => [(p, b)]
  | writeCluster _ buf pageList => pageList.zip buf
  | _ => []

/-- What a call means. -/
def spec (op : Op) (m : Contents) : Contents := m.assignAll op.writes

/-- The calls of the writers. -/
def IsWrite : Op → Prop
  | createNewPage _ _ => True
  | writePage _ _ _ => True
  | writePageGc _ _ _ => True
  | writeCluster _ _ _ => True
  | _ => False

/-- The calls the program makes. -/
def Pre (g : Geometry) (m : Contents) : Op → Prop
  | createNewPage p b => m p = none ∧ readId b = p
  | readPage p => m p ≠ none
  | writePage _ p b => m p ≠ none ∧ readId b = p
  | writePageGc _ p b => m p ≠ none ∧ readId b = p
  | writeCluster _ buf pageList =>
      buf.length = pageList.length ∧ pageList.length * PAGE_SIZE ≤ g.cap ∧
        ∀ pb ∈ pageList.zip buf, m pb.1 ≠ none ∧ readId pb.2 = pb.1
  | garbageCollection z => z < g.maxZoneNum
  | coldDataRestruct restruct => ∀ z ∈ restruct, z < g.maxZoneNum
  | garbageCollectionDetect _ => True
  | cdDetect _ => True

instance (op : Op) : Decidable op.IsWrite :=
  match op with
  | createNewPage _ _ => isTrue trivial
  | writePage _ _ _ => isTrue trivial
  | writePageGc _ _ _ => isTrue trivial
  | writeCluster _ _ _ => isTrue trivial
  | readPage _ => isFalse id
  | garbageCollection _ => isFalse id
  | coldDataRestruct _ => isFalse id
  | garbageCollectionDetect _ => isFalse id
  | cdDetect _ => isFalse id

instance (g : Geometry) (m : Contents) (op : Op) : Decidable (op.Pre g m) :=
  match op with
  | createNewPage _ _ => inferInstanceAs (Decidable (_ ∧ _))
  | readPage _ => inferInstanceAs (Decidable (_ ≠ none))
  | writePage _ _ _ => inferInstanceAs (Decidable (_ ∧ _))
  | writePageGc _ _ _ => inferInstanceAs (Decidable (_ ∧ _))
  | writeCluster _ _ _ => inferInstanceAs (Decidable (_ ∧ _ ∧ _))
  | garbageCollection _ => inferInstanceAs (Decidable (_ < _))
  | coldDataRestruct _ => inferInstanceAs (Decidable (∀ _ ∈ _, _))
  | garbageCollectionDetect _ => isTrue trivial
  | cdDetect _ => isTrue trivial

/-- The cluster id of the call, where it has one, satisfies `K`. -/
def Cluster (K : Int → Prop) : Op → Prop
  | writePage cf _ _ => K cf
  | writePageGc cf _ _ => K cf
  | writeCluster cf _ _ => K cf
  | _ => True

end Op

namespace Controller

variable {g : Geometry}

/-- A call. Run alone, a writer never retries, so one attempt is enough. -/
def step (g : Geometry) : Op → Controller → Except Fault Controller
  | .createNewPage p b, s => createNewPage g 1 p b s
  | .readPage p, s => do
      let (_, _, s) ← s.readPage g p
      .ok s
  | .writePage cf p b, s => writePage g 1 cf p b s
  | .writePageGc cf p b, s => writePageGc g 1 cf p b s
  | .writeCluster cf buf pageList, s => writeCluster g 1 cf buf pageList s
  | .garbageCollection z, s => garbageCollection g z s
  | .coldDataRestruct restruct, s => coldDataRestruct g restruct s
  | .garbageCollectionDetect t, s => garbageCollectionDetect g t s
  | .cdDetect t, s => cdDetect g t s

/-- The content `read_page` returns. -/
def readContent (g : Geometry) (s : Controller) (p : PageId) : Except Fault Page :=
  (s.readPage g p).map fun r => r.2.1

/-- The relation of the simulation. -/
structure Sim (g : Geometry) (K : Int → Prop) (s : Controller) (m : Contents) : Prop where
  inv : Inv g K s
  content : s.content = m
  idle : s.Idle

variable {K : Int → Prop} {s s' : Controller} {m : Contents}

theorem Sim.init (g : Geometry) (K : Int → Prop) (rates : Nat → Rates) :
    Sim g K (Controller.init g rates) .empty :=
  ⟨Inv.init g K rates, rfl, rfl, rfl⟩

theorem Sim.wrote (h : Sim g K s m) {l : List (PageId × Page)} (hw : Wrote g K s s' l) :
    Sim g K s' (m.assignAll l) :=
  ⟨hw.inv, by rw [hw.content, h.content], hw.grew.gc.trans h.idle.gc, hw.grew.cd.trans h.idle.cd⟩

/-- `read_page` returns what the client believes is stored. -/
theorem Sim.readPage (h : Sim g K s m) {p : PageId} {b : Page} (hb : m p = some b) :
    ∃ z, s.readPage g p = .ok (z, b, s.incIoCount) := by
  rw [← h.content] at hb
  obtain ⟨a, ha⟩ := h.inv.table_of_content (p := p) (by simp [hb])
  have hpage : s.dev.page a = some b := by
    rwa [Controller.content, ha] at hb
  refine ⟨a / g.zoneSize, ?_⟩
  rw [Controller.readPage, getPageAddr_of_some ha, ok_bind, pread]
  simp only [hpage]
  rfl

theorem Sim.readContent (h : Sim g K s m) (p : PageId) :
    s.readContent g p = match m p with
      | some b => .ok b
      | none => .error .outOfRange := by
  cases hb : m p with
  | some b =>
      obtain ⟨z, hread⟩ := h.readPage hb
      rw [Controller.readContent, hread]
      rfl
  | none =>
      have ht : s.table p = none := (h.inv.content_eq_none p).1 (by rw [h.content, hb])
      rw [Controller.readContent, Controller.readPage, getPageAddr, ht]
      rfl

/-- The writers, as calls. -/
theorem write_spec (hK0 : K 0) (hKmod : ∀ c, K c → K (c.tmod g.clusterNum)) (h : Inv g K s)
    {op : Op} (hw : op.IsWrite) (hpre : op.Pre g s.content) (hop : op.Cluster K) :
    Yields (step g op s) (· = .noZone) fun s' => Wrote g K s s' op.writes := by
  cases op with
  | createNewPage p b => exact createNewPage_spec h 1 hK0 hpre.1 hpre.2
  | writePage cf p b => exact writePage_spec h 0 cf (hKmod cf hop) hpre.1 hpre.2
  | writePageGc cf p b =>
      exact (writePageGc_spec h 0 cf (hKmod cf hop) hpre.1 hpre.2).imp fun _ hs' => hs'.1
  | writeCluster cf buf pageList =>
      exact writeCluster_spec h 0 cf (hKmod cf hop) hpre.1 hpre.2.1 hpre.2.2
  | readPage _ => cases hw
  | garbageCollection _ => cases hw
  | coldDataRestruct _ => cases hw
  | garbageCollectionDetect _ => cases hw
  | cdDetect _ => cases hw

/-- **One call.** It stops only for want of an empty zone, and else does to the contents what
it means. -/
theorem step_spec (hK0 : K 0) (hKmod : ∀ c, K c → K (c.tmod g.clusterNum)) (h : Sim g K s m)
    {op : Op} (hpre : op.Pre g m) (hop : op.Cluster K) :
    Yields (step g op s) (· = .noZone) fun s' => Sim g K s' (op.spec m) := by
  have hwrite : op.IsWrite → Yields (step g op s) (· = .noZone) fun s' => Sim g K s' (op.spec m) :=
    fun hw => (write_spec hK0 hKmod h.inv hw (h.content ▸ hpre) hop).imp fun _ => h.wrote
  cases op with
  | createNewPage p b => exact hwrite trivial
  | writePage cf p b => exact hwrite trivial
  | writePageGc cf p b => exact hwrite trivial
  | writeCluster cf buf pageList => exact hwrite trivial
  | readPage p =>
      obtain ⟨b, hb⟩ := Option.ne_none_iff_exists'.1 hpre
      obtain ⟨z, hread⟩ := h.readPage hb
      rw [step, hread]
      exact ⟨h.inv.counters rfl rfl rfl rfl rfl, h.content, h.idle.gc, h.idle.cd⟩
  | garbageCollection z =>
      refine (garbageCollection_spec h.inv z).imp ?_
      rintro s' ⟨hinv, hcontent, hgc, hcd⟩
      exact ⟨hinv, hcontent.trans h.content, hgc, hcd.trans h.idle.cd⟩
  | coldDataRestruct restruct =>
      refine (coldDataRestruct_spec h.inv hK0 restruct).imp ?_
      rintro s' ⟨hinv, hcontent, hgc, hcd⟩
      exact ⟨hinv, hcontent.trans h.content, hgc.trans h.idle.gc, hcd⟩
  | garbageCollectionDetect t =>
      exact (garbageCollectionDetect_spec t h.inv h.idle).imp fun _ hs' =>
        ⟨hs'.inv, hs'.content.trans h.content, hs'.idle⟩
  | cdDetect t =>
      exact (cdDetect_spec t h.inv hK0 h.idle).imp fun _ hs' =>
        ⟨hs'.inv, hs'.content.trans h.content, hs'.idle⟩

/-- **Every run simulates the run of its meanings.** -/
theorem run_spec (hK0 : K 0) (hKmod : ∀ c, K c → K (c.tmod g.clusterNum)) (rates : Nat → Rates)
    (ops : List Op) (hl : Legal (Op.Pre g) Op.spec ops .empty) (hc : ∀ op ∈ ops, op.Cluster K) :
    Yields (run (step g) ops (Controller.init g rates)) (· = .noZone) fun s =>
      Sim g K s (specRun Op.spec ops .empty) := by
  have hl' : Legal (fun m op => op.Pre g m ∧ op.Cluster K) Op.spec ops .empty :=
    hl.imp fun op hop _ hpre => ⟨hpre, hc op hop⟩
  refine run_yields (Sim g K) (fun s m op hs hpre => ?_) ops _ _ (Sim.init g K rates) hl'
  exact step_spec hK0 hKmod hs hpre.1 hpre.2

/-- The run, whatever the cluster ids. -/
theorem run_spec_any (rates : Nat → Rates) (ops : List Op)
    (hl : Legal (Op.Pre g) Op.spec ops .empty) :
    Yields (run (step g) ops (Controller.init g rates)) (· = .noZone) fun s =>
      Sim g (fun _ => True) s (specRun Op.spec ops .empty) :=
  run_spec trivial (fun _ _ => trivial) rates ops hl fun op _ => by cases op <;> trivial

/-! ## Refinement -/

/-- **The zone store refines a map from page ids to contents.** After any legal sequence of
calls, `read_page` returns the content of the last call that wrote the page, however often the
page has been relocated since. A run stops only for want of an empty zone. -/
theorem readPage_run (g : Geometry) (rates : Nat → Rates) (ops : List Op)
    (hl : Legal (Op.Pre g) Op.spec ops .empty) :
    Yields (run (step g) ops (Controller.init g rates)) (· = .noZone) fun s =>
      ∀ p, s.readContent g p = match specRun Op.spec ops .empty p with
        | some b => .ok b
        | none => .error .outOfRange :=
  (run_spec_any rates ops hl).imp fun _ h => h.readContent

/-- Two pages are created, the first is rewritten into another zone, and the zone that holds
the second is collected. -/
@[irreducible] def relocatingOps : List Op :=
  [.createNewPage 7 (frameOf 7 1), .createNewPage 8 (frameOf 8 2), .writePage 4 7 (frameOf 7 3),
    .garbageCollection 0, .writeCluster (-1) [frameOf 7 4, frameOf 7 5] [7, 7]]

theorem relocatingOps_legal : Legal (Op.Pre .small) Op.spec relocatingOps .empty := by
  simp [relocatingOps, Legal, Op.Pre, Op.spec, Op.writes, PartialMap.assignAll,
    PartialMap.insertOrAssign_apply, PAGE_SIZE]

theorem relocatingOps_spec :
    specRun Op.spec relocatingOps .empty 8 = some (frameOf 8 2) := by
  simp [relocatingOps, Op.spec, Op.writes, PartialMap.assignAll, PartialMap.insertOrAssign_apply]

/-- The state before `relocatingOps`. -/
def smallStart : Controller := Controller.init .small fun _ => ⟨0, 0, 0⟩

theorem relocatingOps_isOk : (run (step .small) relocatingOps smallStart).isOk = true := by
  decide +kernel

theorem readPage_run_relocated : ∃ s, run (step .small) relocatingOps smallStart = .ok s ∧
    s.readContent .small 8 = .ok (frameOf 8 2) := by
  have hrun := readPage_run .small (fun _ => ⟨0, 0, 0⟩) relocatingOps relocatingOps_legal
  obtain ⟨s, hs, hread⟩ := hrun.of_isOk relocatingOps_isOk
  have hread8 := hread 8
  rw [relocatingOps_spec] at hread8
  exact ⟨s, hs, hread8⟩

/-! ## Bookkeeping -/

/-- The table, the bitmap, the counters and the write pointers agree. -/
structure Consistent (g : Geometry) (s : Controller) : Prop where
  inj : ∀ p q a, s.table p = some a → s.table q = some a → p = q
  valid : ∀ a, PAGE_SIZE ∣ a → (s.metaPage (a / PAGE_SIZE) = true ↔ ∃ p, s.table p = some a)
  count : ∀ z, (s.zone z).validPage = TrueCount.trueCount s.metaPage (g.pagesOf z)
  live : ∀ p a, s.table p = some a → PAGE_SIZE ∣ a ∧ a / g.zoneSize < g.maxZoneNum ∧
    g.ofst (a / g.zoneSize) ≤ a ∧ a < (s.zone (a / g.zoneSize)).wp ∧
    ((s.zone (a / g.zoneSize)).cond = .expOpen ∨ (s.zone (a / g.zoneSize)).cond = .full)
  empty : ∀ z, (s.zone z).cond = .empty →
    (s.zone z).cf = -1 ∧ (s.zone z).wp = g.ofst z ∧ (s.zone z).validPage = 0

/-- An empty zone has no valid page. -/
theorem Inv.validPage_empty (h : Inv g K s) {z : Nat} (hz : (s.zone z).cond = .empty) :
    (s.zone z).validPage = 0 := by
  rw [h.book.count, Nat.cast_eq_zero, TrueCount.trueCount_eq_zero]
  intro i hi
  rw [← Bool.not_eq_true, h.book.valid]
  rintro ⟨p, -, hp⟩
  have hdiv : i * PAGE_SIZE / g.zoneSize = z := by
    rw [← g.mem_pagesOf, Nat.mul_div_cancel _ (by decide)]
    exact hi
  exact (h.live p _ hp).used (hdiv.symm ▸ hz)

theorem Inv.consistent (h : Inv g K s) : Consistent g s where
  inj := h.book.inj
  valid a ha := ⟨h.mapped_of_valid ha, fun ⟨_, hp⟩ => h.valid_of_mapped hp⟩
  count := h.book.count
  live p a hp := by
    have hlive := h.live p a hp
    refine ⟨h.book.aligned p a hp, h.lt _ hlive.used, (g.ofst_le_of_div rfl).1, hlive.below, ?_⟩
    cases hc : (s.zone (a / g.zoneSize)).cond with
    | empty => exact absurd hc hlive.used
    | expOpen => exact Or.inl rfl
    | full => exact Or.inr rfl
  empty z hz := by
    obtain ⟨hcf, hwp, -⟩ := h.empty z hz
    exact ⟨hcf, hwp, h.validPage_empty hz⟩

/-- **The bookkeeping of every reachable state is consistent**, and no call of a legal run
reaches the assertion of `set_valid` or `set_valid_gc`: the only fault is `noZone`. -/
theorem consistent_run (g : Geometry) (rates : Nat → Rates) (ops : List Op)
    (hl : Legal (Op.Pre g) Op.spec ops .empty) :
    Yields (run (step g) ops (Controller.init g rates)) (· = .noZone) (Consistent g) :=
  (run_spec_any rates ops hl).imp fun _ h => h.inv.consistent

theorem consistent_run_relocated : ∃ s, run (step .small) relocatingOps smallStart = .ok s ∧
    Consistent .small s :=
  (consistent_run .small (fun _ => ⟨0, 0, 0⟩) relocatingOps relocatingOps_legal).of_isOk
    relocatingOps_isOk

/-! ## Writes -/

/-- Every write went to the write pointer of an open zone; the zones are as the device has
them, with one open zone per cluster; and choosing a zone gives one as asked for. -/
structure Disciplined (g : Geometry) (s : Controller) : Prop where
  writes : ∀ w ∈ s.pwrites, w.Ok g
  cond : ∀ z, (s.dev.zone z).cond = (s.zone z).cond
  wp : ∀ z, (s.zone z).cond = .expOpen → (s.dev.zone z).wp = (s.zone z).wp
  one_open : ∀ i j, (s.zone i).cond = .expOpen → (s.zone j).cond = .expOpen →
    (s.zone i).cf = (s.zone j).cf → i = j
  select : ∀ (cf : Int) (n : Nat), n * PAGE_SIZE ≤ g.cap →
    Yields (selectWriteZone g cf n s) (· = .noZone) fun r =>
      Chosen g (cf.tmod g.clusterNum) n r.1 r.2

/-- The open zones. -/
def openZones (g : Geometry) (s : Controller) : Finset Nat :=
  (Finset.range g.maxZoneNum).filter fun z => (s.zone z).cond = .expOpen

theorem Inv.disciplined (h : Inv g (fun _ => True) s) : Disciplined g s where
  writes := h.log
  cond z := by
    cases hz : (s.zone z).cond with
    | empty => rw [(h.empty z hz).2.2]
    | expOpen => rw [h.sync z hz]
    | full => exact h.full z hz
  wp z hz := by rw [h.sync z hz]
  one_open := h.one_open
  select _ _ hn := (selectWriteZone_spec h trivial hn).mono (fun _ he => he.1) fun _ hr => hr.2.2

/-- Open zones whose clusters lie between `lo` and `hi` are as many as these at most. -/
theorem Inv.card_openZones {K : Int → Prop} (h : Inv g K s) (lo hi : Int)
    (hcf : ∀ z ∈ s.openZones g, lo ≤ (s.zone z).cf ∧ (s.zone z).cf < hi) :
    (s.openZones g).card ≤ (hi - lo).toNat := by
  have hmem : ∀ z ∈ s.openZones g, (s.zone z).cond = .expOpen :=
    fun z hz => (Finset.mem_filter.1 hz).2
  rw [← Int.card_Ico]
  refine Finset.card_le_card_of_injOn (fun z => (s.zone z).cf) ?_ ?_
  · intro z hz
    exact Finset.mem_coe.2 (Finset.mem_Ico.2 (hcf z hz))
  · intro i hi j hj hij
    exact h.one_open i j (hmem i hi) (hmem j hj) hij

/-- `cf % cluster_num` has the sign of `cf`, which leaves `2 * cluster_num - 1` clusters. -/
theorem Inv.card_openZones_any (h : Inv g (fun _ => True) s) :
    (s.openZones g).card ≤ 2 * g.clusterNum - 1 := by
  have hpos := g.cluster_pos
  have hcard := h.card_openZones (1 - (g.clusterNum : Int)) g.clusterNum ?_
  · omega
  · intro z hz
    obtain ⟨-, hmod⟩ := h.cluster z (by simp [(Finset.mem_filter.1 hz).2])
    have hlt := Int.tmod_lt_of_pos (s.zone z).cf (Int.natCast_pos.2 hpos)
    have hgt := Int.lt_tmod_of_pos (s.zone z).cf (Int.natCast_pos.2 hpos)
    rw [hmod] at hlt hgt
    omega

/-- If no cluster id is negative there are `clusterNum` of them. -/
theorem Inv.card_openZones_nonneg (h : Inv g (fun c => 0 ≤ c) s) :
    (s.openZones g).card ≤ g.clusterNum := by
  have hcard := h.card_openZones 0 g.clusterNum ?_
  · omega
  · intro z hz
    obtain ⟨hnonneg, hmod⟩ := h.cluster z (by simp [(Finset.mem_filter.1 hz).2])
    refine ⟨hnonneg, ?_⟩
    rw [← hmod]
    exact Int.tmod_lt_of_pos _ (Int.natCast_pos.2 g.cluster_pos)

/-- **The discipline of writes in every reachable state.** At most `2 * clusterNum - 1` zones are
open at once, and `clusterNum` where the cluster ids a run uses are not negative. -/
theorem disciplined_run (g : Geometry) (rates : Nat → Rates) (ops : List Op)
    (hl : Legal (Op.Pre g) Op.spec ops .empty) :
    Yields (run (step g) ops (Controller.init g rates)) (· = .noZone) fun s =>
      Disciplined g s ∧ (s.openZones g).card ≤ 2 * g.clusterNum - 1 ∧
        ((∀ op ∈ ops, op.Cluster fun cf => 0 ≤ cf) → (s.openZones g).card ≤ g.clusterNum) := by
  have hany := (run_spec_any rates ops hl).imp fun _ h =>
    And.intro h.inv.disciplined h.inv.card_openZones_any
  have hnonneg : Yields (run (step g) ops (Controller.init g rates)) (· = .noZone) fun s =>
      (∀ op ∈ ops, op.Cluster fun cf => 0 ≤ cf) → (s.openZones g).card ≤ g.clusterNum := by
    by_cases hc : ∀ op ∈ ops, op.Cluster fun cf => 0 ≤ cf
    · have hmod : ∀ c : Int, 0 ≤ c → 0 ≤ c.tmod g.clusterNum :=
        fun c hc => Int.tmod_nonneg _ hc
      exact (run_spec (le_refl 0) hmod rates ops hl hc).imp fun _ h _ =>
        h.inv.card_openZones_nonneg
    · exact (run_spec_any rates ops hl).imp fun _ _ hc' => absurd hc' hc
  exact (hany.and hnonneg).imp fun _ h => ⟨h.1.1, h.1.2, h.2⟩

/-- Three clusters are written, and a zone of the first one is collected. -/
@[irreducible] def clusteredOps : List Op :=
  [.createNewPage 7 (frameOf 7 1), .createNewPage 8 (frameOf 8 2), .writePage 4 7 (frameOf 7 3),
    .writePage 3 8 (frameOf 8 4), .garbageCollection 0,
    .writeCluster 5 [frameOf 7 4, frameOf 8 5] [7, 8]]

theorem disciplined_run_clustered : ∃ s, run (step .small) clusteredOps smallStart = .ok s ∧
    Disciplined .small s ∧ (s.openZones .small).card ≤ 7 ∧ (s.openZones .small).card ≤ 4 := by
  have hlegal : Legal (Op.Pre .small) Op.spec clusteredOps .empty := by
    simp [clusteredOps, Legal, Op.Pre, Op.spec, Op.writes, PartialMap.assignAll,
      PartialMap.insertOrAssign_apply, PAGE_SIZE]
  have hcluster : ∀ op ∈ clusteredOps, op.Cluster fun cf => 0 ≤ cf := by
    simp [clusteredOps, Op.Cluster]
  obtain ⟨s, hs, hdisciplined, hany, hcard⟩ :=
    (disciplined_run .small (fun _ => ⟨0, 0, 0⟩) clusteredOps hlegal).of_isOk
      (by decide +kernel : (run (step .small) clusteredOps smallStart).isOk = true)
  exact ⟨s, hs, hdisciplined, hany, hcard hcluster⟩

/-- One page is created, and written to seven clusters. -/
@[irreducible] def signedOps : List Op :=
  [.createNewPage 7 (frameOf 7 1), .writePage (-3) 7 (frameOf 7 2), .writePage (-2) 7 (frameOf 7 3),
    .writePage (-1) 7 (frameOf 7 4), .writePage 0 7 (frameOf 7 5), .writePage 1 7 (frameOf 7 6),
    .writePage 2 7 (frameOf 7 7), .writePage 3 7 (frameOf 7 8)]

/-- **More than `clusterNum` zones are open** after a run with negative cluster ids. -/
theorem seven_open_zones : Legal (Op.Pre .small) Op.spec signedOps .empty ∧
    ∃ s, run (step .small) signedOps smallStart = .ok s ∧
      (s.openZones .small).card = 7 ∧ Geometry.small.clusterNum = 4 := by
  constructor
  · simp [signedOps, Legal, Op.Pre, Op.spec, Op.writes, PartialMap.assignAll]
  · exact exists_ok_of_decide (by decide +kernel)

end Controller

end ZoneBuffer
