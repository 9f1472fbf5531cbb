import ZoneBuffer.Zone.Runs

set_option autoImplicit false

/-! # Collection beside a client

`garbage_collection` runs in a thread of its own. Here one such thread and one client take turns.
The thread moves in steps: it scans a position and reads the page there if it is valid, it
stores the page it read with `write_page_gc`, or it recycles the zone once the scan is over. A
read of the client looks the address up in one step and reads the device in another; its writes
are one step each.

Nothing re-checks, when the page read is stored, that the page still lives where it was read. A
write of the client in between is lost (`collected_write_lost`). If every copy finds its page
where it was scanned, and no zone is recycled under a read (`Undisturbed`), nothing is lost
(`interleaving_safe`). -/

namespace ZoneBuffer

open Outcome Machine Controller

/-- Where the collecting thread is. -/
inductive GcState where
  | idle
  /-- The scan of zone `z` is at byte `pos`. -/
  | scanning (z pos : Nat)
  /-- The page at byte `pos` was valid and has been read. -/
  | copying (z pos : Nat) (buf : Page)

def GcState.isIdle : GcState → Bool
  | .idle => true
  | _ => false

/-- Where the client is. -/
inductive ClientState where
  | idle
  /-- `read_page` has looked up the address of `p`. -/
  | reading (p : PageId) (addr : Nat)

def ClientState.isIdle : ClientState → Bool
  | .idle => true
  | _ => false

/-- A read that has returned, with the content last written to the page. -/
structure ReadRecord where
  p : PageId
  result : Page
  latest : Option Page

/-- The controller with its two threads. `latest` is the content the client last wrote. -/
structure Sys where
  ctl : Controller
  gc : GcState
  client : ClientState
  latest : Contents
  reads : List ReadRecord

/-- The state before anything happens. -/
def Sys.init (g : Geometry) (rates : Nat → Rates) : Sys :=
  ⟨.init g rates, .idle, .idle, .empty, []⟩

/-- What can happen next. -/
inductive Event where
  /-- The thread is started on zone `z`. -/
  | gcStart (z : Nat)
  /-- The thread takes its next step. -/
  | gcStep
  /-- The client writes. -/
  | write (op : Op)
  | readStart (p : PageId)
  | readEnd

namespace Sys

variable (g : Geometry)

/-- The next step of `garbage_collection`. -/
def gcStep (s : Sys) : Except Fault Sys :=
  match s.gc with
  | .idle => .ok s
  | .scanning z pos =>
      if pos < g.ofst z + g.cap then
        if s.ctl.getValid pos then do
          let ctl := { s.ctl with gcValidCount := s.ctl.gcValidCount + 1 }
          let buf ← ctl.pread pos
          .ok { s with ctl := ctl.addWriteCount 1, gc := .copying z pos buf }
        else .ok { s with gc := .scanning z (pos + PAGE_SIZE) }
      else do
        let ctl ← recycleZone g z s.ctl
        let ctl := ctl.modifyZone z fun d => { d with inGc := false }
        .ok { s with ctl := { ctl with gc := false }, gc := .idle }
  | .copying z pos buf => do
      let ctl ← writePageGc g 1 (s.ctl.zone z).cf (readId buf) buf s.ctl
      .ok { s with ctl := ctl, gc := .scanning z (pos + PAGE_SIZE) }

/-- One step of the two threads. -/
def step : Event → Sys → Except Fault Sys
  | .gcStart z, s =>
      let ctl := { s.ctl with gc := true, gcCount := s.ctl.gcCount + 1 }
      .ok { s with ctl := ctl.getGcInfo g, gc := .scanning z (g.ofst z) }
  | .gcStep, s => s.gcStep g
  | .write op, s => do
      let ctl ← Controller.step g op s.ctl
      .ok { s with ctl := ctl, latest := op.spec s.latest }
  | .readStart p, s => do
      let addr ← s.ctl.getPageAddr p
      .ok { s with client := .reading p addr }
  | .readEnd, s =>
      match s.client with
      | .idle => .ok s
      | .reading p addr => do
          let b ← s.ctl.pread addr
          .ok { s with
            ctl := s.ctl.incIoCount
            client := .idle
            reads := s.reads ++ [⟨p, b, s.latest p⟩] }

/-- The thread is started on a full zone when it is idle; the client makes one call at a time,
and only the calls the program makes. -/
def Enabled (s : Sys) : Event → Prop
  | .gcStart z => s.gc.isIdle = true ∧ z < g.maxZoneNum ∧ (s.ctl.zone z).cond = .full
  | .gcStep => True
  | .write op => s.client.isIdle = true ∧ op.IsWrite ∧ op.Pre g s.latest
  | .readStart p => s.client.isIdle = true ∧ s.latest p ≠ none
  | .readEnd => True

/-- A step that stores a page finds the page where it was scanned, and a step that recycles a
zone finds no read under way in it. -/
def Undisturbed (s : Sys) : Event → Prop
  | .gcStep =>
      match s.gc with
      | .idle => True
      | .copying _ pos buf => s.ctl.table (readId buf) = some pos
      | .scanning z pos => pos < g.ofst z + g.cap ∨
          match s.client with
          | .idle => True
          | .reading _ addr => addr / g.zoneSize ≠ z
  | _ => True

/-- Nothing is lost: the table leads to what was last written, and so did every read. -/
structure Safe (s : Sys) : Prop where
  content : s.ctl.content = s.latest
  reads : ∀ r ∈ s.reads, r.latest = some r.result

variable {g}

/-! ## The invariant -/

/-- The scan of the full zone `z` has reached byte `pos`. -/
structure Collecting (g : Geometry) (c : Controller) (z pos : Nat) : Prop where
  full : (c.zone z).cond = .full
  aligned : PAGE_SIZE ∣ pos
  ge : g.ofst z ≤ pos
  vacated : c.VacatedTo g z pos

/-- What holds of the thread. -/
def GcInv (g : Geometry) (c : Controller) : GcState → Prop
  | .idle => True
  | .scanning z pos => Collecting g c z pos
  | .copying z pos buf => Collecting g c z pos ∧ pos < g.ofst z + g.cap ∧
      pos < (c.zone z).wp ∧ c.dev.page pos = some buf

/-- What holds of the client: the address it has looked up still has the content last
written. -/
def ClientInv (g : Geometry) (c : Controller) (latest : Contents) : ClientState → Prop
  | .idle => True
  | .reading p addr => addr < (c.zone (addr / g.zoneSize)).wp ∧
      ∃ b, c.dev.page addr = some b ∧ latest p = some b

structure SysInv (g : Geometry) (s : Sys) : Prop where
  inv : Inv g (fun _ => True) s.ctl
  content : s.ctl.content = s.latest
  gc : GcInv g s.ctl s.gc
  client : ClientInv g s.ctl s.latest s.client
  reads : ∀ r ∈ s.reads, r.latest = some r.result

theorem SysInv.init (g : Geometry) (rates : Nat → Rates) : SysInv g (Sys.init g rates) :=
  ⟨Inv.init g _ rates, rfl, trivial, trivial, by intro r h; cases h⟩

variable {c c' : Controller} {z pos : Nat}

theorem Collecting.div (h : Collecting g c z pos) (hlt : pos < g.ofst z + g.cap) :
    pos / g.zoneSize = z := by
  have h1 := g.cap_lt
  have h2 := h.ge
  exact g.div_zoneSize h2 (by omega)

/-- Writing pages takes nothing into a full zone. -/
theorem Collecting.grew (h : Collecting g c z pos) (hg : Grew g c c') : Collecting g c' z pos where
  full := (hg.full z h.full).1
  aligned := h.aligned
  ge := h.ge
  vacated p a hp ha := by
    rcases hg.table p a hp with hold | hfresh
    · exact h.vacated p a hold ha
    · exact absurd (ha.symm ▸ h.full) hfresh.cond

theorem GcInv.grew {gs : GcState} (h : GcInv g c gs) (hg : Grew g c c') : GcInv g c' gs := by
  cases gs with
  | idle => trivial
  | scanning z pos => exact Collecting.grew h hg
  | copying z pos buf =>
      -- the page read lies below the write pointer, where nothing is stored
      obtain ⟨hcol, hlt, hwp, hpage⟩ := h
      refine ⟨hcol.grew hg, hlt, lt_of_lt_of_le hwp (hg.wp z), ?_⟩
      have hdiv := hcol.div hlt
      rw [hg.page pos (by rw [hdiv]; exact hwp), hpage]

theorem ClientInv.grew {latest : Contents} {cs : ClientState} (h : ClientInv g c latest cs)
    (hg : Grew g c c') : ClientInv g c' latest cs := by
  cases cs with
  | idle => trivial
  | reading p addr =>
      obtain ⟨hwp, b, hpage, hb⟩ := h
      exact ⟨lt_of_lt_of_le hwp (hg.wp _), b, by rw [hg.page addr hwp, hpage], hb⟩

/-! ## The steps of the thread -/

variable {s : Sys}

theorem gcStart_spec (h : SysInv g s) (z : Nat) (hen : Enabled g s (.gcStart z)) :
    Yields (step g (.gcStart z) s) (· = .noZone) (SysInv g) := by
  set c : Controller := { s.ctl with gc := true, gcCount := s.ctl.gcCount + 1 }
  have hinv : Inv g (fun _ => True) c := h.inv.counters rfl rfl rfl rfl rfl
  have hz : ∀ i, ((c.getGcInfo g).zone i).wp = (s.ctl.zone i).wp := fun i => (getGcInfo_wp c i).1
  refine ⟨hinv.getGcInfo, h.content, ?_, ?_, h.reads⟩
  · refine ⟨?_, g.ofst_dvd z, le_refl _, fun p a _ ha => (g.ofst_le_of_div ha).1⟩
    exact (getGcInfo_wp c z).2.1.trans hen.2.2
  · have hclient := h.client
    show ClientInv g (c.getGcInfo g) s.latest s.client
    cases hc : s.client with
    | idle => trivial
    | reading p addr =>
        rw [hc] at hclient
        exact ⟨by rw [hz]; exact hclient.1, hclient.2⟩

/-- The scan of one position. -/
theorem scan_spec (h : SysInv g s) (hgc : s.gc = .scanning z pos)
    (hlt : pos < g.ofst z + g.cap) : Yields (s.gcStep g) (· = .noZone) (SysInv g) := by
  have hcol : Collecting g s.ctl z pos := by
    have := h.gc
    rwa [hgc] at this
  rw [gcStep, hgc]
  simp only [if_pos hlt]
  split
  -- a valid page is read; nothing is stored yet
  case isTrue hv =>
    obtain ⟨p, hp⟩ := h.inv.mapped_of_valid hcol.aligned hv
    obtain ⟨b, hb, -⟩ := h.inv.held p pos hp
    have hbelow := (h.inv.live p pos hp).below
    rw [hcol.div hlt] at hbelow
    refine Yields.bind_ok (a := b) (by rw [pread]; simp only [hb]) ?_
    exact ⟨h.inv.counters rfl rfl rfl rfl rfl, h.content,
      ⟨⟨hcol.full, hcol.aligned, hcol.ge, hcol.vacated⟩, hlt, hbelow, hb⟩, h.client, h.reads⟩
  case isFalse hv =>
    refine ⟨h.inv, h.content, ?_, h.client, h.reads⟩
    exact ⟨hcol.full, Nat.dvd_add hcol.aligned (dvd_refl _),
      le_trans hcol.ge (Nat.le_add_right _ _),
      vacated_of_not_valid h.inv hcol.aligned hcol.vacated hv⟩

/-- **The copy of one page**, if the page is still where it was scanned. -/
theorem copy_spec (h : SysInv g s) {buf : Page} (hgc : s.gc = .copying z pos buf)
    (hund : s.ctl.table (readId buf) = some pos) :
    Yields (s.gcStep g) (· = .noZone) (SysInv g) := by
  have hgcinv := h.gc
  rw [hgc] at hgcinv
  obtain ⟨hcol, hlt, hwp, hpage⟩ := hgcinv
  obtain ⟨b, hcontent, hb, hid⟩ := h.inv.content_eq_some hund
  -- the page is where it was scanned, so what was read is still its content
  cases hpage.symm.trans hb
  have hdiv := hcol.div hlt
  have hmove := move_spec h.inv (s.ctl.zone z).cf trivial hund hb hcol.vacated hdiv
  have hwrite := writePageGc_spec h.inv 0 (s.ctl.zone z).cf trivial (by simp [hcontent]) hid
  rw [gcStep, hgc]
  refine (hmove.and hwrite).bind ?_
  rintro c ⟨⟨hinv, hsame, hvac, -, -⟩, ⟨-, -, hgrew⟩, -⟩
  refine ⟨hinv, hsame.trans h.content, ?_, h.client.grew hgrew, h.reads⟩
  exact ⟨(hgrew.full z hcol.full).1, Nat.dvd_add hcol.aligned (dvd_refl _),
    le_trans hcol.ge (Nat.le_add_right _ _), hvac⟩

/-- **The end of the scan**, if no read is under way in the zone. -/
theorem recycle_spec (h : SysInv g s) (hgc : s.gc = .scanning z pos)
    (hlt : ¬ pos < g.ofst z + g.cap)
    (hund : ∀ p addr, s.client = .reading p addr → addr / g.zoneSize ≠ z) :
    Yields (s.gcStep g) (· = .noZone) (SysInv g) := by
  have hcol : Collecting g s.ctl z pos := by
    have := h.gc
    rwa [hgc] at this
  have hvacant : s.ctl.Vacant g z :=
    h.inv.vacant fun p a hp ha => le_trans (by omega) (hcol.vacated p a hp ha)
  obtain ⟨hinv, hcontent⟩ := h.inv.recycled hvacant
  rw [gcStep, hgc]
  simp only [if_neg hlt, recycleZone_eq (h.inv.clear_of_vacant hvacant), ok_bind]
  have hinv' := hinv.modifyZone z (fun d => { d with inGc := false })
    fun _ => ⟨rfl, rfl, rfl, rfl⟩
  refine ⟨hinv'.counters rfl rfl rfl rfl rfl, hcontent.trans h.content, trivial, ?_, h.reads⟩
  have hclient := h.client
  cases hc : s.client with
  | idle => trivial
  | reading p addr =>
      rw [hc] at hclient
      -- the address looked up lies in another zone, which the reset leaves alone
      have hne := hund p addr hc
      have hzone : ((recycled g z s.ctl).modifyZone z fun d => { d with inGc := false }).zone
          (addr / g.zoneSize) = s.ctl.zone (addr / g.zoneSize) := by
        rw [modifyZone_zone, if_neg hne, recycled_zone, if_neg hne]
      have hpage : (recycled g z s.ctl).dev.page addr = s.ctl.dev.page addr := by
        rw [recycled_page, if_neg hne]
      obtain ⟨hwp, b, hb, hlatest⟩ := hclient
      exact ⟨lt_of_lt_of_eq hwp (congrArg ZoneDesc.wp hzone.symm), b, hpage.trans hb, hlatest⟩

theorem gcStep_spec (h : SysInv g s) (hund : Undisturbed g s .gcStep) :
    Yields (s.gcStep g) (· = .noZone) (SysInv g) := by
  rw [Undisturbed] at hund
  cases hgc : s.gc with
  | idle =>
      rw [gcStep, hgc]
      exact h
  | copying z pos buf =>
      rw [hgc] at hund
      exact copy_spec h hgc hund
  | scanning z pos =>
      rw [hgc] at hund
      by_cases hlt : pos < g.ofst z + g.cap
      · exact scan_spec h hgc hlt
      · refine recycle_spec h hgc hlt fun p addr hc => ?_
        rw [hc] at hund
        exact hund.resolve_left hlt

/-! ## The steps of the client -/

theorem write_spec (h : SysInv g s) {op : Op} (hen : Enabled g s (.write op)) :
    Yields (step g (.write op) s) (· = .noZone) (SysInv g) := by
  obtain ⟨hidle, hw, hpre⟩ := hen
  have hop : op.Cluster fun _ => True := by cases op <;> trivial
  refine (Controller.write_spec trivial (fun _ _ => trivial) h.inv hw (h.content ▸ hpre)
    hop).bind ?_
  rintro c ⟨hinv, hcontent, hgrew⟩
  exact ⟨hinv, by rw [hcontent, h.content, Op.spec], h.gc.grew hgrew,
    by cases hc : s.client <;> simp_all [ClientInv, ClientState.isIdle], h.reads⟩

theorem readStart_spec (h : SysInv g s) {p : PageId} (hen : Enabled g s (.readStart p)) :
    Yields (step g (.readStart p) s) (· = .noZone) (SysInv g) := by
  obtain ⟨b, hb⟩ := Option.ne_none_iff_exists'.1 hen.2
  obtain ⟨a, ha⟩ := h.inv.table_of_content (p := p) (by rw [h.content, hb]; simp)
  obtain ⟨b', hcontent, hpage, -⟩ := h.inv.content_eq_some ha
  refine Yields.bind_ok (getPageAddr_of_some ha) ?_
  exact ⟨h.inv, h.content, h.gc, ⟨(h.inv.live p a ha).below, b', hpage, h.content ▸ hcontent⟩,
    h.reads⟩

theorem readEnd_spec (h : SysInv g s) : Yields (step g .readEnd s) (· = .noZone) (SysInv g) := by
  rw [step]
  cases hc : s.client with
  | idle => exact h
  | reading p addr =>
      have hclient := h.client
      rw [hc] at hclient
      obtain ⟨-, b, hpage, hb⟩ := hclient
      refine Yields.bind_ok (a := b) (by rw [pread]; simp only [hpage]) ?_
      refine ⟨h.inv.counters rfl rfl rfl rfl rfl, h.content, ?_, trivial, ?_⟩
      · have hgc := h.gc
        show GcInv g s.ctl.incIoCount s.gc
        cases hg : s.gc with
        | idle => trivial
        | scanning z pos =>
            rw [hg] at hgc
            exact ⟨hgc.full, hgc.aligned, hgc.ge, hgc.vacated⟩
        | copying z pos buf =>
            rw [hg] at hgc
            obtain ⟨hcol, hrest⟩ := hgc
            exact ⟨⟨hcol.full, hcol.aligned, hcol.ge, hcol.vacated⟩, hrest⟩
      · intro r hr
        rcases List.mem_append.1 hr with hr | hr
        · exact h.reads r hr
        · rw [List.mem_singleton.1 hr]
          exact hb

/-- **One step of the two threads.** -/
theorem step_spec (h : SysInv g s) {e : Event} (hen : Enabled g s e) (hund : Undisturbed g s e) :
    Yields (step g e s) (· = .noZone) (SysInv g) := by
  cases e with
  | gcStart z => exact gcStart_spec h z hen
  | gcStep => exact gcStep_spec h hund
  | write op => exact write_spec h hen
  | readStart p => exact readStart_spec h hen
  | readEnd => exact readEnd_spec h

/-- **Nothing is lost in an undisturbed interleaving.** -/
theorem interleaving_safe (g : Geometry) (rates : Nat → Rates) (events : List Event)
    (hen : Along (step g) (Enabled g) events (Sys.init g rates))
    (hund : Along (step g) (Undisturbed g) events (Sys.init g rates)) :
    Yields (run (step g) events (Sys.init g rates)) (· = .noZone) Safe := by
  have hrun := run_yields_cond (SysInv g) (fun s e h hc => step_spec h hc.1 hc.2) events _
    (SysInv.init g rates) (hen.and hund)
  exact hrun.imp fun s h => ⟨h.content, h.reads⟩

/-! ## A lost write -/

instance (s : Sys) (e : Event) : Decidable (Enabled g s e) :=
  match e with
  | .gcStart _ => inferInstanceAs (Decidable (_ ∧ _ ∧ _))
  | .gcStep => isTrue trivial
  | .write _ => inferInstanceAs (Decidable (_ ∧ _ ∧ _))
  | .readStart _ => inferInstanceAs (Decidable (_ ∧ _))
  | .readEnd => isTrue trivial

instance (s : Sys) (e : Event) : Decidable (Undisturbed g s e) :=
  match e with
  | .gcStart _ => isTrue trivial
  | .gcStep =>
      match hg : s.gc, hc : s.client with
      | .idle, _ => isTrue (by simp only [Undisturbed, hg])
      | .copying _ pos buf, _ => decidable_of_iff (s.ctl.table (readId buf) = some pos)
          (by simp only [Undisturbed, hg])
      | .scanning _ _, .idle => isTrue (by simp only [Undisturbed, hg, hc, or_true])
      | .scanning z pos, .reading _ addr =>
          decidable_of_iff (pos < g.ofst z + g.cap ∨ addr / g.zoneSize ≠ z)
            (by simp only [Undisturbed, hg, hc])
  | .write _ => isTrue trivial
  | .readStart _ => isTrue trivial
  | .readEnd => isTrue trivial

/-- Two pages fill a zone, and page 1 is rewritten after the collection of the zone has read
it. -/
@[irreducible] def lostWrite : List Event :=
  [.write (.createNewPage 1 (frameOf 1 10)), .write (.createNewPage 2 (frameOf 2 20)),
    .write (.createNewPage 3 (frameOf 3 30)), .gcStart 0, .gcStep,
    .write (.writePage 0 1 (frameOf 1 11)), .gcStep]

/-- The state before `lostWrite`. -/
def smallSys : Sys := Sys.init .small fun _ => ⟨0, 0, 0⟩

/-- Byte `i` of what the table leads to for page `p`, and of what was last written. -/
def compared (p : PageId) (i : Fin PAGE_SIZE) (s : Sys) : Option UInt8 × Option UInt8 :=
  ((s.ctl.content p).map fun b => b i, (s.latest p).map fun b => b i)

/-- **A write beside a collection is lost.** The collection stores the page it read before the
write and maps the page to that copy. -/
theorem collected_write_lost : Along (step .small) (Enabled .small) lostWrite smallSys ∧
    ∃ s, run (step .small) lostWrite smallSys = .ok s ∧ ¬ s.Safe := by
  refine ⟨by decide +kernel, ?_⟩
  have hbytes : (run (step .small) lostWrite smallSys).toOption.map
      (compared 1 ⟨8, by decide⟩) = some (some 10, some 11) := by decide +kernel
  cases hrun : run (step .small) lostWrite smallSys with
  | error e =>
      rw [hrun] at hbytes
      cases hbytes
  | ok s =>
      refine ⟨s, rfl, fun hsafe => ?_⟩
      rw [hrun] at hbytes
      simp only [Except.toOption, Option.map_some, Option.some.injEq, compared, hsafe.content,
        Prod.mk.injEq] at hbytes
      exact absurd (hbytes.1.symm.trans hbytes.2) (by decide)

/-- The same calls, the write after the copy and a read across the next step of the scan. -/
@[irreducible] def keptWrite : List Event :=
  [.write (.createNewPage 1 (frameOf 1 10)), .write (.createNewPage 2 (frameOf 2 20)),
    .write (.createNewPage 3 (frameOf 3 30)), .gcStart 0, .gcStep, .readStart 1, .gcStep,
    .readEnd, .write (.writePage 0 1 (frameOf 1 11)), .gcStep, .gcStep, .gcStep]

theorem interleaving_safe_kept :
    ∃ s, run (step .small) keptWrite smallSys = .ok s ∧ s.Safe :=
  (interleaving_safe .small (fun _ => ⟨0, 0, 0⟩) keptWrite (by decide +kernel)
    (by decide +kernel)).of_isOk (by decide +kernel)

end Sys

end ZoneBuffer
