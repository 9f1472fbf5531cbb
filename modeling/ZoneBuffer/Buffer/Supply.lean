import ZoneBuffer.Buffer.Runs
import ZoneBuffer.Zone.Supply

set_option autoImplicit false

/-! # The supply of empty zones under the manager

In mode `ach_only` an eviction flushes three clusters, restructures cold data if that is due, and
collects garbage last. So what `Rested` promises of the store before an eviction is spent by the
flushes and restored by the collections. The calls that evict nothing store at most one page, a
new one, which puts no zone at risk. Hence a run whose pages are few enough never asks for a zone
in vain. -/

namespace ZoneBuffer

open Outcome Machine

namespace Call

/-- The page a call inserts. -/
def inserted : Call → Option PageId
  | fixNewPage p _ => some p
  | writePage _ _ => none
  | readPage _ => none

end Call

/-- The pages a run inserts. -/
def insertedPages (calls : List Call) : Finset PageId :=
  (calls.filterMap Call.inserted).toFinset

theorem mem_insertedPages {calls : List Call} {c : Call} {p : PageId} (hc : c ∈ calls)
    (hp : c.inserted = some p) : p ∈ insertedPages calls :=
  List.mem_toFinset.2 (List.mem_filterMap.2 ⟨c, hc, hp⟩)

namespace Buffer

open Controller

variable {cfg : Config} {N : Finset PageId} {s s' : Buffer} {p : PageId} {b : Page} {f : FrameId}
  {m : Contents} {c : Call}

/-! ## Evictions -/

/-- **What an eviction asks of the store** is there as long as the supply lasts, and the last
detector leaves the store rested. -/
theorem serves_supply (ht : cfg.tests.garbage = RateTests.exact.garbage) (N : Finset PageId) :
    Serves cfg True (fun _ => False) (Supply cfg.g N) (Rested cfg.g N) where
  write s cf vs k hcf h hvs hlen hR := by
    have hsupply : Yields (s.writeVictims cfg cf vs) (fun _ => False) fun s' =>
        Supply cfg.g N k s'.zdsm := by
      refine (writeCluster_supply hR hcf (by rw [List.length_map, List.length_map])
        (s.flush_le_cap hlen) (hvs trivial).zip).bind ?_
      intro c hc
      exact hc
    exact hsupply.imp_ok fun s' hs' hc => ⟨(writeVictims_spec h cf hvs hlen).of_ok hs', hc⟩
  cold s h hR := by
    have hsupply : Yields (s.detectCold cfg) (fun _ => False) fun s' =>
        Supply cfg.g N 0 s'.zdsm := by
      unfold detectCold
      split
      case isTrue =>
        refine (cdDetect_supply cfg.tests hR (h trivial).idle).bind ?_
        intro c hc
        exact hc
      case isFalse => exact hR
    exact hsupply.imp_ok fun s' hs' hc => ⟨(detectCold_spec h).of_ok hs', hc⟩
  garbage s h hR := by
    have hrested : Yields (s.detectGarbage cfg) (fun _ => False) fun s' =>
        Rested cfg.g N s'.zdsm := by
      refine (garbageCollectionDetect_rested ht hR (h trivial).idle).bind ?_
      intro c hc
      exact hc
    exact hrested.imp_ok fun s' hs' hc => ⟨(detectGarbage_spec h).of_ok hs', hc⟩

variable (hach : cfg.mode = .achOnly) (ht : cfg.tests.garbage = RateTests.exact.garbage)
  (hfew : Few cfg.g N)

include hach in
theorem achOnly_ne_lru : cfg.mode ≠ .lru := by
  rw [hach]
  decide

include hach in
/-- The clusters are as many as the flushes of an eviction. -/
theorem clusterNum_achOnly : cfg.g.clusterNum = 3 := by
  rw [cfg.cluster_eq, hach]
  rfl

include hach ht hfew in
/-- **An eviction leaves the store as rested as it was.** -/
theorem makeRoom_rested (h : Inv cfg True [] [] s) (hR : Rested cfg.g N s.zdsm) :
    Yields (s.makeRoom cfg) (fun _ => False) fun s' =>
      Inv cfg True [] [] s' ∧ Roomed cfg True s s' ∧ Rested cfg.g N s'.zdsm := by
  refine Yields.bind_ok (isEvict_eq h.lists) ?_
  by_cases hdue : Due cfg s.frameDirty s.strategy
  -- three flushes take a zone each at most
  · have hthree : Supply cfg.g N 3 s.zdsm := clusterNum_achOnly hach ▸ hR.supply hfew
    rw [decide_eq_true hdue, if_pos rfl, evict, if_pos hach]
    refine (evictVictimAch_spec (serves_supply ht N) hthree h.lists h.stored hdue hach).imp ?_
    rintro s' ⟨⟨l, hev⟩, hR'⟩
    exact ⟨hev.inv h, Or.inr ⟨hdue, l, hev⟩, hR'⟩
  · rw [decide_eq_false hdue, if_neg Bool.false_ne_true]
    exact ⟨h, Or.inl ⟨hdue, rfl⟩, hR⟩

include hach ht hfew in
theorem takeFrame_rested (h : Inv cfg True [] [] s) (hR : Rested cfg.g N s.zdsm) :
    Yields (s.takeFrame cfg) (fun _ => False) fun r =>
      Inv cfg True [r.1] [] r.2 ∧ Missed cfg True s r.2 r.1 ∧ Rested cfg.g N r.2.zdsm := by
  refine (takeFrame_yields (makeRoom_rested hach ht hfew h hR)).imp ?_
  rintro r ⟨hinv, s₁, hinv₁, hroomed, htook, hR₁⟩
  refine ⟨hinv, ⟨s₁, hinv₁, hroomed, htook⟩, ?_⟩
  rw [htook.zdsm]
  exact hR₁

/-! ## Calls -/

/-- Reading a page changes a counter of the store only. -/
theorem loadFixed_rested (h : StoreOk cfg s) (hp : s.zdsm.content p ≠ none)
    (hR : Rested cfg.g N s.zdsm) :
    Yields (s.loadFixed cfg p f) (fun _ => False) fun s' => Rested cfg.g N s'.zdsm := by
  obtain ⟨b, hb⟩ := Option.ne_none_iff_exists'.1 hp
  have hsim : Controller.Sim cfg.g (fun _ => True) s.zdsm s.zdsm.content := ⟨h.inv, rfl, h.idle⟩
  obtain ⟨z, hz⟩ := hsim.readPage hb
  have hR' : Rested cfg.g N s.zdsm.incIoCount := ⟨hR.toStock.congr rfl rfl rfl rfl rfl, hR.calmed⟩
  unfold loadFixed loadPage
  rw [bind_assoc]
  refine Yields.bind_ok hz ?_
  simp only [ok_bind]
  cases cfg.mode <;> exact hR'

include hach ht hfew in
theorem fixPage_rested (h : Inv cfg True [] [] s) (hp : s.Exists True p)
    (hR : Rested cfg.g N s.zdsm) (isWrite : Bool) :
    Yields (s.fixPage cfg isWrite p) (fun _ => False) fun r => Rested cfg.g N r.2.zdsm := by
  have hlru := achOnly_ne_lru hach
  cases hpf : s.page2frame p with
  | some f =>
      -- a hit does not reach the store
      obtain ⟨s', hok, -, hhit⟩ := hit_spec h hlru hpf isWrite
      rw [hok]
      show Rested cfg.g N s'.zdsm
      rw [hhit.same]
      exact hR
  | none =>
      rw [fixPage, if_neg hlru]
      simp only [hpf]
      refine (takeFrame_rested hach ht hfew h hR).bind ?_
      rintro ⟨f, s₂⟩ ⟨hinv, hmiss, hR₂⟩
      have hplace := hinv.place (hmiss.content_ne_none hp)
      cases isWrite with
      | true => exact hR₂
      | false =>
          refine (loadFixed_rested (s := s₂.place p f) (hplace.stored trivial).store
            (hmiss.content_ne_none hp trivial) hR₂).bind ?_
          intro s' hR'
          exact hR'

include hach ht hfew in
theorem readPage_rested (h : Inv cfg True [] [] s) (hp : s.Exists True p)
    (hR : Rested cfg.g N s.zdsm) :
    Yields (s.readPage cfg p) (fun _ => False) fun r => Rested cfg.g N r.2.zdsm := by
  have hfix := fixPage_rested hach ht hfew h hp hR false
  have hspec := readPage_spec h (achOnly_ne_lru hach) hp
  cases hr : s.fixPage cfg false p with
  | error e => exact (hfix.of_error hr).elim
  | ok r =>
      obtain ⟨f, s₁⟩ := r
      have hR₁ : Rested cfg.g N s₁.zdsm := hfix.of_ok hr
      by_cases hid : readId (s₁.buffer f) = p
      · rw [readPage_eq hr, if_pos hid]
        exact hR₁
      · -- the page loaded starts with its id, so this branch is not taken
        rw [readPage_eq hr, if_neg hid, yields_error] at hspec
        cases hspec trivial

include hach ht hfew in
theorem writePage_rested (h : Inv cfg True [] [] s) (hp : s.Exists True p) (hid : readId b = p)
    (hR : Rested cfg.g N s.zdsm) :
    Yields (s.writePage cfg p b) (fun _ => False) fun s' => Rested cfg.g N s'.zdsm := by
  have hlru := achOnly_ne_lru hach
  refine (fixPage_rested hach ht hfew h hp hR true).bind_of_ok ?_
  rintro ⟨f, s₁⟩ hr hR₁
  obtain ⟨hinv, hfixed⟩ := (fixPage_spec h hlru hp true).of_ok hr
  obtain ⟨⟨rest, hfront⟩, -, hpage⟩ := hfixed.front h
  obtain ⟨s', hok, -, hsoil⟩ := overwrite_spec (by simpa using hinv) hlru hfront
    fun _ => hid.trans hpage.symm
  show Yields (((s₁.fill f b).incReadCount f).setDirty cfg f) _ _
  rw [hok, yields_ok, hsoil.same]
  exact hR₁

theorem markNew_zdsm (cfg : Config) (p : PageId) (f : FrameId) (s : Buffer) :
    (s.markNew cfg p f).zdsm = s.zdsm := by
  unfold markNew
  cases cfg.mode <;> rfl

include hach ht hfew in
theorem fixNewPage_rested (h : Inv cfg True [] [] s) (hnone : s.zdsm.content p = none)
    (hid : readId b = p) (hp : p ∈ N) (hR : Rested cfg.g N s.zdsm) :
    Yields (s.fixNewPage cfg p b) (fun _ => False) fun s' => Rested cfg.g N s'.zdsm := by
  rw [fixNewPage, if_neg (achOnly_ne_lru hach)]
  refine (takeFrame_rested hach ht hfew h hR).bind ?_
  rintro ⟨f, s₂⟩ ⟨-, hmiss, hR₂⟩
  refine (createNewPage_rested hR₂ hfew (hmiss.content_eq_none h trivial hnone) hid hp 1).bind ?_
  intro c hc
  rw [yields_ok]
  show Rested cfg.g N (markNew cfg p f _).zdsm
  rw [markNew_zdsm]
  exact hc

/-! ## Runs -/

include hach ht hfew in
/-- **One call.** -/
theorem call_rested (h : Sim cfg True s m) (hpre : c.Pre m) (hhead : c.Headed)
    (hins : ∀ p, c.inserted = some p → p ∈ N) (hR : Rested cfg.g N s.zdsm) :
    Yields (step cfg c s) (fun _ => False) fun s' => Rested cfg.g N s'.zdsm := by
  cases c with
  | fixNewPage p b =>
      exact fixNewPage_rested hach ht hfew h.inv (h.not_stored hpre.1 trivial) hhead (hins p rfl) hR
  | writePage p b => exact writePage_rested hach ht hfew h.inv (h.exists hpre) hhead hR
  | readPage p =>
      refine (readPage_rested hach ht hfew h.inv (h.exists hpre) hR).bind ?_
      rintro ⟨b, s'⟩ hR'
      exact hR'

include hach ht in
/-- **A run whose pages are few enough** has no fault, and leaves the store rested. -/
theorem run_rested (mem : Memory) (calls : List Call)
    (hl : Legal Call.Pre Call.spec calls .empty) (hhead : AllHeaded calls)
    (hfew : Controller.Few cfg.g (insertedPages calls)) :
    Yields (run (step cfg) calls (Buffer.init cfg mem)) (fun _ => False) fun s =>
      Sim cfg True s (specRun Call.spec calls .empty) ∧
        Controller.Rested cfg.g (insertedPages calls) s.zdsm := by
  set N := insertedPages calls with hN
  -- the pages known are those inserted, here as a condition on each call
  have hl' : Legal (fun m c => c.Pre m ∧ c.Headed ∧ ∀ p, c.inserted = some p → p ∈ N) Call.spec
      calls .empty := by
    refine hl.imp fun c hc m hpre => ⟨hpre, hhead c hc, fun p hp => ?_⟩
    exact mem_insertedPages hc hp
  refine run_yields (fun s m => Sim cfg True s m ∧ Controller.Rested cfg.g N s.zdsm) ?_ calls _ _
    ⟨Sim.init cfg True mem, Controller.Rested.init cfg.g N mem.rates⟩ hl'
  rintro s m c ⟨hsim, hR⟩ ⟨hpre, hheadc, hins⟩
  refine (call_rested hach ht hfew hsim hpre hheadc hins hR).imp_ok fun s' hs' hR' => ?_
  obtain ⟨hinv', hcalled⟩ :=
    (call_spec hsim (achOnly_ne_lru hach) hpre fun _ => hheadc).of_ok hs'
  exact ⟨hcalled.sim hinv' hsim hpre, hR'⟩

end Buffer

open Buffer

/-- **In mode `ach_only` no call of `select_write_zone` fails**, whatever calls are made, if the
pages inserted are few enough and the detector compares its rate exactly: the run succeeds. -/
theorem run_supplied (cfg : Config) (hach : cfg.mode = .achOnly)
    (ht : cfg.tests.garbage = RateTests.exact.garbage) (mem : Memory) (calls : List Call)
    (hl : Legal Call.Pre Call.spec calls .empty) (hhead : AllHeaded calls)
    (hfew : Controller.Few cfg.g (insertedPages calls)) :
    ∃ s, run (step cfg) calls (Buffer.init cfg mem) = .ok s := by
  obtain ⟨s, hs, -⟩ := (run_rested hach ht mem calls hl hhead hfew).exists_ok
  exact ⟨s, hs⟩

/-- Seven pages in the small build, with an eviction. -/
theorem run_supplied_reuse :
    ∃ s, run (step (.small .achOnly)) reuseCalls (Buffer.init (.small .achOnly) .zero) = .ok s :=
  run_supplied (.small .achOnly) rfl rfl .zero reuseCalls reuseCalls_legal
    (by unfold AllHeaded; decide +kernel)
    (by unfold Controller.Few; decide +kernel)

end ZoneBuffer
