import ZoneBuffer.Zone.Sharing

set_option autoImplicit false

/-! # The detectors and the threads they start

`cd_detect` and `garbage_collection_detect` start relocations in threads of their own. Between its
creation and its first step a thread exists and has done nothing: it sets `Cd` or `Gc` itself.
`cd_detect` goes by both flags and `garbage_collection_detect` by `Cd`, and by `inGc` of the zone.

A detector can therefore start a relocation beside another that has not set its flag yet, or
beside a collection when another collection has ended and cleared `Gc`. A restructuring and a
collection then relocate one zone (`relocated_twice`). Collections alone never do, thanks to
`inGc`; if each restructuring is started apart from all other threads (`Apart`), no two threads
are in each other's way (`exclusive_run`). -/

namespace ZoneBuffer

open Outcome Machine Controller

/-- What a thread is created for. -/
inductive Task where
  | gc (z : Nat)
  | restruct (zs : List Nat)

/-- A thread. `todo` are the positions it has yet to scan in its zone, which for a restructuring is
the first of `zs`. -/
inductive Thread where
  | none
  /-- The thread has been created and has not taken a step. -/
  | spawned (t : Task)
  | gc (z : Nat) (todo : List Nat)
  | restruct (zs todo : List Nat)

/-- Where the foreground is. -/
inductive DetectorState where
  | idle
  /-- `cd_detect` has yet to look at the zones `todo` and has found `restruct`. -/
  | cdScan (todo restruct : List Nat)
  /-- `garbage_collection_detect` has yet to look at the zones `todo`. -/
  | gcScan (todo : List Nat)

/-- The controller, the foreground and the threads created so far. -/
structure Detectors where
  ctl : Controller
  fg : DetectorState
  thread : Nat → Thread
  count : Nat

/-- What can happen next. -/
inductive DetectorEvent where
  /-- The foreground writes. -/
  | write (w : Write)
  /-- The foreground calls `cd_detect`. -/
  | cdDetect
  /-- The foreground calls `garbage_collection_detect`. -/
  | gcDetect
  /-- The detector called takes its next step. -/
  | detect
  /-- Thread `k` takes its first step. -/
  | start (k : Nat)
  /-- Thread `k` takes its next step. -/
  | work (k : Nat)

/-- The whole of a call. -/
def Write.call (g : Geometry) : Write → Controller → Except Fault Controller
  | createNewPage p b, s => Controller.createNewPage g 1 p b s
  | writePage cf p b, s => Controller.writePage g 1 cf p b s
  | writePageGc cf p b, s => Controller.writePageGc g 1 cf p b s
  | writeCluster cf l, s => Controller.writeCluster g 1 cf (l.map Prod.snd) (l.map Prod.fst) s

/-- Two tasks that are not in each other's way. -/
def Task.Compatible : Task → Task → Prop
  | gc i, gc j => i ≠ j
  | restruct zs, restruct zs' => ∀ z ∈ zs, z ∉ zs'
  | _, _ => False

/-- What the task of another thread may be when one is created. -/
def Task.ClearOf : Task → Option Task → Prop
  | restruct _, some (gc _) => False
  | restruct zs, some (restruct zs') => ∀ z ∈ zs, z ∉ zs'
  | gc _, some (restruct _) => False
  | _, _ => True

namespace Thread

/-- What a thread has yet to do. -/
def task : Thread → Option Task
  | none => Option.none
  | spawned t => some t
  | gc z _ => some (.gc z)
  | restruct zs _ => some (.restruct zs)

/-- The zone an active thread relocates. -/
def zone : Thread → Option Nat
  | gc z _ => some z
  | restruct (z :: _) _ => some z
  | _ => Option.none

/-- A collection is active. -/
def IsGc : Thread → Prop
  | gc _ _ => True
  | _ => False

/-- A restructuring is active. -/
def IsRestruct : Thread → Prop
  | restruct _ _ => True
  | _ => False

end Thread

/-- The positions to scan in the first of the zones. -/
def firstPositions (g : Geometry) : List Nat → List Nat
  | [] => []
  | z :: _ => scanPositions g z

/-- `cd_detect` takes the zone for restructuring. -/
def ZoneDesc.IsCold (t : RateTests) (d : ZoneDesc) : Prop :=
  d.cond = .full ∧ t.cold d.rates = true

/-- `garbage_collection_detect` takes the zone for collection. -/
def ZoneDesc.IsGarbage (t : RateTests) (d : ZoneDesc) : Prop :=
  d.cond = .full ∧ t.garbage d.rates.gc = true ∧ d.inGc = false

instance (t : RateTests) (d : ZoneDesc) : Decidable (d.IsCold t) :=
  inferInstanceAs (Decidable (_ ∧ _))

instance (t : RateTests) (d : ZoneDesc) : Decidable (d.IsGarbage t) :=
  inferInstanceAs (Decidable (_ ∧ _ ∧ _))

namespace Detectors

variable (g : Geometry) (t : RateTests)

/-- There are no threads. -/
def start (c : Controller) : Detectors := ⟨c, .idle, fun _ => .none, 0⟩

/-- Create a thread. -/
def spawn (s : Detectors) (t : Task) : Detectors :=
  { s with thread := Function.update s.thread s.count (.spawned t), count := s.count + 1 }

/-- Thread `k` goes on as `th`, leaving the controller in state `c`. -/
def go (s : Detectors) (k : Nat) (c : Controller) (th : Thread) : Detectors :=
  { s with ctl := c, thread := Function.update s.thread k th }

/-- The next step of the detector called. -/
def detectStep (s : Detectors) : Detectors :=
  match s.fg with
  | .idle => s
  | .cdScan (i :: is) restruct =>
      { s with fg := .cdScan is (if (s.ctl.zone i).IsCold t then restruct ++ [i] else restruct) }
  | .cdScan [] restruct =>
      let s := if 3 ≤ restruct.length then
          { s with ctl := s.ctl.getGcInfo g }.spawn (.restruct restruct)
        else s
      { s with ctl := (s.ctl.getGcInfo g).keepRates g, fg := .idle }
  | .gcScan (i :: is) =>
      let s := if (s.ctl.zone i).IsGarbage t then
          { s with ctl := s.ctl.modifyZone i fun d => { d with inGc := true } }.spawn (.gc i)
        else s
      { s with fg := .gcScan is }
  | .gcScan [] => { s with fg := .idle }

/-- The next step of thread `k`. -/
def workStep (k : Nat) (s : Detectors) : Except Fault Detectors :=
  match s.thread k with
  | .gc z (pos :: todo) => do
      let c ← gcPosition g z s.ctl pos
      .ok (s.go k c (.gc z todo))
  | .gc z [] => do
      let c ← recycleZone g z s.ctl
      let c := c.modifyZone z fun d => { d with inGc := false }
      .ok (s.go k { c with gc := false } .none)
  | .restruct (z :: zs) (pos :: todo) => do
      let c ← restructPosition g s.ctl pos
      .ok (s.go k c (.restruct (z :: zs) todo))
  | .restruct (z :: zs) [] => do
      let c ← recycleZone g z s.ctl
      .ok (s.go k c (.restruct zs (firstPositions g zs)))
  | .restruct [] _ => .ok (s.go k { s.ctl with cd := false } .none)
  | _ => .ok s

/-- One step. A detector called while the flag it waits for is set goes on waiting, which is to
say that it is called again; the foreground does nothing else during a call. -/
def step : DetectorEvent → Detectors → Except Fault Detectors
  | .write w, s =>
      match s.fg with
      | .idle => do
          let c ← w.call g s.ctl
          .ok { s with ctl := c }
      | _ => .ok s
  | .cdDetect, s =>
      match s.fg with
      | .idle =>
          if s.ctl.gc then .ok s
          else if s.ctl.cd then .ok s
          else .ok { s with
            ctl := s.ctl.getGcInfo g
            fg := .cdScan (List.range g.maxZoneNum) [] }
      | _ => .ok s
  | .gcDetect, s =>
      match s.fg with
      | .idle =>
          if s.ctl.cd then .ok s
          else .ok { s with
            ctl := s.ctl.getGcInfo g
            fg := if s.ctl.gc then .idle else .gcScan (List.range g.maxZoneNum) }
      | _ => .ok s
  | .detect, s => .ok (s.detectStep g t)
  | .start k, s =>
      match s.thread k with
      | .spawned (.gc z) =>
          let c := { s.ctl with gc := true, gcCount := s.ctl.gcCount + 1 }
          .ok (s.go k (c.getGcInfo g) (.gc z (scanPositions g z)))
      | .spawned (.restruct zs) =>
          .ok (s.go k { s.ctl with cd := true, cdCount := s.ctl.cdCount + 1 }
            (.restruct zs (firstPositions g zs)))
      | _ => .ok s
  | .work k, s => s.workStep g k

/-- No zone is relocated by two threads, and no restructuring is active beside a collection. -/
structure Exclusive (s : Detectors) : Prop where
  zone : ∀ i j z, i ≠ j → (s.thread i).zone = some z → (s.thread j).zone ≠ some z
  kind : ∀ i j, (s.thread i).IsRestruct → ¬ (s.thread j).IsGc

/-- The thread to be created for the task will find no thread in its way: there is no collection
and no restructuring of a common zone beside a restructuring, and no restructuring beside a
collection. -/
def Apart (s : Detectors) (u : Task) : Prop := ∀ k < s.count, u.ClearOf (s.thread k).task

/-- A step that creates a thread does so apart from the threads there are. -/
def SpawnsApart (s : Detectors) : DetectorEvent → Prop
  | .detect =>
      match s.fg with
      | .cdScan [] restruct => 3 ≤ restruct.length → s.Apart (.restruct restruct)
      | .gcScan (i :: _) => (s.ctl.zone i).IsGarbage t → s.Apart (.gc i)
      | _ => True
  | _ => True

variable {g t} {s s' : Detectors} {c c' : Controller} {u v : Task} {k : Nat}

/-! ## The flags of the zones -/

/-- The zones that were marked as being collected still are. -/
def KeepsInGc (c c' : Controller) : Prop := ∀ z, (c'.zone z).inGc = (c.zone z).inGc

theorem ran_inGc {cf : Int} {n : Nat} (h : Ran g cf n c c') : KeepsInGc c c' := by
  obtain ⟨z, c₁, hsel, hwork⟩ := h
  intro i
  rw [hwork.zone, hsel.zone_eq]

theorem call_inGc {w : Write} (h : w.call g c = .ok c') : KeepsInGc c c' := by
  cases w with
  | createNewPage p b => exact ran_inGc (createNewPage_ran h)
  | writePage cf p b => exact ran_inGc (writePage_ran h)
  | writePageGc cf p b => exact ran_inGc (writePageGc_ran h)
  | writeCluster cf l =>
      exact ran_inGc (writeCluster_ran (by rw [List.length_map, List.length_map]) h)

theorem gcPosition_inGc {z pos : Nat} (h : gcPosition g z c pos = .ok c') : KeepsInGc c c' := by
  rw [gcPosition] at h
  split at h
  · obtain ⟨b, -, h⟩ := bind_eq_ok.1 h
    have hran := writePageGc_ran h
    exact fun i => ran_inGc hran i
  · cases h
    exact fun _ => rfl

theorem restructPosition_inGc {pos : Nat} (h : restructPosition g c pos = .ok c') :
    KeepsInGc c c' := by
  rw [restructPosition] at h
  split at h
  · obtain ⟨b, -, h⟩ := bind_eq_ok.1 h
    have hran := writePageGc_ran h
    exact fun i => ran_inGc hran i
  · cases h
    exact fun _ => rfl

theorem modifyZone_inGc (z : Nat) {f : ZoneDesc → ZoneDesc} (hf : ∀ d, (f d).inGc = d.inGc) :
    KeepsInGc c (c.modifyZone z f) :=
  modifyZone_field (·.inGc) hf c z

theorem recycleZone_inGc {z : Nat} (h : recycleZone g z c = .ok c') : KeepsInGc c c' := by
  rw [recycleZone] at h
  obtain ⟨c₂, hloop, h⟩ := bind_eq_ok.1 h
  cases h
  -- neither the stores, nor the clearing, nor the end touch `inGc`
  have hstores : KeepsInGc c ((c.resetZone g z).modifyZone z
      fun d => { d with cond := .empty, cf := -1, wp := g.ofst z }) :=
    modifyZone_inGc (c := c.resetZone g z) z fun _ => rfl
  have hclear : Yields ((scanPositions g z).foldlM
      (fun s pos => if s.getValid pos then s.setValid g pos false else .ok s)
      ((c.resetZone g z).modifyZone z
        fun d => { d with cond := .empty, cf := -1, wp := g.ofst z }))
      (fun _ => True) (KeepsInGc c) := by
    refine Yields.foldlM (KeepsInGc c) _ _ hstores fun pos _ c₁ hc₁ => ?_
    refine yields_partial_iff.2 fun c₂ hc₂ => ?_
    split at hc₂
    · obtain ⟨m, v, rfl⟩ := setValid_frame g hc₂
      exact hc₁
    · cases hc₂
      exact hc₁
  have hend := modifyZone_inGc (c := c₂) z
    (f := fun d => { d with rates := { d.rates with idle := 0, gc := 0 } }) fun _ => rfl
  exact fun i => (hend i).trans (hclear.of_ok hloop i)

/-! ## The invariant -/

/-- **No two threads have tasks that are in each other's way**, and the zones of the collections
are marked as such. -/
structure TaskInv (s : Detectors) : Prop where
  fresh : ∀ k, s.count ≤ k → s.thread k = .none
  apart : ∀ i j u v, i ≠ j → (s.thread i).task = some u → (s.thread j).task = some v →
    u.Compatible v
  inGc : ∀ k z, (s.thread k).task = some (.gc z) → (s.ctl.zone z).inGc = true

theorem TaskInv.start (c : Controller) : TaskInv (Detectors.start c) where
  fresh _ _ := rfl
  apart _ _ _ _ _ h := by cases h
  inGc _ _ h := by cases h

theorem compatible_symm (h : u.Compatible v) : v.Compatible u := by
  cases u with
  | gc i =>
      cases v with
      | gc j => exact Ne.symm h
      | restruct zs => exact h
  | restruct zs =>
      cases v with
      | gc j => exact h
      | restruct zs' => exact fun z hz hz' => h z hz' hz

theorem TaskInv.exclusive (h : TaskInv s) : Exclusive s where
  zone i j z hij hi hj := by
    -- a thread that relocates zone `z` has a task with that zone in it
    have hone : ∀ k, (s.thread k).zone = some z →
        (s.thread k).task = some (.gc z) ∨
          ∃ zs, (s.thread k).task = some (.restruct zs) ∧ z ∈ zs := by
      intro k hk
      cases hth : s.thread k with
      | none => simp [hth, Thread.zone] at hk
      | spawned u => simp [hth, Thread.zone] at hk
      | gc y todo =>
          rw [hth, Thread.zone, Option.some.injEq] at hk
          exact Or.inl (by rw [Thread.task, hk])
      | restruct zs todo =>
          cases zs with
          | nil => simp [hth, Thread.zone] at hk
          | cons y zs =>
              rw [hth, Thread.zone, Option.some.injEq] at hk
              exact Or.inr ⟨y :: zs, rfl, hk ▸ List.mem_cons_self⟩
    rcases hone i hi with hi | ⟨zs, hi, hz⟩
    · rcases hone j hj with hj | ⟨zs', hj, -⟩
      · exact h.apart i j _ _ hij hi hj rfl
      · exact h.apart i j _ _ hij hi hj
    · rcases hone j hj with hj | ⟨zs', hj, hz'⟩
      · exact h.apart i j _ _ hij hi hj
      · exact h.apart i j _ _ hij hi hj z hz hz'
  kind i j hi hj := by
    have hrestruct : ∃ zs, (s.thread i).task = some (.restruct zs) := by
      cases hth : s.thread i with
      | restruct zs todo => exact ⟨zs, rfl⟩
      | _ => simp [hth, Thread.IsRestruct] at hi
    have hgc : ∃ z, (s.thread j).task = some (.gc z) := by
      cases hth : s.thread j with
      | gc z todo => exact ⟨z, rfl⟩
      | _ => simp [hth, Thread.IsGc] at hj
    obtain ⟨zs, hi⟩ := hrestruct
    obtain ⟨z, hj⟩ := hgc
    have hij : i ≠ j := by
      rintro rfl
      cases hi.symm.trans hj
    exact h.apart i j _ _ hij hi hj

/-- Only the flags of the zones matter of the controller. -/
theorem TaskInv.ctl (h : TaskInv s) (hc : KeepsInGc s.ctl c) (f : DetectorState) :
    TaskInv { s with ctl := c, fg := f } :=
  ⟨h.fresh, h.apart, fun k z hk => (hc z).trans (h.inGc k z hk)⟩

theorem TaskInv.spawn (h : TaskInv s)
    (hu : ∀ j v, (s.thread j).task = some v → u.Compatible v)
    (hgc : ∀ z, u = .gc z → (s.ctl.zone z).inGc = true) : TaskInv (s.spawn u) where
  fresh k hk := by
    have hne : k ≠ s.count := by
      have : s.count + 1 ≤ k := hk
      omega
    exact (Function.update_of_ne hne ..).trans (h.fresh k (Nat.le_of_succ_le hk))
  apart i j a b hij hi hj := by
    have hother : ∀ k, k ≠ s.count → (s.spawn u).thread k = s.thread k := fun k hk =>
      Function.update_of_ne hk ..
    have hself : (s.spawn u).thread s.count = .spawned u := Function.update_self ..
    -- either both threads were there, or one of them is the new one
    by_cases hi' : i = s.count
    · subst hi'
      rw [hself] at hi
      rw [hother j (Ne.symm hij)] at hj
      cases hi
      exact hu j b hj
    · rw [hother i hi'] at hi
      by_cases hj' : j = s.count
      · subst hj'
        rw [hself] at hj
        cases hj
        exact compatible_symm (hu i a hi)
      · rw [hother j hj'] at hj
        exact h.apart i j a b hij hi hj
  inGc k z hk := by
    by_cases hk' : k = s.count
    · subst hk'
      rw [show (s.spawn u).thread s.count = .spawned u from Function.update_self ..] at hk
      cases hk
      exact hgc z rfl
    · rw [show (s.spawn u).thread k = s.thread k from Function.update_of_ne hk' ..] at hk
      exact h.inGc k z hk

/-- A thread that goes on with less to do. -/
theorem TaskInv.go (h : TaskInv s) (hk : s.thread k ≠ .none) {th : Thread}
    (hless : ∀ u, th.task = some u →
      ∃ u₀, (s.thread k).task = some u₀ ∧ ∀ v, u₀.Compatible v → u.Compatible v)
    (hother : ∀ i z, i ≠ k → (s.thread i).task = some (.gc z) → (c.zone z).inGc = true)
    (hself : ∀ z, th.task = some (.gc z) → (c.zone z).inGc = true) : TaskInv (s.go k c th) := by
  have hne : ∀ i, i ≠ k → (s.go k c th).thread i = s.thread i := fun i hi =>
    Function.update_of_ne hi ..
  have heq : (s.go k c th).thread k = th := Function.update_self ..
  refine ⟨fun i hi => ?_, fun i j a b hij hi hj => ?_, fun i z hi => ?_⟩
  · have hik : i ≠ k := by
      rintro rfl
      exact hk (h.fresh i hi)
    rw [hne i hik]
    exact h.fresh i hi
  · by_cases hik : i = k
    · subst hik
      rw [heq] at hi
      rw [hne j (Ne.symm hij)] at hj
      -- thread `k` has less to do, so it is in the way of no more threads than before
      obtain ⟨a₀, ha₀, hmono⟩ := hless a hi
      exact hmono b (h.apart i j a₀ b hij ha₀ hj)
    · rw [hne i hik] at hi
      by_cases hjk : j = k
      · subst hjk
        rw [heq] at hj
        obtain ⟨b₀, hb₀, hmono⟩ := hless b hj
        exact compatible_symm (hmono a (compatible_symm (h.apart i j a b₀ hij hi hb₀)))
      · rw [hne j hjk] at hj
        exact h.apart i j a b hij hi hj
  · by_cases hik : i = k
    · subst hik
      rw [heq] at hi
      exact hself z hi
    · rw [hne i hik] at hi
      exact hother i z hik hi

/-- A thread that goes on with the same task, all flags staying as they are. -/
theorem TaskInv.goSame (h : TaskInv s) {th : Thread} (htask : th.task = (s.thread k).task)
    (hk : s.thread k ≠ .none) (hc : KeepsInGc s.ctl c) : TaskInv (s.go k c th) := by
  refine h.go hk (fun u hu => ⟨u, htask ▸ hu, fun _ => id⟩)
    (fun i z _ hi => (hc z).trans (h.inGc i z hi)) fun z hz => ?_
  rw [htask] at hz
  exact (hc z).trans (h.inGc k z hz)

/-! ## The steps of the detectors -/

/-- Only a thread that has been created has a task. -/
theorem TaskInv.lt_count (h : TaskInv s) {j : Nat} {v : Task} (hj : (s.thread j).task = some v) :
    j < s.count := by
  by_contra hge
  rw [h.fresh j (Nat.not_lt.1 hge)] at hj
  cases hj

/-- The end of `cd_detect`: it may start a restructuring. -/
theorem detect_spec_cd {restruct : List Nat} (h : TaskInv s) (hfg : s.fg = .cdScan [] restruct)
    (hapart : SpawnsApart t s .detect) : TaskInv (s.detectStep g t) := by
  rw [SpawnsApart, hfg] at hapart
  have hrates : ∀ c, KeepsInGc c ((c.getGcInfo g).keepRates g) := fun c z =>
    (keepRates_inGc _ z).trans (getGcInfo_inGc c z)
  rw [detectStep, hfg]
  by_cases hlen : 3 ≤ restruct.length
  · simp only [if_pos hlen]
    have hspawn : TaskInv ({ s with ctl := s.ctl.getGcInfo g }.spawn (.restruct restruct)) := by
      refine (h.ctl (getGcInfo_inGc s.ctl) s.fg).spawn (fun j v hj => ?_) fun _ hz => by cases hz
      replace hj : (s.thread j).task = some v := hj
      -- the threads there are leave the zones to be restructured alone
      have hclear := hapart hlen j (h.lt_count hj)
      rw [hj] at hclear
      cases v with
      | gc z => exact hclear
      | restruct zs => exact hclear
    exact hspawn.ctl (hrates _) .idle
  · simp only [if_neg hlen]
    exact h.ctl (hrates _) .idle

/-- One zone of `garbage_collection_detect`: it may start a collection. -/
theorem detect_spec_gc {i : Nat} {is : List Nat} (h : TaskInv s) (hfg : s.fg = .gcScan (i :: is))
    (hapart : SpawnsApart t s .detect) : TaskInv (s.detectStep g t) := by
  rw [SpawnsApart, hfg] at hapart
  rw [detectStep, hfg]
  by_cases hi : (s.ctl.zone i).IsGarbage t
  · simp only [if_pos hi]
    have hmark : ∀ z, (s.ctl.zone z).inGc = true →
        ((s.ctl.modifyZone i fun d => { d with inGc := true }).zone z).inGc = true := by
      intro z hz
      rw [modifyZone_zone]
      split
      · rfl
      · exact hz
    have hs : TaskInv { s with ctl := s.ctl.modifyZone i fun d => { d with inGc := true } } :=
      ⟨h.fresh, h.apart, fun k z hk => hmark z (h.inGc k z hk)⟩
    have hspawn := hs.spawn (u := .gc i) (fun j v hj => ?_) fun z hz => ?_
    · exact hspawn.ctl (fun _ => rfl) _
    · replace hj : (s.thread j).task = some v := hj
      have hclear := hapart hi j (h.lt_count hj)
      rw [hj] at hclear
      cases v with
      | restruct zs => exact hclear
      | gc z =>
          -- a collection of the same zone would have marked it
          rintro rfl
          cases (h.inGc j i hj).symm.trans hi.2.2
    · cases hz
      exact congrArg ZoneDesc.inGc ((modifyZone_zone s.ctl i
        (fun d => { d with inGc := true }) i).trans (if_pos rfl))
  · simp only [if_neg hi]
    exact h.ctl (fun _ => rfl) _

theorem detect_spec (h : TaskInv s) (hapart : SpawnsApart t s .detect) :
    TaskInv (s.detectStep g t) := by
  cases hfg : s.fg with
  | idle =>
      rw [detectStep, hfg]
      exact h
  | cdScan todo restruct =>
      cases todo with
      | cons i is =>
          rw [detectStep, hfg]
          exact h.ctl (fun _ => rfl) _
      | nil => exact detect_spec_cd h hfg hapart
  | gcScan todo =>
      cases todo with
      | nil =>
          rw [detectStep, hfg]
          exact h.ctl (fun _ => rfl) _
      | cons i is => exact detect_spec_gc h hfg hapart

/-! ## The steps of the threads -/

theorem start_spec (h : TaskInv s) (k : Nat) :
    Yields (step g t (.start k) s) (fun _ => True) TaskInv := by
  rw [step]
  split
  case h_1 z hth =>
    exact h.goSame (by rw [hth]; rfl) (by simp [hth]) fun i => getGcInfo_inGc _ i
  case h_2 zs hth => exact h.goSame (by rw [hth]; rfl) (by simp [hth]) fun _ => rfl
  case h_3 => exact h

theorem work_spec (h : TaskInv s) (k : Nat) :
    Yields (step g t (.work k) s) (fun _ => True) TaskInv := by
  rw [step, workStep]
  split
  case h_1 z pos todo hth =>
    refine yields_partial_iff.2 fun s' hs' => ?_
    obtain ⟨c, hc, hs'⟩ := bind_eq_ok.1 hs'
    cases hs'
    exact h.goSame (by rw [hth]; rfl) (by simp [hth]) (gcPosition_inGc hc)
  case h_2 z hth =>
    refine yields_partial_iff.2 fun s' hs' => ?_
    obtain ⟨c, hc, hs'⟩ := bind_eq_ok.1 hs'
    cases hs'
    refine h.go (by simp [hth]) (fun u hu => by cases hu) (fun i y hik hi => ?_)
      fun y hy => by cases hy
    -- the other collections have other zones
    have hne : y ≠ z := h.apart i k (.gc y) (.gc z) hik hi (by rw [hth]; rfl)
    have hzone := (modifyZone_zone c z (fun d => { d with inGc := false }) y).trans (if_neg hne)
    exact (congrArg ZoneDesc.inGc hzone).trans ((recycleZone_inGc hc y).trans (h.inGc i y hi))
  case h_3 z zs pos todo hth =>
    refine yields_partial_iff.2 fun s' hs' => ?_
    obtain ⟨c, hc, hs'⟩ := bind_eq_ok.1 hs'
    cases hs'
    exact h.goSame (by rw [hth]; rfl) (by simp [hth]) (restructPosition_inGc hc)
  case h_4 z zs hth =>
    refine yields_partial_iff.2 fun s' hs' => ?_
    obtain ⟨c, hc, hs'⟩ := bind_eq_ok.1 hs'
    cases hs'
    have hkeep := recycleZone_inGc hc
    refine h.go (by simp [hth]) (fun u hu => ⟨.restruct (z :: zs), by rw [hth]; rfl, ?_⟩)
      (fun i y _ hi => (hkeep y).trans (h.inGc i y hi)) fun y hy => by cases hy
    cases hu
    intro v hv
    cases v with
    | gc y => exact hv
    | restruct zs' => exact fun y hy => hv y (List.mem_cons_of_mem z hy)
  case h_5 zs hth =>
    exact h.go (by simp [hth]) (fun u hu => by cases hu) (fun i y _ hi => h.inGc i y hi)
      fun y hy => by cases hy
  case h_6 => exact h

/-- **One step.** -/
theorem step_spec (h : TaskInv s) (e : DetectorEvent) (hapart : SpawnsApart t s e) :
    Yields (step g t e s) (fun _ => True) TaskInv := by
  cases e with
  | write w =>
      rw [step]
      split
      · refine yields_partial_iff.2 fun s' hs' => ?_
        obtain ⟨c, hc, hs'⟩ := bind_eq_ok.1 hs'
        cases hs'
        exact h.ctl (call_inGc hc) _
      · exact h
  | cdDetect =>
      rw [step]
      split
      · split
        · exact h
        · split
          · exact h
          · exact h.ctl (getGcInfo_inGc s.ctl) _
      · exact h
  | gcDetect =>
      rw [step]
      split
      · split
        · exact h
        · exact h.ctl (getGcInfo_inGc s.ctl) _
      · exact h
  | detect => exact detect_spec h hapart
  | start k => exact start_spec h k
  | work k => exact work_spec h k

/-- **Where no thread is created in the way of another, no two relocations meet**, whatever
state the threads are started from. -/
theorem exclusive_run (g : Geometry) (t : RateTests) (c : Controller) (es : List DetectorEvent)
    (hapart : Along (step g t) (SpawnsApart t) es (Detectors.start c)) (s : Detectors)
    (hs : Visits (step g t) es (Detectors.start c) s) : Exclusive s := by
  refine hs.elim (legal_true (fun _ x => x) es ()) hapart fun js _ hjs s' hs' => ?_
  have hrun := run_yields_cond TaskInv (fun s e h he => step_spec h e he) js _
    (TaskInv.start c) hjs
  exact (hrun.of_ok hs').exclusive

/-! ## Calls and threads that are not interrupted -/

/-- The scan of `cd_detect`. -/
theorem run_cdScan (todo : List Nat) : ∀ (s : Detectors) (zs : List Nat),
    s.fg = .cdScan todo zs → run (step g t) (List.replicate todo.length .detect) s
      = .ok { s with
          fg := .cdScan [] (zs ++ todo.filter fun i => (s.ctl.zone i).IsCold t) } := by
  induction todo with
  | nil =>
      intro s zs hfg
      rw [List.filter_nil, List.append_nil, ← hfg]
      rfl
  | cons i todo ih =>
      intro s zs hfg
      have hstep : step g t .detect s = .ok { s with
          fg := .cdScan todo (if (s.ctl.zone i).IsCold t then zs ++ [i] else zs) } := by
        rw [step, detectStep, hfg]
      rw [List.length_cons, List.replicate_succ, run_cons, hstep, ok_bind, ih _ _ rfl]
      by_cases hi : (s.ctl.zone i).IsCold t
      · simp only [if_pos hi, List.filter_cons, decide_eq_true hi, if_true, List.append_assoc,
          List.singleton_append]
      · simp only [if_neg hi, List.filter_cons, decide_eq_false hi, Bool.false_eq_true, if_false]

/-- What `cd_detect` leaves: the thread it creates has not started. -/
def cdDetected (g : Geometry) (t : RateTests) (s : Detectors) : Detectors :=
  let c := s.ctl.getGcInfo g
  let restruct := c.coldZones g t
  let s := if 3 ≤ restruct.length then { s with ctl := c.getGcInfo g }.spawn (.restruct restruct)
    else { s with ctl := c }
  { s with ctl := (s.ctl.getGcInfo g).keepRates g }

/-- The events of a call of `cd_detect`. -/
def cdDetectCall (g : Geometry) : List DetectorEvent :=
  .cdDetect :: List.replicate (g.maxZoneNum + 1) .detect

/-- **A call of `cd_detect`** finds the zones the sequential one finds. -/
theorem run_cdDetectCall (hfg : s.fg = .idle) (hgc : s.ctl.gc = false) (hcd : s.ctl.cd = false) :
    run (step g t) (cdDetectCall g) s = .ok (cdDetected g t s) := by
  have hcall : step g t .cdDetect s = .ok { s with
      ctl := s.ctl.getGcInfo g
      fg := .cdScan (List.range g.maxZoneNum) [] } := by
    rw [step, hfg]
    simp only [hgc, hcd, Bool.false_eq_true, if_false]
  -- the zones are tested one by one, on rates that do not change meanwhile
  have hscan := run_cdScan (g := g) (t := t) (List.range g.maxZoneNum)
    { s with ctl := s.ctl.getGcInfo g, fg := .cdScan (List.range g.maxZoneNum) [] } [] rfl
  have hcold : (List.range g.maxZoneNum).filter
      (fun i => ((s.ctl.getGcInfo g).zone i).IsCold t) = (s.ctl.getGcInfo g).coldZones g t := by
    refine List.filter_congr fun i _ => ?_
    rw [Bool.eq_iff_iff, decide_eq_true_iff]
    simp [ZoneDesc.IsCold]
  rw [List.length_range, List.nil_append] at hscan
  simp only [hcold] at hscan
  rw [cdDetectCall, run_cons, hcall, ok_bind, List.replicate_add, run_append, hscan, ok_bind,
    List.replicate_one, run_cons, step, detectStep]
  simp only [cdDetected]
  split
  · rw [← hfg]
    rfl
  · rw [← hfg]
    rfl

theorem go_go (s : Detectors) (k : Nat) (c c' : Controller) (th th' : Thread) :
    (s.go k c th).go k c' th' = s.go k c' th' := by
  simp only [go, Function.update_idem]

@[simp] theorem go_thread_self (s : Detectors) (k : Nat) (c : Controller) (th : Thread) :
    (s.go k c th).thread k = th := Function.update_self ..

@[simp] theorem go_ctl (s : Detectors) (k : Nat) (c : Controller) (th : Thread) :
    (s.go k c th).ctl = c := rfl

/-- A thread that has a list of positions to work on, one at a step. -/
theorem run_scan {work : Controller → Nat → Except Fault Controller} {th : List Nat → Thread}
    (hwork : ∀ (s : Detectors) c pos todo, step g t (.work k) (s.go k c (th (pos :: todo)))
      = work c pos >>= fun c => .ok (s.go k c (th todo))) (todo : List Nat) :
    ∀ (s : Detectors) (c : Controller),
      run (step g t) (List.replicate todo.length (.work k)) (s.go k c (th todo))
        = todo.foldlM work c >>= fun c => .ok (s.go k c (th [])) := by
  induction todo with
  | nil => exact fun s c => rfl
  | cons pos todo ih =>
      intro s c
      rw [List.length_cons, List.replicate_succ, run_cons, hwork, List.foldlM_cons]
      cases work c pos with
      | error e => rfl
      | ok c' => exact ih s c'

/-- The scan of a collection. -/
theorem run_gcScan (z : Nat) (todo : List Nat) : ∀ (s : Detectors) (c : Controller),
    run (step g t) (List.replicate todo.length (.work k)) (s.go k c (.gc z todo))
      = todo.foldlM (gcPosition g z) c >>= fun c => .ok (s.go k c (.gc z [])) := by
  refine run_scan (fun s c pos todo => ?_) todo
  rw [step, workStep, go_thread_self]
  simp only [go_ctl, go_go]

/-- **A thread that collects a zone and is not interrupted is `garbage_collection`.** -/
theorem run_gcThread {z : Nat} (hth : s.thread k = .spawned (.gc z)) :
    run (step g t) (.start k :: List.replicate ((scanPositions g z).length + 1) (.work k)) s
      = garbageCollection g z s.ctl >>= fun c => .ok (s.go k c .none) := by
  have hstart : step g t (.start k) s = .ok (s.go k
      (({ s.ctl with gc := true, gcCount := s.ctl.gcCount + 1 } : Controller).getGcInfo g)
      (.gc z (scanPositions g z))) := by
    rw [step, hth]
  rw [run_cons, hstart, ok_bind, List.replicate_add, run_append, run_gcScan, garbageCollection]
  simp only
  cases (scanPositions g z).foldlM (gcPosition g z)
      (({ s.ctl with gc := true, gcCount := s.ctl.gcCount + 1 } : Controller).getGcInfo g) with
  | error e => rfl
  | ok c =>
      rw [ok_bind, ok_bind, ok_bind, List.replicate_one, run_cons, step, workStep, go_thread_self]
      simp only [go_ctl]
      cases recycleZone g z c with
      | error e => rfl
      | ok c' =>
          simp only [ok_bind, go_go]
          rfl

/-- The scan of a zone that is restructured. -/
theorem run_restructScan (z : Nat) (zs todo : List Nat) : ∀ (s : Detectors) (c : Controller),
    run (step g t) (List.replicate todo.length (.work k)) (s.go k c (.restruct (z :: zs) todo))
      = todo.foldlM (restructPosition g) c >>= fun c =>
        .ok (s.go k c (.restruct (z :: zs) [])) := by
  refine run_scan (fun s c pos todo => ?_) todo
  rw [step, workStep, go_thread_self]
  simp only [go_ctl, go_go]

/-- The work on the zones of a restructuring. -/
theorem run_restructZones (zs : List Nat) : ∀ (s : Detectors) (c : Controller),
    run (step g t)
        (List.replicate (zs.map fun z => (scanPositions g z).length + 1).sum (.work k))
        (s.go k c (.restruct zs (firstPositions g zs)))
      = zs.foldlM (restructZone g) c >>= fun c => .ok (s.go k c (.restruct [] [])) := by
  induction zs with
  | nil => exact fun s c => rfl
  | cons z zs ih =>
      intro s c
      rw [List.map_cons, List.sum_cons, List.replicate_add, List.replicate_add, run_append,
        run_append, firstPositions, run_restructScan, List.foldlM_cons, restructZone]
      cases (scanPositions g z).foldlM (restructPosition g) c with
      | error e => rfl
      | ok c₁ =>
          rw [ok_bind, ok_bind, ok_bind, List.replicate_one, run_cons, step, workStep,
            go_thread_self]
          simp only [go_ctl]
          cases recycleZone g z c₁ with
          | error e => rfl
          | ok c₂ =>
              rw [ok_bind, ok_bind, ok_bind, run_nil, ok_bind, go_go]
              exact ih s c₂

/-- **A thread that restructures zones and is not interrupted is `cold_data_restruct`.** -/
theorem run_restructThread {zs : List Nat} (hth : s.thread k = .spawned (.restruct zs)) :
    run (step g t) (.start k ::
        List.replicate ((zs.map fun z => (scanPositions g z).length + 1).sum + 1) (.work k)) s
      = coldDataRestruct g zs s.ctl >>= fun c => .ok (s.go k c .none) := by
  have hstart : step g t (.start k) s = .ok (s.go k
      { s.ctl with cd := true, cdCount := s.ctl.cdCount + 1 }
      (.restruct zs (firstPositions g zs))) := by
    rw [step, hth]
  rw [run_cons, hstart, ok_bind, List.replicate_add, run_append, run_restructZones,
    coldDataRestruct]
  simp only
  cases zs.foldlM (restructZone g)
      ({ s.ctl with cd := true, cdCount := s.ctl.cdCount + 1 } : Controller) with
  | error e => rfl
  | ok c =>
      rw [ok_bind, ok_bind, ok_bind, List.replicate_one, run_cons, step, workStep, go_thread_self]
      simp only [go_ctl, ok_bind, go_go]
      rfl

/-! ## Two relocations of one zone -/

instance (u : Task) (o : Option Task) : Decidable (u.ClearOf o) :=
  match u, o with
  | .restruct _, some (.gc _) => isFalse id
  | .restruct _, some (.restruct _) => inferInstanceAs (Decidable (∀ _ ∈ _, _))
  | .gc _, some (.restruct _) => isFalse id
  | .gc _, some (.gc _) => isTrue trivial
  | .restruct _, none => isTrue trivial
  | .gc _, none => isTrue trivial

instance (s : Detectors) (u : Task) : Decidable (s.Apart u) :=
  inferInstanceAs (Decidable (∀ _ < _, _))

instance (s : Detectors) (e : DetectorEvent) : Decidable (SpawnsApart t s e) :=
  match e with
  | .write _ => isTrue trivial
  | .cdDetect => isTrue trivial
  | .gcDetect => isTrue trivial
  | .start _ => isTrue trivial
  | .work _ => isTrue trivial
  | .detect =>
      match hfg : s.fg with
      | .idle => isTrue (by simp only [SpawnsApart, hfg])
      | .cdScan (_ :: _) _ => isTrue (by simp only [SpawnsApart, hfg])
      | .cdScan [] restruct =>
          decidable_of_iff (3 ≤ restruct.length → s.Apart (.restruct restruct))
            (by simp only [SpawnsApart, hfg])
      | .gcScan [] => isTrue (by simp only [SpawnsApart, hfg])
      | .gcScan (i :: _) =>
          decidable_of_iff ((s.ctl.zone i).IsGarbage t → s.Apart (.gc i))
            (by simp only [SpawnsApart, hfg])

/-- Eight zones with 201 usable pages each. -/
def wide : Geometry :=
  Geometry.ofDevice 8 1239749 4194304 4 (by decide) (by decide) (by decide) (Nat.succ_pos 3)

/-- `n` copies of a page. -/
def copies (n : Nat) (p : PageId) : List (PageId × Page) := List.replicate n (p, frameOf p 1)

/-- Zone 0 and zone 2 are finished early for want of room for a cluster, zone 1 is full but for
three pages. Between two calls of `cd_detect` each of them loses one valid page. -/
def cooling : List DetectorEvent :=
  [.write (.createNewPage 1 (frameOf 1 10)), .write (.createNewPage 2 (frameOf 2 20)),
    .write (.createNewPage 3 (frameOf 3 30)), .write (.createNewPage 4 (frameOf 4 40)),
    .write (.writeCluster 0 (copies 197 1 ++ copies 1 2)), .write (.writeCluster 0 (copies 4 4))]
    ++ cdDetectCall wide ++ [.write (.writeCluster 0 (copies 196 1 ++ copies 1 3 ++ copies 1 4))]
    ++ cdDetectCall wide

/-- `garbage_collection_detect` is called before the restructuring has set `Cd`. -/
@[irreducible] def meeting : List DetectorEvent :=
  cooling ++ [.gcDetect, .detect, .start 0, .start 1]

/-- The zones the first two threads relocate. -/
def relocating (s : Detectors) : Option Nat × Option Nat :=
  ((s.thread 0).zone, (s.thread 1).zone)

/-- **A restructuring and a collection relocate one zone at the same time.** -/
theorem relocated_twice : ∃ s, run (step wide .exact) meeting
      (start (Controller.init wide fun _ => ⟨0, 0, 0⟩)) = .ok s ∧
    relocating s = (some 0, some 0) ∧ ¬ Exclusive s := by
  obtain ⟨s, hs, hzones⟩ : ∃ s, run (step wide .exact) meeting
        (start (Controller.init wide fun _ => ⟨0, 0, 0⟩)) = .ok s ∧
      relocating s = (some 0, some 0) :=
    exists_ok_of_decide (by decide +kernel)
  refine ⟨s, hs, hzones, fun h => ?_⟩
  rw [relocating, Prod.mk.injEq] at hzones
  exact h.zone 0 1 0 (by decide) hzones.1 hzones.2

/-- Four pages fill two zones and are rewritten; then both zones are collected. -/
@[irreducible] def collectingBoth : List DetectorEvent :=
  [.write (.createNewPage 1 (frameOf 1 10)), .write (.createNewPage 2 (frameOf 2 20)),
    .write (.createNewPage 3 (frameOf 3 30)), .write (.createNewPage 4 (frameOf 4 40)),
    .write (.writePage 0 1 (frameOf 1 11)), .write (.writePage 0 2 (frameOf 2 21)),
    .write (.writePage 0 3 (frameOf 3 31)), .write (.writePage 0 4 (frameOf 4 41)),
    .gcDetect, .detect, .detect, .start 0, .start 1, .work 1, .work 0]

/-- The zones restructured while the foreground calls `cd_detect` once more. -/
@[irreducible] def restructuring : List DetectorEvent :=
  cooling ++ [.start 0, .work 0, .cdDetect, .detect, .work 0]

theorem exclusive_run_restructuring :
    (∃ s, run (step .small .exact) collectingBoth (start smallStart) = .ok s ∧
      relocating s = (some 0, some 1) ∧ Exclusive s) ∧
    ∃ s, run (step wide .exact) restructuring
        (start (Controller.init wide fun _ => ⟨0, 0, 0⟩)) = .ok s ∧
      relocating s = (some 0, none) ∧ Exclusive s := by
  constructor
  · have hall := exclusive_run .small .exact smallStart collectingBoth (by decide +kernel)
    obtain ⟨s, hs, hzones⟩ : ∃ s, run (step .small .exact) collectingBoth (start smallStart)
        = .ok s ∧ relocating s = (some 0, some 1) := exists_ok_of_decide (by decide +kernel)
    exact ⟨s, hs, hzones, hall s ⟨collectingBoth, [], (List.append_nil _).symm, hs⟩⟩
  · have hall := exclusive_run wide .exact (Controller.init wide fun _ => ⟨0, 0, 0⟩) restructuring
      (by decide +kernel)
    obtain ⟨s, hs, hzones⟩ : ∃ s, run (step wide .exact) restructuring
        (start (Controller.init wide fun _ => ⟨0, 0, 0⟩)) = .ok s ∧
        relocating s = (some 0, none) := exists_ok_of_decide (by decide +kernel)
    exact ⟨s, hs, hzones, hall s ⟨restructuring, [], (List.append_nil _).symm, hs⟩⟩

end Detectors

end ZoneBuffer
