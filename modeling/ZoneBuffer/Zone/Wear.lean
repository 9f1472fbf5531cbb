import ZoneBuffer.Zone.Ledger
import Mathlib.Tactic.Ring

set_option autoImplicit false

/-! # What the relocations cost

A relocation sends pages to the device that no caller asked for, and erases the zone they came
from. The detector collects a zone when fewer than 15 per cent of its pages are valid, by rates
that are as old as the last collection: a zone that was open then may have been filled since with
the pages of that collection. But it gets no more than those, and a zone that was filled so has
been emptied of its own garbage last, so no collection ever moves more than three tenths of a
zone (`Sweep`). `cd_detect` computes the rates it goes by.

The relocations of a run are read off it one by one, each as an `Emptying` (`collections`,
`restructurings`). Each of them is bounded by itself, and the zone it erases pays for the pages it
moves; added up, this bounds what the relocations of a whole run send by what its callers do
(`cost_run`). -/

namespace ZoneBuffer

open Outcome Machine

/-! ## Relocations one by one -/

/-- A relocation that has emptied a zone, with the states before and after it. -/
structure Emptying where
  zone : Nat
  before : Controller
  after : Controller

namespace Emptying

/-- The pages sent to the device meanwhile. -/
def moved (r : Emptying) : Nat := r.after.pagesSent - r.before.pagesSent

/-- The pages the zone had been written. -/
def erased (g : Geometry) (r : Emptying) : Nat := r.before.usedPages g r.zone

/-- A full zone has been erased. With clusters of `n` pages at most there is no room for `n` more
behind its pages. -/
structure Whole (g : Geometry) (n : Nat) (r : Emptying) : Prop where
  full : (r.before.zone r.zone).cond = .full
  empty : (r.after.zone r.zone).cond = .empty
  erased_ge : g.cap / PAGE_SIZE + 1 - n ≤ r.erased g

/-- What a collection the detector has started costs. -/
structure Collected (g : Geometry) (n : Nat) (r : Emptying) : Prop extends r.Whole g n where
  light : 10 * r.moved ≤ 3 * (g.cap / PAGE_SIZE)

/-- What the restructuring of a zone found to be cold costs. -/
structure Restructured (g : Geometry) (n : Nat) (r : Emptying) : Prop extends r.Whole g n where
  bound : 5 * (r.moved * r.erased g) ≤ 3 * (g.cap / PAGE_SIZE) * (g.cap / PAGE_SIZE + 1)

end Emptying

/-- The pages moved by the relocations `rs`. -/
def movedBy (rs : List Emptying) : Nat := (rs.map Emptying.moved).sum

/-- The pages erased by the relocations `rs`. -/
def erasedBy (g : Geometry) (rs : List Emptying) : Nat := (rs.map (Emptying.erased g)).sum

@[simp] theorem movedBy_nil : movedBy [] = 0 := rfl

@[simp] theorem erasedBy_nil (g : Geometry) : erasedBy g [] = 0 := rfl

theorem movedBy_concat (rs : List Emptying) (r : Emptying) :
    movedBy (rs ++ [r]) = movedBy rs + r.moved := by
  rw [movedBy, List.map_append, List.sum_append, List.map_singleton, List.sum_singleton, movedBy]

theorem erasedBy_concat (g : Geometry) (rs : List Emptying) (r : Emptying) :
    erasedBy g (rs ++ [r]) = erasedBy g rs + r.erased g := by
  rw [erasedBy, List.map_append, List.sum_append, List.map_singleton, List.sum_singleton, erasedBy]

/-- Where every relocation is paid for by what it erases, all of them are. -/
theorem movedBy_le {g : Geometry} {rs : List Emptying} {k e : Nat}
    (h : ∀ r ∈ rs, k * r.moved ≤ e * r.erased g) : k * movedBy rs ≤ e * erasedBy g rs := by
  rw [movedBy, erasedBy, ← List.sum_map_mul_left, ← List.sum_map_mul_left]
  exact List.sum_le_sum h

/-- Collections are paid for. -/
theorem movedBy_collected {g : Geometry} {n : Nat} {gcs : List Emptying}
    (h : ∀ r ∈ gcs, r.Collected g n) :
    10 * (g.cap / PAGE_SIZE + 1 - n) * movedBy gcs ≤ 3 * (g.cap / PAGE_SIZE) * erasedBy g gcs := by
  refine movedBy_le fun r hr => ?_
  have hpaid := Nat.mul_le_mul (h r hr).light (h r hr).erased_ge
  calc 10 * (g.cap / PAGE_SIZE + 1 - n) * r.moved
      = 10 * r.moved * (g.cap / PAGE_SIZE + 1 - n) := Nat.mul_right_comm ..
    _ ≤ 3 * (g.cap / PAGE_SIZE) * r.erased g := hpaid

/-- Restructurings are paid for. -/
theorem movedBy_restructured {g : Geometry} {n : Nat} {cds : List Emptying}
    (h : ∀ r ∈ cds, r.Restructured g n) :
    5 * (g.cap / PAGE_SIZE + 1 - n) * (g.cap / PAGE_SIZE + 1 - n) * movedBy cds
      ≤ 3 * (g.cap / PAGE_SIZE) * (g.cap / PAGE_SIZE + 1) * erasedBy g cds := by
  refine movedBy_le fun r hr => ?_
  have hge := (h r hr).erased_ge
  generalize g.cap / PAGE_SIZE + 1 - n = u at hge ⊢
  calc 5 * u * u * r.moved = 5 * (r.moved * u) * u := by ring
    _ ≤ 5 * (r.moved * r.erased g) * r.erased g :=
      Nat.mul_le_mul (Nat.mul_le_mul_left 5 (Nat.mul_le_mul_left _ hge)) hge
    _ ≤ 3 * (g.cap / PAGE_SIZE) * (g.cap / PAGE_SIZE + 1) * r.erased g :=
      Nat.mul_le_mul_right _ (h r hr).bound

/-- The zones erased have been full. -/
theorem erasedBy_ge {g : Geometry} {n : Nat} {gcs : List Emptying}
    (h : ∀ r ∈ gcs, r.Collected g n) :
    gcs.length * (g.cap / PAGE_SIZE + 1 - n) ≤ erasedBy g gcs := by
  induction gcs with
  | nil => exact Nat.le_of_eq (Nat.zero_mul _)
  | cons r gcs ih =>
      rw [List.length_cons, Nat.succ_mul, Nat.add_comm, erasedBy, List.map_cons, List.sum_cons]
      refine Nat.add_le_add (h r List.mem_cons_self).erased_ge ?_
      exact ih fun e he => h e (List.mem_cons_of_mem r he)

namespace Controller

/-- The collection a turn of the loop of `garbage_collection_detect` makes, if it makes one. -/
def detectCollects (t : RateTests) (z : Nat) (s s' : Controller) : List Emptying :=
  if (s.zone z).cond = .full ∧ t.garbage (s.zone z).rates.gc = true ∧
      (s.zone z).inGc = false then
    [⟨z, s, s'⟩]
  else []

/-- The collections of a pass over the zones `zs`. -/
def passCollects (g : Geometry) (t : RateTests) (zs : List Nat) (s : Controller) : List Emptying :=
  gather (fun z s => detectZone g t s z) (detectCollects t) zs s

/-- The zones `zs` are restructured one by one. -/
def restructs (g : Geometry) (zs : List Nat) (s : Controller) : List Emptying :=
  gather (fun z s => restructZone g s z) (fun z s s' => [⟨z, s, s'⟩]) zs s

end Controller

namespace Op

/-- The collections a call makes. -/
def collects (g : Geometry) : Op → Controller → Controller → List Emptying
  | garbageCollection z, s, s' => [⟨z, s, s'⟩]
  | garbageCollectionDetect t, s, _ =>
      if s.gc then [] else Controller.passCollects g t (List.range g.maxZoneNum) (s.getGcInfo g)
  | _, _, _ => []

/-- The zones a call restructures. -/
def restructs (g : Geometry) : Op → Controller → Controller → List Emptying
  | coldDataRestruct zs, s, _ =>
      Controller.restructs g zs { s with cd := true, cdCount := s.cdCount + 1 }
  | cdDetect t, s, _ =>
      let s := s.getGcInfo g
      let zs := s.coldZones g t
      if 3 ≤ zs.length then
        Controller.restructs g zs { s with cd := true, cdCount := s.cdCount + 1 }
      else []
  | _, _, _ => []

end Op

namespace Controller

/-- All collections of a run. -/
def collections (g : Geometry) (ops : List Op) (s : Controller) : List Emptying :=
  gather (step g) (Op.collects g) ops s

/-- All restructurings of a run. -/
def restructurings (g : Geometry) (ops : List Op) (s : Controller) : List Emptying :=
  gather (step g) (Op.restructs g) ops s

end Controller

namespace Controller

variable {g : Geometry} {K : Int → Prop} {c cf : Int} {n w m z a i j : Nat} {own : Nat}
  {cdOn : Prop} {gcs cds : List Emptying} {zs : List Nat}
  {s s₀ s₁ s' s'' r : Controller} {l : List Move}

/-! ## A zone is emptied -/

/-- The pages of a zone that is full are all the controller uses of it, but for `n` at most. -/
theorem Filled.used_ge (hs : s.Filled g n) (h : Inv g K s) (hfull : (s.zone i).cond = .full) :
    g.cap / PAGE_SIZE + 1 - n ≤ s.usedPages g i := by
  have hlt := hs i hfull
  rw [h.wp_eq i] at hlt
  have hcap : g.cap < (s.usedPages g i + n) * PAGE_SIZE := by
    rw [Nat.add_mul]
    omega
  have := (Nat.div_lt_iff_lt_mul (by decide)).2 hcap
  omega

/-- The scan has left no valid page in the zone. -/
theorem Vacating.validPage_eq_zero (h : Vacating g K c z s₀ s a) (ha : g.ofst z + g.cap ≤ a) :
    (s.zone z).validPage = 0 := by
  have hinv := (h.inv.recycled (h.vacant ha)).1
  have hself : (recycled g z s).zone z = { s.zone z with
      cond := .empty
      cf := -1
      wp := g.ofst z
      rates := { (s.zone z).rates with idle := 0, gc := 0 } } := by
    rw [recycled_zone, if_pos rfl]
  have hzero : ((recycled g z s).zone z).validPage = 0 :=
    hinv.validPage_empty (by rw [hself])
  rwa [hself] at hzero

/-- The pages written and not valid, in pages. -/
theorem Inv.waste_eq (h : Inv g K s) (i : Nat) :
    s.waste g i = (s.usedPages g i - (s.zone i).validPage) * PAGE_SIZE := by
  rw [waste, h.wp_eq i]
  push_cast
  ring

/-- **A zone emptied**: its valid pages have been moved to zones of cluster `c`, and all that has
been written to it is erased. -/
structure Emptied (g : Geometry) (n : Nat) (c : Int) (z : Nat) (s s' : Controller) : Prop where
  posted : Posted g 0 (s.zone z).validPage.toNat (s.usedPages g z) s s'
  cond : (s'.zone z).cond = .empty
  drift : ∀ i, i ≠ z → Drift g s s' i
  cf : ∀ i, i ≠ z → (s.zone i).cond ≠ .empty → (s'.zone i).cf = (s.zone i).cf
  gain : ∀ i, i ≠ z → (s'.zone i).validPage ≤ (s.zone i).validPage + (s.zone z).validPage
  apart : ∀ i, i ≠ z → (s.zone i).cond ≠ .empty → (s.zone i).cf ≠ c →
    (s'.zone i).validPage = (s.zone i).validPage
  filled : s.Filled g n → s'.Filled g n

/-- Where the pages written and not valid are the same, both have grown alike. -/
theorem Drift.used_sub (hd : Drift g s s' i) (h : Inv g K s) (h' : Inv g K s') :
    (s'.usedPages g i : Int) - (s'.zone i).validPage
      = s.usedPages g i - (s.zone i).validPage := by
  have hw := hd.waste
  rw [h'.waste_eq, h.waste_eq] at hw
  simp only [PAGE_SIZE] at hw
  omega

/-- The scan of zone `z` adds valid pages to the others and takes all of its own. -/
theorem Vacating.gain (h₀ : Inv g K s₀) (h : Vacating g K c z s₀ s a)
    (hcar : Carried g c z s₀ s a l) (ha : g.ofst z + g.cap ≤ a) (hz : z < g.maxZoneNum)
    (hi : i ≠ z) :
    (s.zone i).validPage ≤ (s₀.zone i).validPage + (s₀.zone z).validPage := by
  by_cases hlt : i < g.maxZoneNum
  case neg =>
    -- a zone beyond those of the device is empty, and has no valid page
    have hempty : (s.zone i).cond = .empty := by
      by_contra hne
      exact hlt (h.inv.lt i hne)
    rw [h.inv.validPage_empty hempty]
    exact Int.add_nonneg (h₀.validPage_nonneg i) (h₀.validPage_nonneg z)
  case pos =>
    have hge : ∀ j ∈ (Finset.range g.maxZoneNum).erase z,
        0 ≤ (s.zone j).validPage - (s₀.zone j).validPage := by
      intro j hj
      obtain ⟨hjz, -⟩ := Finset.mem_erase.1 hj
      obtain ⟨k, hwp, -⟩ := hcar.appended j hjz
      have hsub := (h.drift j hjz).used_sub h₀ h.inv
      have hle : s₀.usedPages g j ≤ s.usedPages g j := by
        rw [usedPages, usedPages, hwp]
        exact Nat.div_le_div_right (Nat.sub_le_sub_right (Nat.le_add_right _ _) _)
      omega
    have hmem : i ∈ (Finset.range g.maxZoneNum).erase z :=
      Finset.mem_erase.2 ⟨hi, Finset.mem_range.2 hlt⟩
    have hsingle := Finset.single_le_sum hge hmem
    have hsum := Finset.add_sum_erase (Finset.range g.maxZoneNum)
      (fun j => (s.zone j).validPage - (s₀.zone j).validPage) (Finset.mem_range.2 hz)
    -- nothing is lost, so what the others have gained zone `z` had
    have htotal : ∑ j ∈ Finset.range g.maxZoneNum,
        ((s.zone j).validPage - (s₀.zone j).validPage) = 0 := by
      rw [Finset.sum_sub_distrib, hcar.total, sub_self]
    have hzero := h.validPage_eq_zero ha
    omega

/-- **The scan of a full zone moves its valid pages.** -/
theorem Vacating.moved (h₀ : Inv g K s₀) (h : Vacating g K c z s₀ s a)
    (hcar : Carried g c z s₀ s a l) (ha : g.ofst z + g.cap ≤ a) (hz : z < g.maxZoneNum)
    (hp : Posted g 0 m 0 s₀ s) : (m : Int) = (s₀.zone z).validPage := by
  have hheld : s.pagesHeld g = s₀.pagesHeld g + m := by
    have := hp.held
    omega
  -- the pages held that are not valid are the same, and in zone `z` those that were
  have hsub : ∀ j ∈ Finset.range g.maxZoneNum,
      (s.usedPages g j : Int) - (s.zone j).validPage
        = s₀.usedPages g j - (s₀.zone j).validPage + if z = j then (s₀.zone z).validPage else 0 := by
    intro j _
    by_cases hj : z = j
    · subst hj
      have hused : s.usedPages g z = s₀.usedPages g z := usedPages_congr (by rw [h.self])
      rw [if_pos rfl, hused, h.validPage_eq_zero ha]
      omega
    · rw [if_neg hj, (h.drift j (Ne.symm hj)).used_sub h₀ h.inv, Int.add_zero]
  have hsum := Finset.sum_congr rfl hsub
  have htotal := hcar.total
  rw [Finset.sum_add_distrib, Finset.sum_ite_eq, if_pos (Finset.mem_range.2 hz),
    Finset.sum_sub_distrib, Finset.sum_sub_distrib, ← Nat.cast_sum, ← Nat.cast_sum] at hsum
  rw [pagesHeld, pagesHeld] at hheld
  omega

/-- A zone of another cluster gets none of the pages. -/
theorem Vacating.apart (h₀ : Inv g K s₀) (h : Vacating g K c z s₀ s a)
    (hcar : Carried g c z s₀ s a l) (hi : i ≠ z) (hcf : (s.zone i).cf ≠ c) :
    (s.zone i).validPage = (s₀.zone i).validPage := by
  obtain ⟨k, hwp, hmoves⟩ := hcar.appended i hi
  have hk : k = 0 := by
    by_contra hk
    have hlen : (l.filter fun m => m.new / g.zoneSize = i).length = k := by
      rw [← List.length_map Move.new, hmoves, List.length_map, List.length_range]
    obtain ⟨mv, hmv⟩ := List.exists_mem_of_length_pos (hlen.symm ▸ Nat.pos_of_ne_zero hk)
    obtain ⟨hmem, hto⟩ := List.mem_filter.1 hmv
    rw [decide_eq_true_eq] at hto
    exact hcf (hto ▸ (hcar.target mv hmem).2.2)
  subst hk
  have hused : s.usedPages g i = s₀.usedPages g i :=
    usedPages_congr (by rw [hwp, Nat.zero_mul, Nat.add_zero])
  have hsub := (h.drift i hi).used_sub h₀ h.inv
  omega

/-- **A scan and the recycling after it.** -/
theorem Vacating.emptied (h₀ : Inv g K s₀) (h : Vacating g K c z s₀ s a)
    (hcar : Carried g c z s₀ s a l) (ha : g.ofst z + g.cap ≤ a) (hfull : (s₀.zone z).cond = .full)
    (hhauled : Hauled g n w m s₀ s) : Emptied g n c z s₀ (recycled g z s) := by
  have hz : z < g.maxZoneNum := h₀.lt z (by simp [hfull])
  have hused : s.usedPages g z = s₀.usedPages g z := usedPages_congr (hhauled.full z hfull).2
  have hm : m = (s₀.zone z).validPage.toNat := by
    rw [← h.moved h₀ hcar ha hz hhauled.toPosted, Int.toNat_natCast]
  have herased := recycleZone_posted hz hhauled.started
    (recycleZone_eq (h.inv.clear_of_vacant (h.vacant ha)))
  have hother : ∀ i, i ≠ z → (recycled g z s).zone i = s.zone i := fun i hi =>
    recycled_zone_of_ne hi
  refine ⟨?_, by rw [recycled_zone, if_pos rfl], fun i hi => (h.drift i hi).congr (hother i hi),
    fun i hi hne => ?_, fun i hi => ?_, fun i hi hne hcf => ?_, fun hs i hi => ?_⟩
  · have hall := hhauled.toPosted.trans herased
    rw [hused, hm, Nat.zero_add, Nat.zero_add, Nat.add_zero] at hall
    exact hall
  · rw [hother i hi]
    exact (hhauled.used i hne).2
  · rw [hother i hi]
    exact h.gain h₀ hcar ha hz hi
  · rw [hother i hi]
    exact h.apart h₀ hcar hi (by rwa [(hhauled.used i hne).2])
  · by_cases hiz : i = z
    · rw [hiz, recycled_zone, if_pos rfl] at hi
      cases hi
    · rw [hother i hiz] at hi ⊢
      exact hhauled.filled hs i hi

/-- The scan of a full zone, as a whole. -/
theorem scan_empties {f : Controller → Nat → Except Fault Controller}
    (h : Inv g K s₀) (hfull : (s₀.zone z).cond = .full)
    (hstep : ∀ s pos, Inv g K s → (s.zone z).cf = (s₀.zone z).cf → pos / g.zoneSize = z →
      PAGE_SIZE ∣ pos → MovesTo g K c s pos (f s pos))
    (hhaul : ∀ s s' pos, s.Started g → f s pos = .ok s' → ∃ m, Hauled g n w m s s') :
    Yields ((scanPositions g z).foldlM f s₀ >>= recycleZone g z)
      (fun e => e = .noZone ∧ NoRoom g c (s₀.zone z).validPage.toNat s₀) fun s' =>
      Emptied g n c z s₀ s' ∧ Inv g K s' ∧ s'.content = s₀.content ∧
        s'.gcValidCount = s₀.gcValidCount + UInt32.ofNat (w * (s₀.zone z).validPage.toNat) ∧
        s'.gcCount = s₀.gcCount := by
  refine (scan_moves h hfull hstep).bind_of_ok ?_
  rintro s hs ⟨a, l, ha, hvac, hcar⟩
  obtain ⟨m, hhauled⟩ := scan_hauled hhaul h.started hs
  have hm : m = (s₀.zone z).validPage.toNat := by
    rw [← hvac.moved h hcar ha (h.lt z (by simp [hfull])) hhauled.toPosted, Int.toNat_natCast]
  obtain ⟨hinv, hcontent⟩ := hvac.inv.recycled (hvac.vacant ha)
  rw [recycleZone_eq (hvac.inv.clear_of_vacant (hvac.vacant ha))]
  refine ⟨hvac.emptied h hcar ha hfull hhauled, hinv, hcontent.trans hvac.content, ?_,
    hhauled.gcCount⟩
  rw [← hm]
  exact hhauled.tally

/-- **`garbage_collection` of a full zone.** -/
theorem garbageCollection_empties (hn : 1 ≤ n) (h : Inv g K s) (hfull : (s.zone z).cond = .full) :
    Yields (garbageCollection g z s) (· = .noZone) fun s' =>
      Emptied g n (s.zone z).cf z (gcBegin g s) s' ∧
        s'.gcValidCount = s.gcValidCount + UInt32.ofNat (s.zone z).validPage.toNat ∧
        s'.gcCount = s.gcCount + 1 := by
  have halike := alike_gcBegin g s
  have hscan := scan_empties (n := n) (w := 1) (f := gcPosition g z) (c := (s.zone z).cf)
    h.gcBegin ((halike.cond z).trans hfull)
    (fun s' pos hinv hcf hz ha => by
      rw [← halike.cf, ← hcf]
      exact gcPosition_moves hinv hz ha)
    fun _ _ _ hs hok => gcPosition_hauled hn hs hok
  have heq : garbageCollection g z s
      = ((scanPositions g z).foldlM (gcPosition g z) (gcBegin g s) >>= recycleZone g z) >>=
        fun s => .ok (gcEnd z s) := by
    rw [garbageCollection, ← gcBegin]
    cases (scanPositions g z).foldlM (gcPosition g z) (gcBegin g s) with
    | error e => rfl
    | ok s' => rfl
  rw [heq]
  refine (hscan.mono (fun _ he => he.1) fun _ hs => hs).bind ?_
  rintro s' ⟨hemptied, hinv, -, htally, hcount⟩
  have hend := alike_gcEnd z s'
  have hother : ∀ i, i ≠ z → (gcEnd z s').zone i = s'.zone i := fun i hi => by
    rw [gcEnd_zone, if_neg hi]
  refine ⟨⟨?_, (hend.cond z).trans hemptied.cond,
    fun i hi => (hemptied.drift i hi).congr (hother i hi), fun i hi hne => ?_, fun i hi => ?_,
    fun i hi hne hcf => ?_, fun hs i hi => ?_⟩, ?_, ?_⟩
  · have hlast : Posted g 0 0 0 s' (gcEnd z s') := .of_same hinv.started rfl rfl hend.wp
    exact hemptied.posted.trans hlast
  · rw [hend.cf]
    exact hemptied.cf i hi hne
  · rw [hend.validPage]
    exact hemptied.gain i hi
  · rw [hend.validPage]
    exact hemptied.apart i hi hne hcf
  · rw [hend.cond] at hi
    rw [hend.wp]
    exact hemptied.filled hs i hi
  · rw [halike.validPage, Nat.one_mul] at htally
    exact htally
  · exact hcount

/-- **`cold_data_restruct` for one full zone.** -/
theorem restructZone_empties (hn : 1 ≤ n) (h : Inv g K s) (hK : K 0)
    (hfull : (s.zone z).cond = .full) :
    Yields (restructZone g s z) (· = .noZone) fun s' =>
      Emptied g n 0 z s s' ∧ Inv g K s' ∧ s'.content = s.content ∧
        s'.gcValidCount = s.gcValidCount ∧ s'.gcCount = s.gcCount := by
  have hscan := scan_empties (n := n) (w := 0) (f := restructPosition g) (c := 0) h hfull
    (fun s' pos hinv _ _ ha => restructPosition_moves hinv hK ha)
    fun _ _ _ hs hok => restructPosition_hauled hn hs hok
  refine hscan.mono (fun _ he => he.1) ?_
  rintro s' ⟨hemptied, hinv, hcontent, htally, hcount⟩
  rw [Nat.zero_mul] at htally
  exact ⟨hemptied, hinv, hcontent, htally.trans (UInt32.add_zero _), hcount⟩

/-! ## What the rates say -/

theorem cap_pages_pos (g : Geometry) : 0 < g.cap / PAGE_SIZE :=
  Nat.div_pos g.page_le_cap (by decide)

theorem cond_of_used (hused : (s.zone i).cond ≠ .empty) :
    (s.zone i).cond = .expOpen ∨ (s.zone i).cond = .full := by
  cases hc : (s.zone i).cond with
  | empty => exact absurd hc hused
  | expOpen => exact Or.inl rfl
  | full => exact Or.inr rfl

/-- A zone found to be garbage is poor, if its rate is up to date. -/
theorem poor_of_garbage (hused : (s.zone i).cond ≠ .empty)
    (hgarbage : RateTests.exact.garbage (zoneRates g i (s.zone i)).gc = true) : s.Poor g i := by
  have hpos : (0 : Rat) < (g.cap / PAGE_SIZE : Nat) := Nat.cast_pos.2 (cap_pages_pos g)
  rw [zoneRates, if_pos (cond_of_used hused)] at hgarbage
  simp only [RateTests.exact, decide_eq_true_eq] at hgarbage
  have hrate : ((s.zone i).validPage : Rat) / (g.cap / PAGE_SIZE : Nat) < 15 / 100 := by linarith
  rw [div_lt_div_iff₀ hpos (by norm_num)] at hrate
  have hlt : ((100 * (s.zone i).validPage : Int) : Rat)
      < ((15 * (g.cap / PAGE_SIZE : Nat) : Int) : Rat) := by
    rw [Int.cast_mul, Int.cast_mul, Int.cast_natCast]
    norm_num
    linarith
  exact Int.cast_lt.1 hlt

/-- **A zone found to be cold** is not much of a zone: its valid pages and its pages together are
bounded, if its rates are up to date. -/
theorem bound_of_cold (h : Inv g K s) (hused : (s.zone i).cond ≠ .empty)
    (hcold : RateTests.exact.cold (zoneRates g i (s.zone i)) = true) :
    5 * ((s.zone i).validPage.toNat * s.usedPages g i)
      ≤ 3 * (g.cap / PAGE_SIZE) * (g.cap / PAGE_SIZE + 1) := by
  set v := (s.zone i).validPage.toNat with hv
  set u := s.usedPages g i with hu
  set k := g.cap / PAGE_SIZE with hk
  have hpos : (0 : Rat) < (k : Rat) := Nat.cast_pos.2 (cap_pages_pos g)
  have hcap : (0 : Rat) < (g.cap : Rat) :=
    Nat.cast_pos.2 (lt_of_lt_of_le (by decide) g.page_le_cap)
  have hvalid : ((s.zone i).validPage : Rat) = (v : Rat) := by
    rw [hv, ← Int.cast_natCast, Int.toNat_of_nonneg (h.validPage_nonneg i)]
  have hwp : ((s.zone i).wp : Rat) - (g.ofst i : Rat) = (u : Rat) * (PAGE_SIZE : Rat) := by
    rw [h.wp_eq i]
    push_cast
    ring
  rw [zoneRates, if_pos (cond_of_used hused)] at hcold
  simp only [RateTests.exact, Bool.decide_and, Bool.and_eq_true, decide_eq_true_eq, hvalid,
    hwp] at hcold
  have hrate := hcold.2.2
  rw [sub_sub_cancel, div_mul_div_comm, div_lt_div_iff₀ (mul_pos hcap hpos) (by norm_num)] at hrate
  -- the capacity is less than a page more than the pages in it
  have hlt : (g.cap : Rat) < ((k : Rat) + 1) * (PAGE_SIZE : Rat) := by
    have := Nat.lt_mul_div_succ g.cap (show 0 < PAGE_SIZE by decide)
    rw [← hk, Nat.mul_comm] at this
    exact_mod_cast this
  have hbound : (5 * (v * u) : Rat) < 3 * (k : Rat) * ((k : Rat) + 1) := by
    have hpage : (0 : Rat) < (PAGE_SIZE : Rat) := by norm_num [PAGE_SIZE]
    have hmul := mul_lt_mul_of_pos_right hlt hpos
    have hall : (5 * (v * u) : Rat) * (PAGE_SIZE : Rat)
        < 3 * (k : Rat) * ((k : Rat) + 1) * (PAGE_SIZE : Rat) := by linarith
    exact lt_of_mul_lt_mul_right hall hpage.le
  exact Nat.le_of_lt (by exact_mod_cast hbound)

/-! ## The pass of the detector -/

/-- At most three tenths of the pages of zone `i` are valid. -/
def Light (g : Geometry) (s : Controller) (i : Nat) : Prop :=
  10 * (s.zone i).validPage ≤ 3 * (g.cap / PAGE_SIZE : Nat)

theorem Poor.light (h : s.Poor g i) : s.Light g i := by
  unfold Poor at h
  unfold Light
  generalize g.cap / PAGE_SIZE = k at h ⊢
  omega

/-- The loop of `garbage_collection_detect`, begun in state `s₁`, has reached zone `i`. Of the
zones to come those then in use still are, those then empty hold relocated pages only, and those
it would collect are poor, or were open and are light. -/
structure Sweep (g : Geometry) (s₁ s : Controller) (i : Nat) : Prop where
  used : ∀ j, i ≤ j → (s₁.zone j).cond ≠ .empty →
    (s.zone j).cond ≠ .empty ∧ (s.zone j).cf = (s₁.zone j).cf
  full : ∀ j, i ≤ j → (s₁.zone j).cond = .full → (s.zone j).cond = .full
  fresh : ∀ j, i ≤ j → (s₁.zone j).cond = .empty → s.waste g j = 0
  poor : ∀ j, i ≤ j → (s.zone j).cond = .full →
    RateTests.exact.garbage (s.zone j).rates.gc = true →
      s.Poor g j ∨ (s₁.zone j).cond = .expOpen ∧ s.Light g j

/-- The rates have just been computed. -/
def RatesNow (g : Geometry) (s : Controller) : Prop :=
  ∀ i, i < g.maxZoneNum → (s.zone i).rates.gc = (zoneRates g i (s.zone i)).gc

theorem poor_of_rates (h : Inv g K s) (hrates : s.RatesNow g) (hused : (s.zone i).cond ≠ .empty)
    (hgarbage : RateTests.exact.garbage (s.zone i).rates.gc = true) : s.Poor g i := by
  rw [hrates i (h.lt i hused)] at hgarbage
  exact poor_of_garbage hused hgarbage

theorem Sweep.begin (h : Inv g K s) (hrates : s.RatesNow g) : Sweep g s s 0 where
  used _ _ hj := ⟨hj, rfl⟩
  full _ _ hj := hj
  fresh _ _ hj := h.waste_empty hj
  poor _ _ hfull hgarbage := Or.inl (poor_of_rates h hrates (by simp [hfull]) hgarbage)

/-- The loop passes over a zone. -/
theorem Sweep.skip (h : Sweep g s₁ s i) : Sweep g s₁ s (i + 1) where
  used j hj := h.used j (Nat.le_of_succ_le hj)
  full j hj := h.full j (Nat.le_of_succ_le hj)
  fresh j hj := h.fresh j (Nat.le_of_succ_le hj)
  poor j hj := h.poor j (Nat.le_of_succ_le hj)

/-- The zone the loop is about to collect is light. -/
theorem Sweep.light (h : Sweep g s₁ s i) (hfull : (s.zone i).cond = .full)
    (hgarbage : RateTests.exact.garbage (s.zone i).rates.gc = true) : s.Light g i := by
  rcases h.poor i (le_refl i) hfull hgarbage with hpoor | ⟨-, hlight⟩
  · exact hpoor.light
  · exact hlight

/-- A zone filled by relocations to the last page has as many valid pages as it wastes none. -/
theorem Tight.valid_ge (h : Inv g K s) (htight : s.Tight g j) (hw : s.waste g j = 0) :
    ((g.cap / PAGE_SIZE : Nat) : Int) ≤ (s.zone j).validPage := by
  rw [h.waste_eq] at hw
  have hused : (s.usedPages g j : Int) = (s.zone j).validPage := by
    simp only [PAGE_SIZE] at hw
    omega
  have hlt : g.cap < (s.usedPages g j + 1) * PAGE_SIZE := by
    rw [Tight, h.wp_eq j] at htight
    rw [Nat.add_mul]
    omega
  have := (Nat.div_lt_iff_lt_mul (by decide)).2 hlt
  omega

/-- **One collection of the pass.** The rates were computed when it began, in state `r`. A zone
that has become full since was filled with the pages of this collection. -/
theorem Sweep.collect (h₁ : Inv g K s₁) (hsweep : Sweep g s₁ s i) (hinv : Inv g K r)
    (hinv' : Inv g K s') (halike : Alike s r) (hrates : r.RatesNow g)
    (hfull : (s.zone i).cond = .full)
    (hgarbage : RateTests.exact.garbage (s.zone i).rates.gc = true)
    (hemptied : Emptied g n (s.zone i).cf i r s') : Sweep g s₁ s' (i + 1) := by
  have hlight := hsweep.light hfull hgarbage
  have hpages := cap_pages_pos g
  have hcollected := hsweep.poor i (le_refl i) hfull hgarbage
  refine ⟨fun j hj hused => ?_, fun j hj hfullj => ?_, fun j hj hempty => ?_,
    fun j hj hfullj hgarbagej => ?_⟩
  · obtain ⟨hu, hcf⟩ := hsweep.used j (Nat.le_of_succ_le hj) hused
    have hr : (r.zone j).cond ≠ .empty := by rwa [halike.cond]
    exact ⟨(hemptied.drift j (Nat.ne_of_gt hj)).used hr,
      by rw [hemptied.cf j (Nat.ne_of_gt hj) hr, halike.cf, hcf]⟩
  · have hr : (r.zone j).cond = .full := by
      rw [halike.cond, hsweep.full j (Nat.le_of_succ_le hj) hfullj]
    rw [(hemptied.drift j (Nat.ne_of_gt hj)).full hr, hr]
  · rw [(hemptied.drift j (Nat.ne_of_gt hj)).waste, waste, halike.wp, halike.validPage]
    exact hsweep.fresh j (Nat.le_of_succ_le hj) hempty
  · have hji : j ≠ i := Nat.ne_of_gt hj
    have hdrift := hemptied.drift j hji
    rw [hdrift.rates] at hgarbagej
    have hgain := hemptied.gain j hji
    rw [halike.validPage i] at hgain
    unfold Light at hlight
    cases hr : (r.zone j).cond with
    | full =>
        -- it was full when the collection began, and is as it was
        have hpoor := poor_of_rates hinv hrates (by simp [hr]) hgarbagej
        refine Or.inl ?_
        rw [Poor, hdrift.full hr]
        exact hpoor
    | empty =>
        -- it has been filled from the start, by more pages than the collection moved
        have htight := (hdrift.tight hfullj).resolve_left (by simp [hr])
        have hw : s'.waste g j = 0 := by rw [hdrift.waste, hinv.waste_empty hr]
        have hge := htight.valid_ge hinv' hw
        rw [hinv.validPage_empty hr] at hgain
        omega
    | expOpen =>
        have hpoor := poor_of_rates hinv hrates (by simp [hr]) hgarbagej
        unfold Poor at hpoor
        have htight := (hdrift.tight hfullj).resolve_left (by simp [hr])
        cases h₁j : (s₁.zone j).cond with
        | full =>
            have := hsweep.full j (Nat.le_of_succ_le hj) h₁j
            rw [← halike.cond, hr] at this
            cases this
        | empty =>
            -- it holds relocated pages only, too few of them
            have hw : s'.waste g j = 0 := by
              rw [hdrift.waste, waste, halike.wp, halike.validPage]
              exact hsweep.fresh j (Nat.le_of_succ_le hj) h₁j
            have hge := htight.valid_ge hinv' hw
            omega
        | expOpen =>
            rcases hcollected with hpoori | ⟨h₁i, -⟩
            · unfold Poor at hpoori
              refine Or.inr ⟨rfl, ?_⟩
              unfold Light
              omega
            -- zone `i` was open at the beginning too, so this one is of another cluster
            · refine Or.inl ?_
              have hcfi := (hsweep.used i (le_refl i) (by simp [h₁i])).2
              have hcfj := (hsweep.used j (Nat.le_of_succ_le hj) (by simp [h₁j])).2
              have hne : (r.zone j).cf ≠ (s.zone i).cf := by
                rw [halike.cf, hcfi, hcfj]
                exact fun heq => hji (h₁.one_open j i h₁j h₁i heq)
              rw [Poor, hemptied.apart j hji (by simp [hr]) hne]
              exact hpoor

/-! ## The account of a run -/

/-- **The account** of a run that began in state `s₀` and has sent `own` pages of its callers, in
clusters of `n` at most: each page sent beyond those has been moved by one of the collections `gcs`
or of the restructurings `cds`, and `gc_count` and `gc_valid_count` are the collections and the
pages they have moved. -/
structure Worn (g : Geometry) (n : Nat) (cdOn : Prop) (own : Nat) (gcs cds : List Emptying)
    (s₀ s : Controller) : Prop where
  filled : s.Filled g n
  collected : ∀ r ∈ gcs, r.Collected g n
  restructured : ∀ r ∈ cds, r.Restructured g n
  still : ¬ cdOn → cds = []
  gcCount : s.gcCount = Int32.ofNat gcs.length
  gcValidCount : s.gcValidCount = UInt32.ofNat (movedBy gcs)
  posted : Posted g own (movedBy gcs + movedBy cds) (erasedBy g gcs + erasedBy g cds) s₀ s

theorem Worn.init (g : Geometry) (n : Nat) (cdOn : Prop) (rates : Nat → Rates) :
    Worn g n cdOn 0 [] [] (.init g rates) (.init g rates) where
  filled i hi := by cases hi
  collected r hr := by cases hr
  restructured r hr := by cases hr
  still _ := rfl
  gcCount := rfl
  gcValidCount := rfl
  posted := .refl (started_init g rates)

/-- Neither the rates nor the flags are in the account. -/
theorem Worn.congr (h : Worn g n cdOn own gcs cds s₀ s) (halike : Alike s s')
    (hlog : s'.pwrites = s.pwrites) (hcount : s'.writeCount = s.writeCount)
    (htally : Untallied s s') : Worn g n cdOn own gcs cds s₀ s' where
  filled i hi := by
    rw [halike.cond] at hi
    rw [halike.wp]
    exact h.filled i hi
  collected := h.collected
  restructured := h.restructured
  still := h.still
  gcCount := htally.2.trans h.gcCount
  gcValidCount := htally.1.trans h.gcValidCount
  posted := by
    have hsame : Posted g 0 0 0 s s' := .of_same h.posted.started hlog hcount halike.wp
    exact h.posted.trans hsame

/-- A writer enters the pages of its caller. -/
theorem Worn.write (h : Worn g n cdOn own gcs cds s₀ s) {k : Nat} (hran : Ran g cf k s s')
    (hk : k ≤ n) (htally : Untallied s s') : Worn g n cdOn (own + k) gcs cds s₀ s' where
  filled := (hran.advanced hk).filled h.filled
  collected := h.collected
  restructured := h.restructured
  still := h.still
  gcCount := htally.2.trans h.gcCount
  gcValidCount := htally.1.trans h.gcValidCount
  posted := h.posted.trans (hran.posted h.posted.started)

/-- A zone emptied, from a state that is alike to one before, as a relocation from there. -/
theorem Emptied.moved (h : Emptied g n c z r s') (halike : Alike s r)
    (hlog : r.pwrites = s.pwrites) :
    (Emptying.mk z s s').moved = (s.zone z).validPage.toNat := by
  have hsent := h.posted.sent
  have hbefore : r.pagesSent = s.pagesSent := by rw [pagesSent, pagesSent, hlog]
  rw [halike.validPage] at hsent
  show s'.pagesSent - s.pagesSent = _
  omega

/-- A collection, begun in state `r`, of a zone that is light. -/
theorem Worn.collect (h : Worn g n cdOn own gcs cds s₀ s) (hinv : Inv g K s) (halike : Alike s r)
    (hlog : r.pwrites = s.pwrites) (hcount : r.writeCount = s.writeCount)
    (hfull : (s.zone z).cond = .full) (hlight : s.Light g z) (hemptied : Emptied g n c z r s')
    (hvalid : s'.gcValidCount = s.gcValidCount + UInt32.ofNat (s.zone z).validPage.toNat)
    (hgcs : s'.gcCount = s.gcCount + 1) :
    Worn g n cdOn own (gcs ++ [⟨z, s, s'⟩]) cds s₀ s' := by
  have hmoved := hemptied.moved halike hlog
  have hused : r.usedPages g z = s.usedPages g z := usedPages_congr (halike.wp z)
  refine ⟨hemptied.filled fun i hi => ?_, fun e he => ?_, h.restructured, h.still, ?_, ?_, ?_⟩
  · rw [halike.cond] at hi
    rw [halike.wp]
    exact h.filled i hi
  · rcases List.mem_append.1 he with he | he
    · exact h.collected e he
    · obtain rfl := List.mem_singleton.1 he
      refine ⟨⟨hfull, hemptied.cond, h.filled.used_ge hinv hfull⟩, ?_⟩
      rw [hmoved]
      have hnonneg := hinv.validPage_nonneg z
      unfold Light at hlight
      generalize g.cap / PAGE_SIZE = k at hlight ⊢
      omega
  · rw [hgcs, h.gcCount, List.length_append, List.length_singleton, Int32.ofNat_add]
    rfl
  · rw [hvalid, h.gcValidCount, movedBy_concat, hmoved, UInt32.ofNat_add]
  · have hbegin : Posted g 0 0 0 s r := .of_same h.posted.started hlog hcount halike.wp
    have hall := (h.posted.trans hbegin).trans hemptied.posted
    rw [movedBy_concat, erasedBy_concat, hmoved]
    show Posted g own _ (erasedBy g gcs + s.usedPages g z + erasedBy g cds) s₀ s'
    rw [hused, halike.validPage] at hall
    convert hall using 1 <;> omega

/-- A zone that is cold is restructured. -/
theorem Worn.restruct (h : Worn g n cdOn own gcs cds s₀ s) (hcd : cdOn) (hinv : Inv g K s)
    (hfull : (s.zone z).cond = .full)
    (hbound : 5 * ((s.zone z).validPage.toNat * s.usedPages g z)
      ≤ 3 * (g.cap / PAGE_SIZE) * (g.cap / PAGE_SIZE + 1))
    (hemptied : Emptied g n c z s s') (htally : Untallied s s') :
    Worn g n cdOn own gcs (cds ++ [⟨z, s, s'⟩]) s₀ s' := by
  have hmoved := hemptied.moved (Alike.refl s) rfl
  refine ⟨hemptied.filled h.filled, h.collected, fun e he => ?_, fun hno => absurd hcd hno,
    htally.2.trans h.gcCount, htally.1.trans h.gcValidCount, ?_⟩
  · rcases List.mem_append.1 he with he | he
    · exact h.restructured e he
    · obtain rfl := List.mem_singleton.1 he
      refine ⟨⟨hfull, hemptied.cond, h.filled.used_ge hinv hfull⟩, ?_⟩
      rw [hmoved]
      exact hbound
  · have hall := h.posted.trans hemptied.posted
    rw [movedBy_concat, erasedBy_concat, hmoved]
    show Posted g own _ (erasedBy g gcs + (erasedBy g cds + s.usedPages g z)) s₀ s'
    convert hall using 1 <;> omega

/-! ## The detectors -/

theorem ratesNow_getGcInfo (s : Controller) : (s.getGcInfo g).RatesNow g := by
  intro i hi
  have hz : (s.getGcInfo g).zone i = { s.zone i with rates := zoneRates g i (s.zone i) } := by
    simp only [getGcInfo, if_pos hi]
  rw [hz]
  simp only [zoneRates]
  split
  · rfl
  · rfl

theorem ratesNow_gcBegin (s : Controller) : (gcBegin g s).RatesNow g := ratesNow_getGcInfo _

/-- **One zone of the pass.** -/
theorem detectZone_worn {t : RateTests} (ht : t.garbage = RateTests.exact.garbage) (hn : 1 ≤ n)
    (h₁ : Inv g K s₁) (h : Inv g K s) (hw : Worn g n cdOn own gcs cds s₀ s)
    (hsweep : Sweep g s₁ s i) :
    Yields (detectZone g t s i) (· = .noZone) fun s' =>
      Inv g K s' ∧ Worn g n cdOn own (gcs ++ detectCollects t i s s') cds s₀ s' ∧
        Sweep g s₁ s' (i + 1) := by
  rw [detectZone]
  split
  case isFalse hno =>
    refine ⟨h, ?_, hsweep.skip⟩
    rw [detectCollects, if_neg hno, List.append_nil]
    exact hw
  case isTrue hgarbage =>
    have hone : ∀ s', detectCollects t i s s' = [⟨i, s, s'⟩] := fun s' => if_pos hgarbage
    obtain ⟨hfull, hgarbage, -⟩ := hgarbage
    rw [ht] at hgarbage
    set sf := s.modifyZone i fun d => { d with inGc := true } with hsf
    have halike₀ : Alike s sf := alike_modifyZone s i _ fun _ => ⟨rfl, rfl, rfl, rfl⟩
    have hinv₀ : Inv g K sf := h.modifyZone i _ fun _ => ⟨rfl, rfl, rfl, rfl⟩
    have hfull₀ : (sf.zone i).cond = .full := (halike₀.cond i).trans hfull
    have halike : Alike s (gcBegin g sf) := halike₀.trans (alike_gcBegin g sf)
    refine (garbageCollection_spec hinv₀ i).imp_ok fun s' hs' hspec => ?_
    obtain ⟨hemptied, hvalid, hgcs⟩ := (garbageCollection_empties hn hinv₀ hfull₀).of_ok hs'
    rw [halike₀.cf] at hemptied
    rw [halike₀.validPage] at hvalid
    refine ⟨hspec.1, ?_, ?_⟩
    · rw [hone]
      exact hw.collect h halike rfl rfl hfull (hsweep.light hfull hgarbage) hemptied hvalid hgcs
    · exact hsweep.collect h₁ hinv₀.gcBegin hspec.1 halike (ratesNow_gcBegin sf) hfull hgarbage
        hemptied

/-- **The pass**, of which the zones `zs` are left. -/
theorem detectZones_worn {t : RateTests} (ht : t.garbage = RateTests.exact.garbage) (hn : 1 ≤ n)
    (h₁ : Inv g K s₁) (h : Inv g K s) (hw : Worn g n cdOn own gcs cds s₀ s)
    (hsweep : Sweep g s₁ s i) (hzs : zs = List.range' i zs.length) :
    Yields (zs.foldlM (detectZone g t) s) (· = .noZone) fun s' =>
      Worn g n cdOn own (gcs ++ passCollects g t zs s) cds s₀ s' := by
  induction zs generalizing s gcs i with
  | nil =>
      show Worn g n cdOn own (gcs ++ []) cds s₀ s
      rw [List.append_nil]
      exact hw
  | cons z zs ih =>
      rw [List.length_cons, List.range'_succ, List.cons.injEq] at hzs
      obtain ⟨rfl, hzs⟩ := hzs
      rw [List.foldlM_cons]
      refine (detectZone_worn ht hn h₁ h hw hsweep).bind_of_ok ?_
      rintro s' hs' ⟨hinv, hw', hsweep'⟩
      have hpass : passCollects g t (z :: zs) s
          = detectCollects t z s s' ++ passCollects g t zs s' := gather_cons hs' zs
      rw [hpass, ← List.append_assoc]
      exact ih hinv hw' hsweep' hzs

/-- **`garbage_collection_detect`**, with the collections it starts. -/
theorem garbageCollectionDetect_worn {t : RateTests}
    (ht : t.garbage = RateTests.exact.garbage) (hn : 1 ≤ n) (h : Inv g K s) (hidle : s.Idle)
    (hw : Worn g n cdOn own gcs cds s₀ s) :
    Yields (garbageCollectionDetect g t s) (· = .noZone) fun s' =>
      Worn g n cdOn own (gcs ++ (Op.garbageCollectionDetect t).collects g s s') cds s₀ s' := by
  set s₁ := s.getGcInfo g with hs₁
  rw [garbageCollectionDetect, if_neg (by simp [hidle.cd])]
  dsimp only
  rw [← hs₁, if_neg (by simp [hs₁, getGcInfo, hidle.gc])]
  have hall : ∀ s', (Op.garbageCollectionDetect t).collects g s s'
      = passCollects g t (List.range g.maxZoneNum) s₁ := fun s' =>
    if_neg (by simp [hidle.gc])
  simp only [hall]
  refine detectZones_worn ht hn h.getGcInfo h.getGcInfo
    (hw.congr (alike_getGcInfo g s) rfl rfl ⟨rfl, rfl⟩)
    (Sweep.begin h.getGcInfo (ratesNow_getGcInfo s)) ?_
  rw [List.length_range, List.range_eq_range']

/-- **`cold_data_restruct`** of different full zones, each of them found cold. -/
theorem restructZones_worn (hcd : cdOn) (hn : 1 ≤ n) (h : Inv g K s)
    (hK : K 0) (hw : Worn g n cdOn own gcs cds s₀ s) (hnodup : zs.Nodup)
    (hfull : ∀ z ∈ zs, (s.zone z).cond = .full)
    (hbound : ∀ z ∈ zs, 5 * ((s.zone z).validPage.toNat * s.usedPages g z)
      ≤ 3 * (g.cap / PAGE_SIZE) * (g.cap / PAGE_SIZE + 1)) :
    Yields (zs.foldlM (restructZone g) s) (· = .noZone) fun s' =>
      Worn g n cdOn own gcs (cds ++ restructs g zs s) s₀ s' := by
  induction zs generalizing s cds with
  | nil =>
      show Worn g n cdOn own gcs (cds ++ []) s₀ s
      rw [List.append_nil]
      exact hw
  | cons z zs ih =>
      obtain ⟨hnot, hnodup⟩ := List.nodup_cons.1 hnodup
      have hfullz := hfull z List.mem_cons_self
      rw [List.foldlM_cons]
      refine (restructZone_empties hn h hK hfullz).bind_of_ok ?_
      rintro s' hs' ⟨hemptied, hinv', -, htally⟩
      have hw' := hw.restruct hcd h hfullz (hbound z List.mem_cons_self) hemptied htally
      -- the zones left to restructure are other ones, and stay as they are
      have hsame : ∀ i ∈ zs, s'.zone i = s.zone i := by
        intro i hi
        refine (hemptied.drift i ?_).full (hfull i (List.mem_cons_of_mem z hi))
        rintro rfl
        exact hnot hi
      have hrest : restructs g (z :: zs) s = [⟨z, s, s'⟩] ++ restructs g zs s' :=
        gather_cons hs' zs
      rw [hrest, ← List.append_assoc]
      refine ih hinv' hw' hnodup (fun i hi => ?_) fun i hi => ?_
      · rw [hsame i hi]
        exact hfull i (List.mem_cons_of_mem z hi)
      · rw [usedPages, hsame i hi]
        exact hbound i (List.mem_cons_of_mem z hi)

/-- **`cd_detect`**, with the restructuring it starts. -/
theorem cdDetect_worn {t : RateTests} (hcd : cdOn) (ht : t.cold = RateTests.exact.cold)
    (hn : 1 ≤ n) (h : Inv g K s) (hK : K 0) (hidle : s.Idle)
    (hw : Worn g n cdOn own gcs cds s₀ s) :
    Yields (cdDetect g t s) (· = .noZone) fun s' =>
      Worn g n cdOn own gcs (cds ++ (Op.cdDetect t).restructs g s s') s₀ s' := by
  have hend : ∀ cds s', Worn g n cdOn own gcs cds s₀ s' →
      Worn g n cdOn own gcs cds s₀ ((s'.getGcInfo g).keepRates g) := fun cds s' hs' =>
    (hs'.congr (alike_getGcInfo g s') rfl rfl ⟨rfl, rfl⟩).congr (alike_keepRates g _) rfl rfl
      ⟨rfl, rfl⟩
  have hw₁ := hw.congr (alike_getGcInfo g s) rfl rfl ⟨rfl, rfl⟩
  rw [cdDetect, if_neg (by simp [hidle.gc]), if_neg (by simp [hidle.cd])]
  dsimp only [Op.restructs]
  split
  case isFalse =>
    rw [List.append_nil]
    exact hend _ _ hw₁
  case isTrue =>
    set s₁ := s.getGcInfo g with hs₁
    set s₂ : Controller := { s₁ with cd := true, cdCount := s₁.cdCount + 1 } with hs₂
    have hinv₂ : Inv g K s₂ := h.getGcInfo.counters rfl rfl rfl rfl rfl
    have hw₂ : Worn g n cdOn own gcs cds s₀ s₂ :=
      hw₁.congr ⟨rfl, rfl, fun _ => rfl, fun _ => rfl, fun _ => rfl, fun _ => rfl⟩ rfl rfl
        ⟨rfl, rfl⟩
    have hcold : ∀ z ∈ s₁.coldZones g t, (s₁.zone z).cond = .full ∧
        RateTests.exact.cold (s₁.zone z).rates = true := by
      intro z hz
      have htest := (List.mem_filter.1 hz).2
      rw [Bool.and_eq_true, decide_eq_true_eq, ht] at htest
      exact htest
    -- the rates tested have just been computed
    have hbound : ∀ z ∈ s₁.coldZones g t, 5 * ((s₂.zone z).validPage.toNat * s₂.usedPages g z)
        ≤ 3 * (g.cap / PAGE_SIZE) * (g.cap / PAGE_SIZE + 1) := by
      intro z hz
      obtain ⟨hfull, htest⟩ := hcold z hz
      have hused : (s.zone z).cond ≠ .empty := by
        rw [← (alike_getGcInfo g s).cond, hfull]
        simp
      have hrates : (s₁.zone z).rates = zoneRates g z (s.zone z) := by
        rw [hs₁]
        simp only [getGcInfo, if_pos (h.lt z hused)]
      rw [hrates] at htest
      have hvalid : (s₂.zone z).validPage = (s.zone z).validPage :=
        (alike_getGcInfo g s).validPage z
      have hpages : s₂.usedPages g z = s.usedPages g z :=
        usedPages_congr ((alike_getGcInfo g s).wp z)
      rw [hvalid, hpages]
      exact bound_of_cold h hused htest
    have hloop := restructZones_worn hcd hn hinv₂ hK hw₂ (List.nodup_range.filter _)
      (fun z hz => (hcold z hz).1) hbound
    rw [coldDataRestruct, bind_assoc]
    refine hloop.bind fun s₃ hw₃ => ?_
    refine hend _ _ (hw₃.congr ?_ rfl rfl ⟨rfl, rfl⟩)
    exact ⟨rfl, rfl, fun _ => rfl, fun _ => rfl, fun _ => rfl, fun _ => rfl⟩

/-! ## Runs -/

theorem writePage_untallied {attempts : Nat} {p : PageId} {b : Page}
    (h : writePage g attempts cf p b s = .ok s') : Untallied s s' := by
  cases attempts with
  | zero => cases h
  | succ attempts =>
      obtain ⟨z, s₁, hsel, hbody⟩ := choose_any (writePage g attempts cf p b)
        (fun z => writePageLocked g z p b) h
      rw [writePageLocked_eq] at hbody
      obtain ⟨s₂, happ, hbody⟩ := bind_eq_ok.1 hbody
      cases hbody
      have hstored : Untallied s₁ s₂ := untallied_appendOne happ
      exact (untallied_selected hsel).trans hstored

theorem createNewPage_untallied {attempts : Nat} {p : PageId} {b : Page}
    (h : createNewPage g attempts p b s = .ok s') : Untallied s s' := by
  obtain ⟨z, s₁, hsel, hbody⟩ := choose_any (writePage g attempts 0 p b)
    (fun z => createNewPageLocked g z p b) h
  rw [createNewPageLocked_eq] at hbody
  obtain ⟨s₂, hmap, hbody⟩ := bind_eq_ok.1 hbody
  cases hbody
  rw [mapNew, setPageAddr_eq] at hmap
  obtain ⟨v, w, rfl⟩ := setValid_frame g hmap
  exact (untallied_selected hsel).trans ⟨rfl, rfl⟩

theorem writeCluster_untallied {attempts : Nat} {buf : List Page} {pl : List PageId}
    (hlen : buf.length = pl.length) (h : writeCluster g attempts cf buf pl s = .ok s') :
    Untallied s s' := by
  cases attempts with
  | zero => cases h
  | succ attempts =>
      obtain ⟨z, s₁, hsel, hbody⟩ := choose_any (writeCluster g attempts cf buf pl)
        (fun z => writeClusterLocked g z buf pl) h
      refine (untallied_selected hsel).trans ?_
      rw [writeClusterLocked] at hbody
      obtain ⟨s₂, hmap, hbody⟩ := bind_eq_ok.1 hbody
      cases hbody
      rw [mapCluster_eq] at hmap
      obtain ⟨t, v, w, rfl⟩ := foldlM_remapFrom_frame hmap
      have hbatches := storeBatches_induct (g := g)
        (P := fun _ s' => Untallied (s₁.withBook t v w) s') z buf (s₁.withBook t v w) ⟨rfl, rfl⟩
        fun _ _ _ _ hs' => hs'.trans ⟨rfl, rfl⟩
      rw [hlen] at hbatches
      exact hbatches

end Controller

namespace Op

/-- The calls the program makes, with clusters of at most `n` pages and detectors that compare
exactly. It calls the relocations through the detectors only, `cd_detect` if `cdOn`. -/
def Driven (n : Nat) (cdOn : Prop) : Op → Prop
  | writeCluster _ _ pageList => pageList.length ≤ n
  | garbageCollection _ => False
  | coldDataRestruct _ => False
  | garbageCollectionDetect t => t.garbage = RateTests.exact.garbage
  | cdDetect t => cdOn ∧ t.cold = RateTests.exact.cold
  | _ => True

end Op

namespace Controller

variable {g : Geometry} {n own : Nat} {cdOn : Prop} {gcs cds : List Emptying}
  {s₀ s s' : Controller} {m : Contents} {op : Op}

theorem Worn.append_nil (h : Worn g n cdOn own gcs cds s₀ s) :
    Worn g n cdOn own (gcs ++ []) (cds ++ []) s₀ s := by
  rw [List.append_nil, List.append_nil]
  exact h

/-- **One call.** -/
theorem step_worn (hn : 1 ≤ n) (hsim : Sim g (fun _ => True) s m) (hpre : op.Pre g m)
    (hop : op.Driven n cdOn) (h : step g op s = .ok s') (hw : Worn g n cdOn own gcs cds s₀ s) :
    Worn g n cdOn (own + op.own) (gcs ++ op.collects g s s') (cds ++ op.restructs g s s')
      s₀ s' := by
  cases op with
  | createNewPage p b =>
      exact (hw.write (createNewPage_ran h) hn (createNewPage_untallied h)).append_nil
  | writePage cf p b => exact (hw.write (writePage_ran h) hn (writePage_untallied h)).append_nil
  | writePageGc cf p b =>
      exact (hw.write (writePageGc_ran h) hn (writePageGc_untallied h)).append_nil
  | writeCluster cf buf pageList =>
      have hlen : (Op.writeCluster cf buf pageList).own = pageList.length := by
        simp only [Op.own, Op.writes, List.length_zip, hpre.1, Nat.min_self]
      rw [hlen]
      exact (hw.write (writeCluster_ran hpre.1 h) hop
        (writeCluster_untallied hpre.1 h)).append_nil
  | garbageCollection z => exact hop.elim
  | coldDataRestruct restruct => exact hop.elim
  | garbageCollectionDetect t =>
      show Worn g n cdOn own _ (cds ++ []) s₀ s'
      rw [List.append_nil]
      exact (garbageCollectionDetect_worn hop hn hsim.inv hsim.idle hw).of_ok h
  | cdDetect t =>
      show Worn g n cdOn own (gcs ++ []) _ s₀ s'
      rw [List.append_nil]
      exact (cdDetect_worn hop.1 hop.2 hn hsim.inv trivial hsim.idle hw).of_ok h
  | readPage p =>
      obtain ⟨r, hread, h⟩ := bind_eq_ok.1 h
      cases h
      rw [readPage] at hread
      obtain ⟨a, -, hread⟩ := bind_eq_ok.1 hread
      obtain ⟨b, -, hread⟩ := bind_eq_ok.1 hread
      cases hread
      have hw' : Worn g n cdOn own gcs cds s₀ s.incIoCount :=
        hw.congr ⟨rfl, rfl, fun _ => rfl, fun _ => rfl, fun _ => rfl, fun _ => rfl⟩ rfl rfl
          ⟨rfl, rfl⟩
      exact hw'.append_nil

theorem run_worn {ops : List Op} (hn : 1 ≤ n) (hops : ∀ op ∈ ops, op.Driven n cdOn)
    (hl : Legal (Op.Pre g) Op.spec ops m) (hsim : Sim g (fun _ => True) s m)
    (h : run (step g) ops s = .ok s') (hw : Worn g n cdOn own gcs cds s₀ s) :
    Worn g n cdOn (own + ownPages ops) (gcs ++ collections g ops s)
      (cds ++ restructurings g ops s) s₀ s' := by
  induction ops generalizing s m own gcs cds with
  | nil =>
      cases h
      exact hw.append_nil
  | cons op ops ih =>
      obtain ⟨hpre, hl⟩ := hl
      rw [run_cons] at h
      obtain ⟨s₁, hop, h⟩ := bind_eq_ok.1 h
      have hw₁ := step_worn hn hsim hpre (hops op List.mem_cons_self) hop hw
      have hsim₁ : Sim g (fun _ => True) s₁ (op.spec m) :=
        (step_spec trivial (fun _ _ => trivial) hsim hpre (by cases op <;> trivial)).of_ok hop
      have hown : own + ownPages (op :: ops) = own + op.own + ownPages ops := by
        rw [ownPages, List.map_cons, List.sum_cons, ownPages, Nat.add_assoc]
      have hgcs : collections g (op :: ops) s = op.collects g s s₁ ++ collections g ops s₁ :=
        gather_cons hop ops
      have hcds : restructurings g (op :: ops) s
          = op.restructs g s s₁ ++ restructurings g ops s₁ := gather_cons hop ops
      rw [hown, hgcs, hcds, ← List.append_assoc, ← List.append_assoc]
      exact ih (fun op hop => hops op (List.mem_cons_of_mem _ hop)) hl hsim₁ h hw₁

/-- **What the relocations of a run have cost**, the collections `gcs` and the restructurings `cds`.
With the `own` pages of the callers the device has been sent those they moved, and it still holds
what they have not erased. -/
structure Cost (g : Geometry) (n : Nat) (cdOn : Prop) (own : Nat) (gcs cds : List Emptying)
    (s : Controller) : Prop where
  collected : ∀ r ∈ gcs, r.Collected g n
  restructured : ∀ r ∈ cds, r.Restructured g n
  still : ¬ cdOn → cds = []
  garbage : 10 * (g.cap / PAGE_SIZE + 1 - n) * movedBy gcs
    ≤ 3 * (g.cap / PAGE_SIZE) * erasedBy g gcs
  cold : 5 * (g.cap / PAGE_SIZE + 1 - n) * (g.cap / PAGE_SIZE + 1 - n) * movedBy cds
    ≤ 3 * (g.cap / PAGE_SIZE) * (g.cap / PAGE_SIZE + 1) * erasedBy g cds
  gcCount : s.gcCount = Int32.ofNat gcs.length
  gcValidCount : s.gcValidCount = UInt32.ofNat (movedBy gcs)
  sent : s.pagesSent = own + (movedBy gcs + movedBy cds)
  held : s.pagesHeld g + (erasedBy g gcs + erasedBy g cds) = s.pagesSent

/-- Collections and restructurings together. -/
theorem Cost.moved_le (h : Cost g n cdOn own gcs cds s) :
    5 * (g.cap / PAGE_SIZE + 1 - n) * (g.cap / PAGE_SIZE + 1 - n) * (movedBy gcs + movedBy cds)
      ≤ 3 * (g.cap / PAGE_SIZE) * (g.cap / PAGE_SIZE + 1) * (erasedBy g gcs + erasedBy g cds) := by
  have hfull : g.cap / PAGE_SIZE + 1 - n ≤ g.cap / PAGE_SIZE + 1 := Nat.sub_le _ _
  have hgarbage := h.garbage
  have hcold := h.cold
  generalize g.cap / PAGE_SIZE = P at hfull hgarbage hcold ⊢
  generalize P + 1 - n = U at hfull hgarbage hcold ⊢
  have hgcs : 5 * U * U * movedBy gcs ≤ 3 * P * (P + 1) * erasedBy g gcs := by
    calc 5 * U * U * movedBy gcs ≤ 10 * U * U * movedBy gcs :=
          Nat.mul_le_mul_right _ (Nat.mul_le_mul_right U (Nat.mul_le_mul_right U (by omega)))
      _ = 10 * U * movedBy gcs * U := by ring
      _ ≤ 3 * P * erasedBy g gcs * (P + 1) := Nat.mul_le_mul hgarbage hfull
      _ = 3 * P * (P + 1) * erasedBy g gcs := by ring
  rw [Nat.mul_add, Nat.mul_add]
  exact Nat.add_le_add hgcs hcold

/-- Nothing is restructured. -/
theorem Cost.collected_le (h : Cost g n cdOn own gcs cds s) (hoff : ¬ cdOn) :
    10 * (g.cap / PAGE_SIZE + 1 - n) * (movedBy gcs + movedBy cds)
      ≤ 3 * (g.cap / PAGE_SIZE) * (erasedBy g gcs + erasedBy g cds) := by
  rw [h.still hoff, movedBy_nil, erasedBy_nil, Nat.add_zero, Nat.add_zero]
  exact h.garbage

theorem Worn.cost {rates : Nat → Rates} (h : Worn g n cdOn own gcs cds (.init g rates) s) :
    Cost g n cdOn own gcs cds s where
  collected := h.collected
  restructured := h.restructured
  still := h.still
  garbage := movedBy_collected h.collected
  cold := movedBy_restructured h.restructured
  gcCount := h.gcCount
  gcValidCount := h.gcValidCount
  sent := by
    have hsent := h.posted.sent
    rw [show (Controller.init g rates).pagesSent = 0 from rfl] at hsent
    omega
  held := by
    have hsent := h.posted.sent
    rw [show (Controller.init g rates).pagesSent = 0 from rfl] at hsent
    have hheld := h.posted.held
    rw [pagesHeld_init] at hheld
    omega

/-- **The relocations of every run are paid for.** Each collection moves at most three tenths of a
zone, whatever the age of the rates, and erases a zone that was full. -/
theorem cost_run (g : Geometry) (rates : Nat → Rates) (n : Nat) (hn : 1 ≤ n) (cdOn : Prop)
    (ops : List Op) (hl : Legal (Op.Pre g) Op.spec ops .empty)
    (hops : ∀ op ∈ ops, op.Driven n cdOn) :
    Yields (run (step g) ops (Controller.init g rates)) (· = .noZone) fun s =>
      Cost g n cdOn (ownPages ops) (collections g ops (.init g rates))
        (restructurings g ops (.init g rates)) s := by
  refine (run_spec_any rates ops hl).imp_ok fun s hs _ => ?_
  have hworn := run_worn hn hops hl (Sim.init g _ rates) hs (Worn.init g n cdOn rates)
  rw [Nat.zero_add, List.nil_append, List.nil_append] at hworn
  exact hworn.cost

/-- Zone 0 is filled, both of its pages are rewritten, and the detector collects it. -/
@[irreducible] def rewritingOps : List Op :=
  [.createNewPage 7 (frameOf 7 1), .createNewPage 8 (frameOf 8 2), .createNewPage 9 (frameOf 9 3),
    .writePage 0 7 (frameOf 7 4), .writePage 0 8 (frameOf 8 5),
    .garbageCollectionDetect .exact, .cdDetect .exact]

theorem cost_run_rewritten : ∃ s, run (step .small) rewritingOps smallStart = .ok s ∧
    s.gcCount = 1 ∧ Cost .small 1 True (ownPages rewritingOps)
      (collections .small rewritingOps smallStart) (restructurings .small rewritingOps smallStart)
      s := by
  have hops : ∀ op ∈ rewritingOps, op.Driven 1 True := by
    unfold rewritingOps
    simp [Op.Driven]
  obtain ⟨s, hs, hcount⟩ : ∃ s, run (step .small) rewritingOps smallStart = .ok s ∧
      s.gcCount = 1 := exists_ok_of_decide (by decide +kernel)
  exact ⟨s, hs, hcount, (cost_run .small (fun _ => ⟨0, 0, 0⟩) 1 (le_refl 1) True rewritingOps
    (by decide +kernel) hops).of_ok hs⟩

end Controller

end ZoneBuffer
