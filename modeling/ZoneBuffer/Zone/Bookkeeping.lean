import ZoneBuffer.Zone.Controller
import ZoneBuffer.Lib.Outcome
import ZoneBuffer.Lib.TrueCount

set_option autoImplicit false

/-! # Table, bitmap and counters

`set_page_addr` and `set_valid` are called by every writer, always in the same pattern: clear
the bit of the page's old address, map the page to a new one, set the bit there. `remap` is
that pattern for a page already mapped, `mapNew` the part of it a fresh page needs. `Book`
ties the table, the bitmap and the counters together; `remap_spec` and `mapNew_spec` say what
the two patterns do to them. -/

namespace ZoneBuffer

open Outcome TrueCount

namespace Controller

variable (g : Geometry)

/-- The state `s` with another table, bitmap and valid-page counts. -/
def withBook (s : Controller) (table : PartialMap PageId Nat) (metaPage : Nat → Bool)
    (valid : Nat → Int) : Controller :=
  { s with
    table := table
    metaPage := metaPage
    zone := fun i => { s.zone i with validPage := valid i } }

@[simp] theorem withBook_table (s : Controller) (t : PartialMap PageId Nat) (m : Nat → Bool)
    (v : Nat → Int) : (s.withBook t m v).table = t := rfl

@[simp] theorem withBook_metaPage (s : Controller) (t : PartialMap PageId Nat) (m : Nat → Bool)
    (v : Nat → Int) : (s.withBook t m v).metaPage = m := rfl

@[simp] theorem withBook_zone (s : Controller) (t : PartialMap PageId Nat) (m : Nat → Bool)
    (v : Nat → Int) (i : Nat) :
    (s.withBook t m v).zone i = { s.zone i with validPage := v i } := rfl

@[simp] theorem withBook_pwrites (s : Controller) (t : PartialMap PageId Nat) (m : Nat → Bool)
    (v : Nat → Int) : (s.withBook t m v).pwrites = s.pwrites := rfl

/-! ## The two functions -/

theorem getPageAddr_of_some {s : Controller} {p : PageId} {a : Nat} (h : s.table p = some a) :
    s.getPageAddr p = .ok a := by
  rw [getPageAddr, h]

theorem setPageAddr_eq (s : Controller) (p : PageId) (a : Nat) :
    s.setPageAddr p a = { s with table := s.table.insertOrAssign p a } := by
  unfold setPageAddr
  cases h : s.table p with
  | none => simp only [PartialMap.insert_of_none h]
  | some b =>
      simp only [PartialMap.insert_of_none (PartialMap.erase_self s.table p)]
      simp only [PartialMap.insertOrAssign, PartialMap.erase, Function.update_idem]

@[simp] theorem getPageAddr_setPageAddr (s : Controller) (p : PageId) (a : Nat) :
    (s.setPageAddr p a).getPageAddr p = .ok a :=
  getPageAddr_of_some (by rw [setPageAddr_eq]; exact PartialMap.insertOrAssign_self ..)

/-- The count of a zone after one of its bits changes by `d`. -/
def bumpValid (s : Controller) (a : Nat) (d : Int) : Nat → Int :=
  fun i => if i = a / g.zoneSize then (s.zone i).validPage + d else (s.zone i).validPage

theorem modifyZone_validPage (s : Controller) (a : Nat) (d : Int) (m : Nat → Bool) :
    ({ s.modifyZone (a / g.zoneSize) (fun z => { z with validPage := z.validPage + d }) with
        metaPage := m } : Controller) = s.withBook s.table m (s.bumpValid g a d) := by
  have hzone : Function.update s.zone (a / g.zoneSize)
      { s.zone (a / g.zoneSize) with validPage := (s.zone (a / g.zoneSize)).validPage + d }
        = fun i => { s.zone i with validPage := s.bumpValid g a d i } := by
    funext i
    unfold bumpValid
    by_cases hi : i = a / g.zoneSize
    · rw [hi, Function.update_self, if_pos rfl]
    · rw [Function.update_of_ne hi, if_neg hi]
  simp only [modifyZone, withBook, hzone]

/-- `set_valid` fails exactly when the bit has the value it is given. -/
theorem setValid_eq (s : Controller) (a : Nat) (v : Bool) :
    s.setValid g a v
      = if s.metaPage (a / PAGE_SIZE) = v then .error .setValid
        else .ok (s.withBook s.table (Function.update s.metaPage (a / PAGE_SIZE) v)
          (s.bumpValid g a (if v then 1 else -1))) := by
  cases v <;> cases hm : s.metaPage (a / PAGE_SIZE)
  · simp [setValid, hm]
  · have h := modifyZone_validPage g s a (-1)
    simp [setValid, hm, ← h, sub_eq_add_neg]
    rfl
  · have h := modifyZone_validPage g s a 1
    simp [setValid, hm, ← h]
    rfl
  · simp [setValid, hm]

theorem setValid_of_ne {s : Controller} {a : Nat} {v : Bool}
    (h : s.metaPage (a / PAGE_SIZE) ≠ v) :
    s.setValid g a v
      = .ok (s.withBook s.table (Function.update s.metaPage (a / PAGE_SIZE) v)
          (s.bumpValid g a (if v then 1 else -1))) := by
  rw [setValid_eq, if_neg h]

theorem setValid_frame {s s' : Controller} {a : Nat} {v : Bool} (h : s.setValid g a v = .ok s') :
    ∃ m w, s' = s.withBook s.table m w := by
  rw [setValid_eq] at h
  split at h
  · cases h
  · cases h
    exact ⟨_, _, rfl⟩

/-! ## The patterns -/

/-- Move a mapped page to address `a`. -/
def remap (p : PageId) (a : Nat) (s : Controller) : Except Fault Controller := do
  let old ← s.getPageAddr p
  let s ← s.setValid g old false
  (s.setPageAddr p a).setValid g a true

/-- Map a fresh page to address `a`. -/
def mapNew (p : PageId) (a : Nat) (s : Controller) : Except Fault Controller :=
  (s.setPageAddr p a).setValid g a true

/-- An effect on the state that neither reads nor changes the table, the bitmap and the
counters. -/
structure Neutral (f : Controller → Controller) : Prop where
  withBook : ∀ s t m v, f (s.withBook t m v) = (f s).withBook t m v
  table : ∀ s, (f s).table = s.table
  metaPage : ∀ s, (f s).metaPage = s.metaPage
  validPage : ∀ s i, ((f s).zone i).validPage = (s.zone i).validPage

variable {g}

theorem Neutral.comp {f h : Controller → Controller} (hf : Neutral f) (hh : Neutral h) :
    Neutral fun s => f (h s) where
  withBook s t m v := by rw [hh.withBook, hf.withBook]
  table s := by rw [hf.table, hh.table]
  metaPage s := by rw [hf.metaPage, hh.metaPage]
  validPage s i := by rw [hf.validPage, hh.validPage]

theorem Neutral.setValid {f : Controller → Controller} (hf : Neutral f) (s : Controller) (a : Nat)
    (v : Bool) : (f s).setValid g a v = s.setValid g a v >>= fun s => .ok (f s) := by
  have hbump : ∀ d, (f s).bumpValid g a d = s.bumpValid g a d := by
    intro d
    funext i
    simp only [bumpValid, hf.validPage]
  rw [setValid_eq, setValid_eq, hf.metaPage, hf.table, hbump]
  split
  · rfl
  · rw [ok_bind, hf.withBook]

theorem Neutral.setPageAddr {f : Controller → Controller} (hf : Neutral f) (s : Controller)
    (p : PageId) (a : Nat) : (f s).setPageAddr p a = f (s.setPageAddr p a) := by
  have h : ∀ s : Controller, s.setPageAddr p a
      = s.withBook (s.table.insertOrAssign p a) s.metaPage fun i => (s.zone i).validPage :=
    fun s => setPageAddr_eq s p a
  rw [h, h, hf.withBook, hf.table, hf.metaPage]
  simp only [hf.validPage]

theorem Neutral.getPageAddr {f : Controller → Controller} (hf : Neutral f) (s : Controller)
    (p : PageId) : (f s).getPageAddr p = s.getPageAddr p := by
  rw [Controller.getPageAddr, Controller.getPageAddr, hf.table]

/-- A neutral effect may be moved past `remap`. -/
theorem Neutral.remap {f : Controller → Controller} (hf : Neutral f) (s : Controller)
    (p : PageId) (a : Nat) :
    (f s).remap g p a = s.remap g p a >>= fun s => .ok (f s) := by
  rw [Controller.remap, Controller.remap, hf.getPageAddr]
  cases s.getPageAddr p with
  | error e => rfl
  | ok old =>
      rw [ok_bind, ok_bind, hf.setValid]
      cases s.setValid g old false with
      | error e => rfl
      | ok s' => rw [ok_bind, ok_bind, ok_bind, hf.setPageAddr, hf.setValid]

/-! ## What the patterns do -/

variable (g)

/-- The table, the bitmap and the counters agree: a bit is set exactly for the addresses of
mapped pages other than `hole`, and each zone counts its set bits. -/
structure Book (s : Controller) (hole : Option PageId) : Prop where
  inj : ∀ p q a, s.table p = some a → s.table q = some a → p = q
  aligned : ∀ p a, s.table p = some a → PAGE_SIZE ∣ a
  valid : ∀ i, s.metaPage i = true ↔ ∃ p, some p ≠ hole ∧ s.table p = some (i * PAGE_SIZE)
  count : ∀ z, (s.zone z).validPage = trueCount s.metaPage (g.pagesOf z)

variable {g}

theorem Book.metaPage_eq {s : Controller} {hole : Option PageId} (h : s.Book g hole)
    {p : PageId} {a : Nat} (hp : s.table p = some a) :
    s.metaPage (a / PAGE_SIZE) = true ↔ some p ≠ hole := by
  rw [h.valid, Nat.div_mul_cancel (h.aligned p a hp)]
  constructor
  · rintro ⟨q, hq, hqa⟩
    rwa [h.inj p q a hp hqa]
  · intro hne
    exact ⟨p, hne, hp⟩

theorem count_bump {s : Controller} {a : Nat} {b : Bool} {d : Int}
    (hcount : ∀ z, (s.zone z).validPage = trueCount s.metaPage (g.pagesOf z))
    (hd : ∀ z, a / PAGE_SIZE ∈ g.pagesOf z →
      (trueCount (Function.update s.metaPage (a / PAGE_SIZE) b) (g.pagesOf z) : Int)
        = trueCount s.metaPage (g.pagesOf z) + d) (z : Nat) :
    s.bumpValid g a d z
      = trueCount (Function.update s.metaPage (a / PAGE_SIZE) b) (g.pagesOf z) := by
  unfold bumpValid
  by_cases hz : z = a / g.zoneSize
  · rw [if_pos hz, hcount, hd z (g.mem_pagesOf.2 hz.symm)]
  · have hnot : a / PAGE_SIZE ∉ g.pagesOf z := fun h => hz (g.mem_pagesOf.1 h).symm
    rw [if_neg hz, hcount, trueCount_update_of_notMem _ _ hnot]

/-- Clearing the bit of a mapped page makes it the hole. -/
theorem Book.clear {s : Controller} (h : s.Book g none) {p : PageId} {a : Nat}
    (hp : s.table p = some a) :
    ∃ m v, s.setValid g a false = .ok (s.withBook s.table m v) ∧
      (s.withBook s.table m v).Book g (some p) := by
  have hm : s.metaPage (a / PAGE_SIZE) = true := (h.metaPage_eq hp).2 (by simp)
  refine ⟨_, _, setValid_of_ne g (by simp [hm]), h.inj, h.aligned, ?_, ?_⟩
  · intro i
    simp only [withBook_metaPage, withBook_table, ne_eq, Option.some.injEq]
    by_cases hi : i = a / PAGE_SIZE
    · rw [hi, Function.update_self, Nat.div_mul_cancel (h.aligned p a hp)]
      simp only [Bool.false_eq_true, false_iff, not_exists, not_and]
      intro q hq hqa
      exact hq (h.inj q p a hqa hp)
    · rw [Function.update_of_ne hi, h.valid]
      refine exists_congr fun q => ⟨fun hq => ⟨?_, hq.2⟩, fun hq => ⟨by simp, hq.2⟩⟩
      rintro rfl
      have := Option.some.inj (hq.2.symm.trans hp)
      exact hi (by rw [← this, Nat.mul_div_cancel _ (by decide)])
  · refine count_bump h.count fun z hz => ?_
    have := trueCount_clear s.metaPage hz hm
    simp only [Bool.false_eq_true, if_false]
    omega

/-- The page that is the hole may be mapped to any address no other page has. -/
theorem Book.setPageAddr {s : Controller} {p : PageId} (h : s.Book g (some p)) {a : Nat}
    (ha : PAGE_SIZE ∣ a) (hfree : ∀ q, q ≠ p → s.table q ≠ some a) :
    (s.setPageAddr p a).Book g (some p) := by
  rw [setPageAddr_eq]
  refine ⟨?_, ?_, ?_, h.count⟩
  · intro q q' b hq hq'
    simp only [PartialMap.insertOrAssign_eq_some] at hq hq'
    rcases hq with ⟨rfl, rfl⟩ | ⟨hne, hq⟩ <;> rcases hq' with ⟨rfl, hb⟩ | ⟨hne', hq'⟩
    · rfl
    · exact absurd hq' (hfree q' hne')
    · exact absurd (hb ▸ hq) (hfree q hne)
    · exact h.inj q q' b hq hq'
  · intro q b hq
    rcases PartialMap.insertOrAssign_eq_some.1 hq with ⟨-, rfl⟩ | ⟨-, hq⟩
    · exact ha
    · exact h.aligned q b hq
  · intro i
    show s.metaPage i = true ↔ _
    rw [h.valid]
    refine exists_congr fun q => and_congr_right fun hq => ?_
    have hne : q ≠ p := fun h => hq (congrArg some h)
    show _ ↔ s.table.insertOrAssign p a q = _
    rw [PartialMap.insertOrAssign_of_ne _ _ hne]

/-- Setting the bit of the hole completes the book. -/
theorem Book.set {s : Controller} {p : PageId} (h : s.Book g (some p)) {a : Nat}
    (hp : s.table p = some a) :
    ∃ m v, s.setValid g a true = .ok (s.withBook s.table m v) ∧
      (s.withBook s.table m v).Book g none := by
  have hm : s.metaPage (a / PAGE_SIZE) = false := by
    rw [← Bool.not_eq_true, h.metaPage_eq hp]
    simp
  refine ⟨_, _, setValid_of_ne g (by simp [hm]), h.inj, h.aligned, ?_, ?_⟩
  · intro i
    simp only [withBook_metaPage, withBook_table, ne_eq, reduceCtorEq, not_false_eq_true,
      true_and]
    by_cases hi : i = a / PAGE_SIZE
    · rw [hi, Function.update_self, Nat.div_mul_cancel (h.aligned p a hp)]
      exact ⟨fun _ => ⟨p, hp⟩, fun _ => rfl⟩
    · rw [Function.update_of_ne hi, h.valid]
      refine exists_congr fun q => ⟨fun hq => hq.2, fun hq => ⟨?_, hq⟩⟩
      simp only [ne_eq, Option.some.injEq]
      rintro rfl
      have := Option.some.inj (hq.symm.trans hp)
      exact hi (by rw [← this, Nat.mul_div_cancel _ (by decide)])
  · refine count_bump h.count fun z hz => ?_
    have := trueCount_set s.metaPage hz hm
    simp only [if_true]
    omega

/-- A page that is not mapped is a hole already. -/
theorem Book.hole_of_none {s : Controller} (h : s.Book g none) {p : PageId}
    (hp : s.table p = none) : s.Book g (some p) := by
  refine ⟨h.inj, h.aligned, fun i => ?_, h.count⟩
  rw [h.valid]
  refine exists_congr fun q => and_congr_left fun hq => ?_
  simp only [ne_eq, reduceCtorEq, not_false_eq_true, Option.some.injEq, true_iff]
  rintro rfl
  rw [hp] at hq
  cases hq

/-- **What mapping a fresh page does.** -/
theorem mapNew_spec {s : Controller} {p : PageId} {a : Nat} (h : s.Book g (some p))
    (ha : PAGE_SIZE ∣ a) (hfree : ∀ q, q ≠ p → s.table q ≠ some a) :
    ∃ m v, s.mapNew g p a = .ok (s.withBook (s.table.insertOrAssign p a) m v) ∧
      (s.withBook (s.table.insertOrAssign p a) m v).Book g none := by
  have hbook := h.setPageAddr ha hfree
  have hset := setPageAddr_eq s p a
  obtain ⟨m, v, hok, hb⟩ := hbook.set (by rw [hset]; exact PartialMap.insertOrAssign_self ..)
  rw [hset] at hok hb
  refine ⟨m, v, ?_, hb⟩
  rw [mapNew, hset]
  exact hok

/-- **What moving a mapped page does.** -/
theorem remap_spec {s : Controller} {p : PageId} {a old : Nat} (h : s.Book g none)
    (hp : s.table p = some old) (ha : PAGE_SIZE ∣ a)
    (hfree : ∀ q, q ≠ p → s.table q ≠ some a) :
    ∃ m v, s.remap g p a = .ok (s.withBook (s.table.insertOrAssign p a) m v) ∧
      (s.withBook (s.table.insertOrAssign p a) m v).Book g none := by
  obtain ⟨m, v, hok, hb⟩ := h.clear hp
  obtain ⟨m', v', hok', hb'⟩ := mapNew_spec hb ha hfree
  refine ⟨m', v', ?_, hb'⟩
  rw [remap, getPageAddr_of_some hp, ok_bind, hok, ok_bind]
  exact hok'

end Controller

end ZoneBuffer
