import ZoneBuffer.Buffer.Runs

set_option autoImplicit false

/-! # What a call does that returns

`Called` speaks of the calls of a client who inserts each page once and uses it afterwards. Here
nothing is asked of the calls: a page may be inserted again while it is resident, or used before
it exists, and its id may be negative. The store may then fail in any way, and so may a call; what
a call has done to the lists, the page table, the flags and the counters if it does return is
`Ran`, in the modes with `ZALP`. Nothing is said of the store.

A page that is inserted again keeps its old mapping, since `insert` does not replace one. The
frame it was put in is then mapped to no page. -/

namespace ZoneBuffer

open Outcome Machine

namespace Call

/-- The call takes a frame for its page. -/
def Misses (s : Buffer) : Call → Prop
  | fixNewPage _ _ => True
  | writePage p _ => s.page2frame p = none
  | readPage p => s.page2frame p = none

instance (s : Buffer) (c : Call) : Decidable (c.Misses s) :=
  match c with
  | fixNewPage _ _ => isTrue trivial
  | writePage p _ => inferInstanceAs (Decidable (s.page2frame p = none))
  | readPage p => inferInstanceAs (Decidable (s.page2frame p = none))

/-- The dirty flags after the call has been given frame `f`. -/
def soils (f : FrameId) (dirty : FrameId → Bool) : Call → FrameId → Bool
  | fixNewPage _ _ => dirty
  | writePage _ _ => Function.update dirty f true
  | readPage _ => dirty

/-- What the call adds to `insert_count`. -/
def inserts : Call → UInt32
  | fixNewPage _ _ => 1
  | writePage _ _ => 0
  | readPage _ => 0

end Call

namespace Buffer

variable {cfg : Config} {s s' s₁ s₂ : Buffer} {f : FrameId} {p : PageId} {b : Page} {c : Call}
  {isWrite : Bool} {held : List FrameId}

/-- What the call sets the tag of its page's frame to, if it sets it, when the frame has been
taken in `s`. A page that is about to be overwritten gets no tag. -/
def tagGiven (cfg : Config) (s : Buffer) : Call → Option Int32
  | .writePage _ _ => none
  | .readPage p =>
      match cfg.mode with
      | .zalpWc => some 0
      | .whOnly => some 0
      | .zalp =>
          match s.zdsm.readPage cfg.g p with
          | .ok (zone, _, _) => some (Int32.ofNat (zone % cfg.g.clusterNum))
          | .error _ => none
      | _ => none
  | .fixNewPage p _ =>
      match cfg.mode with
      | .zalpWc => some 0
      | .whOnly => some 0
      | .zalp => some (Int32.ofInt (p.toInt.tmod cfg.g.clusterNum))
      | _ => none

/-- The tags after the tag of frame `f` has been set, if it has. -/
def retag (tag : Option Int32) (f : FrameId) (flags : FrameId → Int32) : FrameId → Int32 :=
  match tag with
  | some v => Function.update flags f v
  | none => flags

theorem retag_of_ne {tag : Option Int32} {flags : FrameId → Int32} {g : FrameId} (h : g ≠ f) :
    retag tag f flags g = flags g := by
  unfold retag
  cases tag with
  | some v => exact Function.update_of_ne h _ _
  | none => rfl

/-- Frame `f` has been put in front, for the page of the call. -/
structure Fronted (c : Call) (s s' : Buffer) (f : FrameId) : Prop where
  lru : s'.strategy.lruOrder = f :: s.strategy.lruOrder.erase f
  free : s'.strategy.freeFrames = s.strategy.freeFrames
  frameDirty : s'.frameDirty = c.soils f s.frameDirty
  frameToPage : s'.frameToPage = Function.update s.frameToPage f c.page
  accessH : s'.accessH = s.accessH
  evictCount : s'.evictCount = s.evictCount
  insertCount : s'.insertCount = s.insertCount + c.inserts

/-- The store has the page that is to be read. -/
def Loads (cfg : Config) (c : Call) (s : Buffer) : Prop :=
  ∀ p, c = .readPage p → ∃ r, s.zdsm.readPage cfg.g p = .ok r

/-- What a call does that returns. -/
inductive Ran (cfg : Config) (s : Buffer) (c : Call) (s' : Buffer) : Prop
  | hit (f : FrameId) (hc : ¬ c.Misses s) (hp : s.page2frame c.page = some f)
      (hfront : Fronted c s s' f)
      (htag : s'.clusterFlag = if cfg.mode.isZalpWc then
        Function.update s.clusterFlag f (s.clusterFlag f + 1) else s.clusterFlag)
  | miss (f : FrameId) (s₁ s₂ : Buffer) (hc : c.Misses s) (hroom : s.makeRoom cfg = .ok s₁)
      (hlists : ZalpLists cfg [] s₁) (hroomed : Roomed cfg False s s₁)
      (htake : s.takeFrame cfg = .ok (f, s₂)) (htook : Took cfg s₁ s₂ f)
      (hfront : Fronted c s₂ s' f) (hload : Loads cfg c s₂)
      (htag : s'.clusterFlag = retag (tagGiven cfg s₂ c) f s₂.clusterFlag)

theorem ZalpLists.init (cfg : Config) (mem : Memory) : ZalpLists cfg [] (Buffer.init cfg mem) :=
  (Inv.init cfg False mem).zalpLists

/-- `ZalpLists` speaks of the lists and the page table only. -/
theorem ZalpLists.congr (h : ZalpLists cfg held s) (hstrategy : s'.strategy = s.strategy)
    (hdirty : s'.frameDirty = s.frameDirty) (htable : s'.page2frame = s.page2frame)
    (hpages : s'.frameToPage = s.frameToPage) : ZalpLists cfg held s' := by
  constructor
  · rw [hstrategy, hdirty]
    exact h.lists
  · rw [hstrategy, htable, hpages]
    exact h.mapped

/-! ## Room for a page -/

/-- A choice that returns has found the flags in range. -/
theorem flagsInRange_of_choose {r : Int × List FrameId × Zalp}
    (h : Ordered cfg.defBufSize s.frameDirty [] s.strategy)
    (hdue : Due cfg s.frameDirty s.strategy) (hok : s.chooseVictims cfg = .ok r) :
    s.FlagsInRange cfg := by
  intro hm f hf
  have hcand := h.getCandidate_eq hdue.free hdue.dirty
  have hcflru : cfg.mode ≠ .cflru := by
    rw [hm]
    decide
  have hwc : cfg.mode.isZalpWc = false := by
    rw [hm]
    rfl
  rw [chooseVictims, if_neg hcflru, chooseCluster, hcand, ok_bind] at hok
  by_contra hout
  -- a flag out of range stops the choice
  rw [if_pos ⟨hwc, f, hf, by omega⟩] at hok
  cases hok

/-- **The eviction at the start of a miss.** -/
theorem makeRoom_ok (h : ZalpLists cfg [] s) (hlru : cfg.mode ≠ .lru)
    (hok : s.makeRoom cfg = .ok s₁) : ZalpLists cfg [] s₁ ∧ Roomed cfg False s s₁ := by
  obtain ⟨due, hdue, hok⟩ := bind_eq_ok.1 hok
  rw [isEvict_eq h.lists] at hdue
  cases hdue
  by_cases hdue : Due cfg s.frameDirty s.strategy
  · rw [decide_eq_true hdue, if_pos rfl, evict] at hok
    have hevicted : ∃ l, Evicted cfg False s s₁ (s.victims cfg) l := by
      split at hok
      case isTrue hach =>
        exact ((evictVictimAch_spec (serves_stops cfg False) trivial h.lists
          (fun hh => hh.elim) hdue hach).of_ok hok).1
      case isFalse hach =>
        obtain ⟨r, hr, -⟩ := bind_eq_ok.1 hok
        exact (evictVictim_spec h.lists (fun hh => hh.elim) hdue hach hlru
          (flagsInRange_of_choose h.lists hdue hr)).of_ok hok
    obtain ⟨l, hev⟩ := hevicted
    exact ⟨hev.zalpLists h, Or.inr ⟨hdue, l, hev⟩⟩
  · rw [decide_eq_false hdue, if_neg Bool.false_ne_true] at hok
    cases hok
    exact ⟨h, Or.inl ⟨hdue, rfl⟩⟩

theorem takeFrame_ok (h : ZalpLists cfg [] s) (hlru : cfg.mode ≠ .lru)
    (hok : s.takeFrame cfg = .ok (f, s₂)) :
    ZalpLists cfg [f] s₂ ∧ ∃ s₁, s.makeRoom cfg = .ok s₁ ∧ ZalpLists cfg [] s₁ ∧
      Roomed cfg False s s₁ ∧ Took cfg s₁ s₂ f := by
  obtain ⟨s₁, hroom, hok⟩ := bind_eq_ok.1 hok
  obtain ⟨hlists, hroomed⟩ := makeRoom_ok h hlru hroom
  obtain ⟨g, isFree, z, hget, hord, htook⟩ := getFrame_spec hlists.lists hroomed.hasRoom
  rw [hget, ok_bind] at hok
  cases isFree with
  | true =>
      cases hok
      exact ⟨htook.zalpLists hlists hord, s₁, hroom, hlists, hroomed, htook⟩
  | false =>
      cases hok
      exact ⟨htook.zalpLists hlists hord, s₁, hroom, hlists, hroomed, htook⟩

/-- Making room puts no frame in the list, and changes no frame's page and tag. -/
structure Spared (s s' : Buffer) : Prop where
  mem : ∀ x, x ∈ s'.strategy.lruOrder → x ∈ s.strategy.lruOrder
  frameToPage : s'.frameToPage = s.frameToPage
  clusterFlag : s'.clusterFlag = s.clusterFlag

theorem Roomed.spared (h : Roomed cfg False s s₁) : Spared s s₁ := by
  rcases h with ⟨-, rfl⟩ | ⟨-, l, hev⟩
  · exact ⟨fun _ hx => hx, rfl, rfl⟩
  · exact ⟨fun x hx => (hev.mem_lru.1 hx).1, hev.frameToPage, hev.clusterFlag⟩

/-- Nor does taking a frame; the frame leaves the list. -/
theorem Took.spared (h : Took cfg s₁ s₂ f) (hl : ZalpLists cfg [] s₁) (hs : Spared s s₁) :
    Spared s s₂ where
  mem x hx := hs.mem x ((h.mem_lru hl).1 hx).1
  frameToPage := h.frameToPage.trans hs.frameToPage
  clusterFlag := by
    rw [h.same]
    exact hs.clusterFlag

/-! ## The page in its frame -/

/-- The page of the call has been placed in the frame `f` held, and not been overwritten yet. -/
structure Landed (cfg : Config) (c : Call) (s s' : Buffer) (f : FrameId) : Prop where
  strategy : s'.strategy = s.strategy.push f false
  frameDirty : s'.frameDirty = s.frameDirty
  page2frame : s'.page2frame = s.page2frame.insert c.page f
  frameToPage : s'.frameToPage = Function.update s.frameToPage f c.page
  clusterFlag : s'.clusterFlag = retag (tagGiven cfg s c) f s.clusterFlag
  accessH : s'.accessH = s.accessH
  evictCount : s'.evictCount = s.evictCount
  insertCount : s'.insertCount = s.insertCount + c.inserts
  load : Loads cfg c s

theorem Landed.zalpLists (h : Landed cfg c s s' f) (hl : ZalpLists cfg [f] s) :
    ZalpLists cfg [] s' :=
  (hl.place c.page).congr h.strategy h.frameDirty h.page2frame h.frameToPage

theorem landed_write (cfg : Config) (p : PageId) (b : Page) (f : FrameId) (s : Buffer) :
    Landed cfg (.writePage p b) s (s.place p f) f := by
  constructor
  case insertCount => exact (UInt32.add_zero _).symm
  case load =>
    intro q hq
    cases hq
  all_goals rfl

theorem landed_load (hok : (s.place p f).loadFixed cfg p f = .ok s') :
    Landed cfg (.readPage p) s s' f := by
  rw [loadFixed, loadPage, bind_assoc] at hok
  obtain ⟨⟨zone, b, z⟩, hread, hok⟩ := bind_eq_ok.1 hok
  have hread' : s.zdsm.readPage cfg.g p = .ok (zone, b, z) := hread
  rw [ok_bind] at hok
  have hcount : s.insertCount = s.insertCount + (Call.readPage p).inserts :=
    (UInt32.add_zero _).symm
  have hloads : Loads cfg (.readPage p) s := by
    intro q hq
    cases hq
    exact ⟨_, hread'⟩
  cases hm : cfg.mode with
  | zalpWc | whOnly =>
      simp only [hm] at hok
      cases hok
      exact ⟨rfl, rfl, rfl, rfl, by simp only [tagGiven, hm]; rfl, rfl, rfl, hcount, hloads⟩
  | zalp =>
      simp only [hm] at hok
      cases hok
      exact ⟨rfl, rfl, rfl, rfl, by simp only [tagGiven, hm, hread']; rfl, rfl, rfl, hcount, hloads⟩
  | achOnly | cflru | lru =>
      simp only [hm] at hok
      cases hok
      exact ⟨rfl, rfl, rfl, rfl, by simp only [tagGiven, hm]; rfl, rfl, rfl, hcount, hloads⟩

theorem landed_new (hlru : cfg.mode ≠ .lru) (htake : s.takeFrame cfg = .ok (f, s₂))
    (hok : s.fixNewPage cfg p b = .ok s') : Landed cfg (.fixNewPage p b) s₂ s' f := by
  rw [fixNewPage, if_neg hlru, htake, ok_bind] at hok
  obtain ⟨z, -, hok⟩ := bind_eq_ok.1 hok
  dsimp only at hok
  have hload : Loads cfg (.fixNewPage p b) s₂ := by
    intro q hq
    cases hq
  unfold markNew at hok
  cases hm : cfg.mode with
  | zalpWc | whOnly | zalp | achOnly | cflru | lru =>
      simp only [hm] at hok
      cases hok
      exact ⟨rfl, rfl, rfl, rfl, by simp only [tagGiven, hm]; rfl, rfl, rfl, rfl, hload⟩

/-! ## `fix_page` -/

/-- The page of frame `f` has been found resident. -/
structure HitRan (cfg : Config) (s s' : Buffer) (f : FrameId) : Prop where
  hit : Hit s s' f
  zalpLists : ZalpLists cfg [] s'
  clusterFlag : s'.clusterFlag = if cfg.mode.isZalpWc then
    Function.update s.clusterFlag f (s.clusterFlag f + 1) else s.clusterFlag

theorem hit_any (h : ZalpLists cfg [] s) (hlru : cfg.mode ≠ .lru) (hp : s.page2frame p = some f)
    (isWrite : Bool) : ∃ s', s.fixPage cfg isWrite p = .ok (f, s') ∧ HitRan cfg s s' f := by
  have hf := (h.mapped p f hp).1
  obtain ⟨z, hz, hord, hfree, hl⟩ := h.lists.touch hf
  set flags := if cfg.mode.isZalpWc then
    Function.update s.clusterFlag f (s.clusterFlag f + 1) else s.clusterFlag with hflags
  have hhit : Hit s ({ s with strategy := z, clusterFlag := flags } : Buffer).incHitCount f :=
    ⟨rfl, hfree, hl⟩
  refine ⟨_, ?_, hhit, ⟨hord, fun q g hq => ?_⟩, rfl⟩
  · rw [fixPage, if_neg hlru]
    simp only [hp]
    rw [hflags]
    cases hwc : cfg.mode.isZalpWc with
    | true =>
        have hz' : (s.setClusterFlag f (s.clusterFlag f + 1)).strategy.update f
            ((s.setClusterFlag f (s.clusterFlag f + 1)).frameDirty f) = .ok z := hz
        simp only [if_true, hz', ok_bind]
        rfl
    | false => simp only [Bool.false_eq_true, if_false, hz, ok_bind]
  · rw [hhit.mem_lru hf]
    exact h.mapped q g hq

/-- Page `p` has been given frame `f` by `fix_page`. The call `c` is the one it is for. -/
inductive FixRan (cfg : Config) (c : Call) (s : Buffer) (f : FrameId) (s' : Buffer) : Prop
  | hit (hp : s.page2frame c.page = some f) (h : HitRan cfg s s' f)
  | miss (s₂ : Buffer) (hp : s.page2frame c.page = none) (htake : s.takeFrame cfg = .ok (f, s₂))
      (hland : Landed cfg c s₂ s' f)

theorem fixPage_ok (h : ZalpLists cfg [] s) (hlru : cfg.mode ≠ .lru)
    (hc : c = .readPage p ∧ isWrite = false ∨ ∃ b, c = .writePage p b ∧ isWrite = true)
    (hok : s.fixPage cfg isWrite p = .ok (f, s')) : FixRan cfg c s f s' := by
  have hpage : c.page = p := by
    rcases hc with ⟨rfl, -⟩ | ⟨b, rfl, -⟩
    · rfl
    · rfl
  cases hp : s.page2frame p with
  | some g =>
      obtain ⟨s₁, hok₁, hhit⟩ := hit_any h hlru hp isWrite
      rw [hok₁] at hok
      cases hok
      exact .hit (hpage ▸ hp) hhit
  | none =>
      rw [fixPage, if_neg hlru] at hok
      simp only [hp] at hok
      obtain ⟨⟨g, s₂⟩, htake, hok⟩ := bind_eq_ok.1 hok
      rcases hc with ⟨rfl, rfl⟩ | ⟨b, rfl, rfl⟩
      · obtain ⟨s₃, hload, hok⟩ := bind_eq_ok.1 hok
        cases hok
        exact .miss s₂ hp htake (landed_load hload)
      · cases hok
        exact .miss s₂ hp htake (landed_write cfg p b _ s₂)

theorem FixRan.zalpLists (h : FixRan cfg c s f s') (hl : ZalpLists cfg [] s)
    (hlru : cfg.mode ≠ .lru) : ZalpLists cfg [] s' := by
  cases h with
  | hit hp h => exact h.zalpLists
  | miss s₂ hp htake hland => exact hland.zalpLists (takeFrame_ok hl hlru htake).1

/-- The frame fixed is in front. -/
theorem FixRan.front (h : FixRan cfg c s f s') (hl : ZalpLists cfg [] s)
    (hlru : cfg.mode ≠ .lru) : ∃ rest, s'.strategy.lruOrder = f :: rest := by
  cases h with
  | hit hp h => exact ⟨_, h.hit.lru⟩
  | miss s₂ hp htake hland =>
      refine ⟨s₂.strategy.lruOrder, ?_⟩
      rw [hland.strategy]
      exact (takeFrame_ok hl hlru htake).1.lists.put.2.2

/-! ## The calls -/

/-- What is left of a call after its page has been given frame `f`. -/
structure Finished (c : Call) (s s' : Buffer) (f : FrameId) : Prop where
  lru : s'.strategy.lruOrder = s.strategy.lruOrder
  free : s'.strategy.freeFrames = s.strategy.freeFrames
  frameDirty : s'.frameDirty = c.soils f s.frameDirty
  frameToPage : s'.frameToPage = s.frameToPage
  clusterFlag : s'.clusterFlag = s.clusterFlag
  accessH : s'.accessH = s.accessH
  evictCount : s'.evictCount = s.evictCount
  insertCount : s'.insertCount = s.insertCount

theorem Landed.fronted (h : Landed cfg c s s₁ f) (hfin : Finished c s₁ s' f)
    (hl : ZalpLists cfg [f] s) : Fronted c s s' f where
  lru := by
    rw [hfin.lru, h.strategy, hl.lists.put.2.2, List.erase_of_not_mem hl.lists.held_notMem]
  free := by
    rw [hfin.free, h.strategy]
    exact hl.lists.put.2.1
  frameDirty := by rw [hfin.frameDirty, h.frameDirty]
  frameToPage := hfin.frameToPage.trans h.frameToPage
  accessH := hfin.accessH.trans h.accessH
  evictCount := hfin.evictCount.trans h.evictCount
  insertCount := hfin.insertCount.trans h.insertCount

theorem HitRan.fronted (h : HitRan cfg s s₁ f) (hfin : Finished c s₁ s' f)
    (hf : s.frameToPage f = c.page) (hins : c.inserts = 0) : Fronted c s s' f where
  lru := hfin.lru.trans h.hit.lru
  free := hfin.free.trans h.hit.free
  frameDirty := by
    rw [hfin.frameDirty, h.hit.same]
  frameToPage := by
    rw [hfin.frameToPage, h.hit.same, ← hf]
    exact (Function.update_eq_self f s.frameToPage).symm
  accessH := by
    rw [hfin.accessH, h.hit.same]
  evictCount := by
    rw [hfin.evictCount, h.hit.same]
  insertCount := by
    rw [hfin.insertCount, h.hit.same, hins]
    exact (UInt32.add_zero _).symm

/-- A page that is not resident. -/
theorem Landed.ran (h : Landed cfg c s₂ s₁ f) (hfin : Finished c s₁ s' f)
    (hl : ZalpLists cfg [] s) (hlru : cfg.mode ≠ .lru) (hc : c.Misses s)
    (htake : s.takeFrame cfg = .ok (f, s₂)) : Ran cfg s c s' := by
  obtain ⟨hlists, s₀, hroom, hlists₀, hroomed, htook⟩ := takeFrame_ok hl hlru htake
  exact .miss f s₀ s₂ hc hroom hlists₀ hroomed htake htook (h.fronted hfin hlists) h.load
    (hfin.clusterFlag.trans h.clusterFlag)

theorem FixRan.ran (h : FixRan cfg c s f s₁) (hfin : Finished c s₁ s' f)
    (hl : ZalpLists cfg [] s) (hlru : cfg.mode ≠ .lru)
    (hc : c.Misses s ↔ s.page2frame c.page = none) (hins : c.inserts = 0) : Ran cfg s c s' := by
  cases h with
  | hit hp h =>
      refine .hit f ?_ hp (h.fronted hfin (hl.mapped _ f hp).2 hins)
        (hfin.clusterFlag.trans h.clusterFlag)
      rw [hc, hp]
      exact Option.some_ne_none f
  | miss s₂ hp htake hland => exact hland.ran hfin hl hlru (hc.2 hp) htake

theorem step_readPage_ok (hok : step cfg (.readPage p) s = .ok s') :
    ∃ f s₁, s.fixPage cfg false p = .ok (f, s₁) ∧ s' = s₁.incReadCount f := by
  obtain ⟨⟨b, s₀⟩, hok, hs₀⟩ := bind_eq_ok.1 hok
  cases hs₀
  obtain ⟨⟨f, s₁⟩, hfix, hok⟩ := bind_eq_ok.1 hok
  dsimp only at hok
  -- the page loaded has its id
  split at hok
  case isTrue =>
    cases hok
    exact ⟨f, s₁, hfix, rfl⟩
  case isFalse => cases hok

theorem step_writePage_ok (hok : step cfg (.writePage p b) s = .ok s') :
    ∃ f s₁, s.fixPage cfg true p = .ok (f, s₁) ∧
      ((s₁.fill f b).incReadCount f).setDirty cfg f = .ok s' := by
  obtain ⟨⟨f, s₁⟩, hfix, hok⟩ := bind_eq_ok.1 hok
  exact ⟨f, s₁, hfix, hok⟩

/-- **A call that returns.** -/
theorem step_ran (h : ZalpLists cfg [] s) (hlru : cfg.mode ≠ .lru) (hok : step cfg c s = .ok s') :
    Ran cfg s c s' ∧ ZalpLists cfg [] s' := by
  cases c with
  | readPage p =>
      obtain ⟨f, s₁, hfix, rfl⟩ := step_readPage_ok hok
      have hran := fixPage_ok h hlru (Or.inl ⟨rfl, rfl⟩) hfix
      refine ⟨hran.ran ?_ h hlru Iff.rfl rfl, (hran.zalpLists h hlru).congr rfl rfl rfl rfl⟩
      constructor <;> rfl
  | writePage p b =>
      obtain ⟨f, s₁, hfix, hok⟩ := step_writePage_ok hok
      have hran := fixPage_ok h hlru (Or.inr ⟨b, rfl, rfl⟩) hfix
      have hlists := hran.zalpLists h hlru
      obtain ⟨rest, hfront⟩ := hran.front h hlru
      -- the frame that is marked dirty is the one in front
      obtain ⟨z, hz, hord, hfree, hl⟩ := hlists.lists.soil hfront
      have hz' : ((s₁.fill f b).incReadCount f).strategy.setDirty f = .ok z := hz
      rw [setDirty, if_neg hlru] at hok
      simp only [hz', ok_bind] at hok
      cases hok
      refine ⟨hran.ran ⟨hl, hfree, rfl, rfl, rfl, rfl, rfl, rfl⟩ h hlru Iff.rfl rfl, hord,
        fun q g hq => ?_⟩
      show g ∈ z.lruOrder ∧ _
      rw [hl]
      exact hlists.mapped q g hq
  | fixNewPage p b =>
      have hnew : s.fixNewPage cfg p b = .ok s' := hok
      have htake : ∃ r, s.takeFrame cfg = .ok r := by
        rw [fixNewPage, if_neg hlru] at hnew
        obtain ⟨r, hr, -⟩ := bind_eq_ok.1 hnew
        exact ⟨r, hr⟩
      obtain ⟨⟨f, s₂⟩, htake⟩ := htake
      have hland := landed_new hlru htake hnew
      refine ⟨hland.ran ?_ h hlru trivial htake, hland.zalpLists (takeFrame_ok h hlru htake).1⟩
      constructor <;> rfl

end Buffer

end ZoneBuffer
