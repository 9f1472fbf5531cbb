import ZoneBuffer.Buffer.LruMode
import ZoneBuffer.Lib.Recency
import ZoneBuffer.Zone.Faults

set_option autoImplicit false

/-! # Mode `lru` is exact

The abstract cache is the list of all pages accessed so far, most recently accessed first, with the
number of hits; the first `DEF_BUF_SIZE` pages are the ones it holds. Mode `lru` simulates it for
every sequence of calls that inserts fresh pages, whatever the frames contain and whatever the
store answers: the pages of its list are, in this order, the pages the abstract cache holds. -/

namespace ZoneBuffer

open Outcome Machine Recency

/-- The pages accessed, most recently accessed first, and how often one of those held was
accessed. -/
structure Accesses where
  pages : List PageId
  hits : Int

namespace Accesses

/-- Nothing has been accessed. -/
def empty : Accesses := ⟨[], 0⟩

/-- Page `p` is accessed in a cache of `n` pages. -/
def access (n : Nat) (p : PageId) (r : Accesses) : Accesses where
  pages := touch p r.pages
  hits := if p ∈ recent n r.pages then r.hits + 1 else r.hits

/-- A call accesses its page. -/
def call (n : Nat) (c : Call) (r : Accesses) : Accesses := r.access n c.page

/-- The pages inserted have not been accessed before. -/
def Fresh (r : Accesses) : Call → Prop
  | .fixNewPage p _ => p ∉ r.pages
  | _ => True

instance (r : Accesses) (c : Call) : Decidable (r.Fresh c) :=
  match c with
  | .fixNewPage _ _ => inferInstanceAs (Decidable (_ ∉ _))
  | .writePage _ _ => isTrue trivial
  | .readPage _ => isTrue trivial

end Accesses

/-- The excuse of all calls: any fault but the use of an iterator whose node is gone. -/
def NotIter (e : Fault) : Prop := e ≠ .badIter

theorem Contained.notIter {α : Type} {x : Except Fault α} (h : Contained x) :
    Yields x NotIter fun _ => True := by
  refine h.mono (fun e he => ?_) fun _ ha => ha
  rintro rfl
  exact absurd he (by decide)

namespace Buffer

variable {cfg : Config} {s s' : Buffer} {f : FrameId} {p : PageId} {b : Page} {r : Accesses}

/-- The invariant of the simulation. -/
structure Exact (cfg : Config) (s : Buffer) (r : Accesses) : Prop where
  lists : LruLists cfg [] s
  nodup : r.pages.Nodup
  pages : s.lruFrames.map s.frameToPage = recent cfg.defBufSize r.pages
  hits : s.hitCount = Int32.ofInt r.hits

theorem Exact.init (cfg : Config) (mem : Memory) : Exact cfg (Buffer.init cfg mem) .empty :=
  ⟨LruLists.init cfg mem, List.nodup_nil, List.take_nil.symm, rfl⟩

theorem Exact.congr (h : Exact cfg s r) (hlrus : s'.lrus = s.lrus)
    (hfree : s'.freeFramesNum = s.freeFramesNum) (htable : s'.page2frame = s.page2frame)
    (hpages : s'.frameToPage = s.frameToPage) (hhits : s'.hitCount = s.hitCount) :
    Exact cfg s' r := by
  refine ⟨h.lists.congr hlrus hfree htable hpages, h.nodup, ?_, hhits.trans h.hits⟩
  rw [lruFrames, hlrus, hpages]
  exact h.pages

theorem defBufSize_pos (cfg : Config) : 0 < cfg.defBufSize :=
  lt_of_le_of_lt (Nat.zero_le _) cfg.work_lt

/-- **The pages mapped are those accessed most recently.** -/
theorem Exact.mapped_iff (h : Exact cfg s r) :
    (∃ f, s.page2frame p = some f) ↔ p ∈ recent cfg.defBufSize r.pages := by
  rw [h.lists.mapped_iff, h.pages]

theorem Exact.eq_none_iff (h : Exact cfg s r) :
    s.page2frame p = none ↔ p ∉ recent cfg.defBufSize r.pages := by
  rw [← h.mapped_iff, Option.eq_none_iff_forall_ne_some, not_exists]

/-- The frames used are as many as pages are held. -/
theorem Exact.length (h : Exact cfg s r) :
    min cfg.defBufSize r.pages.length = cfg.defBufSize - s.freeFramesNum := by
  rw [← h.lists.length, ← List.length_map s.frameToPage, h.pages, List.length_take]

/-! ## A hit -/

/-- Erasing a frame from the list erases its page. -/
theorem map_erase {l : List FrameId} {pages : FrameId → PageId} (hf : f ∈ l)
    (hinj : ∀ g ∈ l, pages g = pages f → g = f) :
    (l.erase f).map pages = (l.map pages).erase (pages f) := by
  induction l with
  | nil => cases hf
  | cons g l ih =>
      by_cases hg : g = f
      · subst hg
        simp
      · have hpage : pages g ≠ pages f := fun heq => hg (hinj g List.mem_cons_self heq)
        have hmem : f ∈ l := (List.mem_cons.1 hf).resolve_left (Ne.symm hg)
        have ih' := ih hmem fun g' hg' => hinj g' (List.mem_cons_of_mem g hg')
        rw [List.erase_cons_tail (by simpa using hg), List.map_cons, List.map_cons,
          List.erase_cons_tail (by simpa using hpage), ih']

theorem Exact.hit (h : Exact cfg s r) (hp : s.page2frame p = some f) :
    ∃ l, s.lrus.update f = .ok l ∧
      Exact cfg ({ s with lrus := l } : Buffer).incHitCount (r.access cfg.defBufSize p) := by
  obtain ⟨hf, hfp⟩ := h.lists.mapped p f hp
  obtain ⟨l, hl, hlist, hlists⟩ := h.lists.update hp
  have hrecent := h.mapped_iff.1 ⟨f, hp⟩
  -- no two frames of the list are recorded for one page
  have hinj : ∀ g ∈ s.lruFrames, s.frameToPage g = s.frameToPage f → g = f := by
    intro g hg hgf
    have hlink := h.lists.linked g hg
    rw [hgf, h.lists.linked f hf] at hlink
    exact (Option.some.inj hlink).symm
  refine ⟨l, hl, hlists.congr rfl rfl rfl rfl, nodup_touch h.nodup, ?_, ?_⟩
  · show l.lList.toList.map s.frameToPage = recent cfg.defBufSize (touch p r.pages)
    rw [hlist, List.map_cons, map_erase hf hinj, hfp, h.pages,
      recent_touch_of_mem (defBufSize_pos cfg) hrecent]
  · show s.hitCount + 1 = _
    rw [Accesses.access, if_pos hrecent, h.hits]
    exact (Int32.ofInt_add r.hits 1).symm

/-! ## A miss -/

theorem writeBack_any (f : FrameId) (s : Buffer) : Yields (s.writeBack cfg f) NotIter fun s' =>
    ∃ zdsm counts, s' = { s with zdsm := zdsm, flushCount := counts } := by
  rw [writeBack]
  split
  · refine (s.zdsm.contained_writePage 1 0 (s.getPageId f) (s.buffer f)).notIter.bind ?_
    intro c _
    refine (c.contained_garbageCollectionDetect cfg.tests).notIter.bind ?_
    intro c' _
    exact ⟨c', _, rfl⟩
  · exact ⟨s.zdsm, s.flushCount, rfl⟩

/-- **The victim is the last frame of the list**, whatever the store does with its page. -/
theorem selectVictim_any (h : LruLists cfg [] s) (hfull : s.freeFramesNum = 0) :
    Yields (s.selectVictim cfg) NotIter fun v =>
      Dropped s v.2 v.1 ∧ v.2.hitCount = s.hitCount := by
  obtain ⟨f, hlist, hvictim⟩ := h.getVictim hfull
  refine Yields.bind_ok hvictim ((writeBack_any f _).bind ?_)
  rintro s' ⟨zdsm, counts, rfl⟩
  exact ⟨⟨hfull, hlist, rfl, hfull, rfl, rfl⟩, rfl⟩

theorem takeFrameLru_any (h : LruLists cfg [] s) : Yields (s.takeFrameLru cfg) NotIter fun v =>
    (TookUnused cfg s v.2 v.1 ∨ Dropped s v.2 v.1) ∧ v.2.hitCount = s.hitCount := by
  rw [takeFrameLru]
  split
  case isTrue hfull => exact (selectVictim_any h hfull).imp fun v hv => ⟨Or.inr hv.1, hv.2⟩
  case isFalse hfull => exact ⟨Or.inl ⟨hfull, rfl, rfl⟩, rfl⟩

/-- The pages of the frames left when one has been taken. -/
theorem Exact.took (h : Exact cfg s r) (hp : p ∉ recent cfg.defBufSize r.pages)
    (htook : TookUnused cfg s s' f ∨ Dropped s s' f) :
    LruLists cfg [f] s' ∧ s'.page2frame p = none ∧
      p :: s'.lruFrames.map s'.frameToPage = recent cfg.defBufSize (touch p r.pages) := by
  have hnone := h.eq_none_iff.2 hp
  have hlen := h.length
  have hfree := h.lists.free
  rcases htook with htook | htook
  -- a frame was free: fewer pages are held than there are frames
  · refine ⟨htook.lists h.lists, by rw [htook.same]; exact hnone, ?_⟩
    have hne := htook.free
    rw [recent_touch_of_lt hp (by omega), ← h.pages, htook.same]
    rfl
  · refine ⟨htook.lists h.lists, ?_, ?_⟩
    · rw [htook.page2frame, PartialMap.erase_apply, hnone, ite_self]
    -- none was: the page accessed longest ago gives way
    · have hfull := htook.full
      rw [recent_touch_of_le (defBufSize_pos cfg) hp (by omega), ← h.pages, htook.list,
        List.map_append, List.map_singleton, List.dropLast_concat, htook.frameToPage]

/-- A page placed in a frame that has been taken is the one accessed last. -/
theorem Exact.place (h : Exact cfg s r) (hp : p ∉ recent cfg.defBufSize r.pages)
    (hlists : LruLists cfg [f] s') (hnone : s'.page2frame p = none)
    (hpages : p :: s'.lruFrames.map s'.frameToPage = recent cfg.defBufSize (touch p r.pages))
    (hhits : s'.hitCount = s.hitCount) :
    Exact cfg (s'.placeLru p f) (r.access cfg.defBufSize p) := by
  refine ⟨hlists.place hnone, nodup_touch h.nodup, ?_, ?_⟩
  · have hnot : f ∉ s'.lruFrames := hlists.held f (by simp)
    show (f :: s'.lruFrames).map (Function.update s'.frameToPage f p) = _
    rw [List.map_cons, Function.update_self]
    refine Eq.trans ?_ hpages
    congr 1
    -- the frames of the list keep their pages
    refine List.map_congr_left fun g hg => Function.update_of_ne ?_ _ _
    rintro rfl
    exact hnot hg
  · show s'.hitCount = _
    rw [Accesses.access, if_neg hp, hhits, h.hits]

/-! ## The calls -/

theorem loadPage_any (p : PageId) (f : FrameId) (s : Buffer) :
    Yields (s.loadPage cfg p f) NotIter fun v =>
      ∃ zdsm buffer, v.2 = { s with zdsm := zdsm, buffer := buffer } := by
  refine (s.zdsm.contained_readPage p).notIter.bind ?_
  rintro ⟨zone, b, c⟩ -
  exact ⟨c, _, rfl⟩

/-- **`fix_page`** is an access. -/
theorem fixPage_exact (h : Exact cfg s r) (hlru : cfg.mode = .lru) (isWrite : Bool)
    (p : PageId) : Yields (s.fixPage cfg isWrite p) NotIter fun v =>
      Exact cfg v.2 (r.access cfg.defBufSize p) := by
  rw [fixPage, if_pos hlru]
  cases hpf : s.page2frame p with
  | some f =>
      obtain ⟨l, hl, hexact⟩ := h.hit hpf
      exact Yields.bind_ok hl hexact
  | none =>
      refine (takeFrameLru_any h.lists).bind ?_
      rintro ⟨f, s₂⟩ ⟨htook, hhits⟩
      have hp := h.eq_none_iff.1 hpf
      obtain ⟨hlists, hnone, hpages⟩ := h.took hp htook
      have hplace := h.place hp hlists hnone hpages hhits
      cases isWrite with
      | true => exact hplace
      | false =>
          refine (loadPage_any p f (s₂.placeLru p f)).bind ?_
          rintro ⟨zone, s₃⟩ ⟨zdsm, buffer, rfl⟩
          exact hplace.congr rfl rfl rfl rfl rfl

theorem readPage_exact (h : Exact cfg s r) (hlru : cfg.mode = .lru) (p : PageId) :
    Yields (s.readPage cfg p) NotIter fun v => Exact cfg v.2 (r.access cfg.defBufSize p) := by
  have hfix := fixPage_exact h hlru false p
  cases hr : s.fixPage cfg false p with
  | error e =>
      rw [readPage, hr]
      exact hfix.of_error hr
  | ok v =>
      obtain ⟨f, s₁⟩ := v
      by_cases hid : readId (s₁.buffer f) = p
      · rw [readPage_eq hr, if_pos hid]
        exact (hfix.of_ok hr).congr rfl rfl rfl rfl rfl
      · rw [readPage_eq hr, if_neg hid, yields_error]
        exact fun h => by cases h

theorem writePage_exact (h : Exact cfg s r) (hlru : cfg.mode = .lru) (p : PageId) (b : Page) :
    Yields (s.writePage cfg p b) NotIter fun s' =>
      Exact cfg s' (r.access cfg.defBufSize p) := by
  refine (fixPage_exact h hlru true p).bind ?_
  rintro ⟨f, s₁⟩ h₁
  show Yields (((s₁.fill f b).incReadCount f).setDirty cfg f) _ _
  rw [setDirty, if_pos hlru]
  exact h₁.congr rfl rfl rfl rfl rfl

theorem fixNewPage_exact (h : Exact cfg s r) (hlru : cfg.mode = .lru) (hp : p ∉ r.pages)
    (b : Page) : Yields (s.fixNewPage cfg p b) NotIter fun s' =>
      Exact cfg s' (r.access cfg.defBufSize p) := by
  rw [fixNewPage, if_pos hlru]
  refine (takeFrameLru_any h.lists).bind ?_
  rintro ⟨f, s₂⟩ ⟨htook, hhits⟩
  -- a page never accessed is not among the recent ones
  have hp' : p ∉ recent cfg.defBufSize r.pages := fun hmem => hp (List.mem_of_mem_take hmem)
  obtain ⟨hlists, hnone, hpages⟩ := h.took hp' htook
  refine (s₂.zdsm.contained_createNewPage 1 p b).notIter.bind ?_
  intro c _
  exact h.place hp' (hlists.congr rfl rfl rfl rfl :
    LruLists cfg [f] { s₂.fill f b with zdsm := c }) hnone hpages hhits

/-- One call. -/
theorem step_exact {c : Call} (h : Exact cfg s r) (hlru : cfg.mode = .lru) (hc : r.Fresh c) :
    Yields (step cfg c s) NotIter fun s' => Exact cfg s' (r.access cfg.defBufSize c.page) := by
  cases c with
  | fixNewPage p b => exact fixNewPage_exact h hlru hc b
  | writePage p b => exact writePage_exact h hlru p b
  | readPage p =>
      refine (readPage_exact h hlru p).bind ?_
      intro v hv
      exact hv

/-! ## Runs -/

/-- The manager holds what an exact LRU cache holds after the accesses `r`, and has counted the
hits in 32 bits. -/
structure HoldsRecent (cfg : Config) (s : Buffer) (r : Accesses) : Prop where
  resident : ∀ p, (∃ f, s.page2frame p = some f) ↔ p ∈ recent cfg.defBufSize r.pages
  own : ∀ p q f, s.page2frame p = some f → s.page2frame q = some f → p = q
  hits : s.hitCount = Int32.ofInt r.hits
  victim : s.freeFramesNum = 0 → Yields (s.selectVictim cfg) NotIter fun v =>
    ∃ q, (recent cfg.defBufSize r.pages).getLast? = some q ∧ s.page2frame q = some v.1 ∧
      v.2.page2frame = s.page2frame.erase q

theorem Exact.holdsRecent (h : Exact cfg s r) : HoldsRecent cfg s r where
  resident p := h.mapped_iff
  own p q f hp hq := by rw [← (h.lists.mapped p f hp).2, (h.lists.mapped q f hq).2]
  hits := h.hits
  victim hfull := by
    refine (selectVictim_any h.lists hfull).imp ?_
    rintro ⟨f, s'⟩ ⟨hdrop, -⟩
    refine ⟨s.frameToPage f, ?_, h.lists.linked f ?_, hdrop.page2frame⟩
    · rw [← h.pages, hdrop.list, List.map_append, List.map_singleton, List.getLast?_concat]
    · rw [hdrop.list]
      simp

/-- **Mode `lru` implements exact LRU**, for every sequence of calls that inserts fresh pages. No
call uses an iterator whose node is gone. A run of calls the program makes, on frames that start
with the pages' ids, stops for want of a zone only. -/
theorem holdsRecent_run (cfg : Config) (hlru : cfg.mode = .lru) (mem : Memory)
    (calls : List Call)
    (hl : Legal Accesses.Fresh (Accesses.call cfg.defBufSize) calls .empty) :
    Yields (run (step cfg) calls (Buffer.init cfg mem))
      (fun e => e ≠ .badIter ∧
        (Legal Call.Pre Call.spec calls .empty → AllHeaded calls → e = .noZone))
      fun s => HoldsRecent cfg s (specRun (Accesses.call cfg.defBufSize) calls .empty) := by
  have hrun : Yields (run (step cfg) calls (Buffer.init cfg mem)) NotIter fun s =>
      Exact cfg s (specRun (Accesses.call cfg.defBufSize) calls .empty) := by
    refine run_yields (Exact cfg) ?_ calls _ _ (Exact.init cfg mem) hl
    intro s r c h hc
    exact step_exact h hlru hc
  rcases hrun.ok_or_error with ⟨s, hs, h⟩ | ⟨e, he, h⟩
  · rw [hs]
    exact h.holdsRecent
  · rw [he]
    exact ⟨h, fun hpre hhead => (runLru_spec hlru mem calls hpre hhead).of_error he⟩

theorem holdsRecent_run_reuse :
    ∃ s, run (step (.small .lru)) reuseCalls (smallBuffer .lru) = .ok s ∧
      HoldsRecent (.small .lru) s (specRun (Accesses.call 5) reuseCalls .empty) :=
  (holdsRecent_run (.small .lru) rfl .zero reuseCalls (by decide +kernel)).of_isOk
    (by decide +kernel)

end Buffer

end ZoneBuffer
