import ZoneBuffer.Buffer.Recency
import ZoneBuffer.Buffer.Stays
import ZoneBuffer.Zone.Log

set_option autoImplicit false

/-! # The dirty flags in mode `lru`

`frame_dirty` is to say whether the page in a frame has been written since it was brought in, so
that a page that has not is not written back. `write_page` sets the flag, but nothing in mode `lru`
clears it: `select_victim` gives a frame away with the flag its page has left. `flagsTell_iff` says
that this is all that goes wrong, and when it does. -/

namespace ZoneBuffer

open Outcome Machine

namespace Buffer

variable {cfg : Config} {s s' s₂ : Buffer} {f : FrameId} {p : PageId} {b : Page} {c : Call}
  {g : Stays} {isWrite : Bool}

/-! ## What a call does that returns -/

/-- A frame not yet used, or the last of the list, has been taken. Nothing is said of the store. -/
inductive TookAny (cfg : Config) (s s' : Buffer) (f : FrameId) : Prop
  | unused (h : TookUnused cfg s s' f)
  | victim (h : Dropped s s' f) (hdirty : s'.frameDirty = s.frameDirty)

/-- Frame `f` has been put in front, for the page of the call. -/
structure FrontedLru (c : Call) (s s' : Buffer) (f : FrameId) : Prop where
  list : ∃ rest, s'.lruFrames = f :: rest ∧ ∀ x ∈ rest, x ∈ s.lruFrames
  free : s'.freeFramesNum = s.freeFramesNum
  frameDirty : s'.frameDirty = c.soils f s.frameDirty

/-- What a call does in mode `lru`, whatever calls were made before. -/
inductive RanLru (cfg : Config) (s : Buffer) (c : Call) (s' : Buffer) : Prop
  | hit (f : FrameId) (hc : ¬ c.Misses s) (hp : s.page2frame c.page = some f)
      (hfront : FrontedLru c s s' f) (htable : s'.page2frame = s.page2frame)
      (hpages : s'.frameToPage = s.frameToPage)
  | miss (f : FrameId) (s₂ : Buffer) (hc : c.Misses s) (htook : TookAny cfg s s₂ f)
      (hfront : FrontedLru c s₂ s' f) (htable : s'.page2frame = s₂.page2frame.insert c.page f)
      (hpages : s'.frameToPage = Function.update s₂.frameToPage f c.page)

theorem takeFrameLru_ok (hok : s.takeFrameLru cfg = .ok (f, s₂)) : TookAny cfg s s₂ f := by
  unfold takeFrameLru at hok
  split at hok
  case isFalse hfull =>
    cases hok
    exact .unused ⟨hfull, rfl, rfl⟩
  case isTrue hfull =>
    obtain ⟨⟨f', lrus⟩, hvictim, hok⟩ := bind_eq_ok.1 hok
    obtain ⟨s₁, hback, hok⟩ := bind_eq_ok.1 hok
    cases hok
    obtain ⟨id, hlast, hvictim⟩ := bind_eq_ok.1 hvictim
    cases hvictim
    obtain ⟨c, n, rfl⟩ := (writeBack_any f _).of_ok hback
    have hlist : s.lruFrames = s.lrus.lList.popBack.toList ++ [f] := by
      unfold backOf at hlast
      split at hlast
      case h_2 => cases hlast
      case h_1 heq =>
        cases hlast
        rw [IterList.toList_popBack]
        exact (List.dropLast_append_getLast? f heq).symm
    exact .victim ⟨hfull, hlist, rfl, hfull, rfl, rfl⟩ rfl

theorem updateLru_ok {l : Lru} (hok : s.lrus.update f = .ok l) :
    ∃ rest, l.lList.toList = f :: rest ∧ ∀ x ∈ rest, x ∈ s.lruFrames := by
  unfold Lru.update at hok
  split at hok
  case h_2 => cases hok
  case h_1 iter heq =>
    obtain ⟨l', herase, hok⟩ := bind_eq_ok.1 hok
    cases hok
    unfold eraseIter at herase
    split at herase
    case h_2 => cases herase
    case h_1 l'' hl'' =>
      cases herase
      exact ⟨l'.toList, rfl, fun x hx => IterList.mem_of_mem_erase hl'' hx⟩

/-- `fix_page` has given page `p` the frame `f`, which the caller has not used yet. -/
inductive FixRanLru (cfg : Config) (p : PageId) (s : Buffer) (f : FrameId) (s' : Buffer) : Prop
  | hit (hp : s.page2frame p = some f)
      (hlist : ∃ rest, s'.lruFrames = f :: rest ∧ ∀ x ∈ rest, x ∈ s.lruFrames)
      (hfree : s'.freeFramesNum = s.freeFramesNum) (hdirty : s'.frameDirty = s.frameDirty)
      (htable : s'.page2frame = s.page2frame) (hpages : s'.frameToPage = s.frameToPage)
  | miss (s₂ : Buffer) (hp : s.page2frame p = none) (htook : TookAny cfg s s₂ f)
      (hlist : s'.lruFrames = f :: s₂.lruFrames)
      (hfree : s'.freeFramesNum = s₂.freeFramesNum) (hdirty : s'.frameDirty = s₂.frameDirty)
      (htable : s'.page2frame = s₂.page2frame.insert p f)
      (hpages : s'.frameToPage = Function.update s₂.frameToPage f p)

theorem fixPageLru_ok (hlru : cfg.mode = .lru) (hok : s.fixPage cfg isWrite p = .ok (f, s')) :
    FixRanLru cfg p s f s' := by
  rw [fixPage, if_pos hlru] at hok
  cases hp : s.page2frame p with
  | some f' =>
      simp only [hp] at hok
      obtain ⟨l, hl, hok⟩ := bind_eq_ok.1 hok
      cases hok
      exact .hit hp (updateLru_ok hl) rfl rfl rfl rfl
  | none =>
      simp only [hp] at hok
      obtain ⟨⟨f', s₂⟩, htake, hok⟩ := bind_eq_ok.1 hok
      have htook := takeFrameLru_ok htake
      cases isWrite with
      | true =>
          cases hok
          exact .miss s₂ hp htook rfl rfl rfl rfl rfl
      | false =>
          obtain ⟨⟨zone, s₃⟩, hload, hok⟩ := bind_eq_ok.1 hok
          cases hok
          obtain ⟨⟨zone', b, z⟩, -, hload⟩ := bind_eq_ok.1 hload
          cases hload
          exact .miss s₂ hp htook rfl rfl rfl rfl rfl

/-- The rest of the call leaves the list and the page table as `fix_page` has left them. -/
theorem FixRanLru.ran {s₁ : Buffer} (h : FixRanLru cfg c.page s f s₁)
    (hc : c.Misses s ↔ s.page2frame c.page = none) (hlrus : s'.lrus = s₁.lrus)
    (hfree : s'.freeFramesNum = s₁.freeFramesNum)
    (hdirty : s'.frameDirty = c.soils f s₁.frameDirty) (htable : s'.page2frame = s₁.page2frame)
    (hpages : s'.frameToPage = s₁.frameToPage) : RanLru cfg s c s' := by
  have hframes : s'.lruFrames = s₁.lruFrames := by rw [lruFrames, hlrus, lruFrames]
  cases h with
  | hit hp hlist hf hd ht hpg =>
      refine .hit f ?_ hp ⟨?_, hfree.trans hf, ?_⟩ (htable.trans ht) (hpages.trans hpg)
      · rw [hc, hp]
        exact Option.some_ne_none f
      · rw [hframes]
        exact hlist
      · rw [hdirty, hd]
  | miss s₂ hp htook hlist hf hd ht hpg =>
      refine .miss f s₂ (hc.2 hp) htook ⟨⟨s₂.lruFrames, hframes.trans hlist, fun _ hx => hx⟩,
        hfree.trans hf, ?_⟩ (htable.trans ht) (hpages.trans hpg)
      rw [hdirty, hd]

/-- **A call that returns.** -/
theorem stepLru_ran (hlru : cfg.mode = .lru) (hok : step cfg c s = .ok s') :
    RanLru cfg s c s' := by
  cases c with
  | readPage p =>
      obtain ⟨f, s₁, hfix, rfl⟩ := step_readPage_ok hok
      have hran : FixRanLru cfg (Call.readPage p).page s f s₁ := fixPageLru_ok hlru hfix
      exact hran.ran Iff.rfl rfl rfl rfl rfl rfl
  | writePage p b =>
      obtain ⟨f, s₁, hfix, hok⟩ := step_writePage_ok hok
      rw [setDirty, if_pos hlru] at hok
      cases hok
      have hran : FixRanLru cfg (Call.writePage p b).page s f s₁ := fixPageLru_ok hlru hfix
      exact hran.ran Iff.rfl rfl rfl rfl rfl rfl
  | fixNewPage p b =>
      have hnew : s.fixNewPage cfg p b = .ok s' := hok
      rw [fixNewPage, if_pos hlru] at hnew
      obtain ⟨⟨f, s₂⟩, htake, hnew⟩ := bind_eq_ok.1 hnew
      obtain ⟨z, -, hnew⟩ := bind_eq_ok.1 hnew
      cases hnew
      exact .miss f s₂ trivial (takeFrameLru_ok htake)
        ⟨⟨s₂.lruFrames, rfl, fun _ hx => hx⟩, rfl, rfl⟩ rfl rfl

/-! ## The frames used -/

/-- Frames are used in order, and those not yet used are clean and have had no page. -/
structure UsedInOrder (cfg : Config) (s : Buffer) (g : Stays) : Prop where
  free : s.freeFramesNum ≤ cfg.defBufSize
  list : ∀ f ∈ s.lruFrames, f < cfg.defBufSize - s.freeFramesNum
  mapped : ∀ p f, s.page2frame p = some f →
    f < cfg.defBufSize - s.freeFramesNum ∧ s.frameToPage f = p
  stays : ∀ f, f < cfg.defBufSize - s.freeFramesNum → (g f).Of (s.frameToPage f)
  unused : ∀ f, cfg.defBufSize - s.freeFramesNum ≤ f → s.frameDirty f = false ∧ g f = .never

theorem UsedInOrder.init (cfg : Config) (mem : Memory) :
    UsedInOrder cfg (Buffer.init cfg mem) fun _ => .never where
  free := le_refl _
  list := by
    intro f hf
    cases hf
  mapped := by
    intro p f h
    cases h
  stays f hf := by
    have hlt : f < cfg.defBufSize - cfg.defBufSize := hf
    omega
  unused _ _ := ⟨rfl, rfl⟩

theorem soils_of_ne {dirty : FrameId → Bool} {x : FrameId} (h : x ≠ f) :
    c.soils f dirty x = dirty x := by
  cases c with
  | writePage p b => exact Function.update_of_ne h _ _
  | readPage p => rfl
  | fixNewPage p b => rfl

theorem soils_self {dirty : FrameId → Bool} : c.soils f dirty f = (c.writes || dirty f) := by
  cases c with
  | writePage p b => exact Function.update_self ..
  | readPage p => rfl
  | fixNewPage p b => rfl

theorem FrontedLru.noteStay_eq (h : FrontedLru c s₂ s' f) (hlru : cfg.mode = .lru) :
    noteStay cfg c s s' g = noteFrame cfg c s f g := by
  obtain ⟨rest, hlist, -⟩ := h.list
  refine Buffer.noteStay_eq (l := rest) ?_
  rw [residents, if_pos hlru]
  exact hlist

/-- What is known of the frame that a miss takes. -/
structure Given (cfg : Config) (s s₂ : Buffer) (f : FrameId) : Prop where
  frame : f < cfg.defBufSize - s₂.freeFramesNum
  used : ∀ x, x ≠ f →
    (x < cfg.defBufSize - s₂.freeFramesNum ↔ x < cfg.defBufSize - s.freeFramesNum)
  free : s₂.freeFramesNum ≤ cfg.defBufSize
  list : ∀ x ∈ s₂.lruFrames, x ∈ s.lruFrames
  table : ∀ p x, s₂.page2frame p = some x → s.page2frame p = some x ∧ x ≠ f
  frameToPage : s₂.frameToPage = s.frameToPage
  frameDirty : s₂.frameDirty = s.frameDirty

theorem TookAny.given (h : TookAny cfg s s₂ f) (hu : UsedInOrder cfg s g) :
    Given cfg s s₂ f := by
  have hfree := hu.free
  cases h with
  | unused h =>
      obtain ⟨hne, rfl, rfl⟩ := h
      constructor
      case frame =>
        show cfg.defBufSize - s.freeFramesNum < cfg.defBufSize - (s.freeFramesNum - 1)
        omega
      case used =>
        intro x hx
        refine ⟨fun hlt => lt_of_le_of_ne (Nat.le_of_lt_succ (lt_of_lt_of_le hlt ?_)) hx,
          fun hlt => lt_of_lt_of_le hlt ?_⟩
        · show cfg.defBufSize - (s.freeFramesNum - 1) ≤ cfg.defBufSize - s.freeFramesNum + 1
          omega
        · show cfg.defBufSize - s.freeFramesNum ≤ cfg.defBufSize - (s.freeFramesNum - 1)
          omega
      case free => exact le_trans (Nat.sub_le _ 1) hfree
      case list => exact fun x hx => hx
      case table =>
        intro p x hp
        exact ⟨hp, (hu.mapped p x hp).1.ne⟩
      case frameToPage => rfl
      case frameDirty => rfl
  | victim h hdirty =>
      have hf : f ∈ s.lruFrames := by
        rw [h.list]
        simp
      have hlt := hu.list f hf
      rw [h.full] at hlt
      constructor
      case frame =>
        rw [h.freeFramesNum]
        exact hlt
      case used =>
        intro x _
        rw [h.freeFramesNum, h.full]
      case free =>
        rw [h.freeFramesNum]
        exact Nat.zero_le _
      case list =>
        intro x hx
        rw [h.list]
        exact List.mem_append_left _ hx
      case table =>
        intro p x hp
        rw [h.page2frame, PartialMap.erase_eq_some] at hp
        refine ⟨hp.2, fun hx => ?_⟩
        -- the page recorded for the victim has just been unmapped
        subst hx
        exact hp.1 (hu.mapped p x hp.2).2.symm
      case frameToPage => exact h.frameToPage
      case frameDirty => exact hdirty

/-- A call keeps the order. -/
theorem RanLru.usedInOrder (h : RanLru cfg s c s') (hlru : cfg.mode = .lru)
    (hu : UsedInOrder cfg s g) : UsedInOrder cfg s' (noteStay cfg c s s' g) := by
  cases h with
  | hit f hc hp hfront htable hpages =>
      obtain ⟨hf, hfp⟩ := hu.mapped _ f hp
      obtain ⟨rest, hlist, hrest⟩ := hfront.list
      rw [hfront.noteStay_eq hlru]
      constructor
      case free =>
        rw [hfront.free]
        exact hu.free
      case list =>
        intro x hx
        rw [hlist] at hx
        rw [hfront.free]
        rcases List.mem_cons.1 hx with rfl | hx
        · exact hf
        · exact hu.list x (hrest x hx)
      case mapped =>
        rw [htable, hpages, hfront.free]
        exact hu.mapped
      case stays =>
        intro x hx
        rw [hfront.free] at hx
        rw [hpages]
        by_cases hxf : x = f
        · subst hxf
          rw [hfp]
          exact noteFrame_of fun _ => hfp ▸ hu.stays x hx
        · rw [noteFrame_of_ne hxf]
          exact hu.stays x hx
      case unused =>
        intro x hx
        rw [hfront.free] at hx
        have hxf : x ≠ f := (lt_of_lt_of_le hf hx).ne'
        rw [noteFrame_of_ne hxf, hfront.frameDirty, soils_of_ne hxf]
        exact hu.unused x hx
  | miss f s₂ hc htook hfront htable hpages =>
      have hgiven := htook.given hu
      obtain ⟨rest, hlist, hrest⟩ := hfront.list
      rw [hfront.noteStay_eq hlru]
      constructor
      case free =>
        rw [hfront.free]
        exact hgiven.free
      case list =>
        intro x hx
        rw [hlist] at hx
        rw [hfront.free]
        by_cases hxf : x = f
        · rw [hxf]
          exact hgiven.frame
        · rw [hgiven.used x hxf]
          exact hu.list x (hgiven.list x (hrest x ((List.mem_cons.1 hx).resolve_left hxf)))
      case mapped =>
        intro p x hp
        rw [htable, PartialMap.insert_eq_some] at hp
        rw [hfront.free, hpages]
        rcases hp with hp | ⟨-, rfl, rfl⟩
        · obtain ⟨hp, hxf⟩ := hgiven.table p x hp
          rw [hgiven.used x hxf, Function.update_of_ne hxf, hgiven.frameToPage]
          exact hu.mapped p x hp
        · rw [Function.update_self]
          exact ⟨hgiven.frame, rfl⟩
      case stays =>
        intro x hx
        rw [hfront.free] at hx
        rw [hpages, hgiven.frameToPage]
        by_cases hxf : x = f
        · subst hxf
          rw [Function.update_self]
          exact noteFrame_of fun hnot => absurd hc hnot
        · rw [noteFrame_of_ne hxf, Function.update_of_ne hxf]
          exact hu.stays x ((hgiven.used x hxf).1 hx)
      case unused =>
        intro x hx
        rw [hfront.free] at hx
        have hxf : x ≠ f := (lt_of_lt_of_le hgiven.frame hx).ne'
        have hused := hgiven.used x hxf
        rw [noteFrame_of_ne hxf, hfront.frameDirty, soils_of_ne hxf, hgiven.frameDirty]
        exact hu.unused x (not_lt.1 fun hlt => absurd (hused.2 hlt) (not_lt.2 hx))

/-! ## What is written back -/

/-- The frames of `vs` are sent to the device, in order, by calls of `write_page`. -/
theorem cleanBuffer_logged (s : Buffer) (hok : s.cleanBuffer cfg = .ok s') :
    Controller.Logged s.zdsm s'.zdsm
      (((List.range cfg.defBufSize).filter s.frameDirty).map s.buffer) := by
  obtain ⟨s₁, hloop, hok⟩ := bind_eq_ok.1 hok
  cases hok
  have hall : Yields ((List.range cfg.defBufSize).foldlM (cleanOne cfg) s) (fun _ => True)
      fun s₁ => (∃ c, s₁ = { s with zdsm := c }) ∧ Controller.Logged s.zdsm s₁.zdsm
        (((List.range cfg.defBufSize).filter s.frameDirty).map s.buffer) := by
    -- after the frames `done` those of them that are dirty have been written
    refine Yields.foldlM_upto (fun done s₁ => (∃ c, s₁ = { s with zdsm := c }) ∧
      Controller.Logged s.zdsm s₁.zdsm ((done.filter s.frameDirty).map s.buffer)) _ _
      ⟨⟨s.zdsm, rfl⟩, Controller.Logged.of_eq rfl⟩ ?_
    rintro done f todo s₁ - ⟨⟨c, rfl⟩, hlog⟩
    rw [yields_partial_iff, List.filter_append, List.map_append]
    intro s₂ hs₂
    unfold cleanOne at hs₂
    split at hs₂
    case isTrue hf =>
      obtain ⟨c', hc', hs₂⟩ := bind_eq_ok.1 hs₂
      cases hs₂
      rw [List.filter_cons_of_pos hf, List.filter_nil]
      exact ⟨⟨c', rfl⟩, hlog.trans (Controller.writePage_logged hc')⟩
    case isFalse hf =>
      cases hs₂
      rw [List.filter_cons_of_neg hf, List.filter_nil, List.map_nil, List.append_nil]
      exact ⟨⟨c, rfl⟩, hlog⟩
  exact (hall.of_ok hloop).2

/-- Frame `f` has been written back by `select_victim`, and the detector has run. -/
def WrittenBack (cfg : Config) (s : Buffer) (f : FrameId) (s' : Buffer) : Prop :=
  ∃ c, s.zdsm.writePage cfg.g 1 0 (s.frameToPage f) (s.buffer f) = .ok c ∧
    Controller.Logged s.zdsm c [s.buffer f] ∧
    c.garbageCollectionDetect cfg.g cfg.tests = .ok s'.zdsm

theorem selectVictim_written (hok : s.selectVictim cfg = .ok (f, s')) :
    if s.frameDirty f then WrittenBack cfg s f s' else s'.zdsm = s.zdsm := by
  obtain ⟨⟨f', lrus⟩, -, hok⟩ := bind_eq_ok.1 hok
  obtain ⟨s₁, hback, hok⟩ := bind_eq_ok.1 hok
  cases hok
  unfold writeBack at hback
  split at hback
  case isTrue hf =>
    rw [if_pos hf]
    obtain ⟨c, hc, hback⟩ := bind_eq_ok.1 hback
    obtain ⟨c', hc', hback⟩ := bind_eq_ok.1 hback
    cases hback
    exact ⟨c, hc, Controller.writePage_logged hc, hc'⟩
  case isFalse hf =>
    rw [if_neg hf]
    cases hback
    rfl

/-- A frame is dirty if and only if its page has been written since it was brought in, and these
are the pages that `select_victim` and `clean_buffer` write back. -/
structure FlagsTell (cfg : Config) (r : Buffer × Stays) : Prop where
  pages : ∀ f ∈ r.1.lruFrames, (r.2 f).Of (r.1.frameToPage f)
  flags : ∀ f, r.1.frameDirty f = (r.2 f).written
  victim : ∀ f s', r.1.selectVictim cfg = .ok (f, s') →
    if (r.2 f).written then WrittenBack cfg r.1 f s' else s'.zdsm = r.1.zdsm
  clean : ∀ s', r.1.cleanBuffer cfg = .ok s' → Controller.Logged r.1.zdsm s'.zdsm
    (((List.range cfg.defBufSize).filter fun f => (r.2 f).written).map r.1.buffer)

/-- It is the flags that matter. -/
theorem UsedInOrder.tell_iff (hu : UsedInOrder cfg s g) :
    FlagsTell cfg (s, g) ↔ ∀ f, s.frameDirty f = (g f).written := by
  constructor
  · intro h
    exact h.flags
  · intro h
    refine ⟨fun f hf => hu.stays f (hu.list f hf), h, fun f s' hok => ?_, fun s' hok => ?_⟩
    · have hw := selectVictim_written hok
      rwa [h f] at hw
    · have hlog := cleanBuffer_logged s hok
      rwa [funext h] at hlog

/-- A page that is brought in without being written is given a clean frame: if all frames are used,
the last one of the list is clean. -/
def GivesClean (s : Buffer) (c : Call) : Prop :=
  c.Misses s → c.writes = false → s.freeFramesNum = 0 →
    ∃ f ∈ s.lruFrames.getLast?, s.frameDirty f = false

instance (s : Buffer) (c : Call) : Decidable (GivesClean s c) :=
  inferInstanceAs (Decidable (_ → _ → _ → ∃ f ∈ s.lruFrames.getLast?, s.frameDirty f = false))

/-- **One call.** -/
theorem RanLru.flags_iff (h : RanLru cfg s c s') (hlru : cfg.mode = .lru)
    (hu : UsedInOrder cfg s g) (hflags : ∀ f, s.frameDirty f = (g f).written) :
    (∀ f, s'.frameDirty f = (noteStay cfg c s s' g f).written) ↔ GivesClean s c := by
  cases h with
  | hit f hc hp hfront htable hpages =>
      refine ⟨fun _ hmiss => absurd hmiss hc, fun _ x => ?_⟩
      rw [hfront.noteStay_eq hlru, hfront.frameDirty]
      by_cases hx : x = f
      · rw [hx, soils_self, noteFrame_written, hflags f]
        simp [hc]
      · rw [soils_of_ne hx, noteFrame_of_ne hx]
        exact hflags x
  | miss f s₂ hc htook hfront htable hpages =>
      have hgiven := htook.given hu
      -- the flag of the frame given decides
      have hframe : (∀ x, s'.frameDirty x = (noteStay cfg c s s' g x).written) ↔
          (c.writes = false → s.frameDirty f = false) := by
        rw [hfront.noteStay_eq hlru, hfront.frameDirty, hgiven.frameDirty]
        have hself : (noteFrame cfg c s f g f).written = c.writes := by
          rw [noteFrame_written]
          simp [hc]
        constructor
        · intro hall hw
          have hf := hall f
          rwa [soils_self, hself, hw, Bool.false_or] at hf
        · intro hf x
          by_cases hx : x = f
          · rw [hx, soils_self, hself]
            cases hw : c.writes with
            | true => rfl
            | false => exact hf hw
          · rw [soils_of_ne hx, noteFrame_of_ne hx]
            exact hflags x
      rw [hframe]
      unfold GivesClean
      cases htook with
      | unused htook =>
          -- a frame not yet used is clean
          refine ⟨fun _ _ _ hfull => absurd hfull htook.free, fun _ _ => ?_⟩
          refine (hu.unused f ?_).1
          rw [htook.frame]
      | victim htook hdirty =>
          have hlast : s.lruFrames.getLast? = some f := by
            rw [htook.list, List.getLast?_concat]
          rw [hlast]
          constructor
          · intro hf _ hw _
            exact ⟨f, rfl, hf hw⟩
          · intro hgive hw
            obtain ⟨x, hx, hclean⟩ := hgive hc hw htook.full
            rw [Option.some.inj hx]
            exact hclean

/-! ## Runs -/

/-- **In mode `lru` the dirty flags tell which pages have been written, in every state of a run of
any calls, if and only if each page brought in without being written is given a clean frame.** -/
theorem flagsTell_iff (cfg : Config) (hlru : cfg.mode = .lru) (mem : Memory) (calls : List Call)
    (last : Buffer) (hrun : run (step cfg) calls (Buffer.init cfg mem) = .ok last) :
    (∀ r, Visits (stepStays cfg) calls (Buffer.init cfg mem, fun _ => .never) r →
        FlagsTell cfg r) ↔
      Along (step cfg) GivesClean calls (Buffer.init cfg mem) := by
  refine visits_ghost_iff_along (fun r => UsedInOrder cfg r.1 r.2) (fun s g c s' hu hstep hP => ?_)
    (UsedInOrder.init cfg mem) ?_ hrun
  · have hran := stepLru_ran hlru hstep
    have hu' := hran.usedInOrder hlru hu
    refine ⟨hu', ?_⟩
    rw [hu'.tell_iff]
    exact hran.flags_iff hlru hu hP.flags
  · rw [(UsedInOrder.init cfg mem).tell_iff]
    exact fun f => rfl

/-- Pages are inserted and read in more frames than there are, and written in the last one. -/
@[irreducible] def cleanCalls : List Call :=
  [.fixNewPage 0 (frameOf 0 1), .fixNewPage 1 (frameOf 1 1), .fixNewPage 2 (frameOf 2 1),
    .fixNewPage 3 (frameOf 3 1), .fixNewPage 4 (frameOf 4 1), .fixNewPage 5 (frameOf 5 1),
    .readPage 0, .writePage 1 (frameOf 1 2)]

theorem flagsTell_iff_clean :
    ∃ last, run (step (.small .lru)) cleanCalls (Buffer.init (.small .lru) .zero) = .ok last ∧
      ∀ r, Visits (stepStays (.small .lru)) cleanCalls
        (Buffer.init (.small .lru) .zero, fun _ => .never) r → FlagsTell (.small .lru) r := by
  obtain ⟨last, hrun, -⟩ : ∃ last : Buffer, run (step (.small .lru)) cleanCalls
      (Buffer.init (.small .lru) .zero) = .ok last ∧ True :=
    exists_ok_of_decide (by decide +kernel)
  exact ⟨last, hrun, (flagsTell_iff (.small .lru) rfl .zero cleanCalls last hrun).2
    (by decide +kernel)⟩

/-- Page 0 is written, and four pages later its frame is given to page 5. -/
@[irreducible] def reflagCalls : List Call :=
  fillCalls ++ [.fixNewPage 5 (frameOf 5 1)]

/-- **A page just inserted is dirty**: page 5 has not been written, but the page its frame held
before has been. -/
theorem inherited_flag : Legal Call.Pre Call.spec reflagCalls .empty ∧
    ∃ r, run (stepStays (.small .lru)) reflagCalls (smallBuffer .lru, fun _ => .never) = .ok r ∧
      ¬ FlagsTell (.small .lru) r := by
  refine ⟨by decide +kernel, ?_⟩
  obtain ⟨r, hr, f, hf, hne⟩ : ∃ r : Buffer × Stays, run (stepStays (.small .lru)) reflagCalls
      (smallBuffer .lru, fun _ => .never) = .ok r ∧
        ∃ f ∈ r.1.lruFrames, r.1.frameDirty f ≠ (r.2 f).written :=
    exists_ok_of_decide (by decide +kernel)
  exact ⟨r, hr, fun h => hne (h.flags f)⟩

end Buffer

end ZoneBuffer
