import ZoneBuffer.Buffer.Stays

set_option autoImplicit false

/-! # The tags of the frames

In the modes `zalp` and `zalp_wc` the tag of a frame, `cluster_flag`, is to say something about the
page in it: which zone or cluster it was read from, or how often it has been found resident. A page
that is read or inserted gets a tag when it is brought in, but one that is about to be overwritten
does not, and takes over what the page before it has left. `tagsBelong_iff` says that this is all
that goes wrong. -/

namespace ZoneBuffer

open Outcome Machine

namespace Buffer

variable {cfg : Config} {s s' s₁ s₂ : Buffer} {f : FrameId} {c : Call} {g : Stays} {st : Stay}

/-! ## The frame a miss takes -/

/-- The frame a miss in `s` takes: the last free one; without one the last victim, if an eviction
is due, and the last clean frame otherwise. -/
def nextFrame (cfg : Config) (s : Buffer) : Option FrameId :=
  if s.strategy.freeFrames ≠ [] then s.strategy.freeFrames.getLast?
  else if Due cfg s.frameDirty s.strategy then (s.victims cfg).getLast?
  else s.strategy.cleanFrames.getLast?

/-- The victims that stay resident are the candidates that pass a test. -/
theorem victims_eq_filter (s : Buffer) (hm : cfg.mode ≠ .cflru) :
    ∃ q : FrameId → Bool,
      s.victims cfg = (s.strategy.lruOrder.drop cfg.workRegSize).filter q := by
  unfold victims
  cases h : cfg.mode with
  | cflru => exact absurd h hm
  | achOnly => exact ⟨fun _ => true, (List.filter_true _).symm⟩
  | zalp | zalpWc | whOnly | lru => exact ⟨_, rfl⟩

/-- After an eviction whose victims stay resident they are the last clean frames. -/
theorem getLast?_cleanFrames {l : List (PageId × Page)} (hl : ZalpLists cfg [] s₁)
    (hev : Evicted cfg False s s₁ (s.victims cfg) l)
    (hdue : Due cfg s.frameDirty s.strategy) (hrel : cfg.mode.releases = false) :
    s₁.strategy.cleanFrames.getLast? = (s.victims cfg).getLast? := by
  have hm : cfg.mode ≠ .cflru := by
    intro hm
    rw [hm] at hrel
    cases hrel
  obtain ⟨q, hq⟩ := s.victims_eq_filter hm
  have hlru : s₁.strategy.lruOrder = s.strategy.lruOrder := by
    rw [hev.picked.lru, hrel, if_neg Bool.false_ne_true]
  -- behind the working region the clean frames are the victims
  have hdrop : (s.strategy.lruOrder.drop cfg.workRegSize).filter (fun x => !s₁.frameDirty x)
      = s.victims cfg := by
    rw [hev.frameDirty]
    conv_rhs => rw [hq]
    refine List.filter_congr fun x hx => ?_
    have hv : x ∈ s.victims cfg ↔ q x = true := by
      rw [hq, List.mem_filter, and_iff_right hx]
    by_cases hx' : x ∈ s.victims cfg
    · rw [Ordered.cleared_of_mem hx', hv.1 hx']
      rfl
    · rw [Ordered.cleared_of_notMem hx', hdue.dirty x hx,
        Bool.eq_false_of_not_eq_true fun hqx => hx' (hv.2 hqx)]
      rfl
  calc s₁.strategy.cleanFrames.getLast?
      = (s.strategy.lruOrder.filter fun x => !s₁.frameDirty x).getLast? := by
        rw [hl.lists.shows.clean, hlru]
    _ = ((s.strategy.lruOrder.take cfg.workRegSize).filter (fun x => !s₁.frameDirty x)
          ++ s.victims cfg).getLast? := by
        rw [← hdrop, ← List.filter_append, List.take_append_drop]
    _ = (s.victims cfg).getLast? := List.getLast?_append_of_ne_nil _ hev.picked.ne_nil

/-- **A miss takes the frame `nextFrame` says.** -/
theorem nextFrame_eq (hl : ZalpLists cfg [] s₁) (hroomed : Roomed cfg False s s₁)
    (htook : Took cfg s₁ s₂ f) : s.nextFrame cfg = some f := by
  unfold nextFrame
  rcases hroomed with ⟨hdue, rfl⟩ | ⟨hdue, l, hev⟩
  · rcases htook.how with hf | hc
    · rw [if_pos (by rw [hf.free]; simp), hf.free, List.getLast?_concat]
    · rw [if_neg (not_not.2 hc.free), if_neg hdue]
      exact hc.last
  · rw [if_neg (not_not.2 hdue.free), if_pos hdue]
    have hfree := hev.picked.free
    cases hrel : cfg.mode.releases with
    | true =>
        rw [hrel, if_pos rfl, hdue.free, List.nil_append] at hfree
        rcases htook.how with hf | hc
        · rw [← hfree, hf.free, List.getLast?_concat]
        · exact absurd (hfree.symm.trans hc.free) hev.picked.ne_nil
    | false =>
        rw [hrel, if_neg Bool.false_ne_true, hdue.free] at hfree
        rcases htook.how with hf | hc
        · rw [hf.free] at hfree
          simp at hfree
        · rw [← getLast?_cleanFrames hl hev hdue hrel]
          exact hc.last

/-! ## One call -/

/-- The modes that use the tags. -/
theorem ne_of_tagged (hm : cfg.mode.isZalpWc = true ∨ cfg.mode = .zalp) :
    cfg.mode ≠ .achOnly ∧ cfg.mode ≠ .cflru ∧ cfg.mode ≠ .lru := by
  refine ⟨?_, ?_, ?_⟩
  all_goals
    intro h
    rw [h] at hm
    simp [Mode.isZalpWc] at hm

/-- The tag of frame `f` belongs to the page in it, whose stay is `st`. In mode `zalp` it was set
when the page was brought in, and is a cluster if the page's id is not negative; with `zalp_wc` it
is the number of hits since. -/
def TagOf (cfg : Config) (s : Buffer) (st : Stay) (f : FrameId) : Prop :=
  if cfg.mode = .zalp then
    st.tag = some (s.clusterFlag f) ∧
      (0 ≤ s.frameToPage f → 0 ≤ (s.clusterFlag f).toInt ∧ (s.clusterFlag f).toInt < cfg.g.clusterNum)
  else (s.clusterFlag f).toInt = st.hits.length

/-- The tags of all resident frames belong to their pages. -/
def TagsBelong (cfg : Config) (r : Buffer × Stays) : Prop :=
  ∀ f ∈ r.1.strategy.lruOrder, (r.2 f).Of (r.1.frameToPage f) ∧ TagOf cfg r.1 (r.2 f) f

/-- A page that is overwritten on a miss gets no tag. That does no harm if tags count hits and the
frame it is given has none. -/
def GivesTag (cfg : Config) (s : Buffer) (c : Call) : Prop :=
  c.Misses s → c.writes = true →
    cfg.mode ≠ .zalp ∧ ∃ f ∈ s.nextFrame cfg, s.clusterFlag f = 0

instance (cfg : Config) (s : Buffer) (c : Call) : Decidable (GivesTag cfg s c) :=
  inferInstanceAs (Decidable (_ → _ → _ ≠ _ ∧ ∃ f ∈ s.nextFrame cfg, s.clusterFlag f = 0))

/-- Where tags count hits, a hit finds a tag that is not yet the largest `int`: it is not hit
number `2 ^ 31` since the page was brought in. -/
def CountsHit (cfg : Config) (s : Buffer) (c : Call) : Prop :=
  ¬ c.Misses s → cfg.mode.isZalpWc = true →
    ∀ f ∈ s.page2frame c.page, (s.clusterFlag f).toInt < 2147483647

instance (cfg : Config) (s : Buffer) (c : Call) : Decidable (CountsHit cfg s c) :=
  inferInstanceAs (Decidable (_ → _ → ∀ f ∈ s.page2frame c.page, _))

/-- The call leaves every resident frame a tag that belongs to its page, if they all had one. -/
def KeepsTags (cfg : Config) (s : Buffer) (c : Call) : Prop := GivesTag cfg s c ∧ CountsHit cfg s c

instance (cfg : Config) (s : Buffer) (c : Call) : Decidable (KeepsTags cfg s c) :=
  inferInstanceAs (Decidable (_ ∧ _))

/-- A counter of 32 bits counts one more unless it is at its end. -/
theorem toInt_succ_iff (v : Int32) : (v + 1).toInt = v.toInt + 1 ↔ v.toInt < 2147483647 := by
  have hlt := v.toInt_lt
  have hle := v.le_toInt
  rw [Int32.toInt_add, show (1 : Int32).toInt = 1 from rfl, Int.bmod_def]
  split <;> omega

/-- A page that is not overwritten gets a tag. -/
theorem tagGiven_spec (hm : cfg.mode.isZalpWc = true ∨ cfg.mode = .zalp)
    (hw : c.writes = false) (hload : Loads cfg c s) :
    ∃ v, tagGiven cfg s c = some v ∧ (cfg.mode ≠ .zalp → v = 0) ∧
      (cfg.mode = .zalp → 0 ≤ c.page → 0 ≤ v.toInt ∧ v.toInt < cfg.g.clusterNum) := by
  have hpos : (0 : Int) < cfg.g.clusterNum := Int.natCast_pos.2 cfg.g.cluster_pos
  cases c with
  | writePage p b => cases hw
  | readPage p =>
      obtain ⟨⟨zone, b, z⟩, hread⟩ := hload p rfl
      unfold tagGiven
      cases h : cfg.mode with
      | zalpWc | whOnly => exact ⟨0, rfl, fun _ => rfl, fun h => nomatch h⟩
      | zalp =>
          refine ⟨Int32.ofNat (zone % cfg.g.clusterNum), by simp only [hread],
            fun hne => absurd rfl hne, fun _ _ => ?_⟩
          have hlt := Nat.mod_lt zone cfg.g.cluster_pos
          rw [toInt_zoneCluster h]
          omega
      | achOnly | cflru | lru => simp [h, Mode.isZalpWc] at hm
  | fixNewPage p b =>
      unfold tagGiven
      cases h : cfg.mode with
      | zalpWc | whOnly => exact ⟨0, rfl, fun _ => rfl, fun h => nomatch h⟩
      | zalp =>
          refine ⟨_, rfl, fun hne => absurd rfl hne, fun _ hp => ?_⟩
          rw [toInt_pageCluster h]
          exact ⟨Int.tmod_nonneg _ (Int64.le_iff_toInt_le.1 hp), Int.tmod_lt_of_pos _ hpos⟩
      | achOnly | cflru | lru => simp [h, Mode.isZalpWc] at hm

theorem tagGiven_of_writes (hw : c.writes = true) : tagGiven cfg s c = none := by
  cases c with
  | writePage p b => rfl
  | readPage p => cases hw
  | fixNewPage p b => cases hw

/-- The tag of a frame depends on its flag, its page and its stay. -/
theorem tagOf_congr (hflag : s'.clusterFlag f = s.clusterFlag f)
    (hpage : s'.frameToPage f = s.frameToPage f) : TagOf cfg s' st f ↔ TagOf cfg s st f := by
  unfold TagOf
  rw [hflag, hpage]

/-- The stays recorded by a call that has put frame `f` in front. -/
theorem noteStay_front (hlru : cfg.mode ≠ .lru) {rest : List FrameId}
    (h : s'.strategy.lruOrder = f :: rest) : noteStay cfg c s s' g = noteFrame cfg c s f g := by
  refine noteStay_eq (l := rest) ?_
  rw [residents, if_neg hlru]
  exact h

/-- On a hit the tags go on belonging to their pages if and only if the hit can be counted. -/
theorem tagsBelong_hit (hlru : cfg.mode ≠ .lru) (h : TagsBelong cfg (s, g))
    (hl : ZalpLists cfg [] s) (hc : ¬ c.Misses s) (hp : s.page2frame c.page = some f)
    (hfront : Fronted c s s' f)
    (htag : s'.clusterFlag = if cfg.mode.isZalpWc then
      Function.update s.clusterFlag f (s.clusterFlag f + 1) else s.clusterFlag)
    (hm : cfg.mode.isZalpWc = true ∨ cfg.mode = .zalp) :
    TagsBelong cfg (s', noteStay cfg c s s' g) ↔ CountsHit cfg s c := by
  obtain ⟨hf, hpage⟩ := hl.mapped _ f hp
  obtain ⟨hoff, htf⟩ := h f hf
  have hpages : s'.frameToPage = s.frameToPage := by
    rw [hfront.frameToPage, ← hpage]
    exact Function.update_eq_self f s.frameToPage
  rw [noteStay_front hlru hfront.lru]
  -- only the tag and the stay of the frame hit change
  have hrest : TagsBelong cfg (s', noteFrame cfg c s f g) ↔
      TagOf cfg s' { g f with hits := c :: (g f).hits } f := by
    have hstay : noteFrame cfg c s f g f = { g f with hits := c :: (g f).hits } := by
      rw [noteFrame_hit hc, Function.update_self]
    constructor
    · intro hall
      rw [← hstay]
      exact (hall f (by rw [hfront.lru]; exact List.mem_cons_self)).2
    · intro htf' x hx
      have hx : x ∈ s.strategy.lruOrder := by
        rw [hfront.lru] at hx
        exact (List.perm_cons_erase hf).symm.subset hx
      obtain ⟨hof, htx⟩ := h x hx
      show (noteFrame cfg c s f g x).Of (s'.frameToPage x) ∧
        TagOf cfg s' (noteFrame cfg c s f g x) x
      rw [hpages]
      by_cases hxf : x = f
      · subst hxf
        rw [hpage]
        exact ⟨noteFrame_of fun _ => hpage ▸ hof, hstay ▸ htf'⟩
      · rw [noteFrame_of_ne hxf]
        refine ⟨hof, (tagOf_congr ?_ (congrFun hpages x)).2 htx⟩
        rw [htag]
        split
        · exact Function.update_of_ne hxf _ _
        · rfl
  rw [hrest]
  unfold TagOf CountsHit at *
  rcases hm with hwc | hz
  · have hnz : cfg.mode ≠ .zalp := by
      intro hz
      rw [hz] at hwc
      cases hwc
    rw [if_neg hnz] at htf ⊢
    rw [htag, if_pos hwc, Function.update_self, List.length_cons, Int.natCast_succ, ← htf,
      toInt_succ_iff]
    constructor
    · intro hlt _ _ f' hf'
      obtain rfl : f = f' := Option.some.inj (hp.symm.trans hf')
      exact hlt
    · intro hcount
      exact hcount hc hwc f hp
  · have hwc : ¬ cfg.mode.isZalpWc = true := by
      rw [hz]
      decide
    rw [if_pos hz] at htf ⊢
    rw [htag, if_neg hwc, hpages]
    exact ⟨fun _ _ hwc' => absurd hwc' hwc, fun _ => htf⟩

/-- On a miss the tags belong to their pages again if and only if the call gives one. -/
theorem tagsBelong_miss (hlru : cfg.mode ≠ .lru) (h : TagsBelong cfg (s, g))
    (hm : cfg.mode.isZalpWc = true ∨ cfg.mode = .zalp) (hc : c.Misses s)
    (hlists : ZalpLists cfg [] s₁) (hroomed : Roomed cfg False s s₁)
    (htake : s.takeFrame cfg = .ok (f, s₂)) (htook : Took cfg s₁ s₂ f)
    (hfront : Fronted c s₂ s' f) (hload : Loads cfg c s₂)
    (htag : s'.clusterFlag = retag (tagGiven cfg s₂ c) f s₂.clusterFlag) :
    TagsBelong cfg (s', noteStay cfg c s s' g) ↔ GivesTag cfg s c := by
  have hspared := htook.spared hlists hroomed.spared
  have hset : tagSet cfg c s = tagGiven cfg s₂ c := by
    unfold tagSet
    rw [htake]
  rw [noteStay_front hlru hfront.lru, noteFrame_miss hc, hset]
  -- the frames that stay keep their pages, tags and stays
  have hrest : TagsBelong cfg (s', Function.update g f ⟨some c, tagGiven cfg s₂ c, []⟩) ↔
      TagOf cfg s' ⟨some c, tagGiven cfg s₂ c, []⟩ f := by
    have hpage : s'.frameToPage f = c.page := by
      rw [hfront.frameToPage, Function.update_self]
    constructor
    · intro hall
      have hf := (hall f (by rw [hfront.lru]; exact List.mem_cons_self)).2
      simpa only [Function.update_self] using hf
    · intro hf x hx
      dsimp only at hx ⊢
      by_cases hxf : x = f
      · subst hxf
        rw [Function.update_self, hpage]
        exact ⟨⟨⟨c, rfl, rfl⟩, by simp⟩, hf⟩
      · rw [hfront.lru] at hx
        have hx₂ := List.mem_of_mem_erase ((List.mem_cons.1 hx).resolve_left hxf)
        have hpx : s'.frameToPage x = s.frameToPage x := by
          rw [hfront.frameToPage, Function.update_of_ne hxf, hspared.frameToPage]
        have hfx : s'.clusterFlag x = s.clusterFlag x := by
          rw [htag, retag_of_ne hxf, hspared.clusterFlag]
        obtain ⟨hof, htx⟩ := h x (hspared.mem x hx₂)
        rw [Function.update_of_ne hxf, hpx]
        exact ⟨hof, (tagOf_congr hfx hpx).2 htx⟩
  rw [hrest]
  have hpage : s'.frameToPage f = c.page := by
    rw [hfront.frameToPage, Function.update_self]
  unfold TagOf GivesTag
  cases hw : c.writes with
  | false =>
      obtain ⟨v, hv, hzero, hrange⟩ := tagGiven_spec hm hw hload
      have hflag : s'.clusterFlag f = v := by
        rw [htag, hv]
        exact Function.update_self ..
      refine ⟨fun _ _ hw => absurd hw (by decide), fun _ => ?_⟩
      rw [hflag, hpage, hv]
      split
      case isTrue hz => exact ⟨rfl, hrange hz⟩
      case isFalse hz =>
        rw [hzero hz]
        rfl
  | true =>
      have hnone : tagGiven cfg s₂ c = none := tagGiven_of_writes hw
      have hflag : s'.clusterFlag f = s.clusterFlag f := by
        rw [htag, hnone, ← hspared.clusterFlag]
        rfl
      rw [hnone, hflag, nextFrame_eq hlists hroomed htook]
      split
      case isTrue hz =>
        exact ⟨fun h => absurd h.1 (by simp), fun h => absurd hz (h hc rfl).1⟩
      case isFalse hz =>
        constructor
        · intro hzero _ _
          exact ⟨hz, f, rfl, Int32.toInt_inj.1 hzero⟩
        · intro hgive
          obtain ⟨-, f', hf', hzero⟩ := hgive hc rfl
          rw [Option.some.inj hf', hzero]
          rfl

/-! ## Runs -/

/-- **The tags of all resident frames belong to their pages, in every state of a run of any calls,
if and only if each page that is overwritten on a miss is given a frame whose tag does no harm**,
and no tag that counts hits overflows. -/
theorem tagsBelong_iff (cfg : Config) (hm : cfg.mode.isZalpWc = true ∨ cfg.mode = .zalp)
    (mem : Memory) (calls : List Call) (last : Buffer)
    (hrun : run (step cfg) calls (Buffer.init cfg mem) = .ok last) :
    (∀ r, Visits (stepStays cfg) calls (Buffer.init cfg mem, fun _ => .never) r →
        TagsBelong cfg r) ↔
      Along (step cfg) (KeepsTags cfg) calls (Buffer.init cfg mem) := by
  have hlru := (ne_of_tagged hm).2.2
  refine visits_ghost_iff_along (fun r => ZalpLists cfg [] r.1) (fun s g c s' hl hstep hP => ?_)
    (ZalpLists.init cfg mem) ?_ hrun
  · obtain ⟨hran, hl'⟩ := step_ran hl hlru hstep
    refine ⟨hl', ?_⟩
    cases hran with
    | hit f hc hp hfront htag =>
        rw [tagsBelong_hit hlru hP hl hc hp hfront htag hm]
        exact ⟨fun hcount => ⟨fun hmiss => absurd hmiss hc, hcount⟩, fun hkeeps => hkeeps.2⟩
    | miss f s₁ s₂ hc hroom hlists hroomed htake htook hfront hload htag =>
        rw [tagsBelong_miss hlru hP hm hc hlists hroomed htake htook hfront hload htag]
        exact ⟨fun hgives => ⟨hgives, fun hhit => absurd hc hhit⟩, fun hkeeps => hkeeps.1⟩
  · intro f hf
    cases hf

/-- Six pages are inserted in five frames, and the one that has given way is written: the frame it
is given has not been hit. -/
@[irreducible] def coldCalls : List Call :=
  [.fixNewPage 0 (frameOf 0 1), .fixNewPage 1 (frameOf 1 1), .fixNewPage 2 (frameOf 2 1),
    .fixNewPage 3 (frameOf 3 1), .fixNewPage 4 (frameOf 4 1), .fixNewPage 5 (frameOf 5 1),
    .writePage 0 (frameOf 0 2)]

theorem tagsBelong_iff_cold :
    ∃ last, run (step (.small .zalpWc)) coldCalls (Buffer.init (.small .zalpWc) .zero) = .ok last ∧
      ∀ r, Visits (stepStays (.small .zalpWc)) coldCalls
        (Buffer.init (.small .zalpWc) .zero, fun _ => .never) r →
          TagsBelong (.small .zalpWc) r := by
  obtain ⟨last, hrun, -⟩ : ∃ last : Buffer, run (step (.small .zalpWc)) coldCalls
      (Buffer.init (.small .zalpWc) .zero) = .ok last ∧ True :=
    exists_ok_of_decide (by decide +kernel)
  exact ⟨last, hrun, (tagsBelong_iff (.small .zalpWc) (Or.inl rfl) .zero coldCalls last hrun).2
    (by decide +kernel)⟩

/-- Page 3 is evicted by the insertion of page 5, and written again. -/
@[irreducible] def rewriteCalls : List Call :=
  fillCalls ++ [.fixNewPage 5 (frameOf 5 1), .writePage 3 (frameOf 3 3)]

/-- **A page that is written on a miss inherits the tag of its frame**: with `zalp_wc` it counts a
hit of another page, and in mode `zalp` none was set for it. -/
theorem inherited_tag : Legal Call.Pre Call.spec rewriteCalls .empty ∧
    (∃ r, run (stepStays (.small .zalpWc)) rewriteCalls (smallBuffer .zalpWc, fun _ => .never)
      = .ok r ∧ ¬ TagsBelong (.small .zalpWc) r) ∧
    ∃ r, run (stepStays (.small .zalp)) rewriteCalls (smallBuffer .zalp, fun _ => .never)
      = .ok r ∧ ¬ TagsBelong (.small .zalp) r := by
  refine ⟨by decide +kernel, ?_, ?_⟩
  · obtain ⟨r, hr, f, hf, hne⟩ : ∃ r : Buffer × Stays, run (stepStays (.small .zalpWc)) rewriteCalls
        (smallBuffer .zalpWc, fun _ => .never) = .ok r ∧
          ∃ f ∈ r.1.strategy.lruOrder, (r.1.clusterFlag f).toInt ≠ (r.2 f).hits.length :=
      exists_ok_of_decide (by decide +kernel)
    refine ⟨r, hr, fun h => hne ?_⟩
    simpa [TagOf, Config.small] using (h f hf).2
  · obtain ⟨r, hr, f, hf, hnone⟩ : ∃ r : Buffer × Stays, run (stepStays (.small .zalp)) rewriteCalls
        (smallBuffer .zalp, fun _ => .never) = .ok r ∧
          ∃ f ∈ r.1.strategy.lruOrder, (r.2 f).tag = none :=
      exists_ok_of_decide (by decide +kernel)
    refine ⟨r, hr, fun h => ?_⟩
    simpa [TagOf, Config.small, hnone] using (h f hf).2

end Buffer

end ZoneBuffer
