import ZoneBuffer.Buffer.PageTable
import ZoneBuffer.Buffer.LruMode

set_option autoImplicit false

/-! # Reading one's own writes

The modes that release their victims, and `lru`, return what was written last, in every run
(`faithful_run`). The others keep a victim's frame with the victim's page recorded for it. When
that page has been loaded again elsewhere and the old frame is reused, `page2frame.erase` takes
the mapping of the new frame; if that frame is dirty, the write is lost. Runs in which no call
does this return what was written last as well (`faithful_run_of_safe`). -/

namespace ZoneBuffer

open Outcome Machine

namespace Buffer

variable {cfg : Config} {s s' : Buffer} {f : FrameId} {p : PageId} {m : Contents} {c : Call}

/-- A client gets what it believes in: when it reads a page, and from the device after
`clean_buffer`. -/
structure Faithful (cfg : Config) (s : Buffer) (m : Contents) : Prop where
  reads : ∀ p b, m p = some b → Yields (s.readPage cfg p) (· = .noZone) fun r => r.1 = b
  cleans : Yields (s.cleanBuffer cfg) (· = .noZone) fun s' => s'.zdsm.content = m

/-! ## The modes with `ZALP` -/

theorem Sim.faithful (h : Sim cfg True s m) (hlru : cfg.mode ≠ .lru) (ha : Agrees [] s m) :
    Faithful cfg s m where
  reads p b hp := by
    refine readPage_agrees h.inv hlru ha hp (h.exists ?_)
    rw [hp]
    exact Option.some_ne_none b
  cleans := by
    have hst := h.inv.stored trivial
    have hmem : ∀ f, s.frameDirty f = true → f ∈ s.strategy.lruOrder := fun f hf =>
      (h.inv.mapped _ f (ha.dirty f (by simp) hf)).1
    refine cleanBuffer_spec hst.store ha (fun f hf => ?_) (fun p f hp => (h.inv.mapped p f hp).2)
      fun f hf => hst.writable fun v hv => ?_
    · exact h.inv.lists.lt_of_mem (hmem f hf)
    · rw [List.mem_singleton.1 hv]
      exact hmem f hf

/-- Where every resident frame is mapped, taking a clean one is safe. -/
theorem Linked.safe (h : Linked s) (hinv : Inv cfg True [] [] s) (p : PageId) : Safe cfg s p := by
  intro _ _ _ f hlast g hg
  rw [hinv.lists.shows.clean] at hlast
  obtain ⟨hf, hclean⟩ := List.mem_filter.1 (List.mem_of_getLast? hlast)
  rw [h f hf] at hg
  rw [← Option.some.inj hg]
  simpa using hclean

/-- A call in a mode that releases its victims. -/
theorem Called.agrees_of_releases (h : Called cfg True s c s') (hinv : Inv cfg True [] [] s)
    (hinv' : Inv cfg True [] [] s') (hrel : cfg.mode.releases = true) (hl : Linked s)
    (ha : Agrees [] s m) : Linked s' ∧ Agrees [] s' (c.spec m) := by
  have hthrifty : Thrifty cfg s c := by
    intro hr
    rw [hrel] at hr
    cases hr
  refine ⟨?_, h.agrees hinv ha (hl.safe hinv c.page)⟩
  exact ((h.inverse_iff hinv hinv' (hinv.inverse_iff.2 hl)).2 hthrifty).resident

/-- **A run in which no clean frame that is taken is recorded for a page in a dirty frame**
returns what was written last. -/
theorem faithful_run_of_safe (cfg : Config) (hlru : cfg.mode ≠ .lru) (mem : Memory)
    (calls : List Call) (hl : Legal Call.Pre Call.spec calls .empty) (hhead : AllHeaded calls)
    (hsafe : Along (step cfg) (fun s c => Safe cfg s c.page) calls (Buffer.init cfg mem)) :
    Yields (run (step cfg) calls (Buffer.init cfg mem)) (· = .noZone) fun s =>
      Faithful cfg s (specRun Call.spec calls .empty) := by
  have hrun : Yields (run (step cfg) calls (Buffer.init cfg mem)) (Stops True) fun s =>
      Sim cfg True s (specRun Call.spec calls .empty) ∧
        Agrees [] s (specRun Call.spec calls .empty) := by
    refine run_spec (Agrees []) (fun s c => Safe cfg s c.page) ?_ hlru mem calls
      (Agrees.init cfg mem) hl (fun _ => hhead) hsafe
    intro s s' m c hsim _ _ hc hcalled _ ha
    exact hcalled.agrees hsim.inv ha hc
  refine hrun.mono (fun e he => he trivial) ?_
  rintro s ⟨hsim, ha⟩
  exact hsim.faithful hlru ha

instance (s : Buffer) (f : FrameId) : Decidable (s.Harmless f) :=
  inferInstanceAs (Decidable (∀ g ∈ s.page2frame (s.frameToPage f), s.frameDirty g = false))

instance (cfg : Config) (s : Buffer) (p : PageId) : Decidable (Safe cfg s p) :=
  have : Decidable (∀ f, s.strategy.cleanFrames.getLast? = some f → s.Harmless f) :=
    inferInstanceAs (Decidable (∀ f ∈ s.strategy.cleanFrames.getLast?, s.Harmless f))
  inferInstanceAs (Decidable (_ → _ → _ → _))

/-- After the eviction page 2 is read, in the frame of another victim. -/
@[irreducible] def rereadCalls : List Call :=
  fillCalls ++ [.fixNewPage 5 (frameOf 5 1), .readPage 2]

theorem faithful_run_of_safe_reread :
    ∃ s, run (step (.small .achOnly)) rereadCalls (smallBuffer .achOnly) = .ok s ∧
      Faithful (.small .achOnly) s (specRun Call.spec rereadCalls .empty) :=
  (faithful_run_of_safe (.small .achOnly) (by decide) .zero rereadCalls (by decide +kernel)
    (by unfold AllHeaded; decide +kernel) (by decide +kernel)).of_isOk (by decide +kernel)

/-- **A write is lost**: page 2 was written last with other bytes than are read. The victim it
had been in was reused, and its new frame unmapped, by the insertion of page 6. -/
theorem overwritten_page_read : Legal Call.Pre Call.spec reuseCalls .empty ∧
    AllHeaded reuseCalls ∧ ∃ s r, run (step (.small .achOnly)) reuseCalls (smallBuffer .achOnly)
      = .ok s ∧ specRun Call.spec reuseCalls .empty 2 = some (frameOf 2 3) ∧
      s.readPage (.small .achOnly) 2 = .ok r ∧ r.1 ≠ frameOf 2 3 := by
  refine ⟨reuseCalls_legal, by unfold AllHeaded; decide +kernel, ?_⟩
  obtain ⟨⟨s, r⟩, hok, hbyte⟩ : ∃ r : Buffer × Page × Buffer, (do
      let s ← run (step (.small .achOnly)) reuseCalls (smallBuffer .achOnly)
      let r ← s.readPage (.small .achOnly) 2
      Except.ok (s, r)) = .ok r ∧ r.2.1 ⟨8, by decide⟩ = 2 :=
    exists_ok_of_decide (by decide +kernel)
  obtain ⟨s₁, hs, hok⟩ := bind_eq_ok.1 hok
  obtain ⟨r₁, hr, hok⟩ := bind_eq_ok.1 hok
  cases hok
  refine ⟨s, r, hs, by unfold reuseCalls fillCalls; rfl, hr, fun h => ?_⟩
  rw [h] at hbyte
  exact absurd hbyte (by decide)

theorem faithful_run_of_releases (hrel : cfg.mode.releases = true) (mem : Memory)
    (calls : List Call) (hl : Legal Call.Pre Call.spec calls .empty) (hhead : AllHeaded calls) :
    Yields (run (step cfg) calls (Buffer.init cfg mem)) (· = .noZone) fun s =>
      Faithful cfg s (specRun Call.spec calls .empty) := by
  have hlru : cfg.mode ≠ .lru := by
    intro hm
    rw [hm] at hrel
    cases hrel
  have hrun : Yields (run (step cfg) calls (Buffer.init cfg mem)) (Stops True) fun s =>
      Sim cfg True s (specRun Call.spec calls .empty) ∧ Linked s ∧
        Agrees [] s (specRun Call.spec calls .empty) := by
    refine run_spec (fun s m => Linked s ∧ Agrees [] s m) (fun _ _ => True) ?_ hlru mem calls
      ⟨(Inverse.init cfg mem).resident, Agrees.init cfg mem⟩ hl (fun _ => hhead)
      (along_true _ _ _)
    rintro s s' m c hsim _ _ _ hcalled hinv' ⟨hlinked, ha⟩
    exact hcalled.agrees_of_releases hsim.inv hinv' hrel hlinked ha
  refine hrun.mono (fun e he => he trivial) ?_
  rintro s ⟨hsim, -, ha⟩
  exact hsim.faithful hlru ha

/-! ## Mode `lru` -/

theorem LruSim.faithful (h : LruSim cfg s m) (hlru : cfg.mode = .lru) : Faithful cfg s m where
  reads p b hp := (readPageLru_spec h hlru hp).imp fun _ hr => hr.1
  cleans := by
    have hmem : ∀ f, s.frameDirty f = true → f ∈ s.lruFrames := fun f hf =>
      (h.inv.mapped _ f (h.agrees.dirty f (by simp) hf)).1
    refine cleanBuffer_spec h.inv.store h.agrees (fun f hf => ?_)
      (fun p f hp => (h.inv.mapped p f hp).2) fun f hf => h.writable (hmem f hf)
    exact lt_of_lt_of_le ((h.inv.used f).2 (Or.inl (hmem f hf))) (Nat.sub_le ..)

/-! ## All runs -/

/-- **The modes that give an evicted frame up return what was written last**, in every run. -/
theorem faithful_run (cfg : Config)
    (hmode : cfg.mode = .lru ∨ cfg.mode = .cflru ∨ cfg.mode = .zalpWc) (mem : Memory)
    (calls : List Call) (hl : Legal Call.Pre Call.spec calls .empty) (hhead : AllHeaded calls) :
    Yields (run (step cfg) calls (Buffer.init cfg mem)) (· = .noZone) fun s =>
      Faithful cfg s (specRun Call.spec calls .empty) := by
  rcases hmode with hm | hm | hm
  · exact (runLru_spec hm mem calls hl hhead).imp fun s h => h.faithful hm
  · exact faithful_run_of_releases (by rw [hm]; rfl) mem calls hl hhead
  · exact faithful_run_of_releases (by rw [hm]; rfl) mem calls hl hhead

theorem faithful_run_reuse :
    (∃ s, run (step (.small .lru)) reuseCalls (smallBuffer .lru) = .ok s ∧
      Faithful (.small .lru) s (specRun Call.spec reuseCalls .empty)) ∧
    (∃ s, run (step (.small .cflru)) reuseCalls (smallBuffer .cflru) = .ok s ∧
      Faithful (.small .cflru) s (specRun Call.spec reuseCalls .empty)) ∧
    ∃ s, run (step (.small .zalpWc)) reuseCalls (smallBuffer .zalpWc) = .ok s ∧
      Faithful (.small .zalpWc) s (specRun Call.spec reuseCalls .empty) := by
  have hhead : AllHeaded reuseCalls := by
    unfold AllHeaded
    decide +kernel
  exact ⟨(faithful_run (.small .lru) (by decide) .zero reuseCalls reuseCalls_legal
      hhead).of_isOk (by decide +kernel),
    (faithful_run (.small .cflru) (by decide) .zero reuseCalls reuseCalls_legal
      hhead).of_isOk (by decide +kernel),
    (faithful_run (.small .zalpWc) (by decide) .zero reuseCalls reuseCalls_legal
      hhead).of_isOk (by decide +kernel)⟩

end Buffer

end ZoneBuffer
