import ZoneBuffer.Buffer.Reads

set_option autoImplicit false

/-! # What a read is given

Whatever a client has been told of a page by losing writes, it is never shown another page: the
frame `fix_page` returns for a read is on the list of the strategy in use, and starts with the id
asked for. This is so in every mode, and it is why the assertions of `read_page`, of
`ZALP::update` and of `dirty_to_clean` hold. -/

namespace ZoneBuffer

open Outcome Machine

namespace Buffer

variable {cfg : Config} {s : Buffer} {p : PageId} {m : Contents}

/-- The frames on the list of the strategy in use. -/
def residents (cfg : Config) (s : Buffer) : List FrameId :=
  if cfg.mode = .lru then s.lruFrames else s.strategy.lruOrder

/-- A read of page `p` is given a resident frame that starts with the id of `p`. -/
def FixesResident (cfg : Config) (s : Buffer) (p : PageId) : Prop :=
  Yields (s.fixPage cfg false p) (· = .noZone) fun r =>
    r.1 ∈ r.2.residents cfg ∧ readId (r.2.buffer r.1) = p

theorem Sim.fixesResident (h : Sim cfg True s m) (hlru : cfg.mode ≠ .lru) (hp : m p ≠ none) :
    FixesResident cfg s p := by
  refine (fixPage_spec h.inv hlru (h.exists hp) false).mono (fun e he => he trivial) ?_
  rintro ⟨f, s'⟩ ⟨hinv, hfixed⟩
  obtain ⟨⟨rest, hlist⟩, -, hpage⟩ := hfixed.front h.inv
  have hf : f ∈ s'.strategy.lruOrder := by
    rw [hlist]
    exact List.mem_cons_self
  have hheader := (hinv.stored trivial).header f hf (by simp)
  refine ⟨?_, hheader.trans hpage⟩
  rw [residents, if_neg hlru]
  exact hf

theorem LruSim.fixesResident (h : LruSim cfg s m) (hlru : cfg.mode = .lru) (hp : m p ≠ none) :
    FixesResident cfg s p := by
  refine (fixPageLru_spec h hlru hp false).imp ?_
  rintro ⟨f, s'⟩ hfixed
  have hf := (hfixed.inv.mapped p f hfixed.mapped).1
  refine ⟨?_, h.header p _ (hfixed.loaded rfl)⟩
  rw [residents, if_pos hlru]
  exact hf

/-- **No read is given another page's frame**, in any mode, and no assertion but the one of
`select_write_zone` fails on the way. -/
theorem resident_run (cfg : Config) (mem : Memory) (calls : List Call)
    (hl : Legal Call.Pre Call.spec calls .empty) (hhead : AllHeaded calls) :
    Yields (run (step cfg) calls (Buffer.init cfg mem)) (· = .noZone) fun s =>
      ∀ p, specRun Call.spec calls .empty p ≠ none → FixesResident cfg s p := by
  by_cases hlru : cfg.mode = .lru
  · exact (runLru_spec hlru mem calls hl hhead).imp fun s h p hp => h.fixesResident hlru hp
  · have hrun : Yields (run (step cfg) calls (Buffer.init cfg mem)) (Stops True) fun s =>
        Sim cfg True s (specRun Call.spec calls .empty) := run_sim hlru mem calls hl fun _ => hhead
    exact hrun.mono (fun e he => he trivial) fun s h p hp => h.fixesResident hlru hp

theorem resident_run_reuse :
    ∃ s, run (step (.small .whOnly)) reuseCalls (smallBuffer .whOnly) = .ok s ∧
      ∀ p, specRun Call.spec reuseCalls .empty p ≠ none → FixesResident (.small .whOnly) s p :=
  (resident_run (.small .whOnly) .zero reuseCalls reuseCalls_legal
    (by unfold AllHeaded; decide +kernel)).of_isOk (by decide +kernel)

end Buffer

end ZoneBuffer
