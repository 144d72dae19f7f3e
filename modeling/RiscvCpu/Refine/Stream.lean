import RiscvCpu.Lib.Chain
import RiscvCpu.Pipeline.Path

/-!
# Stream — the live instructions in flight follow the predictions

Every live instruction between fetch and the memory stage was fetched from where the prediction of
the one before it led, and fetch stands where the prediction of the youngest leads.  So as long as
predictions come true, the head of the pipeline is the next instruction of the program.
-/

namespace RiscvCpu
namespace Cpu

open Chain

/-! ## The queue of live instructions -/

/-- From an instruction to where fetch went on after it. -/
def hop (pc : Word) (predTaken : Bool) (predTarget : Word) : Hop Word :=
  ⟨pc, if predTaken then predTarget else pc + 4#32⟩

def dsHop (l : IdStage.Payload) : Hop Word := hop l.bus.pc l.bus.bpPredTaken l.bus.bpPredTarget

def esHop (l : ExeStage.Payload) : Hop Word :=
  hop l.bus.ctrl.pc l.bus.brJmp.bpPredTaken l.bus.brJmp.bpPredTarget

/-- The response on the fetch bus. -/
def fsHop (s : Cpu) : Hop Word :=
  hop s.fs.reqPc (IfStage.bpPredTaken s.fs) (IfStage.bpPredTarget s.fs)

/-- The skid entry of execute is filled only behind a live instruction. -/
def esHops (s : Cpu) : List (Hop Word) :=
  if liveEs s then
    esHop s.es.buf.main :: (if s.es.buf.skidValid then [esHop s.es.buf.skid] else [])
  else []

def dsHops (s : Cpu) : List (Hop Word) :=
  (if liveDs s then [dsHop s.ds.buf.main] else []) ++
    (if liveDsSkid s then [dsHop s.ds.buf.skid] else [])

/-- The live instructions that have not left execute, oldest first. -/
def hops (s : Cpu) : List (Hop Word) := esHops s ++ dsHops s

variable {cfg : Config} {s : Cpu} {i : CpuIn}

theorem headPc_eq_entry : headPc cfg s = entry (hops s) (fetchPc cfg s) := by
  simp only [headPc, hops, esHops, dsHops]
  cases liveEs s <;> cases liveDs s <;> cases liveDsSkid s <;> rfl

/-! ## One edge without a flush -/

/-- The response that decode accepts on this edge. -/
def arriving (cfg : Config) (s : Cpu) (i : CpuIn) : List (Hop Word) :=
  if SkidBuffer.inFire s.ds.buf (dsWires cfg s i) then [fsHop s] else []

/-- The live instruction that passes from decode to execute. -/
def passing (cfg : Config) (s : Cpu) (i : CpuIn) : List (Hop Word) :=
  if liveDs s && SkidBuffer.inFire s.es.buf (esWires cfg s i) then [dsHop s.ds.buf.main] else []

/-- The live instruction that leaves execute. -/
def leaving (cfg : Config) (s : Cpu) (i : CpuIn) : List (Hop Word) :=
  if liveEs s && esToMsValid cfg s i then [esHop s.es.buf.main] else []

theorem dsHop_dsPayload : dsHop (dsPayload cfg s i) = fsHop s := rfl

theorem esHop_esPayload : esHop (esPayload cfg s i) = dsHop s.ds.buf.main := rfl

/-- Decode's own stage moves exactly when a valid instruction passes on. -/
theorem ds_core_eq_inFire (hv : s.ds.buf.valid = true) :
    SkidBuffer.coreAllowin s.ds.buf (dsWires cfg s i) =
      SkidBuffer.inFire s.es.buf (esWires cfg s i) := by
  rw [es_inFire, SkidBuffer.coreAllowin, hv]
  rfl

theorem dsHops_next (hc : Control s) (hflush : pipeFlush cfg s i = false) :
    dsHops s ++ arriving cfg s i = passing cfg s i ++ dsHops (next cfg s i) := by
  have hskidfire : s.ds.buf.skidValid = true →
      SkidBuffer.inFire s.ds.buf (dsWires cfg s i) = false := by
    intro hsk
    simp [SkidBuffer.inFire, hc.dsWf.stopped hsk]
  -- the same two cases as for execute
  cases hcore : SkidBuffer.coreAllowin s.ds.buf (dsWires cfg s i) with
  | true =>
      have hpass : passing cfg s i = if liveDs s then [dsHop s.ds.buf.main] else [] := by
        cases hv : s.ds.buf.valid with
        | false => simp [passing, liveDs, hv]
        | true => simp [passing, ← ds_core_eq_inFire hv, hcore]
      rw [hpass]
      simp only [dsHops, liveDs, liveDsSkid, arriving, next_ds_buf, SkidBuffer.next_of_moved hcore,
        next_dsFlushR_moved hcore, hflush]
      by_cases hsk : s.ds.buf.skidValid = true
      · simp [hsk, hskidfire hsk]
      · by_cases hfire : SkidBuffer.inFire s.ds.buf (dsWires cfg s i) = true <;>
          simp [hsk, hfire, dsHop_dsPayload]
  | false =>
      have hv := SkidBuffer.valid_of_stalled hcore
      have hpass : passing cfg s i = [] := by
        simp [passing, ← ds_core_eq_inFire hv, hcore]
      rw [hpass]
      simp only [dsHops, liveDs, liveDsSkid, arriving, next_ds_buf, SkidBuffer.next_of_stalled hcore,
        next_dsFlushR_stalled hcore, next_dsFlushSkid_stalled hcore, hflush, hv]
      have hdrop : (dsWires cfg s i).drop = false := rfl
      by_cases hsk : s.ds.buf.skidValid = true
      · simp [hsk, hskidfire hsk, hdrop]
      · by_cases hfire : SkidBuffer.inFire s.ds.buf (dsWires cfg s i) = true <;>
          simp [hsk, hfire, hdrop, dsHop_dsPayload]

theorem esHops_next (hc : Control s) (hflush : pipeFlush cfg s i = false) :
    esHops s ++ passing cfg s i = leaving cfg s i ++ esHops (next cfg s i) := by
  have hmark : (esPayload cfg s i).dsFlush = s.ds.dsFlushR := by
    show dsFlush cfg s i = s.ds.dsFlushR
    rw [dsFlush_eq, hflush, Bool.false_or]
  have hfirev : SkidBuffer.inFire s.es.buf (esWires cfg s i) = true → s.ds.buf.valid = true :=
    ds_valid_of_es_inFire
  have hskidfire : s.es.buf.skidValid = true →
      SkidBuffer.inFire s.es.buf (esWires cfg s i) = false := by
    intro hsk
    simp [SkidBuffer.inFire, hc.esWf.stopped hsk]
  -- when execute moves, its skid entry or decode follows; when it stands still, one may park
  cases hcore : SkidBuffer.coreAllowin s.es.buf (esWires cfg s i) with
  | true =>
      have hleave : leaving cfg s i = if liveEs s then [esHop s.es.buf.main] else [] := by
        cases hv : s.es.buf.valid with
        | false => simp [leaving, liveEs, hv]
        | true => simp [leaving, esToMsValid_eq, hv, esReadyGo_of_moves hc hv hcore]
      rw [hleave]
      simp only [esHops, liveEs, passing, liveDs, next_es_buf, SkidBuffer.next_of_moved hcore]
      by_cases hsk : s.es.buf.skidValid = true
      · have hstop := hc.esWf.stopped hsk
        simp [hsk, hskidfire hsk, hc.esSkidLive hsk, hc.esWf.occupied hstop,
          (hc.esStopped hstop).1]
      · by_cases hfire : SkidBuffer.inFire s.es.buf (esWires cfg s i) = true
        · simp [hsk, hfire, hfirev hfire, hmark, esHop_esPayload]
        · simp [hsk, hfire]
  | false =>
      rcases es_stalled hcore hc with ⟨hv, hlive, hexc, -, hready⟩
      have hdrop : (esWires cfg s i).drop = false := hexc
      have hds := hc.esFollowed hv hlive
      have hleave : leaving cfg s i = [] := by simp [leaving, esToMsValid_eq, hready]
      rw [hleave]
      simp only [esHops, liveEs, passing, liveDs, next_es_buf, SkidBuffer.next_of_stalled hcore, hv,
        hlive, hds, hdrop]
      by_cases hsk : s.es.buf.skidValid = true
      · simp [hsk, hskidfire hsk]
      · by_cases hfire : SkidBuffer.inFire s.es.buf (esWires cfg s i) = true <;>
          simp [hsk, hfire, esHop_esPayload]

/-- Without a flush, what leaves execute and what decode accepts is all that changes. -/
theorem hops_next (hc : Control s) (hflush : pipeFlush cfg s i = false) :
    hops s ++ arriving cfg s i = leaving cfg s i ++ hops (next cfg s i) := by
  calc hops s ++ arriving cfg s i
      = esHops s ++ (dsHops s ++ arriving cfg s i) := List.append_assoc _ _ _
    _ = esHops s ++ passing cfg s i ++ dsHops (next cfg s i) := by
          rw [dsHops_next hc hflush, List.append_assoc]
    _ = leaving cfg s i ++ esHops (next cfg s i) ++ dsHops (next cfg s i) := by
          rw [esHops_next hc hflush]
    _ = leaving cfg s i ++ hops (next cfg s i) := List.append_assoc _ _ _

/-! ## Fetch -/

/-- Where fetch goes on after the response on the bus. -/
theorem fsHop_target : (fsHop s).target = IfStage.predictedNextPc s.fs := by
  by_cases htaken : IfStage.bpPredTaken s.fs = true
  · have hhit : IfStage.bpHit s.fs = true := by
      simp only [IfStage.bpPredTaken, Bool.and_eq_true] at htaken
      exact htaken.1
    simp [fsHop, hop, IfStage.predictedNextPc, htaken, IfStage.bpPredTarget, hhit]
  · simp [fsHop, hop, IfStage.predictedNextPc, htaken]

/-- A response and a redirect do not stand in fetch together. -/
def Undirected (s : Cpu) : Prop := s.fs.reqValid = true → s.fs.redirectPending = false

theorem undirected_next (h : Undirected s) : Undirected (next cfg s i) := by
  intro hv
  have hred : IfStage.redirectNow (ifPorts cfg s i) = pipeFlush cfg s i := rfl
  have hexc : (ifPorts cfg s i).exceptionFlag = exceptionFlag s i := rfl
  have hbr : (ifPorts cfg s i).brTaken = brRedirect cfg s i := rfl
  cases hflush : pipeFlush cfg s i with
  | true => simp [next, IfStage.next, hred, hflush] at hv
  | false =>
      rcases Bool.or_eq_false_iff.mp hflush with ⟨he, hb⟩
      cases hreq : IfStage.requestFire s.fs (ifPorts cfg s i) with
      | true => cases hp : s.fs.redirectPending <;> simp [next, IfStage.next, hexc, hbr, he, hb, hreq, hp]
      | false =>
          have hold : s.fs.reqValid = true := by
            simp only [next, IfStage.next, hred, hflush, hreq] at hv
            revert hv
            cases IfStage.responseFire s.fs (ifPorts cfg s i) <;> simp
          simp [next, IfStage.next, hexc, hbr, he, hb, hreq, h hold]

/-- The edge on which decode accepts the response: fetch goes where it was predicted to. -/
theorem next_fetchPc_of_fire (hc : Control s) (hu : Undirected s)
    (hfire : SkidBuffer.inFire s.ds.buf (dsWires cfg s i) = true) :
    fetchPc cfg s = (fsHop s).source ∧ fetchPc cfg (next cfg s i) = (fsHop s).target := by
  rw [ds_inFire, Bool.and_eq_true, Bool.and_eq_true, Bool.not_eq_true'] at hfire
  rcases hfire with ⟨⟨hv, hflush⟩, hallow⟩
  have hred : IfStage.redirectNow (ifPorts cfg s i) = false := hflush
  have hresp : IfStage.responseFire s.fs (ifPorts cfg s i) = true := by
    have hds : (ifPorts cfg s i).dsAllowin = true := hallow
    simp [IfStage.responseFire, hv, hred, hds]
  have hreq : IfStage.requestFire s.fs (ifPorts cfg s i) = true := by
    simp [IfStage.requestFire, hc.active hv, hred, hresp]
  refine ⟨by simp [fetchPc, hv, fsHop, hop], ?_⟩
  rw [fsHop_target]
  simp [fetchPc, next, IfStage.next, hred, hreq, IfStage.requestPc, hu hv, hv]

/-! ## The queue stays linked -/

/-- The live instructions are linked to each other and to fetch. -/
structure Flow (cfg : Config) (s : Cpu) : Prop where
  undirected : Undirected s
  linked : Linked (hops s) (fetchPc cfg s)

theorem flow_reset (s₀ : Cpu) : Flow cfg s₀.reset :=
  { undirected := by intro h; cases h
    linked := trivial }

theorem hops_of_pipeFlush (hc : Control s) (hflush : pipeFlush cfg s i = true) :
    hops (next cfg s i) = [] := by
  rcases next_of_pipeFlush hc hflush with ⟨hes, hds, hsk, -, -⟩
  simp [hops, esHops, dsHops, hes, hds, hsk]

/-- The queue and what has left it are linked to the new fetch address. -/
theorem linked_next (hc : Control s) (h : Flow cfg s) (hflush : pipeFlush cfg s i = false) :
    Linked (leaving cfg s i ++ hops (next cfg s i)) (fetchPc cfg (next cfg s i)) := by
  rw [← hops_next hc hflush, arriving]
  cases hfire : SkidBuffer.inFire s.ds.buf (dsWires cfg s i) with
  | true =>
      rcases next_fetchPc_of_fire hc h.undirected hfire with ⟨hsrc, hdst⟩
      have hl := h.linked
      rw [hsrc] at hl
      rw [hdst]
      exact linked_concat hl
  | false =>
      rw [next_fetchPc hflush hfire]
      simpa using h.linked

theorem flow_next (hc : Control s) (h : Flow cfg s) : Flow cfg (next cfg s i) := by
  refine ⟨undirected_next h.undirected, ?_⟩
  cases hflush : pipeFlush cfg s i with
  | true =>
      rw [hops_of_pipeFlush hc hflush]
      trivial
  | false => exact linked_of_append (linked_next hc h hflush)

/-- When a live instruction leaves execute and nothing is flushed, the new head is where its
prediction led. -/
theorem headPc_of_leaving (hc : Control s) (h : Flow cfg s) (hflush : pipeFlush cfg s i = false)
    (hlive : liveEs s = true) (hmove : esToMsValid cfg s i = true) :
    headPc cfg (next cfg s i) = (esHop s.es.buf.main).target := by
  have hlinked := linked_next (i := i) hc h hflush
  rw [leaving, hlive, hmove] at hlinked
  rw [headPc_eq_entry]
  exact hlinked.1.symm

end Cpu
end RiscvCpu
