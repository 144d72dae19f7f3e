import RiscvCpu.Pipeline.Squash

/-!
# Path — where the next instruction comes from

`headPc` is the pc of the oldest instruction that is neither squashed nor past execute, or the pc that
fetch is about to request when there is none.  A flush sets it to the redirect target; an edge without
a flush on which no live instruction leaves execute keeps it.  So the next instruction to reach the
memory stage unflushed after a redirect is the one at the target.
-/

namespace RiscvCpu
namespace Cpu

/-- Execute, decode and decode's skid entry hold an instruction that is not squashed. -/
def liveEs (s : Cpu) : Bool := s.es.buf.valid && !s.es.buf.main.dsFlush
def liveDs (s : Cpu) : Bool := s.ds.buf.valid && !s.ds.dsFlushR
def liveDsSkid (s : Cpu) : Bool := s.ds.buf.skidValid && !s.ds.dsFlushSkid

/-- The memory stage holds an instruction that is not squashed. -/
def liveMs (s : Cpu) : Bool := s.ms.buf.valid && !MemStage.msFlush s.ms

/-- The pc in fetch: of the response on the bus, or of the next request. -/
def fetchPc (cfg : Config) (s : Cpu) : Word :=
  if s.fs.reqValid then s.fs.reqPc else IfStage.requestPc cfg s.fs

def headPc (cfg : Config) (s : Cpu) : Word :=
  if liveEs s then s.es.buf.main.bus.ctrl.pc
  else if liveDs s then s.ds.buf.main.bus.pc
  else if liveDsSkid s then s.ds.buf.skid.bus.pc
  else fetchPc cfg s

/-- Where a flush redirects fetch to. -/
def flushTarget (cfg : Config) (s : Cpu) (i : CpuIn) : Word :=
  if exceptionFlag s i then exceptionAddr s i else brRedirectTarget cfg s i

variable {cfg : Config} {s : Cpu} {i : CpuIn}

/-! ## An execute stage without a live instruction -/

theorem liveEs_parts (h : liveEs s = true) :
    s.es.buf.valid = true ∧ s.es.buf.main.dsFlush = false := by
  simpa [liveEs] using h

theorem liveMs_parts (h : liveMs s = true) :
    s.ms.buf.valid = true ∧ MemStage.msFlush s.ms = false := by
  simpa [liveMs] using h

/-- `es_flush` is low over a live instruction while the memory stage raises nothing. -/
theorem esFlush_of_live (hlive : liveEs s = true) (hexc : exceptionFlag s i = false) :
    ExeStage.esFlush s.es (exePorts cfg s i) = false := by
  show (s.es.buf.main.dsFlush || exceptionFlag s i) = false
  rw [(liveEs_parts hlive).2, hexc, Bool.or_false]

/-- An instruction that leaves execute is not held there. -/
theorem moves_of_leaving (hc : Control s) (hmove : esToMsValid cfg s i = true) :
    SkidBuffer.coreAllowin s.es.buf (esWires cfg s i) = true := by
  have hready := (esToMsValid_parts hmove).2
  cases hcore : SkidBuffer.coreAllowin s.es.buf (esWires cfg s i) with
  | true => rfl
  | false =>
      rw [(es_stalled hcore hc).2.2.2.2] at hready
      cases hready

/-- A live instruction that does not leave execute stands still there. -/
theorem stalled_of_staying (hc : Control s) (hlive : liveEs s = true)
    (hstay : (liveEs s && esToMsValid cfg s i) = false) :
    SkidBuffer.coreAllowin s.es.buf (esWires cfg s i) = false := by
  have hv := (liveEs_parts hlive).1
  cases hcore : SkidBuffer.coreAllowin s.es.buf (esWires cfg s i) with
  | false => rfl
  | true =>
      rw [hlive, esToMsValid_eq, hv, esReadyGo_of_moves hc hv hcore] at hstay
      cases hstay

theorem live_of_stalled (hc : Control s)
    (h : SkidBuffer.coreAllowin s.es.buf (esWires cfg s i) = false) : liveEs s = true := by
  rcases es_stalled h hc with ⟨hv, hf, -⟩
  simp [liveEs, hv, hf]

/-- Without a live instruction in execute nothing holds decode back. -/
theorem es_free (cfg : Config) (i : CpuIn) (hc : Control s) (h : liveEs s = false) :
    s.es.buf.allowin = true ∧ s.es.buf.skidValid = false ∧
      SkidBuffer.coreAllowin s.es.buf (esWires cfg s i) = true ∧
      loadUseHazard cfg s i = false := by
  have hallow : s.es.buf.allowin = true := by
    cases ha : s.es.buf.allowin with
    | true => rfl
    | false =>
        have hlive : liveEs s = true := by
          simp [liveEs, hc.esWf.occupied ha, (hc.esStopped ha).1]
        rw [h] at hlive
        cases hlive
  refine ⟨hallow, ?_, ?_, ?_⟩
  · cases hsk : s.es.buf.skidValid with
    | false => rfl
    | true => rw [hc.esWf.stopped hsk] at hallow; cases hallow
  · cases hcore : SkidBuffer.coreAllowin s.es.buf (esWires cfg s i) with
    | true => rfl
    | false => rw [live_of_stalled hc hcore] at h; cases h
  -- a bubble or a squashed instruction is awaited by nobody
  · have hpend : IdStage.exeForwardPending (idPorts cfg s i) = false := by
      have hlive : s.es.buf.valid = false ∨ s.es.buf.main.dsFlush = true := by
        rw [liveEs, Bool.and_eq_false_iff] at h
        simpa using h
      simp only [IdStage.exeForwardPending, idPorts, ExeStage.exeLoadPending,
        ExeStage.exeResultPending, ExeStage.esValid, ExeStage.esFlush]
      rcases hlive with hv | hf
      · simp [hv]
      · simp [hf]
    simp [loadUseHazard, IdStage.loadUseHazard, IdStage.exeLoadUseHazard, hpend]

/-- Then decode moves into execute. -/
theorem ds_moves (hc : Control s) (h : liveEs s = false) :
    SkidBuffer.coreAllowin s.ds.buf (dsWires cfg s i) = true ∧
      SkidBuffer.inFire s.es.buf (esWires cfg s i) = s.ds.buf.valid := by
  rcases es_free cfg i hc h with ⟨hallow, -, -, hhaz⟩
  have hready : IdStage.dsReadyGo cfg s.ds (idPorts cfg s i) = true := by
    show (!loadUseHazard cfg s i) = true
    rw [hhaz]; rfl
  have hes : (idPorts cfg s i).esAllowin = true := hallow
  constructor
  · simp [SkidBuffer.coreAllowin, dsWires, IdStage.wires, hready, hes]
  · simp [es_inFire, hhaz, hallow]

theorem next_liveEs (hc : Control s) (h : liveEs s = false) (hflush : pipeFlush cfg s i = false) :
    liveEs (next cfg s i) = liveDs s := by
  rcases es_free cfg i hc h with ⟨-, hsk, hcore, -⟩
  rcases @ds_moves cfg s i hc h with ⟨-, hfire⟩
  have hmark : (esPayload cfg s i).dsFlush = s.ds.dsFlushR := by
    show dsFlush cfg s i = s.ds.dsFlushR
    rw [dsFlush_eq, hflush, Bool.false_or]
  rw [liveEs, next_es_buf, SkidBuffer.next_of_moved hcore]
  cases hv : s.ds.buf.valid <;> simp [liveDs, hsk, hfire, hv, hmark]

theorem next_es_pc (hc : Control s) (h : liveEs s = false) (hv : s.ds.buf.valid = true) :
    (next cfg s i).es.buf.main.bus.ctrl.pc = s.ds.buf.main.bus.pc := by
  rcases es_free cfg i hc h with ⟨-, hsk, hcore, -⟩
  rcases @ds_moves cfg s i hc h with ⟨-, hfire⟩
  rw [next_es_buf, SkidBuffer.next_of_moved hcore]
  simp only [hsk, hfire, hv, Bool.false_eq_true, if_false, if_true]
  rfl

/-! ## Fetch -/

theorem next_fetchPc (hflush : pipeFlush cfg s i = false)
    (hfire : SkidBuffer.inFire s.ds.buf (dsWires cfg s i) = false) :
    fetchPc cfg (next cfg s i) = fetchPc cfg s := by
  have hred : IfStage.redirectNow (ifPorts cfg s i) = false := hflush
  have hexc : (ifPorts cfg s i).exceptionFlag = false ∧ (ifPorts cfg s i).brTaken = false := by
    simpa [IfStage.redirectNow] using hred
  have hresp : IfStage.responseFire s.fs (ifPorts cfg s i) = false := by
    rw [ds_inFire] at hfire
    show (s.fs.reqValid && s.ds.buf.allowin && !pipeFlush cfg s i) = false
    rw [← hfire]
    cases s.fs.reqValid <;> cases s.ds.buf.allowin <;> simp
  cases hv : s.fs.reqValid with
  | true =>
      have hreq : IfStage.requestFire s.fs (ifPorts cfg s i) = false := by
        simp [IfStage.requestFire, hresp, hv]
      simp [fetchPc, next, IfStage.next, hred, hreq, hresp, hv]
  | false =>
      cases ha : s.fs.ifActive with
      | true =>
          have hreq : IfStage.requestFire s.fs (ifPorts cfg s i) = true := by
            simp [IfStage.requestFire, hred, hv, ha]
          simp [fetchPc, next, IfStage.next, hred, hreq, hv]
      | false =>
          have hreq : IfStage.requestFire s.fs (ifPorts cfg s i) = false := by
            simp [IfStage.requestFire, ha]
          simp [fetchPc, next, IfStage.next, hred, hreq, hresp, hv, hexc, IfStage.requestPc]

/-! ## The head over one edge -/

/-- While decode hands nothing live over, it takes the path on from its skid entry or from fetch. -/
theorem next_headPc_of_ds_dead (hc : Control s) (hlive : liveEs s = false)
    (hds : liveDs s = false) (hflush : pipeFlush cfg s i = false) :
    headPc cfg (next cfg s i) = headPc cfg s := by
  rcases @ds_moves cfg s i hc hlive with ⟨hcore, -⟩
  have hes := @next_liveEs cfg s i hc hlive hflush
  have hnoskid : liveDsSkid (next cfg s i) = false := by
    rw [liveDsSkid, next_ds_buf, SkidBuffer.next_of_moved hcore]
    rfl
  have hlive' : liveDs (next cfg s i) =
      if s.ds.buf.skidValid then !s.ds.dsFlushSkid
      else SkidBuffer.inFire s.ds.buf (dsWires cfg s i) := by
    rw [liveDs, next_ds_buf, SkidBuffer.next_of_moved hcore, next_dsFlushR_moved hcore,
      hflush]
    cases s.ds.buf.skidValid <;> simp
  have hpc' : (next cfg s i).ds.buf.main.bus.pc =
      if s.ds.buf.skidValid then s.ds.buf.skid.bus.pc
      else if SkidBuffer.inFire s.ds.buf (dsWires cfg s i) then s.fs.reqPc
      else s.ds.buf.main.bus.pc := by
    rw [next_ds_buf, SkidBuffer.next_of_moved hcore]
    simp only [apply_ite IdStage.Payload.bus, apply_ite FsToDsBus.pc]
    rfl
  simp only [headPc, hes, hds, hlive, hnoskid, hlive', hpc', Bool.false_eq_true, if_false]
  cases hsk : s.ds.buf.skidValid with
  | true =>
      have hfire : SkidBuffer.inFire s.ds.buf (dsWires cfg s i) = false := by
        simp [SkidBuffer.inFire, hc.dsWf.stopped hsk]
      cases hm : s.ds.dsFlushSkid with
      | false => simp [liveDsSkid, hsk, hm]
      | true => simpa [liveDsSkid, hsk, hm] using next_fetchPc hflush hfire
  | false =>
      cases hfire : SkidBuffer.inFire s.ds.buf (dsWires cfg s i) with
      | true =>
          have hv : s.fs.reqValid = true := by
            rw [ds_inFire, Bool.and_eq_true, Bool.and_eq_true] at hfire
            exact hfire.1.1
          simp [liveDsSkid, hsk, fetchPc, hv]
      | false => simpa [liveDsSkid, hsk] using next_fetchPc hflush hfire

/-- An edge without a flush on which no live instruction leaves execute keeps the head. -/
theorem next_headPc (hc : Control s) (hflush : pipeFlush cfg s i = false)
    (hstay : (liveEs s && esToMsValid cfg s i) = false) :
    headPc cfg (next cfg s i) = headPc cfg s := by
  cases hlive : liveEs s with
  | true =>
      -- the live instruction is stalled
      have hv := (liveEs_parts hlive).1
      have hcore := stalled_of_staying hc hlive hstay
      have hsame : liveEs (next cfg s i) = true := by
        rw [liveEs, next_es_buf, SkidBuffer.next_of_stalled hcore]
        simpa [liveEs, hv] using hlive
      have hpc : (next cfg s i).es.buf.main = s.es.buf.main := by
        rw [next_es_buf, SkidBuffer.next_of_stalled hcore]
      simp only [headPc, hsame, hlive, if_true, hpc]
  | false =>
      cases hds : liveDs s with
      | true =>
          -- decode hands the head of the path to execute
          have hes := @next_liveEs cfg s i hc hlive hflush
          have hv : s.ds.buf.valid = true := by
            simp only [liveDs, Bool.and_eq_true] at hds
            exact hds.1
          simp only [headPc, hes, hds, hlive, Bool.false_eq_true, if_false, if_true]
          exact next_es_pc hc hlive hv
      | false => exact next_headPc_of_ds_dead hc hlive hds hflush

/-- On a flush execute moves and takes in at most an instruction that is marked. -/
theorem next_liveEs_of_pipeFlush (hc : Control s) (hflush : pipeFlush cfg s i = true) :
    liveEs (next cfg s i) = false := by
  have hcore := es_moves_of_pipeFlush hc hflush
  have hsk := esSkid_of_pipeFlush hc hflush
  rw [liveEs, next_es_buf, SkidBuffer.next_of_moved hcore]
  cases hfire : SkidBuffer.inFire s.es.buf (esWires cfg s i) with
  | false => simp [hsk]
  | true =>
      have hmark : (esPayload cfg s i).dsFlush = true := by
        show dsFlush cfg s i = true
        rw [dsFlush_eq, hflush, Bool.true_or]
      simp [hsk, hmark]

/-- On a flush decode takes nothing in and marks what it keeps. -/
theorem next_liveDs_of_pipeFlush (hflush : pipeFlush cfg s i = true) :
    liveDs (next cfg s i) = false ∧ liveDsSkid (next cfg s i) = false := by
  have hnofire : SkidBuffer.inFire s.ds.buf (dsWires cfg s i) = false := by
    simp [ds_inFire, hflush]
  cases hcore : SkidBuffer.coreAllowin s.ds.buf (dsWires cfg s i) with
  | true =>
      rw [liveDs, liveDsSkid, next_ds_buf, SkidBuffer.next_of_moved hcore,
        next_dsFlushR_moved hcore, hflush]
      cases s.ds.buf.skidValid <;> simp [hnofire]
  | false =>
      rw [liveDs, liveDsSkid, next_ds_buf, SkidBuffer.next_of_stalled hcore,
        next_dsFlushR_stalled hcore, next_dsFlushSkid_stalled hcore, hflush, hnofire]
      cases s.ds.buf.skidValid <;> simp

/-- Fetch remembers the target of a flush until its next request. -/
theorem next_redirect_of_pipeFlush (hflush : pipeFlush cfg s i = true) :
    (next cfg s i).fs.redirectPending = true ∧
      (next cfg s i).fs.redirectPcR = flushTarget cfg s i := by
  have hexc : (ifPorts cfg s i).exceptionFlag = exceptionFlag s i := rfl
  have hbr : (ifPorts cfg s i).brTaken = brRedirect cfg s i := rfl
  have hea : (ifPorts cfg s i).exceptionAddr = exceptionAddr s i := rfl
  have hbt : (ifPorts cfg s i).brTarget = brRedirectTarget cfg s i := rfl
  cases he : exceptionFlag s i with
  | true => simp [next, IfStage.next, hexc, he, flushTarget, hea]
  | false =>
      have hb : brRedirect cfg s i = true := by simpa [pipeFlush, he] using hflush
      simp [next, IfStage.next, hexc, hbr, he, hb, flushTarget, hbt]

/-- A flush leaves nothing live behind it and sets the head to its target. -/
theorem next_of_pipeFlush (hc : Control s) (hflush : pipeFlush cfg s i = true) :
    liveEs (next cfg s i) = false ∧ liveDs (next cfg s i) = false ∧
      liveDsSkid (next cfg s i) = false ∧ (next cfg s i).fs.reqValid = false ∧
      headPc cfg (next cfg s i) = flushTarget cfg s i := by
  have hes := next_liveEs_of_pipeFlush hc hflush
  have hds := @next_liveDs_of_pipeFlush cfg s i hflush
  have hred : IfStage.redirectNow (ifPorts cfg s i) = true := hflush
  have hreq : (next cfg s i).fs.reqValid = false := by simp [next, IfStage.next, hred]
  refine ⟨hes, hds.1, hds.2, hreq, ?_⟩
  have hpend := @next_redirect_of_pipeFlush cfg s i hflush
  simp [headPc, hes, hds, fetchPc, hreq, IfStage.requestPc, hpend]

/-- A live instruction in the memory stage was live in execute, at the head. -/
theorem head_of_next_liveMs (hc : Control s) (h : liveMs (next cfg s i) = true) :
    liveEs s = true ∧ exceptionFlag s i = false ∧
      (next cfg s i).ms.buf.main.bus.pc = headPc cfg s := by
  simp only [liveMs, Bool.and_eq_true, Bool.not_eq_true', next_ms_valid hc, MemStage.msFlush,
    next_ms_main hc] at h
  rcases h with ⟨hv, hlive⟩
  rw [if_pos hv] at hlive
  obtain ⟨hf, he⟩ : s.es.buf.main.dsFlush = false ∧ exceptionFlag s i = false :=
    Bool.or_eq_false_iff.mp hlive
  have hes : liveEs s = true := by
    rw [liveEs, (esToMsValid_parts hv).1, hf]
    rfl
  refine ⟨hes, he, ?_⟩
  rw [next_ms_main hc, if_pos hv, headPc, if_pos hes]
  rfl

/-- A live instruction that leaves execute is live in the memory stage, unless it is killed. -/
theorem next_liveMs (hc : Control s) (hlive : liveEs s = true) (hexc : exceptionFlag s i = false)
    (hmove : esToMsValid cfg s i = true) : liveMs (next cfg s i) = true := by
  rw [liveMs, next_ms_valid hc, hmove, next_msFlush hc hmove, (liveEs_parts hlive).2, hexc]
  rfl

theorem esMoves_of_brRedirect (hc : Control s) (h : brRedirect cfg s i = true) :
    liveEs s = true ∧ exceptionFlag s i = false ∧ esToMsValid cfg s i = true := by
  rcases isBrJmp_of_brRedirect h with ⟨hf, he, hbr⟩
  have hv := esValid_of_brRedirect hc h
  have hmul := isMul_of_isBrJmp hc hbr
  refine ⟨?_, he, esToMsValid_of_not_isMul hv hmul⟩
  rw [liveEs, hv, hf]
  rfl

/-! ## The next live instruction of a run -/

section Run

variable (cfg : Config) (s₀ : Cpu) (inp : Nat → CpuIn)

/-- Without exceptions, the next instruction to reach the memory stage unflushed is the head. -/
theorem next_live_is_head {t n : Nat} (htn : t < n)
    (hexc : ∀ k, t ≤ k → k < n → exceptionFlag (run cfg s₀ inp k) (inp k) = false)
    (hquiet : ∀ k, t < k → k < n → liveMs (run cfg s₀ inp k) = false)
    (hlive : liveMs (run cfg s₀ inp n) = true) :
    (run cfg s₀ inp n).ms.buf.main.bus.pc = headPc cfg (run cfg s₀ inp t) := by
  -- the head stays the same until the cycle before
  have hhead : ∀ k, t ≤ k → k < n →
      headPc cfg (run cfg s₀ inp k) = headPc cfg (run cfg s₀ inp t) := by
    intro k htk
    induction htk with
    | refl => intro _; rfl
    | @step k htk ih =>
        intro hkn
        have hk : k < n := Nat.lt_of_succ_lt hkn
        have hc := control_run cfg s₀ inp k
        have hnoexc := hexc k htk hk
        have hdead := hquiet (k + 1) (Nat.lt_succ_of_le htk) hkn
        have hstay : (liveEs (run cfg s₀ inp k) && esToMsValid cfg (run cfg s₀ inp k) (inp k)) =
            false := by
          cases hes : liveEs (run cfg s₀ inp k) with
          | false => rfl
          | true =>
              cases hmove : esToMsValid cfg (run cfg s₀ inp k) (inp k) with
              | false => rfl
              | true =>
                  have hl : liveMs (run cfg s₀ inp (k + 1)) = true :=
                    next_liveMs hc hes hnoexc hmove
                  rw [hdead] at hl
                  cases hl
        have hflush : pipeFlush cfg (run cfg s₀ inp k) (inp k) = false := by
          rw [pipeFlush, hnoexc, Bool.false_or]
          cases hbr : brRedirect cfg (run cfg s₀ inp k) (inp k) with
          | false => rfl
          | true =>
              rcases esMoves_of_brRedirect hc hbr with ⟨hes, -, hmove⟩
              rw [hes, hmove] at hstay
              cases hstay
        rw [← ih hk]
        exact next_headPc hc hflush hstay
  cases n with
  | zero => omega
  | succ n =>
      have hle : t ≤ n := Nat.le_of_lt_succ htn
      rw [← hhead n hle (Nat.lt_succ_self n)]
      exact (head_of_next_liveMs (control_run cfg s₀ inp n) hlive).2.2

/-- No instruction reaches the memory stage unflushed in the cycle after an exception. -/
theorem not_liveMs_after_exception {t : Nat}
    (h : exceptionFlag (run cfg s₀ inp t) (inp t) = true) :
    liveMs (run cfg s₀ inp (t + 1)) = false := by
  cases hlive : liveMs (run cfg s₀ inp (t + 1)) with
  | false => rfl
  | true =>
      have hhead := head_of_next_liveMs (control_run cfg s₀ inp t) hlive
      rw [h] at hhead
      cases hhead.2.1

theorem exceptionFlag_of_not_liveMs {t : Nat} (h : liveMs (run cfg s₀ inp t) = false) :
    exceptionFlag (run cfg s₀ inp t) (inp t) = false := by
  cases he : exceptionFlag (run cfg s₀ inp t) (inp t) with
  | false => rfl
  | true =>
      rcases ms_live_of_exceptionFlag (control_run cfg s₀ inp t) he with ⟨hv, hf⟩
      rw [liveMs, hv, hf] at h
      cases h

/-- The first instruction to reach the memory stage unflushed after an exception is the one at the
exception's target. -/
theorem next_live_after_exception {t n : Nat} (htn : t < n)
    (h : exceptionFlag (run cfg s₀ inp t) (inp t) = true)
    (hquiet : ∀ k, t < k → k < n → liveMs (run cfg s₀ inp k) = false)
    (hlive : liveMs (run cfg s₀ inp n) = true) :
    (run cfg s₀ inp n).ms.buf.main.bus.pc = exceptionAddr (run cfg s₀ inp t) (inp t) := by
  have hafter := not_liveMs_after_exception cfg s₀ inp h
  -- the cycle after the exception has no live instruction yet
  have hlt : t + 1 < n := by
    rcases Nat.lt_or_eq_of_le (Nat.succ_le_of_lt htn) with hlt | heq
    · exact hlt
    · have heq' : t + 1 = n := heq
      rw [← heq', hafter] at hlive
      cases hlive
  have hflush : pipeFlush cfg (run cfg s₀ inp t) (inp t) = true := by
    rw [pipeFlush, h, Bool.true_or]
  have htarget := (next_of_pipeFlush (control_run cfg s₀ inp t) hflush).2.2.2.2
  rw [flushTarget, if_pos h] at htarget
  rw [next_live_is_head cfg s₀ inp hlt ?_ ?_ hlive]
  · exact htarget
  · intro k hk hkn
    exact exceptionFlag_of_not_liveMs cfg s₀ inp (hquiet k hk hkn)
  · intro k hk hkn
    exact hquiet k (Nat.lt_of_succ_lt hk) hkn

/-- The first instruction to reach the memory stage unflushed after a branch that redirected, and
that did not trap there, is the one at the branch's target. -/
theorem next_live_after_brRedirect {t n : Nat} (htn : t + 1 < n)
    (h : brRedirect cfg (run cfg s₀ inp t) (inp t) = true)
    (hnotrap : exceptionFlag (run cfg s₀ inp (t + 1)) (inp (t + 1)) = false)
    (hquiet : ∀ k, t + 1 < k → k < n → liveMs (run cfg s₀ inp k) = false)
    (hlive : liveMs (run cfg s₀ inp n) = true) :
    (run cfg s₀ inp n).ms.buf.main.bus.pc =
      brRedirectTarget cfg (run cfg s₀ inp t) (inp t) := by
  have hc := control_run cfg s₀ inp t
  have hflush : pipeFlush cfg (run cfg s₀ inp t) (inp t) = true := by
    rw [pipeFlush, h, Bool.or_true]
  have htarget := (next_of_pipeFlush hc hflush).2.2.2.2
  rw [flushTarget, (esMoves_of_brRedirect hc h).2.1] at htarget
  rw [next_live_is_head cfg s₀ inp htn ?_ hquiet hlive]
  · exact htarget
  · intro k hk hkn
    rcases Nat.lt_or_eq_of_le hk with hlt | heq
    · exact exceptionFlag_of_not_liveMs cfg s₀ inp (hquiet k hlt hkn)
    · rw [← heq]
      exact hnotrap

/-! ## The law of squashed instructions -/

/-- Wrong-path and post-trap instructions have no effect, older ones do have theirs, and the next
instruction comes from the redirect target. -/
theorem squashed_have_no_effect :
    -- behind a branch or jump that redirects
    (∀ t, brRedirect cfg (run cfg s₀ inp t) (inp t) = true →
      (∀ q, (labelsAt cfg s₀ inp t).esMain.seq < q → q ≤ t + 1 → ∀ n e,
        ¬ Performs cfg (run cfg s₀ inp n) (inp n) (labelsAt cfg s₀ inp n) e q) ∧
      (exceptionFlag (run cfg s₀ inp (t + 1)) (inp (t + 1)) = false → ∀ n, t + 1 < n →
        (∀ k, t + 1 < k → k < n → liveMs (run cfg s₀ inp k) = false) →
        liveMs (run cfg s₀ inp n) = true →
        (labelsAt cfg s₀ inp n).ms.pc = brRedirectTarget cfg (run cfg s₀ inp t) (inp t))) ∧
    -- at and behind an instruction that raises `exception_flag`
    (∀ t, exceptionFlag (run cfg s₀ inp t) (inp t) = true →
      (∀ n, ¬ Performs cfg (run cfg s₀ inp n) (inp n) (labelsAt cfg s₀ inp n) .registerWrite
          (labelsAt cfg s₀ inp t).ms.seq ∧
        ¬ Performs cfg (run cfg s₀ inp n) (inp n) (labelsAt cfg s₀ inp n) .csrWrite
          (labelsAt cfg s₀ inp t).ms.seq) ∧
      (∀ q, (labelsAt cfg s₀ inp t).ms.seq < q → q ≤ t + 1 → ∀ n e,
        ¬ Performs cfg (run cfg s₀ inp n) (inp n) (labelsAt cfg s₀ inp n) e q) ∧
      (∀ n, t < n → (∀ k, t < k → k < n → liveMs (run cfg s₀ inp k) = false) →
        liveMs (run cfg s₀ inp n) = true →
        (labelsAt cfg s₀ inp n).ms.pc = exceptionAddr (run cfg s₀ inp t) (inp t))) ∧
    -- an instruction that passed the memory stage before, whatever traps behind it
    (∀ n, liveMs (run cfg s₀ inp n) = true → exceptionFlag (run cfg s₀ inp n) (inp n) = false →
      (Decode.ctrlRegfileWen (labelsAt cfg s₀ inp n).ms.inst = true →
        Performs cfg (run cfg s₀ inp (n + 1)) (inp (n + 1)) (labelsAt cfg s₀ inp (n + 1))
          .registerWrite (labelsAt cfg s₀ inp n).ms.seq ∧
        WbStage.regfileAddr (run cfg s₀ inp (n + 1)).ws =
          Decode.rdAddr (labelsAt cfg s₀ inp n).ms.inst ∧
        WbStage.regfileWdata (run cfg s₀ inp (n + 1)).ws =
          memResult (run cfg s₀ inp n) (inp n)) ∧
      (Decode.csrWen (labelsAt cfg s₀ inp n).ms.inst = true →
        Performs cfg (run cfg s₀ inp n) (inp n) (labelsAt cfg s₀ inp n) .csrWrite
          (labelsAt cfg s₀ inp n).ms.seq)) ∧
    -- and what is still in front of the memory stage is younger than what is in it
    (∀ t, ∀ q ∈ flight (run cfg s₀ inp t) (labelsAt cfg s₀ inp t),
      (labelsAt cfg s₀ inp t).ms.seq < q) := by
  have hpc := fun n => (labelled_run cfg s₀ inp n).ms.1
  refine ⟨?_, ?_, ?_, ?_⟩
  · intro t hbr
    refine ⟨fun q hafter hbefore n e => squashed_of_brRedirect cfg s₀ inp hbr hafter hbefore n e, ?_⟩
    intro hnotrap n htn hquiet hlive
    rw [← hpc]
    exact next_live_after_brRedirect cfg s₀ inp htn hbr hnotrap hquiet hlive
  · intro t hexc
    refine ⟨trapped_writes_nothing cfg s₀ inp hexc,
      fun q hafter hbefore n e => squashed_of_exceptionFlag cfg s₀ inp hexc hafter hbefore n e, ?_⟩
    intro n htn hquiet hlive
    rw [← hpc]
    exact next_live_after_exception cfg s₀ inp htn hexc hquiet hlive
  · intro n hlive hexc
    simp only [liveMs, Bool.and_eq_true, Bool.not_eq_true'] at hlive
    exact retires cfg s₀ inp hlive.1 hlive.2 hexc
  · intro t q hq
    exact (List.pairwise_cons.mp (inOrder_run cfg s₀ inp t).flight).1 q
      (List.mem_append_left _ hq)

end Run

end Cpu
end RiscvCpu
