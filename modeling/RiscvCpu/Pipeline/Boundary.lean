import RiscvCpu.Rtl.ExeStage
import RiscvCpu.Rtl.IdStage
import RiscvCpu.Rtl.MemStage
import RiscvCpu.Rtl.TbCpuTop

/-!
# Boundary — the registered boundaries of the three buffered stages

Each of `id_stage`, `exe_stage` and `mem_stage` taken alone, with every upstream and downstream wire
and its own stall free in every cycle, is a lossless first-in first-out queue.  The flush mark that
leaves `id_stage` with an instruction tells exactly whether the pipeline was flushed while the
instruction was inside.
-/

namespace RiscvCpu
namespace Boundary

/-! ## Decode -/

/-- `id_stage` in cycle `n`, with the ports `p` and the stall pattern `go`. -/
def idAt (p : Nat → IdStage.Ports) (go : Nat → Bool) (n : Nat) : IdStage.Regs :=
  Clocked.run (fun r (i : IdStage.Ports × Bool) => IdStage.handshakeNext r i.1 i.2)
    IdStage.reset (fun k => (p k, go k)) n

def idWires (p : Nat → IdStage.Ports) (go : Nat → Bool) (n : Nat) : SkidBuffer.Wires :=
  IdStage.wires (p n) (go n)

def idPayload (p : Nat → IdStage.Ports) (n : Nat) : IdStage.Payload :=
  ⟨(p n).fsToDsBus, (p n).fsExcBus⟩

theorem idAt_succ (p : Nat → IdStage.Ports) (go : Nat → Bool) (n : Nat) :
    idAt p go (n + 1) = IdStage.handshakeNext (idAt p go n) (p n) (go n) := rfl

theorem idAt_buf (p : Nat → IdStage.Ports) (go : Nat → Bool) (n : Nat) :
    (idAt p go n).buf =
      SkidBuffer.regsAt IdStage.resetPayload (idWires p go) (idPayload p) n :=
  SkidBuffer.regsAt_of_run IdStage.Regs.buf
    (fun _ (i : IdStage.Ports × Bool) => IdStage.wires i.1 i.2)
    (fun _ i => ⟨i.1.fsToDsBus, i.1.fsExcBus⟩) rfl (fun _ _ => rfl) n

/-- The payloads `id_stage` accepted, and those it handed over, in the cycles before `n`. -/
def idAccepted (p : Nat → IdStage.Ports) (go : Nat → Bool) (n : Nat) : List IdStage.Payload :=
  SkidBuffer.acceptedUpTo IdStage.resetPayload (idWires p go) (idPayload p) n

def idHanded (p : Nat → IdStage.Ports) (go : Nat → Bool) (n : Nat) : List IdStage.Payload :=
  SkidBuffer.handedUpTo IdStage.resetPayload (idWires p go) (idPayload p) n

theorem id_lossless (p : Nat → IdStage.Ports) (go : Nat → Bool) (n : Nat) :
    idAccepted p go n = idHanded p go n ++ SkidBuffer.contents (idAt p go n).buf := by
  rw [idAt_buf]
  exact SkidBuffer.run_conserves _ _ _ (fun _ => rfl) n

/-! ## The flush marks of decode -/

/-- The pipeline was flushed in some cycle from `m` on and before `n`. -/
def FlushedSince (p : Nat → IdStage.Ports) (m n : Nat) : Prop :=
  ∃ c, m ≤ c ∧ c < n ∧ IdStage.pipeFlush (p c) = true

theorem flushedSince_succ (p : Nat → IdStage.Ports) {m n : Nat} (h : m ≤ n) :
    FlushedSince p m (n + 1) ↔ FlushedSince p m n ∨ IdStage.pipeFlush (p n) = true := by
  constructor
  · rintro ⟨c, hmc, hcn, hflush⟩
    rcases Nat.lt_succ_iff_lt_or_eq.mp hcn with hlt | rfl
    · exact Or.inl ⟨c, hmc, hlt, hflush⟩
    · exact Or.inr hflush
  · rintro (⟨c, hmc, hcn, hflush⟩ | hflush)
    · exact ⟨c, hmc, Nat.lt_succ_of_lt hcn, hflush⟩
    · exact ⟨n, h, Nat.lt_succ_self n, hflush⟩

theorem not_flushedSince_self (p : Nat → IdStage.Ports) (n : Nat) : ¬ FlushedSince p n n := by
  rintro ⟨c, hnc, hcn, _⟩
  omega

/-- The marks of the two buffered instructions, against the cycles in which they were accepted. -/
structure MarksRight (p : Nat → IdStage.Ports) (n : Nat) (st : SkidBuffer.Regs Nat)
    (r : IdStage.Regs) : Prop where
  main_lt : st.valid = true → st.main < n
  skid_lt : st.skidValid = true → st.skid < n
  main_mark : st.valid = true → (r.dsFlushR = true ↔ FlushedSince p st.main n)
  skid_mark : st.skidValid = true → (r.dsFlushSkid = true ↔ FlushedSince p st.skid n)

/-- The stamped boundary and the stage carry the same control bits. -/
structure SameControl {α : Type*} (st : SkidBuffer.Regs Nat) (b : SkidBuffer.Regs α) : Prop where
  valid : st.valid = b.valid
  allowin : st.allowin = b.allowin
  skidValid : st.skidValid = b.skidValid

theorem sameControl_idAt (p : Nat → IdStage.Ports) (go : Nat → Bool) (n : Nat) :
    SameControl (SkidBuffer.stampsAt (idWires p go) n) (idAt p go n).buf := by
  have hunit := SkidBuffer.stampsAt_map_unit IdStage.resetPayload (idWires p go) (idPayload p) n
  rw [← idAt_buf] at hunit
  simp only [SkidBuffer.Regs.map, SkidBuffer.Regs.mk.injEq] at hunit
  exact ⟨hunit.1, hunit.2.1, hunit.2.2.1⟩

/-- One edge keeps both marks right, whichever of the two entries move. -/
theorem marksRight_step {p : Nat → IdStage.Ports} {go : Nat → Bool} {n : Nat}
    (ih : MarksRight p n (SkidBuffer.stampsAt (idWires p go) n) (idAt p go n)) :
    MarksRight p (n + 1) (SkidBuffer.stampsAt (idWires p go) (n + 1)) (idAt p go (n + 1)) := by
  have hwf : SkidBuffer.WF (SkidBuffer.stampsAt (idWires p go) n) :=
    SkidBuffer.wf_regsAt 0 (idWires p go) (fun k => k) n
  have hsame := sameControl_idAt p go n
  rw [SkidBuffer.stampsAt_succ, idAt_succ]
  revert ih hwf hsame
  generalize SkidBuffer.stampsAt (idWires p go) n = st
  generalize idAt p go n = r
  intro ih hwf hsame
  have hcore : SkidBuffer.coreAllowin r.buf (IdStage.wires (p n) (go n)) =
      SkidBuffer.coreAllowin st (idWires p go n) := by
    simp [SkidBuffer.coreAllowin, idWires, hsame.valid]
  have hfire : SkidBuffer.inFire r.buf (IdStage.wires (p n) (go n)) =
      SkidBuffer.inFire st (idWires p go n) := by
    simp [SkidBuffer.inFire, idWires, hsame.allowin]
  have hself := flushedSince_succ p (Nat.le_refl n)
  have hmain := fun hv => flushedSince_succ p (Nat.le_of_lt (ih.main_lt hv))
  have hskid := fun hv => flushedSince_succ p (Nat.le_of_lt (ih.skid_lt hv))
  cases hc : SkidBuffer.coreAllowin st (idWires p go n) with
  | true =>
      rw [SkidBuffer.next_of_moved hc]
      cases hsk : st.skidValid with
      | true =>
          -- the skid entry becomes the main one and takes its mark along
          constructor <;>
            simp [IdStage.handshakeNext, hcore, hc, ← hsame.skidValid, hsk, hskid hsk,
              ih.skid_mark hsk, Nat.lt_succ_of_lt (ih.skid_lt hsk)]
      | false =>
          cases hin : SkidBuffer.inFire st (idWires p go n) <;>
            constructor <;>
              simp [IdStage.handshakeNext, hcore, hc, hfire, hin, ← hsame.skidValid, hsk, hself,
                not_flushedSince_self]
  | false =>
      have hv := SkidBuffer.valid_of_stalled hc
      rw [SkidBuffer.next_of_stalled hc]
      cases hsk : st.skidValid with
      | true =>
          have hin : SkidBuffer.inFire st (idWires p go n) = false := by
            simp [SkidBuffer.inFire, hwf.stopped hsk]
          cases hflush : IdStage.pipeFlush (p n) <;>
            constructor <;>
              simp [IdStage.handshakeNext, hcore, hc, hfire, hin, ← hsame.skidValid, hsk,
                ← hsame.valid, hv, hflush, hmain hv, hskid hsk, ih.main_mark hv, ih.skid_mark hsk,
                Nat.lt_succ_of_lt (ih.main_lt hv), Nat.lt_succ_of_lt (ih.skid_lt hsk)]
      | false =>
          cases hin : SkidBuffer.inFire st (idWires p go n) <;>
            cases hflush : IdStage.pipeFlush (p n) <;>
              constructor <;>
                simp [IdStage.handshakeNext, hcore, hc, hfire, hin, ← hsame.skidValid, hsk,
                  ← hsame.valid, hv, hflush, hmain hv, hself, not_flushedSince_self,
                  ih.main_mark hv, Nat.lt_succ_of_lt (ih.main_lt hv)]

theorem marksRight_idAt (p : Nat → IdStage.Ports) (go : Nat → Bool) (n : Nat) :
    MarksRight p n (SkidBuffer.stampsAt (idWires p go) n) (idAt p go n) := by
  induction n with
  | zero =>
      constructor <;> intro h <;> cases h
  | succ n ih => exact marksRight_step ih

/-- The mark handed over with an instruction says whether a flush happened while it was inside. -/
theorem id_flush_mark (p : Nat → IdStage.Ports) (go : Nat → Bool) {m n : Nat}
    (hin : SkidBuffer.inFire (idAt p go m).buf (idWires p go m) = true)
    (hout : SkidBuffer.outFire (idAt p go n).buf (idWires p go n) = true)
    (hplace : (idAccepted p go m).length = (idHanded p go n).length) :
    IdStage.dsFlush (idAt p go n) (p n) = true ↔
      ∃ c, m ≤ c ∧ c ≤ n ∧ IdStage.pipeFlush (p c) = true := by
  have hvalid : (SkidBuffer.stampsAt (idWires p go) n).valid = true := by
    rw [(sameControl_idAt p go n).valid]
    simp only [SkidBuffer.outFire, SkidBuffer.toValid, Bool.and_eq_true] at hout
    exact hout.1.1
  rw [idAt_buf] at hin hout
  obtain ⟨hstamp, hlt⟩ :=
    SkidBuffer.stamp_of_outFire _ _ _ (fun _ => rfl) hin hout hplace
  have hmark := (marksRight_idAt p go n).main_mark hvalid
  rw [hstamp] at hmark
  have hsucc := flushedSince_succ p (Nat.le_of_lt hlt)
  simp only [FlushedSince, Nat.lt_succ_iff] at hsucc hmark
  rw [hsucc, ← hmark, IdStage.dsFlush, Bool.or_eq_true, Or.comm]

/-! ## Execute and memory -/

section Downstream

variable (esP : Nat → ExeStage.Ports) (esQ : Nat → ExeStage.InPorts) (esX : Nat → ExeStage.Payload)
variable (msQ : Nat → MemStage.InPorts) (go wsAllowin exceptionFlag : Nat → Bool)

def exeWires (n : Nat) : SkidBuffer.Wires := ExeStage.wires (esP n) (esQ n) (go n)

/-- The boundary of `exe_stage` in cycle `n`, latching the payloads `esX`. -/
def exeAt (n : Nat) : SkidBuffer.Regs ExeStage.Payload :=
  SkidBuffer.regsAt ExeStage.resetPayload (exeWires esP esQ go) esX n

def exeAccepted (n : Nat) : List ExeStage.Payload :=
  SkidBuffer.acceptedUpTo ExeStage.resetPayload (exeWires esP esQ go) esX n

def exeHanded (n : Nat) : List ExeStage.Payload :=
  SkidBuffer.handedUpTo ExeStage.resetPayload (exeWires esP esQ go) esX n

theorem exe_lossless (hexc : ∀ k, (esP k).exceptionFlag = false) (n : Nat) :
    exeAccepted esP esQ esX go n =
      exeHanded esP esQ esX go n ++ SkidBuffer.contents (exeAt esP esQ esX go n) :=
  SkidBuffer.run_conserves _ _ _ hexc n

def memWires (n : Nat) : SkidBuffer.Wires :=
  MemStage.wires (msQ n) (go n) (wsAllowin n) (exceptionFlag n)

def memPayload (n : Nat) : MemStage.Payload :=
  ⟨(msQ n).esToMsBus, (msQ n).exeExcBus, (msQ n).esFlush⟩

/-- The boundary of `mem_stage` in cycle `n`. -/
def memAt (n : Nat) : SkidBuffer.Regs MemStage.Payload :=
  SkidBuffer.regsAt MemStage.resetPayload (memWires msQ go wsAllowin exceptionFlag)
    (memPayload msQ) n

def memAccepted (n : Nat) : List MemStage.Payload :=
  SkidBuffer.acceptedUpTo MemStage.resetPayload (memWires msQ go wsAllowin exceptionFlag)
    (memPayload msQ) n

def memHanded (n : Nat) : List MemStage.Payload :=
  SkidBuffer.handedUpTo MemStage.resetPayload (memWires msQ go wsAllowin exceptionFlag)
    (memPayload msQ) n

theorem mem_lossless (hexc : ∀ k, exceptionFlag k = false) (n : Nat) :
    memAccepted msQ go wsAllowin exceptionFlag n =
      memHanded msQ go wsAllowin exceptionFlag n ++
        SkidBuffer.contents (memAt msQ go wsAllowin exceptionFlag n) :=
  SkidBuffer.run_conserves _ _ _ hexc n

end Downstream

/-! ## The stages themselves

A stage with its own datapath is one of the free boundaries: its stall and its payload are among
those quantified over. -/

theorem id_run (cfg : Config) (p : Nat → IdStage.Ports) (n : Nat) :
    let st := Clocked.run (IdStage.next cfg) IdStage.reset p
    st n = idAt p (fun k => IdStage.dsReadyGo cfg (st k) (p k)) n := by
  intro st
  induction n with
  | zero => rfl
  | succ n ih => rw [idAt_succ, ← ih]; rfl

theorem exe_run_buf (cfg : Config) (r : ExeStage.Regs) (p : Nat → ExeStage.Ports)
    (q : Nat → ExeStage.InPorts) (n : Nat) :
    let st := Clocked.run (fun r (i : ExeStage.Ports × ExeStage.InPorts) =>
      ExeStage.next cfg r i.1 i.2) (ExeStage.reset r) (fun k => (p k, q k))
    (st n).buf =
      exeAt p q (fun k => ExeStage.inPayload cfg (st k) (p k) (q k))
        (fun k => ExeStage.esReadyGo (st k) (p k)) n :=
  SkidBuffer.regsAt_of_run ExeStage.Regs.buf
    (fun r (i : ExeStage.Ports × ExeStage.InPorts) =>
      ExeStage.wires i.1 i.2 (ExeStage.esReadyGo r i.1))
    (fun r i => ExeStage.inPayload cfg r i.1 i.2) rfl (fun _ _ => rfl) n

theorem mem_run_buf (q : Nat → MemStage.InPorts) (wsAllowin exceptionFlag : Nat → Bool) (n : Nat) :
    let st := Clocked.run (fun r (i : MemStage.InPorts × Bool × Bool) =>
      MemStage.next r i.1 i.2.1 i.2.2) MemStage.reset
        (fun k => (q k, wsAllowin k, exceptionFlag k))
    (st n).buf = memAt q (fun _ => MemStage.msReadyGo) wsAllowin exceptionFlag n :=
  SkidBuffer.regsAt_of_run MemStage.Regs.buf
    (fun _ (i : MemStage.InPorts × Bool × Bool) =>
      MemStage.wires i.1 MemStage.msReadyGo i.2.1 i.2.2)
    (fun _ i => ⟨i.1.esToMsBus, i.1.exeExcBus, i.1.esFlush⟩) rfl (fun _ _ => rfl) n

section Stages

variable (cfg : Config) (r : ExeStage.Regs) (idP : Nat → IdStage.Ports) (esP : Nat → ExeStage.Ports)
  (esQ : Nat → ExeStage.InPorts) (msQ : Nat → MemStage.InPorts) (wsAllowin exceptionFlag : Nat → Bool)

/-- `id_stage` in cycle `n`, with the stall that it computes. -/
def idStageAt (n : Nat) : IdStage.Regs := Clocked.run (IdStage.next cfg) IdStage.reset idP n

def idStall (n : Nat) : Bool := IdStage.dsReadyGo cfg (idStageAt cfg idP n) (idP n)

/-- `exe_stage` in cycle `n`, from the power-up state `r`. -/
def exeStageAt (n : Nat) : ExeStage.Regs :=
  Clocked.run (fun r (i : ExeStage.Ports × ExeStage.InPorts) => ExeStage.next cfg r i.1 i.2)
    (ExeStage.reset r) (fun k => (esP k, esQ k)) n

def exeStall (n : Nat) : Bool := ExeStage.esReadyGo (exeStageAt cfg r esP esQ n) (esP n)

/-- What it latches: what decode hands over, beside its own results of that cycle. -/
def exePayload (n : Nat) : ExeStage.Payload :=
  ExeStage.inPayload cfg (exeStageAt cfg r esP esQ n) (esP n) (esQ n)

def memStageAt (n : Nat) : MemStage.Regs :=
  Clocked.run (fun r (i : MemStage.InPorts × Bool × Bool) => MemStage.next r i.1 i.2.1 i.2.2)
    MemStage.reset (fun k => (msQ k, wsAllowin k, exceptionFlag k)) n

theorem idStageAt_eq (n : Nat) : idStageAt cfg idP n = idAt idP (idStall cfg idP) n :=
  id_run cfg idP n

theorem idStageAt_buf (n : Nat) : (idStageAt cfg idP n).buf =
    SkidBuffer.regsAt IdStage.resetPayload (idWires idP (idStall cfg idP)) (idPayload idP) n := by
  rw [idStageAt_eq, idAt_buf]

/-- The three stages as they are, each with its own stall and payload: each hands over exactly what it
accepted, in order, and the mark that leaves `id_stage` with an instruction tells whether a flush
happened while it was inside. -/
theorem stages_hand_over (hes : ∀ k, (esP k).exceptionFlag = false)
    (hms : ∀ k, exceptionFlag k = false) :
    (∀ n, SkidBuffer.acceptedBy (fun k => (idStageAt cfg idP k).buf) (idWires idP (idStall cfg idP))
        (idPayload idP) n =
      SkidBuffer.handedBy (fun k => (idStageAt cfg idP k).buf) (idWires idP (idStall cfg idP)) n ++
        SkidBuffer.contents (idStageAt cfg idP n).buf) ∧
    (∀ n, SkidBuffer.acceptedBy (fun k => (exeStageAt cfg r esP esQ k).buf)
        (exeWires esP esQ (exeStall cfg r esP esQ)) (exePayload cfg r esP esQ) n =
      SkidBuffer.handedBy (fun k => (exeStageAt cfg r esP esQ k).buf)
          (exeWires esP esQ (exeStall cfg r esP esQ)) n ++
        SkidBuffer.contents (exeStageAt cfg r esP esQ n).buf) ∧
    (∀ n, SkidBuffer.acceptedBy (fun k => (memStageAt msQ wsAllowin exceptionFlag k).buf)
        (memWires msQ (fun _ => MemStage.msReadyGo) wsAllowin exceptionFlag) (memPayload msQ) n =
      SkidBuffer.handedBy (fun k => (memStageAt msQ wsAllowin exceptionFlag k).buf)
          (memWires msQ (fun _ => MemStage.msReadyGo) wsAllowin exceptionFlag) n ++
        SkidBuffer.contents (memStageAt msQ wsAllowin exceptionFlag n).buf) ∧
    (∀ m n,
      SkidBuffer.inFire (idStageAt cfg idP m).buf (idWires idP (idStall cfg idP) m) = true →
      SkidBuffer.outFire (idStageAt cfg idP n).buf (idWires idP (idStall cfg idP) n) = true →
      (SkidBuffer.acceptedBy (fun k => (idStageAt cfg idP k).buf) (idWires idP (idStall cfg idP))
          (idPayload idP) m).length =
        (SkidBuffer.handedBy (fun k => (idStageAt cfg idP k).buf) (idWires idP (idStall cfg idP))
          n).length →
      (IdStage.dsFlush (idStageAt cfg idP n) (idP n) = true ↔
        ∃ c, m ≤ c ∧ c ≤ n ∧ IdStage.pipeFlush (idP c) = true)) := by
  refine ⟨?_, ?_, ?_, ?_⟩
  · exact SkidBuffer.conserves_inside (idStageAt_buf cfg idP) fun _ => rfl
  · exact SkidBuffer.conserves_inside (exe_run_buf cfg r esP esQ) hes
  · exact SkidBuffer.conserves_inside (mem_run_buf msQ wsAllowin exceptionFlag) hms
  · intro m n hin hout hplace
    rw [SkidBuffer.acceptedBy_eq (idStageAt_buf cfg idP),
      SkidBuffer.handedBy_eq (idStageAt_buf cfg idP)] at hplace
    rw [idStageAt_eq] at hin hout ⊢
    exact id_flush_mark idP (idStall cfg idP) hin hout hplace

end Stages

/-! ## The law of the three boundaries -/

/-- Each of the three stages hands over exactly what it accepted, in order, and the two payload
registers hold the difference.  An instruction handed over by `id_stage` was accepted in one earlier
cycle, and its mark is set exactly when a flush happened in a cycle from the one to the other. -/
theorem stages_are_lossless_fifos
    (idP : Nat → IdStage.Ports) (esP : Nat → ExeStage.Ports) (esQ : Nat → ExeStage.InPorts)
    (esX : Nat → ExeStage.Payload) (msQ : Nat → MemStage.InPorts)
    (idGo esGo msGo wsAllowin exceptionFlag : Nat → Bool)
    (hes : ∀ k, (esP k).exceptionFlag = false) (hms : ∀ k, exceptionFlag k = false) :
    (∀ n, idAccepted idP idGo n =
      idHanded idP idGo n ++ SkidBuffer.contents (idAt idP idGo n).buf) ∧
    (∀ n, exeAccepted esP esQ esX esGo n =
      exeHanded esP esQ esX esGo n ++ SkidBuffer.contents (exeAt esP esQ esX esGo n)) ∧
    (∀ n, memAccepted msQ msGo wsAllowin exceptionFlag n =
      memHanded msQ msGo wsAllowin exceptionFlag n ++
        SkidBuffer.contents (memAt msQ msGo wsAllowin exceptionFlag n)) ∧
    (∀ n, SkidBuffer.outFire (idAt idP idGo n).buf (idWires idP idGo n) = true →
      ∃ m, m < n ∧ SkidBuffer.inFire (idAt idP idGo m).buf (idWires idP idGo m) = true ∧
        (idAccepted idP idGo m).length = (idHanded idP idGo n).length) ∧
    (∀ m n, SkidBuffer.inFire (idAt idP idGo m).buf (idWires idP idGo m) = true →
      SkidBuffer.outFire (idAt idP idGo n).buf (idWires idP idGo n) = true →
      (idAccepted idP idGo m).length = (idHanded idP idGo n).length →
      (IdStage.dsFlush (idAt idP idGo n) (idP n) = true ↔
        ∃ c, m ≤ c ∧ c ≤ n ∧ IdStage.pipeFlush (idP c) = true)) := by
  refine ⟨id_lossless idP idGo, exe_lossless esP esQ esX esGo hes,
    mem_lossless msQ msGo wsAllowin exceptionFlag hms, ?_, ?_⟩
  · intro n hout
    simp only [idAt_buf] at hout ⊢
    exact SkidBuffer.accepted_of_outFire _ _ _ (fun _ => rfl) hout
  · intro m n hin hout hplace
    exact id_flush_mark idP idGo hin hout hplace

/-- Ports of a decode stage that is offered an instruction, may move on, and is flushed or not. -/
def feeding (flush : Bool) : IdStage.Ports :=
  ⟨true, ⟨0x13#32, 0x80000000#32, false, 0#32⟩, ⟨0#7, 0#32⟩, 0#32, 0#32, 0#32, 0#32, true, false,
    false, 0#5, 0#32, 0#5, false, false, 0#12, false, false, false, false, false, false, false, 0#5,
    false, false, flush, false⟩

/-- An execute stage that is always offered an instruction and waits in cycle 1. -/
def offering (_ : Nat) : ExeStage.InPorts := ⟨true, false, ExeStage.resetBus, ⟨0#7, 0#32⟩⟩

def openPorts (_ : Nat) : ExeStage.Ports := ⟨true, false, 0#32, 0#32, 0#32⟩

/-- An instruction accepted in cycle 0 and handed over in the flushed cycle 1 leaves marked, from the free
boundary and from the stage itself.  An execute stage that waits in cycle 1 holds both instructions that
it has accepted by then, and hands over the first in cycle 2. -/
theorem stages_are_lossless_fifos_flushed :
    (IdStage.dsFlush (idAt (fun k => feeding (k == 1)) (fun _ => true) 1) (feeding true) = true ∧
      IdStage.dsFlush (idStageAt ⟨false, false⟩ (fun k => feeding (k == 1)) 1) (feeding true) = true) ∧
    exeAccepted openPorts offering (fun _ => ExeStage.resetPayload) (fun k => k != 1) 3 =
        exeHanded openPorts offering (fun _ => ExeStage.resetPayload) (fun k => k != 1) 3 ++
          SkidBuffer.contents
            (exeAt openPorts offering (fun _ => ExeStage.resetPayload) (fun k => k != 1) 3) ∧
      (exeAccepted openPorts offering (fun _ => ExeStage.resetPayload) (fun k => k != 1) 3).length = 2 ∧
      (exeHanded openPorts offering (fun _ => ExeStage.resetPayload) (fun k => k != 1) 3).length = 1 := by
  have hlaw := stages_are_lossless_fifos (fun k => feeding (k == 1)) openPorts offering
    (fun _ => ExeStage.resetPayload)
    (fun _ => ⟨true, MemStage.resetPayload.bus, MemStage.resetPayload.exc, false⟩) (fun _ => true)
    (fun k => k != 1) (fun _ => true) (fun _ => true) (fun _ => false) (fun _ => rfl) (fun _ => rfl)
  have hown := stages_hand_over ⟨false, false⟩ Cpu.zero.es (fun k => feeding (k == 1)) openPorts
    offering (fun _ => ⟨true, MemStage.resetPayload.bus, MemStage.resetPayload.exc, false⟩)
    (fun _ => true) (fun _ => false) (fun _ => rfl) (fun _ => rfl)
  refine ⟨⟨(hlaw.2.2.2.2 0 1 (by decide) (by decide) (by decide)).mpr ⟨1, ?_⟩,
    (hown.2.2.2 0 1 (by decide +kernel) (by decide +kernel) (by decide +kernel)).mpr ⟨1, ?_⟩⟩,
    hlaw.2.1 3, by decide +kernel, by decide +kernel⟩
  all_goals decide

end Boundary
end RiscvCpu
