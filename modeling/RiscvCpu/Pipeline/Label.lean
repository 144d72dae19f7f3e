import RiscvCpu.Pipeline.Control

/-!
# Label — following the instructions of a run

Every instruction of a run is given a label when fetch requests it: the number of that cycle, the pc
and, once decode has accepted it, the instruction word.  The labels travel through the same registers
as the instructions, under the pipeline's own control bits, and nothing in the core reads them.

The label numbers in flight are strictly increasing from the memory stage back to fetch
(`inOrder_run`), and what each stage holds was decoded from the word of its label (`labelled_run`).
-/

namespace RiscvCpu

/-- An instruction of a run: `seq` is one more than the cycle in which it was requested. -/
structure Label where
  seq : Nat
  pc : Word
  inst : Word

/-- The labels of the instructions that the stages hold, valid or not. -/
structure Labels where
  fs : Label
  dsMain : Label
  dsSkid : Label
  esMain : Label
  esSkid : Label
  ms : Label
  ws : Label

namespace Labels

def reset : Labels :=
  let none : Label := ⟨0, 0#32, 0#32⟩
  { fs := none, dsMain := none, dsSkid := none, esMain := none, esSkid := none, ms := none
    ws := none }

/-- The label of the instruction on `fs_to_ds_bus`. -/
def onBus (i : CpuIn) (l : Labels) : Label := { l.fs with inst := i.imemRdata }

/-- The labels after the edge that ends cycle `t`. -/
def next (cfg : Config) (s : Cpu) (i : CpuIn) (t : Nat) (l : Labels) : Labels :=
  { fs := if Cpu.imemEn cfg s i then ⟨t + 1, Cpu.imemAddr cfg s, 0#32⟩ else l.fs
    dsMain := SkidBuffer.nextMain s.ds.buf (Cpu.dsWires cfg s i) l.dsMain l.dsSkid (l.onBus i)
    dsSkid := SkidBuffer.nextSkid s.ds.buf (Cpu.dsWires cfg s i) l.dsSkid (l.onBus i)
    esMain := SkidBuffer.nextMain s.es.buf (Cpu.esWires cfg s i) l.esMain l.esSkid l.dsMain
    esSkid := SkidBuffer.nextSkid s.es.buf (Cpu.esWires cfg s i) l.esSkid l.dsMain
    ms := if SkidBuffer.inFire s.ms.buf (Cpu.msWires cfg s i) then l.esMain else l.ms
    ws := if MemStage.msToWsValid s.ms && WbStage.wsAllowin s.ws then l.ms else l.ws }

end Labels

/-- The labels in cycle `t` of a run. -/
def labelsAt (cfg : Config) (s₀ : Cpu) (inp : Nat → CpuIn) : Nat → Labels
  | 0 => Labels.reset
  | t + 1 => Labels.next cfg (Cpu.run cfg s₀ inp t) (inp t) t (labelsAt cfg s₀ inp t)

variable {cfg : Config} {s : Cpu} {i : CpuIn} {t : Nat} {l : Labels}

namespace Labels

theorem next_ms (hc : Cpu.Control s) :
    (next cfg s i t l).ms = if Cpu.esToMsValid cfg s i then l.esMain else l.ms := by
  simp only [next, Cpu.ms_inFire hc]

theorem next_ws (hc : Cpu.Control s) :
    (next cfg s i t l).ws = if s.ms.buf.valid then l.ms else l.ws := by
  simp [next, MemStage.msToWsValid, MemStage.msValid, MemStage.msReadyGo, WbStage.wsAllowin,
    hc.wsAllowin]

end Labels

/-! ## What the stages hold is what the labels say -/

/-- Every register holds the instruction of its label. -/
structure Labelled (s : Cpu) (l : Labels) : Prop where
  fs : s.fs.reqPc = l.fs.pc
  dsMain : s.ds.buf.main.bus.pc = l.dsMain.pc ∧ s.ds.buf.main.bus.inst = l.dsMain.inst
  dsSkid : s.ds.buf.skid.bus.pc = l.dsSkid.pc ∧ s.ds.buf.skid.bus.inst = l.dsSkid.inst
  esMain : s.es.buf.main.bus.ctrl.pc = l.esMain.pc ∧ PayloadOf l.esMain.inst s.es.buf.main
  esSkid : s.es.buf.skid.bus.ctrl.pc = l.esSkid.pc ∧ PayloadOf l.esSkid.inst s.es.buf.skid
  ms : s.ms.buf.main.bus.pc = l.ms.pc ∧ MemPayloadOf l.ms.inst s.ms.buf.main
  ws : s.ws.msWsBusR.pc = l.ws.pc ∧ s.ws.msWsBusR.rdAddr = Decode.rdAddr l.ws.inst

theorem labelled_reset (s₀ : Cpu) : Labelled s₀.reset Labels.reset :=
  { fs := rfl, dsMain := ⟨rfl, rfl⟩, dsSkid := ⟨rfl, rfl⟩, esMain := ⟨rfl, payloadOf_reset⟩
    esSkid := ⟨rfl, payloadOf_reset⟩, ms := ⟨rfl, memPayloadOf_reset⟩, ws := ⟨rfl, rfl⟩ }

theorem labelled_next (hc : Cpu.Control s) (h : Labelled s l) :
    Labelled (Cpu.next cfg s i) (Labels.next cfg s i t l) := by
  -- the two buffered boundaries carry label and payload side by side
  have hds := SkidBuffer.related_next (x := Cpu.dsPayload cfg s i) (w := Cpu.dsWires cfg s i)
    (y := l.onBus i)
    (R := fun (b : IdStage.Payload) (m : Label) => b.bus.pc = m.pc ∧ b.bus.inst = m.inst)
    h.dsMain h.dsSkid (fun _ => ⟨h.fs, rfl⟩)
  have hes := SkidBuffer.related_next (x := Cpu.esPayload cfg s i) (w := Cpu.esWires cfg s i)
    (y := l.dsMain)
    (R := fun (b : ExeStage.Payload) (m : Label) => b.bus.ctrl.pc = m.pc ∧ PayloadOf m.inst b)
    h.esMain h.esSkid (fun hfire => by
      have hinst : IdStage.idInst s.ds = l.dsMain.inst := h.dsMain.2
      refine ⟨h.dsMain.1, ?_⟩
      rw [← hinst]
      exact Cpu.payloadOf_esPayload hc (Cpu.ds_valid_of_es_inFire hfire))
  refine
    { fs := ?_, dsMain := hds.1, dsSkid := hds.2, esMain := hes.1, esSkid := hes.2
      ms := ?_, ws := ?_ }
  -- fetch: the label is made with the request
  · have hpc : (Cpu.next cfg s i).fs.reqPc =
        if Cpu.imemEn cfg s i then Cpu.imemAddr cfg s else s.fs.reqPc := by
      cases hred : IfStage.redirectNow (Cpu.ifPorts cfg s i) with
      | false =>
          simp only [Cpu.next, IfStage.next, hred, Cpu.imemEn, Cpu.imemAddr]
          rfl
      | true => simp [Cpu.next, IfStage.next, hred, Cpu.imemEn, IfStage.requestFire]
    rw [hpc, Labels.next]
    cases Cpu.imemEn cfg s i with
    | true => rfl
    | false => exact h.fs
  · rw [Cpu.next_ms_main hc, Labels.next_ms hc]
    cases hv : Cpu.esToMsValid cfg s i with
    | false => exact h.ms
    | true =>
        exact ⟨h.esMain.1,
          memPayloadOf_of_payloadOf (Cpu.esToMsValid_parts hv).1 h.esMain.2⟩
  · rw [Labels.next_ws hc]
    cases hv : s.ms.buf.valid with
    | false =>
        simpa [Cpu.next, WbStage.next, MemStage.msToWsValid, MemStage.msValid, hv] using h.ws
    | true =>
        simpa [Cpu.next, WbStage.next, MemStage.msToWsValid, MemStage.msValid, hv,
          MemStage.msReadyGo, WbStage.wsAllowin, hc.wsAllowin, MemStage.msToWsBus, MemStage.bus]
          using ⟨h.ms.1, h.ms.2.rdAddr⟩

theorem labelled_run (cfg : Config) (s₀ : Cpu) (inp : Nat → CpuIn) (t : Nat) :
    Labelled (Cpu.run cfg s₀ inp t) (labelsAt cfg s₀ inp t) := by
  induction t with
  | zero => exact labelled_reset s₀
  | succ t ih => exact labelled_next (Cpu.control_run cfg s₀ inp t) ih

/-! ## Program order -/

/-- The label numbers in execute and in decode, oldest first. -/
def esSeqs (s : Cpu) (l : Labels) : List Nat :=
  SkidBuffer.contents (s.es.buf.carrying l.esMain.seq l.esSkid.seq)

def dsSeqs (s : Cpu) (l : Labels) : List Nat :=
  SkidBuffer.contents (s.ds.buf.carrying l.dsMain.seq l.dsSkid.seq)

def fsSeqs (s : Cpu) (l : Labels) : List Nat := if s.fs.reqValid then [l.fs.seq] else []

/-- The label numbers of the instructions that have not reached the memory stage, oldest first. -/
def flight (s : Cpu) (l : Labels) : List Nat := esSeqs s l ++ (dsSeqs s l ++ fsSeqs s l)

/-- The instruction that execute hands to the memory stage on this edge. -/
def toMs (cfg : Config) (s : Cpu) (i : CpuIn) (l : Labels) : List Nat :=
  if Cpu.esToMsValid cfg s i then [l.esMain.seq] else []

theorem fsSeqs_next (cfg : Config) (s : Cpu) (i : CpuIn) (t : Nat) (l : Labels) :
    ((if SkidBuffer.inFire s.ds.buf (Cpu.dsWires cfg s i) then [l.fs.seq] else []) ++
      fsSeqs (Cpu.next cfg s i) (Labels.next cfg s i t l)).Sublist
        (fsSeqs s l ++ [t + 1]) := by
  have hvalid : (Cpu.next cfg s i).fs.reqValid =
      if Cpu.pipeFlush cfg s i then false
      else if Cpu.imemEn cfg s i then true
      else if IfStage.responseFire s.fs (Cpu.ifPorts cfg s i) then false
      else s.fs.reqValid := rfl
  -- the response leaves fetch on the edge on which decode accepts it
  have hresp : IfStage.responseFire s.fs (Cpu.ifPorts cfg s i) =
      SkidBuffer.inFire s.ds.buf (Cpu.dsWires cfg s i) := by
    rw [Cpu.ds_inFire]
    show (s.fs.reqValid && s.ds.buf.allowin && !Cpu.pipeFlush cfg s i) = _
    cases s.fs.reqValid <;> cases s.ds.buf.allowin <;> simp
  have hreq : Cpu.imemEn cfg s i =
      (s.fs.ifActive && !Cpu.pipeFlush cfg s i &&
        (!s.fs.reqValid || SkidBuffer.inFire s.ds.buf (Cpu.dsWires cfg s i))) := by
    rw [← hresp]
    rfl
  have hfire := @Cpu.ds_inFire cfg s i
  rw [hresp] at hvalid
  simp only [fsSeqs, Labels.next, hvalid]
  -- a new request needs a free bus
  cases hin : SkidBuffer.inFire s.ds.buf (Cpu.dsWires cfg s i) with
  | true =>
      have hv : s.fs.reqValid = true ∧ Cpu.pipeFlush cfg s i = false := by
        rw [hin] at hfire
        simp only [eq_comm (a := true), Bool.and_eq_true, Bool.not_eq_true'] at hfire
        exact hfire.1
      cases hen : Cpu.imemEn cfg s i <;> simp [hv]
  | false =>
      cases hflush : Cpu.pipeFlush cfg s i with
      | true => simp
      | false =>
          cases hen : Cpu.imemEn cfg s i with
          | false => cases s.fs.reqValid <;> simp
          | true =>
              have hv : s.fs.reqValid = false := by
                rw [hen] at hreq
                simp only [hin, Bool.or_false, eq_comm (a := true), Bool.and_eq_true,
                  Bool.not_eq_true'] at hreq
                exact hreq.2
              simp [hv]

/-- On one edge the oldest instruction may leave for the memory stage, a new one may enter fetch,
and no two change places. -/
theorem flight_next (hc : Cpu.Control s) :
    (toMs cfg s i l ++ flight (Cpu.next cfg s i) (Labels.next cfg s i t l)).Sublist
      (flight s l ++ [t + 1]) := by
  have hes := SkidBuffer.step_sublist
    (SkidBuffer.wf_carrying hc.esWf l.esMain.seq l.esSkid.seq) (Cpu.esWires cfg s i) l.dsMain.seq
  have hds := SkidBuffer.step_sublist
    (SkidBuffer.wf_carrying hc.dsWf l.dsMain.seq l.dsSkid.seq) (Cpu.dsWires cfg s i) l.fs.seq
  have hfs := fsSeqs_next cfg s i t l
  -- what one stage hands over is what the next accepts
  have hms : SkidBuffer.handed (s.es.buf.carrying l.esMain.seq l.esSkid.seq)
      (Cpu.esWires cfg s i) = toMs cfg s i l := by
    have hallow : (Cpu.esWires cfg s i).downAllowin = true := hc.msAllowin
    simp only [SkidBuffer.handed, SkidBuffer.outFire, hallow, Bool.and_true, toMs]
    rfl
  have hlink : SkidBuffer.handed (s.ds.buf.carrying l.dsMain.seq l.dsSkid.seq)
      (Cpu.dsWires cfg s i) =
        SkidBuffer.accepted (s.es.buf.carrying l.esMain.seq l.esSkid.seq) (Cpu.esWires cfg s i)
          l.dsMain.seq := rfl
  rw [hms] at hes
  rw [hlink] at hds
  have hesSeqs : esSeqs (Cpu.next cfg s i) (Labels.next cfg s i t l) =
      SkidBuffer.contents (SkidBuffer.next (s.es.buf.carrying l.esMain.seq l.esSkid.seq)
        (Cpu.esWires cfg s i) l.dsMain.seq) := by
    rw [← SkidBuffer.carrying_next s.es.buf (Cpu.esWires cfg s i) (Cpu.esPayload cfg s i)]
    simp only [esSeqs, Labels.next, SkidBuffer.nextMain, SkidBuffer.nextSkid, Cpu.next_es_buf,
      apply_ite Label.seq]
  have hdsSeqs : dsSeqs (Cpu.next cfg s i) (Labels.next cfg s i t l) =
      SkidBuffer.contents (SkidBuffer.next (s.ds.buf.carrying l.dsMain.seq l.dsSkid.seq)
        (Cpu.dsWires cfg s i) l.fs.seq) := by
    rw [← SkidBuffer.carrying_next s.ds.buf (Cpu.dsWires cfg s i) (Cpu.dsPayload cfg s i)]
    simp only [dsSeqs, Labels.next, SkidBuffer.nextMain, SkidBuffer.nextSkid, Cpu.next_ds_buf,
      apply_ite Label.seq, Labels.onBus]
  rw [← hesSeqs] at hes
  rw [← hdsSeqs] at hds
  calc
    (toMs cfg s i l ++ flight (Cpu.next cfg s i) (Labels.next cfg s i t l)).Sublist
        (esSeqs s l ++ (SkidBuffer.accepted (s.es.buf.carrying l.esMain.seq l.esSkid.seq)
            (Cpu.esWires cfg s i) l.dsMain.seq ++
          (dsSeqs (Cpu.next cfg s i) (Labels.next cfg s i t l) ++
            fsSeqs (Cpu.next cfg s i) (Labels.next cfg s i t l)))) := by
          simpa [flight, esSeqs, List.append_assoc] using hes.append (List.Sublist.refl _)
    List.Sublist _ (esSeqs s l ++ (dsSeqs s l ++ (SkidBuffer.accepted
          (s.ds.buf.carrying l.dsMain.seq l.dsSkid.seq) (Cpu.dsWires cfg s i) l.fs.seq ++
            fsSeqs (Cpu.next cfg s i) (Labels.next cfg s i t l)))) := by
          refine (List.Sublist.refl _).append ?_
          simpa [dsSeqs, List.append_assoc] using hds.append (List.Sublist.refl _)
    List.Sublist _ (flight s l ++ [t + 1]) := by
          rw [flight, List.append_assoc, List.append_assoc]
          exact (List.Sublist.refl _).append ((List.Sublist.refl _).append hfs)

/-- Program order: the numbers increase from write-back to fetch, and the next request will be
numbered higher. -/
structure InOrder (s : Cpu) (t : Nat) (l : Labels) : Prop where
  flight : (l.ms.seq :: (flight s l ++ [t + 1])).Pairwise (· < ·)
  ws_le : l.ws.seq ≤ l.ms.seq
  ws_lt : s.ms.buf.valid = true → l.ws.seq < l.ms.seq

theorem inOrder_reset (s₀ : Cpu) : InOrder s₀.reset 0 Labels.reset :=
  { flight := by
      have hempty : RiscvCpu.flight s₀.reset Labels.reset = [] := rfl
      rw [hempty]
      decide
    ws_le := Nat.le_refl _
    ws_lt := by intro h; cases h }

theorem inOrder_next (hc : Cpu.Control s) (h : InOrder s t l) :
    InOrder (Cpu.next cfg s i) (t + 1) (Labels.next cfg s i t l) := by
  have hflight := @flight_next cfg s i t l hc
  have hpair := h.flight.sublist (hflight.cons_cons l.ms.seq)
  -- the new end of the order
  have hlast : ∀ q ∈ l.ms.seq :: (toMs cfg s i l ++
      flight (Cpu.next cfg s i) (Labels.next cfg s i t l)), q < t + 2 := by
    intro q hq
    have hle : ∀ q ∈ l.ms.seq :: (flight s l ++ [t + 1]), q ≤ t + 1 := by
      have hp := h.flight
      rw [← List.cons_append, List.pairwise_append] at hp
      intro q hq
      rw [← List.cons_append, List.mem_append] at hq
      rcases hq with hq | hq
      · exact Nat.le_of_lt (hp.2.2 q hq (t + 1) (by simp))
      · exact Nat.le_of_eq (by simpa using hq)
    exact Nat.lt_succ_of_le (hle q ((hflight.cons_cons l.ms.seq).subset hq))
  refine { flight := ?_, ws_le := ?_, ws_lt := ?_ }
  · rw [Labels.next_ms hc]
    cases hv : Cpu.esToMsValid cfg s i with
    | false =>
        simp only [toMs, hv, Bool.false_eq_true, if_false, List.nil_append] at hpair hlast ⊢
        rw [← List.cons_append, List.pairwise_append]
        refine ⟨hpair, by simp, ?_⟩
        intro a ha b hb
        rw [List.mem_singleton.mp hb]
        exact hlast a ha
    | true =>
        simp only [toMs, hv, if_true, List.singleton_append] at hpair hlast ⊢
        rw [← List.cons_append, List.pairwise_append]
        refine ⟨(List.pairwise_cons.mp hpair).2, by simp, ?_⟩
        intro a ha b hb
        rw [List.mem_singleton.mp hb]
        exact hlast a (List.mem_cons_of_mem _ ha)
  · rw [Labels.next_ws hc, Labels.next_ms hc]
    have hms : l.ms.seq ≤ (if Cpu.esToMsValid cfg s i then l.esMain else l.ms).seq := by
      cases hv : Cpu.esToMsValid cfg s i with
      | false => exact Nat.le_refl _
      | true =>
          simp only [toMs, hv, if_true, List.singleton_append, List.pairwise_cons] at hpair ⊢
          exact Nat.le_of_lt (hpair.1 _ (List.mem_cons_self))
    split
    · exact hms
    · exact Nat.le_trans h.ws_le hms
  · intro hv
    rw [Cpu.next_ms_valid hc] at hv
    rw [Labels.next_ws hc, Labels.next_ms hc, hv]
    simp only [toMs, hv, if_true, List.singleton_append, List.pairwise_cons] at hpair ⊢
    have hlt : l.ms.seq < l.esMain.seq := hpair.1 _ (List.mem_cons_self)
    split
    · exact hlt
    · exact Nat.lt_of_le_of_lt h.ws_le hlt

theorem inOrder_run (cfg : Config) (s₀ : Cpu) (inp : Nat → CpuIn) (t : Nat) :
    InOrder (Cpu.run cfg s₀ inp t) t (labelsAt cfg s₀ inp t) := by
  induction t with
  | zero => exact inOrder_reset s₀
  | succ t ih => exact inOrder_next (Cpu.control_run cfg s₀ inp t) ih

/-! ## Consequences for a run -/

/-- The numbers of what is valid in execute lie behind the memory stage. -/
theorem ms_lt_esMain (h : InOrder s t l) (hv : s.es.buf.valid = true) :
    l.ms.seq < l.esMain.seq := by
  have hmem : l.esMain.seq ∈ flight s l ++ [t + 1] := by
    simp [flight, esSeqs, SkidBuffer.contents, SkidBuffer.Regs.carrying, hv]
  exact (List.pairwise_cons.mp h.flight).1 _ hmem

theorem ms_seq_le_succ (cfg : Config) (s₀ : Cpu) (inp : Nat → CpuIn) (t : Nat) :
    (labelsAt cfg s₀ inp t).ms.seq ≤ (labelsAt cfg s₀ inp (t + 1)).ms.seq := by
  have hc := Cpu.control_run cfg s₀ inp t
  rw [labelsAt, Labels.next_ms hc]
  split
  · rename_i hv
    have hes := (Cpu.esToMsValid_parts hv).1
    exact Nat.le_of_lt (ms_lt_esMain (inOrder_run cfg s₀ inp t) hes)
  · exact Nat.le_refl _

/-- The memory stage never goes back in program order. -/
theorem ms_seq_mono (cfg : Config) (s₀ : Cpu) (inp : Nat → CpuIn) {m n : Nat} (h : m ≤ n) :
    (labelsAt cfg s₀ inp m).ms.seq ≤ (labelsAt cfg s₀ inp n).ms.seq := by
  induction h with
  | refl => exact Nat.le_refl _
  | step _ ih => exact Nat.le_trans ih (ms_seq_le_succ cfg s₀ inp _)

/-- A valid instruction in the memory stage is there for the first time. -/
theorem ms_seq_lt (cfg : Config) (s₀ : Cpu) (inp : Nat → CpuIn) {m n : Nat} (h : m < n)
    (hv : (Cpu.run cfg s₀ inp n).ms.buf.valid = true) :
    (labelsAt cfg s₀ inp m).ms.seq < (labelsAt cfg s₀ inp n).ms.seq := by
  cases n with
  | zero => omega
  | succ n =>
      have hc := Cpu.control_run cfg s₀ inp n
      have hv' : Cpu.esToMsValid cfg (Cpu.run cfg s₀ inp n) (inp n) = true := by
        rw [← Cpu.next_ms_valid hc]
        exact hv
      have hes : (Cpu.run cfg s₀ inp n).es.buf.valid = true := (Cpu.esToMsValid_parts hv').1
      rw [labelsAt, Labels.next_ms hc, if_pos hv']
      exact Nat.lt_of_le_of_lt (ms_seq_mono cfg s₀ inp (Nat.le_of_lt_succ h))
        (ms_lt_esMain (inOrder_run cfg s₀ inp n) hes)

end RiscvCpu
