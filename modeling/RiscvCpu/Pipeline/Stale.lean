import RiscvCpu.Pipeline.Request
import RiscvCpu.Stack.Forward

/-!
# Stale — what an empty execute stage still shows

`br_redirect` and `dmem_wen` are computed from the registers of execute without `es_valid`, and those
registers keep the last instruction while the stage is empty.  They are silent all the same: a branch
or a store is never followed by a bubble, unless the bubble shows it as squashed.

So the board adapter, which writes whenever a strobe is high and never looks at `dmem_en`, performs
each store once, and a branch redirects fetch in the one cycle in which it leaves execute.
-/

namespace RiscvCpu

namespace Decode

/-- A store of the base instruction set. -/
def storesWord (x : Word) : Bool := instSb x || instSh x || instSw x

/-- Outside the F extension a memory instruction that is a store is one of the three. -/
theorem storesWord_of_memOp {x : Word} (hF : usesF x = false) (hst : isStoreInst x = true)
    (h : (memOp x).b = true ∨ (memOp x).h = true ∨ (memOp x).w = true) : storesWord x = true := by
  have hop := opcode_of_isStoreInst hF hst
  have hload : isLoad x = false := by simp [isLoad, hop]
  simpa [storesWord, memOp, instLb, instLh, instLw, hload, instFlw_eq_false hF,
    instFsw_eq_false hF, or_assoc] using h

end Decode

namespace Cpu

variable {cfg : Config} {s : Cpu} {i : CpuIn} {x : Word}

/-! ## One cycle -/

/-- The strobes of a live store in execute, whatever its size and address. -/
theorem dmemWen_of_storesWord (hlive : liveEs s = true) (hexc : exceptionFlag s i = false)
    (hx : PayloadOf x s.es.buf.main) (hst : Decode.storesWord x = true) :
    dmemWen cfg s i ≠ 0#4 := by
  have hstore : Decode.isStore x = true := by
    simp only [Decode.storesWord, Decode.instSb, Decode.instSh, Decode.instSw, Bool.or_eq_true,
      Bool.and_eq_true] at hst
    rcases hst with (h | h) | h <;> exact h.1
  have hop : Decode.opcode x = 0b0100011#7 := by simpa [Decode.isStore] using hstore
  cases hsb : Decode.instSb x with
  | false =>
      have hst' : Decode.instSw x = true ∨ Decode.instSh x = true := by
        simp only [Decode.storesWord, hsb, Bool.false_or, Bool.or_eq_true] at hst
        exact hst.symm
      exact (dmemWen_of_store cfg hlive hexc hx hop hst').2
  | true =>
      have hflush := @esFlush_of_live cfg s i hlive hexc
      have hb : ExeStage.instSb s.es = true := by
        show (s.es.buf.main.bus.mem.memOp.b && s.es.buf.main.bus.mem.isStore) = true
        rw [hx.decoded.memOp, hx.decoded.isStore]
        simp [Decode.memOp, hsb, Decode.isStoreInst, hstore]
      simp only [dmemWen, ExeStage.dmemWen, hflush, hb, Bool.false_eq_true, if_false, if_true,
        ExeStage.sbWen]
      repeat' split
      all_goals decide

/-- `dmem_wen != 0` implies `dmem_en`: outside the F extension a store that execute still shows after
it has left would have been held back by nothing. -/
theorem dmemEn_of_dmemWen (hc : Control s) (hx : PayloadOf x s.es.buf.main)
    (hF : Decode.usesF x = false) (h : dmemWen cfg s i ≠ 0#4) : dmemEn cfg s i = true := by
  rcases store_of_dmemWen h with ⟨hany, hstore, hflush⟩
  have hv : s.es.buf.valid = true := by
    cases hv : s.es.buf.valid with
    | true => rfl
    | false =>
        exfalso
        rcases hc.esBubble hv with hf | hpassive
        · rw [esFlush_eq, hf] at hflush
          cases hflush
        · -- such a bubble shows a store only if it writes a register, as no store does
          have hstore' : Decode.isStoreInst x = true := by rw [← hx.decoded.isStore]; exact hstore
          rcases Decode.wen_of_isStoreInst hF hstore' with ⟨hint, hfpu⟩
          have hwen := hpassive.2 hstore
          rw [hx.decoded.ctrl] at hwen
          rcases hwen with hw | hw
          · have hw' : Decode.ctrlRegfileWen x = true := hw
            rw [hint] at hw'
            cases hw'
          · have hw' : Decode.ctrlRegFpuWen x = true := hw
            rw [hfpu] at hw'
            cases hw'
  have hv' : ExeStage.esValid s.es = true := hv
  have hany' : (ExeStage.bus s.es).mem.memOp.any = true := hany
  have hflush' : ExeStage.esFlush s.es (exePorts cfg s i) = false := hflush
  simp [dmemEn, ExeStage.dmemEn, hv', hany', hflush']

/-- Only the three stores drive a strobe. -/
theorem storesWord_of_dmemWen (hx : PayloadOf x s.es.buf.main) (hF : Decode.usesF x = false)
    (h : dmemWen cfg s i ≠ 0#4) : Decode.storesWord x = true := by
  rcases store_of_dmemWen h with ⟨-, hstore, hflush⟩
  have hstore' : Decode.isStoreInst x = true := by rw [← hx.decoded.isStore]; exact hstore
  refine Decode.storesWord_of_memOp hF hstore' ?_
  have hop : (ExeStage.bus s.es).mem.memOp = Decode.memOp x := hx.decoded.memOp
  have hflush' : ExeStage.esFlush s.es (exePorts cfg s i) = false := hflush
  by_contra hn
  simp only [not_or, Bool.not_eq_true] at hn
  simp [dmemWen, ExeStage.dmemWen, hflush', ExeStage.instSb, ExeStage.instSh, ExeStage.instSw,
    hop, hn] at h

/-- The resolved branch in execute goes elsewhere than predicted. -/
def mispredicted (cfg : Config) (s : Cpu) (i : CpuIn) : Bool :=
  let b := (ExeStage.bus s.es).brJmp
  let taken := ExeStage.brTaken s.es (exePorts cfg s i)
  (taken != b.bpPredTaken) || (taken && (ExeStage.brTarget s.es != b.bpPredTarget))

theorem brRedirect_of_mispredicted (hlive : liveEs s = true) (hexc : exceptionFlag s i = false)
    (hbr : (ExeStage.bus s.es).ctrl.isBrJmp = true) (hmis : mispredicted cfg s i = true) :
    brRedirect cfg s i = true := by
  rw [mispredicted] at hmis
  simp only [brRedirect, ExeStage.brRedirect, esFlush_of_live hlive hexc, hbr, hmis]
  rfl

/-- After a redirect execute shows nothing that could redirect again. -/
theorem next_brRedirect (hc : Control s) (h : brRedirect cfg s i = true) (i' : CpuIn) :
    brRedirect cfg (next cfg s i) i' = false := by
  have hflush : pipeFlush cfg s i = true := by rw [pipeFlush, h, Bool.or_true]
  have hdead := (next_of_pipeFlush hc hflush).1
  cases hr : brRedirect cfg (next cfg s i) i' with
  | false => rfl
  | true =>
      rw [(esMoves_of_brRedirect (control_next hc) hr).1] at hdead
      cases hdead

/-- In the cycle after a redirect fetch requests the target, unless that cycle is flushed again. -/
theorem next_request_of_brRedirect (hc : Control s) (h : brRedirect cfg s i = true) {i' : CpuIn}
    (hexc : exceptionFlag (next cfg s i) i' = false) :
    imemEn cfg (next cfg s i) i' = true ∧
      imemAddr cfg (next cfg s i) = brRedirectTarget cfg s i := by
  have hflush : pipeFlush cfg s i = true := by rw [pipeFlush, h, Bool.or_true]
  rcases next_of_pipeFlush hc hflush with ⟨hes, hds, hskid, hreq, hhead⟩
  have hquiet : IfStage.redirectNow (ifPorts cfg (next cfg s i) i') = false := by
    show (exceptionFlag (next cfg s i) i' || brRedirect cfg (next cfg s i) i') = false
    rw [hexc, next_brRedirect hc h]
    rfl
  constructor
  · have hactive : (next cfg s i).fs.ifActive = true := rfl
    simp [imemEn, IfStage.requestFire, hactive, hquiet, hreq]
  · have hexc' := (isBrJmp_of_brRedirect h).2.1
    simpa [headPc, hes, hds, hskid, fetchPc, hreq, flushTarget, hexc', imemAddr] using hhead

/-! ## Runs -/

section Run

variable (cfg : Config) (s₀ : Cpu) (inp : Nat → CpuIn)

/-- The branch numbered `q` redirects fetch in cycle `n`. -/
def Redirects (q n : Nat) : Prop :=
  brRedirect cfg (run cfg s₀ inp n) (inp n) = true ∧ (labelsAt cfg s₀ inp n).esMain.seq = q

/-- The store numbered `q` drives a write strobe in cycle `n`, with or without `dmem_en`. -/
def Strobes (q n : Nat) : Prop :=
  dmemWen cfg (run cfg s₀ inp n) (inp n) ≠ 0#4 ∧ (labelsAt cfg s₀ inp n).esMain.seq = q

/-- An instruction leaves execute in one cycle only. -/
theorem leaves_once {m n : Nat} (hm : esToMsValid cfg (run cfg s₀ inp m) (inp m) = true)
    (hn : esToMsValid cfg (run cfg s₀ inp n) (inp n) = true)
    (h : (labelsAt cfg s₀ inp m).esMain.seq = (labelsAt cfg s₀ inp n).esMain.seq) : m = n := by
  have hvalid : ∀ k, esToMsValid cfg (run cfg s₀ inp k) (inp k) = true →
      (run cfg s₀ inp (k + 1)).ms.buf.valid = true ∧
        (labelsAt cfg s₀ inp (k + 1)).ms = (labelsAt cfg s₀ inp k).esMain := by
    intro k hk
    have hc := control_run cfg s₀ inp k
    refine ⟨?_, ?_⟩
    · show (next cfg (run cfg s₀ inp k) (inp k)).ms.buf.valid = true
      rw [next_ms_valid hc, hk]
    · rw [labelsAt, Labels.next_ms hc, if_pos hk]
  have hsucc : m + 1 = n + 1 := by
    refine ms_seq_inj cfg s₀ inp (hvalid m hm).1 (hvalid n hn).1 ?_
    rw [(hvalid m hm).2, (hvalid n hn).2]
    exact h
  exact Nat.succ.inj hsucc

/-- A strobe comes with a request. -/
theorem dmemEn_of_strobe (hF : ∀ n, Decode.usesF (inp n).imemRdata = false) {t : Nat}
    (hwen : dmemWen cfg (run cfg s₀ inp t) (inp t) ≠ 0#4) :
    dmemEn cfg (run cfg s₀ inp t) (inp t) = true :=
  dmemEn_of_dmemWen (control_run cfg s₀ inp t) (labelled_run cfg s₀ inp t).esMain.2
    (label_noF cfg s₀ hF t).2.2.1 hwen

/-- A request of execute reaches the memory stage unsquashed in the next cycle. -/
theorem liveMs_of_request {t : Nat} (hen : dmemEn cfg (run cfg s₀ inp t) (inp t) = true) :
    liveMs (run cfg s₀ inp (t + 1)) = true := by
  have hc := control_run cfg s₀ inp t
  have hp : Performs cfg (run cfg s₀ inp t) (inp t) (labelsAt cfg s₀ inp t) .dataRequest
      (labelsAt cfg s₀ inp t).esMain.seq := ⟨hen, rfl⟩
  rcases es_moves_of_performs hc hp (by simp) (by simp) with ⟨-, hv, hf, hexc, hmove⟩
  have hlive : liveEs (run cfg s₀ inp t) = true := by
    unfold liveEs
    rw [hv, hf]
    rfl
  exact next_liveMs hc hlive hexc hmove

/-- An instruction in the memory stage drove its strobes in the one cycle before, if it is a store. -/
theorem strobes_iff (hF : ∀ n, Decode.usesF (inp n).imemRdata = false) {t : Nat}
    (hlive : liveMs (run cfg s₀ inp t) = true) (n : Nat) :
    Strobes cfg s₀ inp (labelsAt cfg s₀ inp t).ms.seq n ↔
      n + 1 = t ∧ Decode.storesWord (labelsAt cfg s₀ inp t).ms.inst = true := by
  rcases came_from_es cfg s₀ inp hlive with ⟨m, hm, hes, hexc, -, hlab⟩
  constructor
  · rintro ⟨hwen, hseq⟩
    -- the request of the instruction is made once
    have hreq := (request_iff cfg s₀ inp hlive n).mp ⟨dmemEn_of_strobe cfg s₀ inp hF hwen, hseq⟩
    refine ⟨hreq.1, ?_⟩
    have hnm : n = m := Nat.succ.inj (hreq.1.trans hm)
    rw [hlab, ← hnm]
    exact storesWord_of_dmemWen (labelled_run cfg s₀ inp n).esMain.2
      (label_noF cfg s₀ hF n).2.2.1 hwen
  · rintro ⟨hnt, hst⟩
    have hnm : n = m := Nat.succ.inj (hnt.trans hm)
    rw [hlab, ← hnm] at hst ⊢
    rw [← hnm] at hes hexc
    exact ⟨dmemWen_of_storesWord hes hexc (labelled_run cfg s₀ inp n).esMain.2 hst, rfl⟩

/-- A mispredicted branch redirects in the one cycle in which it is resolved. -/
theorem redirects_iff {t : Nat} (hlive : liveEs (run cfg s₀ inp t) = true)
    (hexc : exceptionFlag (run cfg s₀ inp t) (inp t) = false)
    (hbr : Decode.isBrJmpInst (labelsAt cfg s₀ inp t).esMain.inst = true)
    (hmis : mispredicted cfg (run cfg s₀ inp t) (inp t) = true) (n : Nat) :
    Redirects cfg s₀ inp (labelsAt cfg s₀ inp t).esMain.seq n ↔ n = t := by
  have hbr' : (ExeStage.bus (run cfg s₀ inp t).es).ctrl.isBrJmp = true := by
    show (run cfg s₀ inp t).es.buf.main.bus.ctrl.isBrJmp = true
    rw [(labelled_run cfg s₀ inp t).esMain.2.decoded.ctrl]
    exact hbr
  have hred := brRedirect_of_mispredicted hlive hexc hbr' hmis
  constructor
  · rintro ⟨hn, hseq⟩
    exact leaves_once cfg s₀ inp (esMoves_of_brRedirect (control_run cfg s₀ inp n) hn).2.2
      (esMoves_of_brRedirect (control_run cfg s₀ inp t) hred).2.2 hseq
  · rintro rfl
    exact ⟨hred, rfl⟩

/-- What execute still shows of an instruction that has left never acts: `br_redirect` implies
`es_valid`, a write strobe implies `dmem_en`, each store that reaches the memory stage unsquashed
drives its strobes in the one cycle before, and each mispredicted branch redirects in the one cycle
in which it is resolved, after which fetch requests its target. -/
theorem stale_contents_never_act (hF : ∀ n, Decode.usesF (inp n).imemRdata = false) :
    (∀ t, brRedirect cfg (run cfg s₀ inp t) (inp t) = true →
      ExeStage.esValid (run cfg s₀ inp t).es = true) ∧
    (∀ t, dmemWen cfg (run cfg s₀ inp t) (inp t) ≠ 0#4 →
      dmemEn cfg (run cfg s₀ inp t) (inp t) = true ∧ liveMs (run cfg s₀ inp (t + 1)) = true) ∧
    (∀ t, liveMs (run cfg s₀ inp t) = true →
      ∀ n, Strobes cfg s₀ inp (labelsAt cfg s₀ inp t).ms.seq n ↔
        n + 1 = t ∧ Decode.storesWord (labelsAt cfg s₀ inp t).ms.inst = true) ∧
    (∀ t, liveEs (run cfg s₀ inp t) = true → exceptionFlag (run cfg s₀ inp t) (inp t) = false →
      Decode.isBrJmpInst (labelsAt cfg s₀ inp t).esMain.inst = true →
      mispredicted cfg (run cfg s₀ inp t) (inp t) = true →
      ∀ n, Redirects cfg s₀ inp (labelsAt cfg s₀ inp t).esMain.seq n ↔ n = t) ∧
    (∀ t, brRedirect cfg (run cfg s₀ inp t) (inp t) = true →
      brRedirect cfg (run cfg s₀ inp (t + 1)) (inp (t + 1)) = false ∧
      (exceptionFlag (run cfg s₀ inp (t + 1)) (inp (t + 1)) = false →
        imemEn cfg (run cfg s₀ inp (t + 1)) (inp (t + 1)) = true ∧
        imemAddr cfg (run cfg s₀ inp (t + 1)) =
          brRedirectTarget cfg (run cfg s₀ inp t) (inp t))) := by
  refine ⟨fun t => esValid_of_brRedirect (control_run cfg s₀ inp t), ?_, ?_, ?_, ?_⟩
  · intro t hwen
    have hen := dmemEn_of_strobe cfg s₀ inp hF hwen
    exact ⟨hen, liveMs_of_request cfg s₀ inp hen⟩
  · intro t hlive n
    exact strobes_iff cfg s₀ inp hF hlive n
  · intro t hlive hexc hbr hmis n
    exact redirects_iff cfg s₀ inp hlive hexc hbr hmis n
  · intro t h
    have hc := control_run cfg s₀ inp t
    exact ⟨next_brRedirect hc h (inp (t + 1)), next_request_of_brRedirect hc h⟩

end Run

/-- A stream whose first word is a store, and every other word a branch that is taken. -/
def storeThenBranches (n : Nat) : CpuIn :=
  { imemRdata := if n == 2 then 0x00102023#32 else 0x00000463#32   -- sw x1, 0(x0); beq x0, x0, 8
    dmemRdata := 0#32
    plicIrq := false }

/-- The store of that stream drives its strobes in cycle 4 only, and the branch behind it redirects
in cycle 5 only. -/
theorem stale_contents_never_act_after_store :
    (∀ n, Strobes plainBuild zero storeThenBranches
        (labelsAt plainBuild zero storeThenBranches 5).ms.seq n ↔
      n + 1 = 5 ∧ Decode.storesWord
        (labelsAt plainBuild zero storeThenBranches 5).ms.inst = true) ∧
    (∀ n, Redirects plainBuild zero storeThenBranches
        (labelsAt plainBuild zero storeThenBranches 5).esMain.seq n ↔ n = 5) :=
  have h := stale_contents_never_act plainBuild zero storeThenBranches (fun n => by
    unfold storeThenBranches
    dsimp only
    split <;> rfl)
  ⟨h.2.2.1 5 (by decide +kernel),
    h.2.2.2.1 5 (by decide +kernel) (by decide +kernel) (by decide +kernel) (by decide +kernel)⟩

end Cpu
end RiscvCpu
