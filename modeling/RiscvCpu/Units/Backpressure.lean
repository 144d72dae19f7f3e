import RiscvCpu.Units.Agreement
import RiscvCpu.Units.Division
import RiscvCpu.Units.Multiplier

/-!
# Backpressure — the packaged unit and `result_ready`

An integrator of `rv32m_mul_div_ip` may let a result wait.  The multiplier keeps it; the divide state
machine shows it for one cycle and starts the operation again.  Both are followed here over runs in
which an operation is held until its result is taken or it is killed.
-/

namespace RiscvCpu
namespace MulDivIp

open RiscvCpu.Mul (Regs Ports DivPorts Same OneHotDivision Agree WiresAgree Captured)

/-- The packaged unit in cycle `t` after reset: `p` are its inputs and `d` the divider's wires. -/
def ipRun (b : Params) (m₀ : Regs) (p : Nat → Ports) (d : Nat → DivPorts) (t : Nat) : Regs :=
  Clocked.run (fun m i => next b m i.1 i.2) (Mul.reset m₀) (fun n => (p n, d n)) t

/-- The remainder and the quotient of an accepted request, in the order of the parameter. -/
def answerTo (b : Params) (q : Ports) : BitVec 64 :=
  if b.dividerResultRemainderHigh then Mul.answerTo q else Mul.swapWords (Mul.answerTo q)

section
variable (b : Params) (m₀ : Regs) (p : Nat → Ports) (d : Nat → DivPorts)

/-- The divider answers in cycle `t` the request it accepted in cycle `answers t`: each at most once,
and with its remainder and quotient.  When it is ready and how long it takes is up to it. -/
structure Answers (answers : Nat → Option Nat) : Prop where
  valid : ∀ t, (d t).doutTvalid = (answers t).isSome
  accepted : ∀ t a, answers t = some a →
    a < t ∧ Mul.divAccept (ipRun b m₀ p d a) (p a) (d a) = true
  once : ∀ t u a, answers t = some a → answers u = some a → t = u
  data : ∀ t a, answers t = some a → (d t).doutTdata = answerTo b (p a)

def stall (t : Nat) : Bool := Mul.mulStall (ipRun b m₀ p d t) (p t)

def result (t : Nat) : Word := mulResult b (ipRun b m₀ p d t) (p t)

/-- An operation is asked for in cycle `t`, and neither killed nor handed over. -/
structure InProgress (t : Nat) : Prop where
  isMul : (p t).isMul = true
  kill : (p t).kill = false
  untaken : ¬ (stall b m₀ p d t = false ∧ (p t).resultReady = true)

/-- One operation of the instruction set. -/
def OneHot (q : Ports) : Prop :=
  q.mulOp = ⟨true, false, false, false⟩ ∨ q.mulOp = ⟨false, true, false, false⟩ ∨ OneHotDivision q

/-- What an integrator keeps to: the unit may take several cycles, both operands of a division are
read the same way, and an operation is held while it is in progress. -/
structure Holds : Prop where
  multicycle : ∀ t, (p t).isMulticycle = true
  oneHot : ∀ t, (p t).isMul = true → OneHot (p t)
  signs : ∀ t, (p t).isMul = true → OneHotDivision (p t) → (p t).src1Signed = (p t).src2Signed
  held : ∀ t, InProgress b m₀ p d t → Same (p t) (p (t + 1))

/-- A new operation is offered in cycle `c`. -/
structure Offered (c : Nat) : Prop where
  isMul : (p c).isMul = true
  fresh : ∀ t, c = t + 1 → ¬ InProgress b m₀ p d t

/-- `f` is the first cycle from `c` on in which the unit does not stall. -/
structure FirstLow (c f : Nat) : Prop where
  le : c ≤ f
  stalled : ∀ k, c ≤ k → k < f → stall b m₀ p d k = true
  low : stall b m₀ p d f = false

/-- The operation of cycle `c` meets its result: while it is not killed, from the first cycle without
a stall up to the first one with `result_ready`, the stall stays low and the result is that of the
instruction set. -/
def Honoured (c : Nat) : Prop :=
  ∀ f n, FirstLow b m₀ p d c f → f ≤ n → (∀ k, c ≤ k → k ≤ n → (p k).kill = false) →
    (∀ k, f ≤ k → k < n → (p k).resultReady = false) →
    stall b m₀ p d n = false ∧ result b m₀ p d n = Mul.portValue (p c)

/-- `f` is the first cycle from `c` on with the divide state machine in one of its done states, and
there was no kill up to it. -/
structure FirstDone (c f : Nat) : Prop where
  le : c ≤ f
  alive : ∀ k, c ≤ k → k ≤ f → (p k).kill = false
  before : ∀ k, c ≤ k → k < f → Mul.divDone (ipRun b m₀ p d k) = false
  done : Mul.divDone (ipRun b m₀ p d f) = true

/-- The same wires in the order of `DEBUG_EN`. -/
def debugWires (t : Nat) : DivPorts :=
  { d t with
    doutTdata :=
      if b.dividerResultRemainderHigh then (d t).doutTdata else Mul.swapWords (d t).doutTdata }

end

variable {b : Params} {m₀ : Regs} {p : Nat → Ports} {d : Nat → DivPorts}
variable {answers : Nat → Option Nat} {c n : Nat}

/-! ## The packaged unit beside the core's -/

theorem ipRun_succ (t : Nat) :
    ipRun b m₀ p d (t + 1) =
      Mul.next ⟨b.dividerResultRemainderHigh, b.mulHighPipeStages⟩ (ipRun b m₀ p d t) (p t) (d t) :=
  Mul.packaged_next _ _ _ _

theorem wiresAgree (t : Nat) :
    WiresAgree true b.dividerResultRemainderHigh (debugWires b d t) (d t) := by
  refine ⟨rfl, rfl, rfl, ?_⟩
  cases h : b.dividerResultRemainderHigh <;>
    simp [debugWires, h, Mul.orderedWords, Mul.swapWords, Mul.low_append]

theorem agree_ipRun (t : Nat) :
    Agree true b.dividerResultRemainderHigh
      (Mul.unitRun b.mulHighPipeStages m₀ p (debugWires b d) t) (ipRun b m₀ p d t) := by
  induction t with
  | zero => exact Mul.agree_reset _ _ m₀ m₀
  | succ t ih =>
      rw [Mul.unitRun_succ, ipRun_succ]
      exact Mul.agree_next ih (wiresAgree t) (p t)

theorem captured_ipRun (t : Nat) : Captured (ipRun b m₀ p d t) := by
  induction t with
  | zero =>
      intro h
      cases h
  | succ t ih =>
      rw [ipRun_succ]
      exact Mul.captured_next _ _ _ _ ih

theorem captured_unitRun (k t : Nat) : Captured (Mul.unitRun k m₀ p d t) := by
  induction t with
  | zero =>
      intro h
      cases h
  | succ t ih => exact Mul.captured_next _ _ _ _ ih

theorem stall_eq (t : Nat) :
    stall b m₀ p d t =
      Mul.mulStall (Mul.unitRun b.mulHighPipeStages m₀ p (debugWires b d) t) (p t) := by
  have hagree : Agree _ _ _ (ipRun b m₀ p d t) := agree_ipRun t
  simp only [stall, Mul.mulStall, Mul.divDone, hagree.divState, hagree.pipe.done]

theorem result_eq (t : Nat) :
    result b m₀ p d t =
      Mul.mulResult ⟨true, b.mulHighPipeStages⟩
        (Mul.unitRun b.mulHighPipeStages m₀ p (debugWires b d) t) (p t) := by
  have hcaptured : Captured (ipRun b m₀ p d t) := captured_ipRun t
  exact (Mul.packaged_result b.dividerResultRemainderHigh (p t) hcaptured).trans
    (Mul.result_of_agree (agree_ipRun t) (captured_unitRun _ t) (captured_ipRun t) (p t))

theorem answers_debugWires (ha : Answers b m₀ p d answers) :
    Mul.Answers b.mulHighPipeStages m₀ p (debugWires b d) answers := by
  refine ⟨ha.valid, ?accepted, ha.once, ?data⟩
  case accepted =>
    intro t a h
    rcases ha.accepted t a h with ⟨hlt, hacc⟩
    have hagree : Agree _ _ _ (ipRun b m₀ p d a) := agree_ipRun a
    refine ⟨hlt, ?_⟩
    simpa only [Mul.Accepts, Mul.divAccept, Mul.divStart, hagree.divState, hagree.discard,
      debugWires] using hacc
  case data =>
    intro t a h
    have hdata := ha.data t a h
    cases hb : b.dividerResultRemainderHigh with
    | true => simpa [debugWires, answerTo, hb] using hdata
    | false =>
        simp only [debugWires, answerTo, hb, Bool.false_eq_true, if_false] at hdata ⊢
        rw [hdata]
        simp only [Mul.swapWords, Mul.answerTo, Mul.low_append]

theorem inProgress_of_stall {t : Nat} (h : stall b m₀ p d t = true) : InProgress b m₀ p d t := by
  have hparts := h
  simp only [stall, Mul.mulStall, Bool.and_eq_true, Bool.not_eq_true'] at hparts
  refine ⟨hparts.1.2, hparts.1.1, ?_⟩
  rintro ⟨hlow, -⟩
  rw [h] at hlow
  cases hlow

theorem holds_debugWires (hp : Holds b m₀ p d) :
    Mul.Holds b.mulHighPipeStages m₀ p (debugWires b d) := by
  refine ⟨hp.multicycle, hp.signs, ?_⟩
  intro t h
  rw [← stall_eq] at h
  exact hp.held t (inProgress_of_stall h)

/-- An operation in progress up to cycle `n` is still on the ports. -/
theorem same_of_inProgress (hp : Holds b m₀ p d) (hcn : c ≤ n)
    (h : ∀ k, c ≤ k → k < n → InProgress b m₀ p d k) : Same (p c) (p n) := by
  induction hcn with
  | refl => exact ⟨rfl, rfl, rfl, rfl, rfl, rfl⟩
  | @step n hcn ih =>
      have hsame := ih fun k hk hkn => h k hk (Nat.lt_succ_of_lt hkn)
      exact hsame.trans (hp.held n (h n hcn (Nat.lt_succ_self n)))

/-! ## Multiplications -/

theorem pipe_ipRun (t : Nat) :
    (ipRun b m₀ p d t).pipe =
      MulPipeline.pipeRun b.mulHighPipeStages m₀.pipe (fun t => Mul.pipePorts (p t)) t := by
  induction t with
  | zero => rfl
  | succ t ih =>
      rw [MulPipeline.pipeRun_succ, ← ih]
      rfl

theorem productWord_pipePorts {q : Ports} (hop : OneHot q) (hmul : Mul.mulOpMul q = true) :
    MulPipeline.productWord (Mul.pipePorts q) = Mul.portValue q := by
  rw [MulPipeline.productWord_eq]
  rcases hop with h | h | h | h
  · simp [MulPipeline.packet, Mul.pipePorts, Mul.portValue, MulPacket.value, h]
  · simp [MulPipeline.packet, Mul.pipePorts, Mul.portValue, MulPacket.value, h]
  · simp [Mul.mulOpMul, h] at hmul
  · simp [Mul.mulOpMul, h] at hmul

theorem not_division {q : Ports} (hop : OneHot q) (hmul : Mul.mulOpMul q = true) :
    Mul.mulOpDiv q = false := by
  rcases hop with h | h | h | h
  · simp [Mul.mulOpDiv, h]
  · simp [Mul.mulOpDiv, h]
  · simp [Mul.mulOpMul, h] at hmul
  · simp [Mul.mulOpMul, h] at hmul

theorem stall_of_busy {t : Nat} (hkill : (p t).kill = false) (hmul : (p t).isMul = true)
    (hop : Mul.mulOpMul (p t) = true) (hdone : (ipRun b m₀ p d t).pipe.done = false) :
    stall b m₀ p d t = true := by
  simp [stall, Mul.mulStall, hkill, hmul, hop, hdone]

theorem low_of_product {t : Nat} (hop : Mul.mulOpDiv (p t) = false)
    (hdone : (ipRun b m₀ p d t).pipe.done = true) : stall b m₀ p d t = false := by
  simp [stall, Mul.mulStall, hop, hdone]

/-- A multiplication in the unit has been in progress in every cycle since it was accepted. -/
theorem inProgress_of_inUnit (hp : Holds b m₀ p d)
    (hstages : b.mulHighPipeStages = 2 ∨ b.mulHighPipeStages = 3)
    (hin : MulPipeline.InUnit b.mulHighPipeStages m₀.pipe (fun t => Mul.pipePorts (p t)) c n)
    (k : Nat) (hck : c ≤ k) (hkn : k < n) : InProgress b m₀ p d k := by
  induction k using Nat.strong_induction_on with
  | _ k ih =>
      have hstart := hin.accepted.1
      simp only [MulPipeline.startAccept, Mul.pipePorts, Mul.mulStart, Bool.and_eq_true] at hstart
      have hsame : Same (p c) (p k) :=
        same_of_inProgress hp hck fun j hj hjk => ih j hjk hj (Nat.lt_trans hjk hkn)
      have hmul : (p k).isMul = true := hsame.isMul.trans hstart.1.1
      have hop : Mul.mulOpMul (p k) = true := hsame.mulOpMul.trans hstart.1.2
      rcases Nat.lt_or_eq_of_le hck with hlt | rfl
      · have hkill : (p k).kill = false := hin.alive k hlt hkn
        refine ⟨hmul, hkill, ?_⟩
        rintro ⟨hlow, hready⟩
        have hdone := (MulPipeline.done_of_inUnit hstages (hin.earlier hlt hkn.le)).1
        rw [← pipe_ipRun (d := d)] at hdone
        cases hage : (ipRun b m₀ p d k).pipe.done with
        | true =>
            rw [hage] at hdone
            have hno := hin.untaken k (of_decide_eq_true hdone.symm) hkn
            exact absurd hready (by simpa [Mul.pipePorts] using hno)
        | false =>
            rw [stall_of_busy hkill hmul hop hage] at hlow
            cases hlow
      · -- the cycle in which it is accepted
        have hdone := MulPipeline.not_done_of_accepted hstages hin.accepted
        rw [← pipe_ipRun (d := d)] at hdone
        exact inProgress_of_stall (stall_of_busy hin.accepted.2 hmul hop hdone)

/-- The multiplier is free when an operation is offered. -/
theorem pipe_free (hp : Holds b m₀ p d)
    (hstages : b.mulHighPipeStages = 2 ∨ b.mulHighPipeStages = 3) (hoffered : Offered b m₀ p d c) :
    (ipRun b m₀ p d c).pipe.active = false := by
  rw [pipe_ipRun]
  have howner : ∀ a, ¬ MulPipeline.InUnit b.mulHighPipeStages m₀.pipe
      (fun t => Mul.pipePorts (p t)) a c := by
    intro a hin
    have hlt := hin.started
    rcases Nat.exists_eq_succ_of_ne_zero (Nat.ne_zero_of_lt hlt) with ⟨t, rfl⟩
    exact hoffered.fresh t rfl
      (inProgress_of_inUnit hp hstages hin t (Nat.le_of_lt_succ hlt) (Nat.lt_succ_self t))
  have hphase : MulPipeline.Phase b.mulHighPipeStages m₀.pipe (fun t => Mul.pipePorts (p t)) c :=
    MulPipeline.phase_run hstages c
  cases hphase with
  | idle active => exact active
  | stage1 a age active done stage1 stage2 loaded one => exact absurd ((one a).mpr rfl) (howner a)
  | stage2 a age deep active done stage1 stage2 loaded middle top one =>
      exact absurd ((one a).mpr rfl) (howner a)
  | product a age active done stage1 complete result one =>
      exact absurd ((one a).mpr rfl) (howner a)

/-- A multiplication that is offered is accepted at once. -/
theorem accepted_of_offered (hp : Holds b m₀ p d)
    (hstages : b.mulHighPipeStages = 2 ∨ b.mulHighPipeStages = 3) (hoffered : Offered b m₀ p d c)
    (hop : Mul.mulOpMul (p c) = true) (hkill : (p c).kill = false) :
    MulPipeline.Accepted b.mulHighPipeStages m₀.pipe (fun t => Mul.pipePorts (p t)) c := by
  have hfree := pipe_free hp hstages hoffered
  rw [pipe_ipRun] at hfree
  refine ⟨?_, hkill⟩
  rw [MulPipeline.startAccept, hfree]
  simp [Mul.pipePorts, Mul.mulStart, hoffered.isMul, hop]

/-- Up to the first cycle with `result_ready` after the first one without a stall, an operation is in
progress. -/
theorem FirstLow.inProgress (hp : Holds b m₀ p d) (hoffered : Offered b m₀ p d c) {f : Nat}
    (hfirst : FirstLow b m₀ p d c f) (hkill : ∀ k, c ≤ k → k ≤ n → (p k).kill = false)
    (hready : ∀ k, f ≤ k → k < n → (p k).resultReady = false) (k : Nat) (hck : c ≤ k) (hkn : k < n) :
    InProgress b m₀ p d k := by
  induction k using Nat.strong_induction_on with
  | _ k ih =>
      have hsame : Same (p c) (p k) :=
        same_of_inProgress hp hck fun j hj hjk => ih j hjk hj (Nat.lt_trans hjk hkn)
      refine ⟨hsame.isMul.trans hoffered.isMul, hkill k hck hkn.le, ?_⟩
      rintro ⟨hlow, htaken⟩
      rcases Nat.lt_or_ge k f with hlt | hge
      · rw [hfirst.stalled k hck hlt] at hlow
        cases hlow
      · rw [hready k hge hkn] at htaken
        cases htaken

theorem result_of_mul {t : Nat} (hop : Mul.mulOpMul (p t) = true) :
    result b m₀ p d t = (ipRun b m₀ p d t).pipe.result := by
  simp only [Mul.mulOpMul, Bool.or_eq_true] at hop
  unfold result mulResult
  split
  · rfl
  next hmul => simp [hop.resolve_left hmul]

section
variable (hp : Holds b m₀ p d) (hstages : b.mulHighPipeStages = 2 ∨ b.mulHighPipeStages = 3)
variable (hoffered : Offered b m₀ p d c) (hop : Mul.mulOpMul (p c) = true) {f : Nat}
variable (hfirst : FirstLow b m₀ p d c f) (hkill : ∀ k, c ≤ k → k ≤ n → (p k).kill = false)
variable (hready : ∀ k, f ≤ k → k < n → (p k).resultReady = false)
include hp hstages hoffered hop hfirst hkill hready

/-- While its result is not taken, a multiplication stays in the unit. -/
theorem inUnit_of_offered (hcn : c < n) :
    MulPipeline.InUnit b.mulHighPipeStages m₀.pipe (fun t => Mul.pipePorts (p t)) c n := by
  have hacc := accepted_of_offered hp hstages hoffered hop (hkill c (Nat.le_refl c) hcn.le)
  have hprogress := hfirst.inProgress hp hoffered hkill hready
  have hlat := MulPipeline.two_le_latency hstages (Mul.pipePorts (p c))
  suffices h : ∀ k, c < k → k ≤ n →
      MulPipeline.InUnit b.mulHighPipeStages m₀.pipe (fun t => Mul.pipePorts (p t)) c k from
    h n hcn (Nat.le_refl n)
  intro k
  induction k using Nat.strong_induction_on with
  | _ k ih =>
      intro hck hkn
      refine ⟨hacc, hck, fun j hj hjk => hkill j hj.le (Nat.le_trans hjk.le hkn), ?_⟩
      intro j hage hjk
      rcases Nat.lt_or_ge j f with hlt | hge
      · -- its product is there, so it does not stall
        have hcj : c < j := by omega
        have hjn : j ≤ n := by omega
        have hdone := (MulPipeline.done_of_inUnit hstages (ih j hjk hcj hjn)).1
        rw [← pipe_ipRun (d := d), decide_eq_true hage] at hdone
        have hsame : Same (p c) (p j) := same_of_inProgress hp hcj.le fun i hi hij =>
          hprogress i hi (Nat.lt_of_lt_of_le hij hjn)
        have hmul : Mul.mulOpMul (p j) = true := hsame.mulOpMul.trans hop
        have hone := hp.oneHot j (hsame.isMul.trans hoffered.isMul)
        have hlow := low_of_product (not_division hone hmul) hdone
        rw [hfirst.stalled j hcj.le hlt] at hlow
        cases hlow
      · exact hready j hge (Nat.lt_of_lt_of_le hjk hkn)

/-- The product and the low stall stay. -/
theorem kept_of_mul (hfn : f ≤ n) :
    stall b m₀ p d n = false ∧ result b m₀ p d n = Mul.portValue (p c) := by
  have hcn : c ≤ n := Nat.le_trans hfirst.le hfn
  have hprogress := hfirst.inProgress hp hoffered hkill hready
  have hsame : ∀ k, c ≤ k → k ≤ n → Same (p c) (p k) := fun k hck hkn =>
    same_of_inProgress hp hck fun j hj hjk => hprogress j hj (Nat.lt_of_lt_of_le hjk hkn)
  have hdone : (ipRun b m₀ p d f).pipe.done = true := by
    cases hbusy : (ipRun b m₀ p d f).pipe.done with
    | true => rfl
    | false =>
        have hsamef := hsame f hfirst.le hfn
        have hlow := hfirst.low
        rw [stall_of_busy (hkill f hfirst.le hfn) (hsamef.isMul.trans hoffered.isMul)
          (hsamef.mulOpMul.trans hop) hbusy] at hlow
        cases hlow
  have hacc := accepted_of_offered hp hstages hoffered hop (hkill c (Nat.le_refl c) hcn)
  have hcf : c < f := by
    rcases Nat.lt_or_eq_of_le hfirst.le with hlt | rfl
    · exact hlt
    · have hbusy := MulPipeline.not_done_of_accepted hstages hacc
      rw [← pipe_ipRun (d := d), hdone] at hbusy
      cases hbusy
  have hin := inUnit_of_offered hp hstages hoffered hop hfirst hkill hready
    (Nat.lt_of_lt_of_le hcf hfn)
  rw [pipe_ipRun, (MulPipeline.done_of_inUnit hstages (hin.earlier hcf hfn)).1] at hdone
  have hage := Nat.le_trans (of_decide_eq_true hdone) hfn
  have hproduct := MulPipeline.done_of_inUnit hstages hin
  rw [decide_eq_true hage, ← pipe_ipRun (d := d)] at hproduct
  have hmul : Mul.mulOpMul (p n) = true := (hsame n hcn (Nat.le_refl n)).mulOpMul.trans hop
  have hone := hp.oneHot n ((hsame n hcn (Nat.le_refl n)).isMul.trans hoffered.isMul)
  refine ⟨low_of_product (not_division hone hmul) hproduct.1, ?_⟩
  rw [result_of_mul hmul, hproduct.2 hage]
  exact productWord_pipePorts (hp.oneHot c hoffered.isMul) hop

end

/-- A multiplication meets its result under every pattern of `result_ready`. -/
theorem honoured_of_mul (hp : Holds b m₀ p d)
    (hstages : b.mulHighPipeStages = 2 ∨ b.mulHighPipeStages = 3) (hoffered : Offered b m₀ p d c)
    (hop : Mul.mulOpMul (p c) = true) : Honoured b m₀ p d c := by
  intro f n hfirst hfn hkill hready
  exact kept_of_mul hp hstages hoffered hop hfirst hkill hready hfn

/-! ## Divisions -/

theorem division_of_not_mul {q : Ports} (hop : OneHot q) (hmul : Mul.mulOpMul q = false) :
    OneHotDivision q := by
  rcases hop with h | h | h
  · simp [Mul.mulOpMul, h] at hmul
  · simp [Mul.mulOpMul, h] at hmul
  · exact h

theorem parts_of_division {q : Ports} (hop : OneHotDivision q) :
    Mul.mulOpMul q = false ∧ Mul.mulOpDiv q = true := by
  rcases hop with h | h <;> simp [Mul.mulOpMul, Mul.mulOpDiv, h]

theorem stall_of_division {t : Nat} (hkill : (p t).kill = false) (hmul : (p t).isMul = true)
    (hop : OneHotDivision (p t)) :
    stall b m₀ p d t = !Mul.divDone (ipRun b m₀ p d t) := by
  have hparts := parts_of_division hop
  simp [stall, Mul.mulStall, hkill, hmul, hparts.1, hparts.2]

/-- The edge after a done state leads back to the idle one. -/
theorem divDone_next {t : Nat} (hdone : Mul.divDone (ipRun b m₀ p d t) = true) :
    Mul.divDone (ipRun b m₀ p d (t + 1)) = false := by
  rw [ipRun_succ]
  simp only [Mul.divDone, Bool.or_eq_true, beq_iff_eq] at hdone
  have hidle : (Mul.next ⟨b.dividerResultRemainderHigh, b.mulHighPipeStages⟩ (ipRun b m₀ p d t)
      (p t) (d t)).divState = 0b00#2 := by
    unfold Mul.next
    rcases hdone with h | h <;> simp only [h] <;> split <;> [rfl; split <;> rfl; rfl; split <;> rfl]
  simp [Mul.divDone, hidle]

theorem Same.division {q q' : Ports} (h : Same q q') (hop : OneHotDivision q) :
    OneHotDivision q' := by
  rw [OneHotDivision, h.mulOp]
  exact hop

/-- Up to its done state a division is held and stalls. -/
theorem FirstDone.waits {f : Nat} (hdone : FirstDone b m₀ p d c f) (hp : Holds b m₀ p d)
    (hmul : (p c).isMul = true) (hop : OneHotDivision (p c)) (k : Nat) (hck : c ≤ k) (hkf : k ≤ f) :
    Same (p c) (p k) ∧ stall b m₀ p d k = !Mul.divDone (ipRun b m₀ p d k) := by
  induction k using Nat.strong_induction_on with
  | _ k ih =>
      have hsame : Same (p c) (p k) := by
        refine same_of_inProgress hp hck fun j hj hjk => inProgress_of_stall ?_
        have hjf : j < f := Nat.lt_of_lt_of_le hjk hkf
        rw [(ih j hjk hj hjf.le).2, hdone.before j hj hjf]
        rfl
      exact ⟨hsame, stall_of_division (hdone.alive k hck hkf) (hsame.isMul.trans hmul)
        (Same.division hsame hop)⟩

/-- The first cycle without a stall is the first one in a done state. -/
theorem FirstLow.firstDone {f : Nat} (hfirst : FirstLow b m₀ p d c f)
    (hkill : ∀ k, c ≤ k → k ≤ f → (p k).kill = false) (hmul : (p c).isMul = true)
    (hop : OneHotDivision (p c)) (hsame : ∀ k, c ≤ k → k ≤ f → Same (p c) (p k)) :
    FirstDone b m₀ p d c f := by
  have hstall : ∀ k, c ≤ k → k ≤ f → stall b m₀ p d k = !Mul.divDone (ipRun b m₀ p d k) :=
    fun k hck hkf => stall_of_division (hkill k hck hkf) ((hsame k hck hkf).isMul.trans hmul)
      (Same.division (hsame k hck hkf) hop)
  refine ⟨hfirst.le, hkill, ?before, ?done⟩
  case before =>
    intro k hck hkf
    have h := hstall k hck hkf.le
    rw [hfirst.stalled k hck hkf] at h
    simpa using h.symm
  case done =>
    have h := hstall f hfirst.le (Nat.le_refl f)
    rw [hfirst.low] at h
    simpa using h.symm

theorem portValue_of_same {q q' : Ports} (h : Same q q') : Mul.portValue q' = Mul.portValue q := by
  simp only [Mul.portValue, h.mulOp, h.src1, h.src2, h.signed1, h.signed2]

/-- A division meets its result exactly when it is taken in the one cycle in which it is shown. -/
theorem honoured_of_division_iff (ha : Answers b m₀ p d answers) (hp : Holds b m₀ p d)
    (hoffered : Offered b m₀ p d c) (hop : OneHotDivision (p c)) :
    Honoured b m₀ p d c ↔
      ∀ f, FirstDone b m₀ p d c f → (p f).resultReady = true ∨ (p (f + 1)).kill = true := by
  have hmul := hoffered.isMul
  constructor
  · intro h f hdone
    by_contra hno
    simp only [not_or, Bool.not_eq_true] at hno
    rcases hno with ⟨hready, hkill⟩
    have hwaits := hdone.waits hp hmul hop
    have hlow : stall b m₀ p d f = false := by
      rw [(hwaits f hdone.le (Nat.le_refl f)).2, hdone.done]
      rfl
    have hfirst : FirstLow b m₀ p d c f := by
      refine ⟨hdone.le, fun k hck hkf => ?_, hlow⟩
      rw [(hwaits k hck hkf.le).2, hdone.before k hck hkf]
      rfl
    have halive : ∀ k, c ≤ k → k ≤ f + 1 → (p k).kill = false := by
      intro k hck hkf
      rcases Nat.le_succ_iff.mp hkf with hle | rfl
      · exact hdone.alive k hck hle
      · exact hkill
    have hkept := (h f (f + 1) hfirst (Nat.le_succ f) halive (fun k hfk hkf => by
      have heq : k = f := by omega
      rw [heq, hready])).1
    -- the state machine is idle again, and the operation is still there
    have hsame : Same (p f) (p (f + 1)) := by
      refine hp.held f ⟨(hwaits f hdone.le (Nat.le_refl f)).1.isMul.trans hmul,
        hdone.alive f hdone.le (Nat.le_refl f), ?_⟩
      rintro ⟨-, htaken⟩
      rw [hready] at htaken
      cases htaken
    have hagain := (hwaits f hdone.le (Nat.le_refl f)).1.trans hsame
    rw [stall_of_division hkill (hagain.isMul.trans hmul) (Same.division hagain hop),
      divDone_next hdone.done] at hkept
    cases hkept
  · intro h f n hfirst hfn hkill hready
    have hprogress := hfirst.inProgress hp hoffered hkill hready
    have hsame : ∀ k, c ≤ k → k ≤ f → Same (p c) (p k) := fun k hck hkf =>
      same_of_inProgress hp hck fun j hj hjk =>
        hprogress j hj (Nat.lt_of_lt_of_le hjk (Nat.le_trans hkf hfn))
    have hdone := hfirst.firstDone (fun k hck hkf => hkill k hck (Nat.le_trans hkf hfn)) hmul hop hsame
    rcases Nat.lt_or_eq_of_le hfn with hlt | rfl
    · -- nobody takes the result in its one cycle
      rcases h f hdone with htaken | hkilled
      · rw [hready f (Nat.le_refl f) hlt] at htaken
        cases htaken
      · rw [hkill (f + 1) (Nat.le_succ_of_le hfirst.le) hlt] at hkilled
        cases hkilled
    · have hsamef := hsame f hfirst.le (Nat.le_refl f)
      refine ⟨hfirst.low, ?_⟩
      have hlow := hfirst.low
      rw [stall_eq] at hlow
      rw [result_eq, ← portValue_of_same hsamef]
      exact Mul.result_of_phase (holds_debugWires hp)
        (Mul.phase_run (answers_debugWires ha) (holds_debugWires hp) f)
        (hsamef.isMul.trans hmul) (Same.division hsamef hop)
        (hkill f hfirst.le (Nat.le_refl f)) hlow

/-- For either word order and both depths of the multiplier, every divider and every pattern of
`result_ready`: an offered operation meets its result exactly if it is a multiplication, or is taken
in the first cycle in which the divide state machine is done, or is killed right after it. -/
theorem result_ready_honoured_iff (b : Params)
    (hstages : b.mulHighPipeStages = 2 ∨ b.mulHighPipeStages = 3) (m₀ : Regs) (p : Nat → Ports)
    (d : Nat → DivPorts) (answers : Nat → Option Nat) (ha : Answers b m₀ p d answers)
    (hp : Holds b m₀ p d) (c : Nat) (hoffered : Offered b m₀ p d c) :
    Honoured b m₀ p d c ↔
      Mul.mulOpMul (p c) = true ∨
        ∀ f, FirstDone b m₀ p d c f → (p f).resultReady = true ∨ (p (f + 1)).kill = true := by
  cases hop : Mul.mulOpMul (p c) with
  | true => simp [honoured_of_mul hp hstages hoffered hop]
  | false =>
      rw [honoured_of_division_iff ha hp hoffered
        (division_of_not_mul (hp.oneHot c hoffered.isMul) hop)]
      simp

/-! ### A division by zero under back-pressure -/

/-- `7 / 0`, signed, held for ever. -/
def divByZero (ready : Nat → Bool) (t : Nat) : Ports :=
  { isMul := true
    isMulticycle := true
    mulSrc1 := 7#32
    mulSrc2 := 0#32
    mulOp := ⟨false, false, true, false⟩
    src1Signed := true
    src2Signed := true
    resultReady := ready t
    kill := false }

/-- A divider that is never ready and never answers. -/
def silentDivider (_ : Nat) : DivPorts := ⟨false, false, false, 0#64⟩

def bundled : Params := { mulHighPipeStages := 3, dividerResultRemainderHigh := true }

theorem answers_silent (ready : Nat → Bool) :
    Answers bundled Mul.unitPowerUp (divByZero ready) silentDivider (fun _ => none) := by
  refine ⟨fun _ => rfl, ?_, ?_, ?_⟩
  · intro t a h
    cases h
  · intro t u a h
    cases h
  · intro t a h
    cases h

theorem holds_divByZero (ready : Nat → Bool) :
    Holds bundled Mul.unitPowerUp (divByZero ready) silentDivider :=
  ⟨fun _ => rfl, fun _ _ => Or.inr (Or.inr (Or.inl rfl)), fun _ _ _ => rfl,
    fun _ _ => ⟨rfl, rfl, rfl, rfl, rfl, rfl⟩⟩

theorem offered_divByZero (ready : Nat → Bool) :
    Offered bundled Mul.unitPowerUp (divByZero ready) silentDivider 0 := by
  refine ⟨rfl, ?_⟩
  intro t h
  cases h

theorem result_ready_honoured_iff_divByZero :
    Honoured bundled Mul.unitPowerUp (divByZero fun _ => true) silentDivider 0 :=
  (result_ready_honoured_iff bundled (Or.inr rfl) Mul.unitPowerUp (divByZero fun _ => true)
    silentDivider _ (answers_silent _) (holds_divByZero _) 0 (offered_divByZero _)).mpr
    (Or.inr fun _ _ => Or.inl rfl)

/-- With `result_ready` low in cycle 1, the stall is low in that cycle and high again in cycle 2. -/
theorem not_honoured_divByZero :
    Answers bundled Mul.unitPowerUp (divByZero fun _ => false) silentDivider (fun _ => none) ∧
      Holds bundled Mul.unitPowerUp (divByZero fun _ => false) silentDivider ∧
      Offered bundled Mul.unitPowerUp (divByZero fun _ => false) silentDivider 0 ∧
      ¬ Honoured bundled Mul.unitPowerUp (divByZero fun _ => false) silentDivider 0 := by
  refine ⟨answers_silent _, holds_divByZero _, offered_divByZero _, ?_⟩
  intro h
  have hfirst : FirstLow bundled Mul.unitPowerUp (divByZero fun _ => false) silentDivider 0 1 := by
    refine ⟨Nat.zero_le 1, ?_, by decide⟩
    intro k _ hk
    have hzero : k = 0 := by omega
    subst hzero
    decide
  have hkept := h 1 2 hfirst (by decide) (fun _ _ _ => rfl) (fun _ _ _ => rfl)
  exact absurd hkept.1 (by decide)

end MulDivIp
end RiscvCpu
