import RiscvCpu.Progress.Unit
import RiscvCpu.Refine.Unstacked

/-!
# Drain — the multiply/divide unit behind a killed division

A trap may kill a division whose request the divider has accepted.  The unit throws the response away
when it comes, and starts no other request until then.  `calm` is the same unit with the response
already thrown away.  What the unit shows does not tell the two apart: a multiplication runs on beside
the divider, and a new division waits.
-/

namespace RiscvCpu
namespace Mul

/-! ## The unit with its response thrown away -/

def Regs.calm (m : Regs) : Regs := { m with divDiscardPending := false }

/-- The divider behind `m`. -/
def calmDivider (m : Regs) (d : Divider.Regs) : Divider.Regs :=
  { d with state := if m.divDiscardPending then Divider.IDLE else d.state }

variable {k : MulPacket} {a b : Word} {m m' : Regs} {d d' : Divider.Regs} {p : Ports}

theorem calm_of_settled (h : m.divDiscardPending = false) : m.calm = m := by
  rw [Regs.calm, ← h]

theorem calmDivider_of_settled (h : m.divDiscardPending = false) : calmDivider m d = d := by
  rw [calmDivider, h]
  rfl

theorem divRest_calm (h : DivPhase m d) (hstate : m.divState = 0b00#2) :
    DivRest m.calm (calmDivider m d) := by
  refine ⟨hstate, rfl, ?_⟩
  cases h with
  | rest rest =>
      rw [calmDivider_of_settled rest.discard]
      exact rest.divider
  | waiting divState discard divider =>
      rw [hstate] at divState
      cases divState
  | answered divState discard divider =>
      rw [hstate] at divState
      rcases divState with h | h <;> cases h
  | draining divState discard divider => rw [calmDivider, if_pos discard]

/-! ## One edge -/

/-- Behind a kill, and while a response is awaited to be thrown away, no division is under way. -/
theorem next_divState_of_draining (h : p.kill = true ∨ m.divDiscardPending = true) :
    (unitNext m d p).1.divState = 0b00#2 := by
  cases hkill : p.kill with
  | true => simp [unitNext, next, hkill]
  | false =>
      have hdiscard : m.divDiscardPending = true := by simpa [hkill] using h
      simp [unitNext, next, hkill, hdiscard]

theorem rest_calm (h : Rest m d) : Rest m.calm (calmDivider m d) := by
  rw [calm_of_settled h.div.discard, calmDivider_of_settled h.div.discard]
  exact h

/-- A kill leaves nothing under way but a response to be thrown away. -/
theorem rest_of_kill (h : UnitPhase m d) (hkill : p.kill = true) :
    Rest (unitNext m d p).1.calm (calmDivider (unitNext m d p).1 (unitNext m d p).2) := by
  refine
    { pipe := ?_
      div := divRest_calm (divPhase_next h.div p) (next_divState_of_draining (Or.inl hkill)) }
  show PipeRest (unitNext m d p).1.pipe
  rw [pipe_next]
  constructor <;> simp [MulPipeline.next, pipePorts, hkill, MulPipeline.clear]

/-- The calm unit comes to rest with the unit. -/
theorem rest_calm_next (h : UnitPhase m d)
    (hrest : Rest (unitNext m.calm (calmDivider m d) p).1 (unitNext m.calm (calmDivider m d) p).2) :
    Rest (unitNext m d p).1.calm (calmDivider (unitNext m d p).1 (unitNext m d p).2) := by
  cases hdiscard : m.divDiscardPending with
  | false =>
      rw [calm_of_settled hdiscard, calmDivider_of_settled hdiscard] at hrest
      exact rest_calm hrest
  | true =>
      refine
        { pipe := ?_
          div := divRest_calm (divPhase_next h.div p) (next_divState_of_draining (Or.inr hdiscard)) }
      have hpipe := hrest.pipe
      rw [pipe_next] at hpipe
      show PipeRest (unitNext m d p).1.pipe
      rw [pipe_next]
      exact hpipe

theorem discard_of_busy (h : Busy k a b m d) : m.divDiscardPending = false := by
  cases h with
  | fresh rest => exact rest.div.discard
  | stage1 div _ _ _ _ _ _ | stage2 div _ _ _ _ _ _ _ _ | product div _ _ _ _ _ _ => exact div.discard
  | waiting _ _ _ discard _ _ _ _ | quotient _ _ _ discard _ _ _ _ | special _ _ _ discard _ _ _ =>
      exact discard

/-- What the multiplier holds stays what it is beside another divider at rest, and a division starts
again. -/
theorem busy_of_pipe (h : Busy k a b m d) (hpipe : m'.pipe = m.pipe) (hdiv : DivRest m' d') :
    Busy k a b m' d' := by
  cases h with
  | fresh rest => exact .fresh ⟨by rw [hpipe]; exact rest.pipe, hdiv⟩
  | stage1 _ hop loaded active done stage1 stage2 =>
      rw [← hpipe] at loaded active done stage1 stage2
      exact .stage1 hdiv hop loaded active done stage1 stage2
  | stage2 _ hop loaded middle top active done stage1 stage2 =>
      rw [← hpipe] at loaded middle top active done stage1 stage2
      exact .stage2 hdiv hop loaded middle top active done stage1 stage2
  | product _ hop result active done stage1 stage2 =>
      rw [← hpipe] at result active done stage1 stage2
      exact .product hdiv hop result active done stage1 stage2
  | waiting pipe _ _ _ _ _ _ _ | quotient pipe _ _ _ _ _ _ _ | special pipe _ _ _ _ _ _ =>
      exact .fresh ⟨by rw [hpipe]; exact pipe, hdiv⟩

/-- The calm unit stays at the operation that the unit works for or waits with. -/
theorem busy_calm_next (h : UnitPhase m d)
    (hbusy : Busy k a b (unitNext m.calm (calmDivider m d) p).1
      (unitNext m.calm (calmDivider m d) p).2) :
    Busy k a b (unitNext m d p).1.calm (calmDivider (unitNext m d p).1 (unitNext m d p).2) := by
  cases hdiscard : m.divDiscardPending with
  | false =>
      rw [calm_of_settled hdiscard, calmDivider_of_settled hdiscard] at hbusy
      have hsettled := discard_of_busy hbusy
      rw [calm_of_settled hsettled, calmDivider_of_settled hsettled]
      exact hbusy
  | true =>
      apply busy_of_pipe hbusy
      · show (unitNext m d p).1.pipe = _
        rw [pipe_next, pipe_next]
        rfl
      · exact divRest_calm (divPhase_next h.div p) (next_divState_of_draining (Or.inr hdiscard))

end Mul

namespace Cpu

/-! ## The core with a calm unit -/

def calm (s : Cpu) : Cpu :=
  { s with
    es := { s.es with
      mul := s.es.mul.calm
      divider := Mul.calmDivider s.es.mul s.es.divider } }

variable {cfg : Config} {imem : Word → Word} {s : Cpu} {i : CpuIn}

theorem control_calm (hc : Control s) : Control s.calm :=
  { wsAllowin := hc.wsAllowin
    msAllowin := hc.msAllowin
    msSkid := hc.msSkid
    dsWf := hc.dsWf
    esWf := hc.esWf
    active := hc.active
    dsExc := hc.dsExc
    esMain := hc.esMain
    esSkid := hc.esSkid
    msMain := hc.msMain
    esStopped := hc.esStopped
    esSkidLive := hc.esSkidLive
    esFollowed := hc.esFollowed
    dsFollowed := hc.dsFollowed
    dsSkidFollowed := hc.dsSkidFollowed
    dsSkidMark := hc.dsSkidMark
    esBubble := hc.esBubble
    msFollowed := hc.msFollowed
    msBubble := hc.msBubble }

theorem ahead_calm {ρ : BitVec 5 → Word} {rdata : Word} (hA : Ahead cfg s.calm i ρ rdata) :
    Ahead cfg s i ρ rdata :=
  { zero := hA.zero
    written := hA.written
    loaded := hA.loaded
    other := hA.other }

theorem unit_calm_rest (h : Mul.UnitPhase s.es.mul s.es.divider)
    (hrest : Mul.Rest (next cfg s.calm i).es.mul (next cfg s.calm i).es.divider) :
    Mul.Rest (next cfg s i).calm.es.mul (next cfg s i).calm.es.divider :=
  Mul.rest_calm_next h hrest

end Cpu
end RiscvCpu
