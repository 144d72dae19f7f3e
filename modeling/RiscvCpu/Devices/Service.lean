import RiscvCpu.Devices.Fifo
import RiscvCpu.Devices.Pending
import RiscvCpu.Devices.Period
import RiscvCpu.Bus.Load
import Mathlib.Data.Nat.Find

/-!
# Service — peripherals and interrupt controller together

An interrupt handler claims a source, removes the condition of its device, and completes the source.
The level of a device falls one or two cycles after its condition; the interrupt controller looks at
it again in the cycle after the complete.  What makes the order safe is that this is late enough for
every device.
-/

namespace RiscvCpu

/-- The peripherals and the interrupt controller. -/
structure Devices where
  io : Io.Regs
  plic : Plic.Regs

/-- The two bus ports in one cycle, and the external interrupt inputs 4 to 31. -/
structure DevicesIn where
  io : Io.In
  plicSel : Bool
  plicWe : Bool
  plicRe : Bool
  plicAddr : Word
  plicWdata : Word
  externalInterrupts : BitVec 28

namespace Devices

/-- The input of the interrupt controller: sources 1 to 3 are the peripherals. -/
def plicIn (s : Devices) (i : DevicesIn) : Plic.In :=
  { peripheralInterrupts := (i.externalInterrupts ++ 0#4) ||| Io.peripheralInterrupts s.io
    plicSel := i.plicSel
    plicWe := i.plicWe
    plicRe := i.plicRe
    plicAddr := i.plicAddr
    plicWdata := i.plicWdata }

def next (s : Devices) (i : DevicesIn) : Devices :=
  { io := Io.next s.io i.io
    plic := Plic.next s.plic (plicIn s i) }

def reset (r : Io.Regs) : Devices := ⟨Io.reset r, Plic.reset⟩

/-- The state in cycle `t` after reset from the power-up state `r₀` of the peripherals. -/
def run (r₀ : Io.Regs) (inp : Nat → DevicesIn) (t : Nat) : Devices :=
  Clocked.run next (reset r₀) inp t

theorem run_succ_eq (r₀ : Io.Regs) (inp : Nat → DevicesIn) (t : Nat) :
    run r₀ inp (t + 1) = next (run r₀ inp t) (inp t) := rfl

/-- The inputs of the interrupt controller along a run. -/
def plicInputs (r₀ : Io.Regs) (inp : Nat → DevicesIn) (t : Nat) : Plic.In :=
  plicIn (run r₀ inp t) (inp t)

/-- The interrupt controller of a run is a run of the interrupt controller. -/
theorem run_plic (r₀ : Io.Regs) (inp : Nat → DevicesIn) (t : Nat) :
    (run r₀ inp t).plic = Plic.run (plicInputs r₀ inp) t := by
  induction t with
  | zero => rfl
  | succ t ih =>
      rw [Plic.run_succ_eq, ← ih]
      rfl

/-- What one cycle of the chip looks like to the peripherals and the interrupt controller. -/
def ofSoc (i : SocIn) : DevicesIn :=
  { io := Soc.ioIn i
    plicSel := Bridge.plicRegionSel i.req
    plicWe := Bridge.plicWe i.req
    plicRe := Bridge.plicRe i.req
    plicAddr := i.req.addr
    plicWdata := i.req.wdata
    externalInterrupts := i.externalInterrupts.extractLsb' 4 28 }

/-- The chip contains a run of the two, if its external inputs 0 to 3 stay low. -/
theorem run_ofSoc (s₀ : Soc) (inp : Nat → SocIn)
    (hlow : ∀ t, (inp t).externalInterrupts.extractLsb' 0 4 = 0#4) (t : Nat) :
    run s₀.io (fun n => ofSoc (inp n)) t = ⟨(Soc.run s₀ inp t).io, (Soc.run s₀ inp t).plic⟩ := by
  induction t with
  | zero => rfl
  | succ t ih =>
      have hext : (inp t).externalInterrupts.extractLsb' 4 28 ++ 0#4 =
          (inp t).externalInterrupts := by
        rw [← hlow t]
        exact BitVec.extractLsb'_append_extractLsb'_eq_extractLsb' (by decide) |>.trans
          (BitVec.extractLsb'_eq_self)
      rw [run_succ_eq, ih]
      show (⟨Io.next _ _, Plic.next _ (plicIn _ _)⟩ : Devices) = _
      simp only [plicIn, ofSoc, hext]
      rfl

/-! ## Claims, removals and completes -/

variable (r₀ : Io.Regs) (inp : Nat → DevicesIn)

/-- The id a claim read hands out in cycle `t`. -/
def claimedAt (t : Nat) : Option (BitVec 5) :=
  Plic.claimed (run r₀ inp t).plic (plicInputs r₀ inp t)

/-- Cycle `t` reads the claim register. -/
def readsClaim (t : Nat) : Bool := Plic.claimRead (plicInputs r₀ inp t)

/-- Cycle `t` writes `i` to the claim register. -/
def writesComplete (t : Nat) (i : BitVec 5) : Bool :=
  (inp t).plicSel && (inp t).plicWe && (inp t).plicAddr == Map.PLIC_CLAIM_BASE_ADDR &&
    Plic.completeId (plicInputs r₀ inp t) == i

/-- The three sources with a device. -/
inductive Source
  | timer
  | uartRx
  | uartTx

def Source.id : Source → BitVec 5
  | .timer => BitVec.ofNat 5 Map.TIMER_INT_ID
  | .uartRx => BitVec.ofNat 5 Map.UART_RX_INT_ID
  | .uartTx => BitVec.ofNat 5 Map.UART_TX_INT_ID

/-- No byte waits for the transmitter and none is on the line. -/
def txIdle (s : Devices) : Bool :=
  s.io.uart.txr.count == 0#4 && s.io.uart.txr.state == .idle

/-- The access of cycle `t` removes the condition of a device: it acknowledges the timer, reads the
last received byte, or puts a byte into the transmit FIFO. -/
def Removes (t : Nat) : Source → Prop
  | .timer =>
      (Io.timerIn (inp t).io).we = true ∧ (Io.timerIn (inp t).io).addr = Map.TIMER_INTCLR ∧
        (Io.timerIn (inp t).io).wdata.getLsbD 0 = true
  | .uartRx =>
      Uart.readDataReq (Io.uartIn (inp t).io) = true ∧
        (run r₀ inp (t + 1)).io.uart.rxr.count = 0#4
  | .uartTx => Uart.txPush (run r₀ inp t).io.uart (Io.uartIn (inp t).io) = true

/-- The condition of a device becomes true in cycle `t`: the timer expires with its interrupt
enabled, a received byte is stored, or the transmitter runs out of bytes. -/
def Arises (t : Nat) : Source → Prop
  | .timer =>
      (Io.timerIn (inp t).io).we = false ∧ Timer.timerStep (run r₀ inp t).io.timer = true ∧
        (run r₀ inp t).io.timer.timerValue = 1#32 ∧
        Timer.timerIntEnable (run r₀ inp t).io.timer = true
  | .uartRx =>
      Uart.rxStore (run r₀ inp t).io.uart = true ∧
        Uart.softResetReq (Io.uartIn (inp t).io) = false
  | .uartTx => txIdle (run r₀ inp t) = false ∧ txIdle (run r₀ inp (t + 1)) = true

/-- The order of the handler: the bus does one thing per cycle, a claimed source is completed only
after an access that removed its condition, and claimed again only after that complete. -/
structure Ordered : Prop where
  bus : ∀ t, (inp t).plicRe = false ∨ (inp t).plicWe = false
  removed : ∀ t src, claimedAt r₀ inp t = some (Source.id src) →
    ∀ c, t < c → writesComplete r₀ inp c src.id = true →
      ∃ w, t < w ∧ w < c ∧ Removes r₀ inp w src
  completed : ∀ t (src : Source), claimedAt r₀ inp t = some src.id →
    ∀ u, t < u → readsClaim r₀ inp u = true →
      ∃ c, t < c ∧ c < u ∧ writesComplete r₀ inp c src.id = true

/-- Cycle `w` removes the condition of the source claimed in cycle `t`, before its complete. -/
def RemovesClaim (t w : Nat) (src : Source) : Prop :=
  t < w ∧ Removes r₀ inp w src ∧
    ∀ c, t < c → c ≤ w → writesComplete r₀ inp c src.id = false

variable {r₀ inp}

theorem id_ne_zero (src : Source) : src.id ≠ 0#5 := by
  cases src <;> decide

/-! ## The levels of the devices -/

/-- The input of a source is the registered output of its device. -/
def level (s : Devices) : Source → Bool
  | .timer => s.io.timer.timerInt
  | .uartRx => s.io.uart.flags.rxInt
  | .uartTx => s.io.uart.flags.txInt

theorem line_eq_level (t : Nat) (src : Source) :
    (plicInputs r₀ inp t).peripheralInterrupts.getLsbD src.id.toNat =
      level (run r₀ inp t) src := by
  have hlow : ((inp t).externalInterrupts ++ 0#4).getLsbD src.id.toNat = false := by
    rw [BitVec.getLsbD_append]
    cases src <;> rfl
  have hbit (b : Bool) : (BitVec.ofBool b).setWidth 32 = if b then 1#32 else 0#32 := by
    cases b <;> rfl
  show (((inp t).externalInterrupts ++ 0#4) ||| Io.peripheralInterrupts (run r₀ inp t).io).getLsbD
    src.id.toNat = _
  rw [BitVec.getLsbD_or, hlow, Bool.false_or, Io.peripheralInterrupts, hbit, hbit, hbit]
  cases src
  all_goals simp only [level]
  all_goals cases (run r₀ inp t).io.timer.timerInt <;>
    cases (run r₀ inp t).io.uart.flags.rxInt <;> cases (run r₀ inp t).io.uart.flags.txInt <;> rfl

/-- The timer output falls in the cycle after the acknowledgement and rises with an expiry. -/
theorem arises_timer {w k : Nat} (hw : Removes r₀ inp w .timer) (hwk : w < k)
    (hk : level (run r₀ inp k) .timer = true) :
    ∃ m, w < m ∧ m < k ∧ Arises r₀ inp m .timer := by
  rcases hw with ⟨hwe, haddr, hbit⟩
  have hlow : level (run r₀ inp (w + 1)) .timer = false := by
    show (Timer.next (run r₀ inp w).io.timer (Io.timerIn (inp w).io)).timerInt = false
    simp only [Timer.next, hwe, if_true, Timer.write_intclr haddr, hbit, Bool.not_true,
      Bool.false_and]
  rcases Clocked.exists_rise (fun n => level (run r₀ inp n) .timer) hwk hlow hk with
    ⟨m, hwm, hmk, hm0, hm1⟩
  refine ⟨m, hwm, hmk, ?_⟩
  have hm0' : (run r₀ inp m).io.timer.timerInt = false := hm0
  have hm1' : (Timer.next (run r₀ inp m).io.timer (Io.timerIn (inp m).io)).timerInt = true := hm1
  exact Timer.expires_of_rise hm0' hm1'

/-- The receive output looks at the FIFO of the cycle before. -/
theorem arises_uartRx {w k : Nat} (hw : Removes r₀ inp w .uartRx) (hwk : w + 1 < k)
    (hk : level (run r₀ inp k) .uartRx = true) :
    ∃ m, w < m ∧ m < k ∧ Arises r₀ inp m .uartRx := by
  rcases Nat.exists_eq_add_of_lt hwk with ⟨d, rfl⟩
  have hcount : ((run r₀ inp (w + 1 + d)).io.uart.rxr.count != 0#4) = true := by
    have hint : (Uart.rxIntEn (run r₀ inp (w + 1 + d)).io.uart &&
        (run r₀ inp (w + 1 + d)).io.uart.rxr.count != 0#4) = true := hk
    exact (Bool.and_eq_true _ _ ▸ hint).2
  have hempty : ((run r₀ inp (w + 1)).io.uart.rxr.count != 0#4) = false := by
    rw [hw.2]
    rfl
  rcases Clocked.exists_rise (fun n => (run r₀ inp n).io.uart.rxr.count != 0#4)
    (Nat.le_add_right (w + 1) d) hempty hcount with ⟨m, hwm, hmk, hm0, hm1⟩
  refine ⟨m, hwm, by omega, ?_⟩
  have hm0' : (run r₀ inp m).io.uart.rxr.count = 0#4 := by simpa using hm0
  have hm1' : (run r₀ inp (m + 1)).io.uart.rxr.count ≠ 0#4 := by simpa using hm1
  exact Uart.stores_of_rise hm0' hm1'

/-- The transmit output looks at the transmitter of the cycle before. -/
theorem arises_uartTx {w k : Nat} (hw : Removes r₀ inp w .uartTx) (hwk : w + 1 < k)
    (hk : level (run r₀ inp k) .uartTx = true) :
    ∃ m, w < m ∧ m < k ∧ Arises r₀ inp m .uartTx := by
  rcases Nat.exists_eq_add_of_lt hwk with ⟨d, rfl⟩
  have hidle : txIdle (run r₀ inp (w + 1 + d)) = true := by
    have hint : (Uart.txIntEn (run r₀ inp (w + 1 + d)).io.uart &&
        txIdle (run r₀ inp (w + 1 + d))) = true := hk
    exact (Bool.and_eq_true _ _ ▸ hint).2
  have hbusy : txIdle (run r₀ inp (w + 1)) = false := by
    have hcount : (Uart.next (run r₀ inp w).io.uart (Io.uartIn (inp w).io)).txr.count ≠ 0#4 :=
      Uart.count_after_push hw
    show ((Uart.next (run r₀ inp w).io.uart (Io.uartIn (inp w).io)).txr.count == 0#4 && _) = false
    rw [beq_eq_false_iff_ne.mpr hcount, Bool.false_and]
  rcases Clocked.exists_rise (fun n => txIdle (run r₀ inp n)) (Nat.le_add_right (w + 1) d) hbusy
    hidle with ⟨m, hwm, hmk, hm0, hm1⟩
  exact ⟨m, hwm, by omega, hm0, hm1⟩

/-- A level that is high two cycles after a removal means that the condition has arisen again. -/
theorem arises_of_level {w k : Nat} {src : Source} (hw : Removes r₀ inp w src) (hwk : w + 1 < k)
    (hk : level (run r₀ inp k) src = true) : ∃ m, w < m ∧ m < k ∧ Arises r₀ inp m src := by
  cases src with
  | timer => exact arises_timer hw (Nat.lt_of_succ_lt hwk) hk
  | uartRx => exact arises_uartRx hw hwk hk
  | uartTx => exact arises_uartTx hw hwk hk

/-! ## From one claim to the next -/

/-- A complete write of a source in service is accepted. -/
theorem completed_of_write {t : Nat} {i : BitVec 5} (hi : i ≠ 0#5)
    (hw : writesComplete r₀ inp t i = true)
    (hs : (Plic.run (plicInputs r₀ inp) t).inServiceRegs.getLsbD i.toNat = true) :
    Plic.completed (Plic.run (plicInputs r₀ inp) t) (plicInputs r₀ inp t) = some i := by
  simp only [writesComplete, Bool.and_eq_true, beq_iff_eq] at hw
  rcases hw with ⟨⟨⟨hsel, hwe⟩, haddr⟩, hid⟩
  have hlt : i.toNat < Map.PLIC_NUM_INTERRUPTS := i.isLt
  have hsel' : (plicInputs r₀ inp t).plicSel = true := hsel
  have hwe' : (plicInputs r₀ inp t).plicWe = true := hwe
  have haddr' : (plicInputs r₀ inp t).plicAddr = Map.PLIC_CLAIM_BASE_ADDR := haddr
  unfold Plic.completed
  rw [hid, hsel', hwe', haddr', hs]
  simp [hi, hlt]

theorem completed_of_other {t : Nat} {i : BitVec 5} (hw : writesComplete r₀ inp t i = false) :
    Plic.completed (Plic.run (plicInputs r₀ inp) t) (plicInputs r₀ inp t) ≠ some i := by
  intro h
  simp only [Plic.completed] at h
  split at h
  next hc =>
    simp only [Bool.and_eq_true] at hc
    cases h
    have hall : writesComplete r₀ inp t (Plic.completeId (plicInputs r₀ inp t)) = true := by
      simp only [writesComplete, Bool.and_eq_true, beq_self_eq_true, and_true]
      exact hc.1
    rw [hall] at hw
    cases hw
  next => cases h

/-- Between the first complete after a claim and the next claim of the same source, the level of the
device has been high. -/
theorem level_of_reclaim (ho : Ordered r₀ inp) {t c u : Nat} {src : Source}
    (hclaim : claimedAt r₀ inp t = some src.id) (htc : t < c)
    (hw : writesComplete r₀ inp c src.id = true)
    (hfirst : ∀ v, t < v → v < c → writesComplete r₀ inp v src.id = false)
    (hcu : c < u) (hagain : claimedAt r₀ inp u = some src.id) :
    ∃ k, c < k ∧ k + 1 < u ∧ level (run r₀ inp k) src = true := by
  have hi := id_ne_zero src
  rw [claimedAt, run_plic] at hclaim hagain
  -- the source stays in service up to the complete, which is accepted
  have hstart := Plic.inService_after_claim (ho.bus t) hclaim hi
  have hserv := Plic.inService_kept (Nat.succ_le_of_lt htc) hi hstart
    (fun v htv hvc => completed_of_other (hfirst v htv hvc))
  have hdone := completed_of_write hi hw hserv
  have hclear := Plic.pending_after_complete hdone
  -- the next claim finds it pending again, so its input has been latched
  rcases Plic.claimed_stale hagain with ⟨v, rfl, -, hpend, -⟩
  have hcv : c + 1 ≤ v := by
    rcases Nat.lt_or_ge c v with hlt | hge
    · exact hlt
    · have hvc : v = c := by omega
      rw [hvc, Plic.pending_of_inService hserv] at hpend
      cases hpend
  rcases Plic.line_of_pending hcv hclear hpend with ⟨k, hck, hkv, hline⟩
  rw [line_eq_level] at hline
  exact ⟨k, hck, by omega, hline⟩

/-- Every claim of a device that is claimed again was removed, and after each access that removed it
the condition of the device has become true again before the next claim. -/
theorem no_spurious_interrupt (r₀ : Io.Regs) (inp : Nat → DevicesIn) (ho : Ordered r₀ inp)
    (t u : Nat) (src : Source) (htu : t < u) (hclaim : claimedAt r₀ inp t = some src.id)
    (hagain : claimedAt r₀ inp u = some src.id) :
    (∃ w, w < u ∧ RemovesClaim r₀ inp t w src) ∧
      ∀ w, RemovesClaim r₀ inp t w src → ∃ m, w < m ∧ m < u ∧ Arises r₀ inp m src := by
  have hread : readsClaim r₀ inp u = true := (Plic.claimed_eq_some.mp hagain).1
  -- the first complete after the claim
  have hex : ∃ c, t < c ∧ writesComplete r₀ inp c src.id = true := by
    rcases ho.completed t src hclaim u htu hread with ⟨c, htc, -, hw⟩
    exact ⟨c, htc, hw⟩
  have hspec := Nat.find_spec hex
  have hmin : ∀ v, t < v → v < Nat.find hex → writesComplete r₀ inp v src.id = false := by
    intro v htv hv
    have hnot := Nat.find_min hex hv
    cases hwv : writesComplete r₀ inp v src.id with
    | false => rfl
    | true => exact absurd ⟨htv, hwv⟩ hnot
  have hcu : Nat.find hex < u := by
    rcases ho.completed t src hclaim u htu hread with ⟨c, htc, hcu, hw⟩
    exact Nat.lt_of_le_of_lt (Nat.find_min' hex ⟨htc, hw⟩) hcu
  constructor
  · rcases ho.removed t src hclaim _ hspec.1 hspec.2 with ⟨w, htw, hwc, hrem⟩
    refine ⟨w, Nat.lt_trans hwc hcu, htw, hrem, ?_⟩
    intro c htc hcw
    exact hmin c htc (Nat.lt_of_le_of_lt hcw hwc)
  · rintro w ⟨htw, hrem, hnone⟩
    -- a removal before the complete is at least one cycle before it
    have hwc : w < Nat.find hex := by
      rcases Nat.lt_or_ge w (Nat.find hex) with hlt | hge
      · exact hlt
      · have hno := hnone _ hspec.1 hge
        rw [hspec.2] at hno
        cases hno
    rcases level_of_reclaim ho hclaim hspec.1 hspec.2 hmin hcu hagain with ⟨k, hck, hku, hlevel⟩
    rcases arises_of_level hrem (by omega) hlevel with ⟨m, hwm, hmk, harise⟩
    exact ⟨m, hwm, by omega, harise⟩

/-! ### A timer that is claimed twice -/

def quiet : DevicesIn :=
  { io := ⟨false, false, 0#4, 0#32, 0#32, false, true⟩
    plicSel := false
    plicWe := false
    plicRe := false
    plicAddr := 0#32
    plicWdata := 0#32
    externalInterrupts := 0#28 }

def timerWrite (addr : BitVec 16) (data : Word) : DevicesIn :=
  { quiet with
    io := ⟨true, false, 0b1111#4, Map.TIMER_BASE_ADDR + addr.setWidth 32, data, false, true⟩ }

def plicWrite (addr data : Word) : DevicesIn :=
  { quiet with plicSel := true, plicWe := true, plicAddr := addr, plicWdata := data }

def plicRead (addr : Word) : DevicesIn :=
  { quiet with plicSel := true, plicRe := true, plicAddr := addr }

/-- A periodic timer with `N = 4`; its interrupt is claimed in cycle 8, acknowledged in cycle 9 and
completed in cycle 10, and claimed again in cycle 13. -/
def servedTimer : Nat → DevicesIn
  | 0 => timerWrite Map.TIMER_LOAD 4#32
  | 1 => timerWrite Map.TIMER_CTRL 0b1111#32
  | 2 => plicWrite (Map.PLIC_PRIORITY_BASE_ADDR + 4#32) 1#32
  | 3 => plicWrite Map.PLIC_ENABLE_BASE_ADDR 2#32
  | 8 => plicRead Map.PLIC_CLAIM_BASE_ADDR
  | 9 => timerWrite Map.TIMER_INTCLR 1#32
  | 10 => plicWrite Map.PLIC_CLAIM_BASE_ADDR 1#32
  | 13 => plicRead Map.PLIC_CLAIM_BASE_ADDR
  | _ => quiet

theorem readsClaim_servedTimer {r₀ : Io.Regs} {t : Nat}
    (h : readsClaim r₀ servedTimer t = true) : t = 8 ∨ t = 13 := by
  have hport : ((servedTimer t).plicSel && (servedTimer t).plicRe &&
      (servedTimer t).plicAddr == Map.PLIC_CLAIM_BASE_ADDR) = true := h
  unfold servedTimer at hport
  split at hport
  next => cases hport
  next => cases hport
  next => cases hport
  next => cases hport
  next => exact Or.inl rfl
  next => cases hport
  next => cases hport
  next => exact Or.inr rfl
  next => cases hport

theorem writesComplete_servedTimer {r₀ : Io.Regs} {t : Nat} {i : BitVec 5}
    (h : writesComplete r₀ servedTimer t i = true) : t = 2 ∨ t = 3 ∨ t = 10 := by
  have hport : ((servedTimer t).plicSel && (servedTimer t).plicWe) = true := by
    simp only [writesComplete, Bool.and_eq_true] at h
    simpa using h.1.1
  unfold servedTimer at hport
  split at hport
  next => cases hport
  next => cases hport
  next => exact Or.inl rfl
  next => exact Or.inr (Or.inl rfl)
  next => cases hport
  next => cases hport
  next => exact Or.inr (Or.inr rfl)
  next => cases hport
  next => cases hport

theorem claimed8_servedTimer : claimedAt Soc.zero.io servedTimer 8 = some Source.timer.id := by
  decide +kernel

theorem removes9_servedTimer : Removes Soc.zero.io servedTimer 9 .timer :=
  ⟨by decide, by decide, by decide⟩

theorem ordered_servedTimer : Ordered Soc.zero.io servedTimer := by
  -- the run claims once before it completes, and once after
  have hsource : ∀ t src, claimedAt Soc.zero.io servedTimer t = some (Source.id src) →
      t = 13 ∨ (t = 8 ∧ src = .timer) := by
    intro t src h
    rcases readsClaim_servedTimer (Plic.claimed_eq_some.mp h).1 with rfl | rfl
    · refine Or.inr ⟨rfl, ?_⟩
      have hid := Option.some.inj (claimed8_servedTimer.symm.trans h)
      cases src with
      | timer => rfl
      | uartRx => exact absurd hid (by decide)
      | uartTx => exact absurd hid (by decide)
    · exact Or.inl rfl
  refine ⟨?_, ?_, ?_⟩
  · intro t
    unfold servedTimer
    repeat' split
    all_goals decide
  · intro t src h c htc hw
    have hc := writesComplete_servedTimer hw
    rcases hsource t src h with rfl | ⟨rfl, rfl⟩
    · omega
    · exact ⟨9, by decide, by omega, removes9_servedTimer⟩
  · intro t src h u htu hread
    have hu := readsClaim_servedTimer hread
    rcases hsource t src h with rfl | ⟨rfl, rfl⟩
    · omega
    · exact ⟨10, by decide, by omega, by decide +kernel⟩

/-- Between the acknowledgement in cycle 9 and the claim in cycle 13 the timer has expired again. -/
theorem no_spurious_interrupt_timer :
    ∃ m, 9 < m ∧ m < 13 ∧ Arises Soc.zero.io servedTimer m .timer := by
  refine (no_spurious_interrupt Soc.zero.io servedTimer ordered_servedTimer 8 13 .timer (by decide)
    claimed8_servedTimer (by decide +kernel)).2 9 ⟨by decide, removes9_servedTimer, ?_⟩
  intro c h8 h9
  have hc : c = 9 := by omega
  rw [hc]
  decide +kernel

end Devices
end RiscvCpu
