import RiscvCpu.Soc.MyCpu

/-!
# Load — what a load of the core returns

The data memory answers a request combinationally, so the bridge captures the word the load
addresses.  A peripheral and the interrupt controller answer from a register one cycle later, and the
bridge captures that register in the cycle of the request: it returns what the port was left with by
the accesses before.  This module says exactly which value that is, and so which loads are right.
-/

namespace RiscvCpu
namespace Soc

/-- The bridge routes the request somewhere. -/
def Decoded (q : DmemReq) : Prop :=
  Bridge.ramSel q = true ∨ Bridge.ioRegionSel q = true ∨ Bridge.plicRegionSel q = true

instance (q : DmemReq) : Decidable (Decoded q) := by
  unfold Decoded
  infer_instance

/-- The word or register a load addresses, as it stands in the cycle of the load. -/
def addressed (s : Soc) (q : DmemReq) : Word :=
  if Bridge.ramSel q then s.ram (DataRam.index q.addr)
  else if Bridge.plicRegionSel q then Plic.readData s.plic q.addr
  else if Map.page q.addr == Map.page Map.UART_BASE_ADDR then
    Uart.readReg s.io.uart (q.addr.extractLsb' 0 16)
  else if Map.page q.addr == Map.page Map.TIMER_BASE_ADDR then
    Timer.readReg s.io.timer (q.addr.extractLsb' 0 16)
  else if Map.page q.addr == Map.page Map.LEDS_BASE_ADDR then s.io.led
  else 0#32

/-- The request is a load from a peripheral. -/
def ioLoad (q : DmemReq) : Bool := Bridge.cpuRead q && Bridge.ioRegionSel q

/-- The request is a load from the interrupt controller. -/
def plicLoad (q : DmemReq) : Bool := Bridge.cpuRead q && Bridge.plicRegionSel q

variable (s₀ : Soc) (inp : Nat → SocIn)

/-- What the peripheral port was left with before cycle `t`: nothing unless the cycle before loaded
from a peripheral; then the value that load addressed, or for the LED register its value now. -/
def ioLeft : Nat → Word
  | 0 => 0#32
  | t + 1 =>
      if ioLoad (inp t).req then
        if Map.page (inp t).req.addr == Map.page Map.LEDS_BASE_ADDR then
          (run s₀ inp (t + 1)).io.led
        else addressed (run s₀ inp t) (inp t).req
      else 0#32

/-- What the interrupt controller was left with before cycle `t`: the value addressed by the last
load from it. -/
def plicLeft : Nat → Word
  | 0 => 0#32
  | t + 1 =>
      if plicLoad (inp t).req then addressed (run s₀ inp t) (inp t).req else plicLeft t

/-! ## One request -/

theorem wen_of_cpuRead {q : DmemReq} (h : Bridge.cpuRead q = true) :
    q.en = true ∧ q.wen = 0#4 := by
  simpa [Bridge.cpuRead] using h

/-- The three windows of the memory lie outside the peripheral pages. -/
theorem not_device_of_ramSel {q : DmemReq} (h : Bridge.ramSel q = true) :
    Bridge.ioRegionSel q = false ∧ Bridge.plicRegionSel q = false := by
  have hpage := Map.page_toNat q.addr
  have htop : (q.addr.extractLsb' 28 4).toNat = q.addr.toNat / 2 ^ 28 := by
    simp only [BitVec.extractLsb'_toNat, Nat.shiftRight_eq_div_pow]
    omega
  have hext : (q.addr.extractLsb' 18 14).toNat = q.addr.toNat / 2 ^ 18 := by
    simp only [BitVec.extractLsb'_toNat, Nat.shiftRight_eq_div_pow]
    omega
  simp only [Bridge.ramSel, Bridge.ramBootSel, Bridge.ramCoremarkSel, Bridge.ramExtSel,
    Bool.and_eq_true, Bool.or_eq_true, beq_iff_eq, ← BitVec.toNat_inj, hpage, htop, hext,
    BitVec.toNat_ofNat] at h
  simp only [Bridge.ioRegionSel, Bridge.plicRegionSel, Map.page_uart, Map.page_timer,
    Map.page_leds, Bool.and_eq_false_iff, Bool.or_eq_false_iff, beq_eq_false_iff_ne, ne_eq,
    ← BitVec.toNat_inj, hpage, BitVec.toNat_ofNat]
  omega

theorem page_of_ioRegionSel {q : DmemReq} (h : Bridge.ioRegionSel q = true) :
    q.en = true ∧ (Map.page q.addr = 0x8001#16 ∨ Map.page q.addr = 0x8002#16 ∨
      Map.page q.addr = 0x8003#16) := by
  simpa [Bridge.ioRegionSel, or_assoc] using h

/-- The interrupt controller is not a peripheral of `IO`. -/
theorem not_plic_of_ioRegionSel {q : DmemReq} (h : Bridge.ioRegionSel q = true) :
    Bridge.plicRegionSel q = false := by
  rcases (page_of_ioRegionSel h).2 with hp | hp | hp <;> simp [Bridge.plicRegionSel, hp]

theorem not_io_of_plicRegionSel {q : DmemReq} (h : Bridge.plicRegionSel q = true) :
    Bridge.ioRegionSel q = false := by
  cases hio : Bridge.ioRegionSel q with
  | false => rfl
  | true => simp [not_plic_of_ioRegionSel hio] at h

theorem not_ram_of_ioRegionSel {q : DmemReq} (h : Bridge.ioRegionSel q = true) :
    Bridge.ramSel q = false := by
  cases hram : Bridge.ramSel q with
  | false => rfl
  | true => simp [(not_device_of_ramSel hram).1] at h

theorem not_ram_of_plicRegionSel {q : DmemReq} (h : Bridge.plicRegionSel q = true) :
    Bridge.ramSel q = false := by
  cases hram : Bridge.ramSel q with
  | false => rfl
  | true => simp [(not_device_of_ramSel hram).2] at h

/-- A load writes no peripheral. -/
theorem ioWe_of_cpuRead {i : SocIn} (h : Bridge.cpuRead i.req = true) :
    Io.ioWe (ioIn i) = false := by
  have hwen := (wen_of_cpuRead h).2
  simp [Io.ioWe, ioIn, Bridge.ioWen, Bridge.cpuWrite, hwen]

/-! ## What the ports hold -/

theorem readTarget_of_ioLoad {s : Soc} {i : SocIn} (h : ioLoad i.req = true) :
    (next s i).io.readTargetR =
      if Map.page i.req.addr == 0x8001#16 then .uart
      else if Map.page i.req.addr == 0x8002#16 then .timer
      else .led := by
  have hparts : Bridge.cpuRead i.req = true ∧ Bridge.ioRegionSel i.req = true := by
    simpa [ioLoad] using h
  rcases hparts with ⟨hread, hsel⟩
  rcases (page_of_ioRegionSel hsel).2 with hp | hp | hp <;>
    simp [next, Io.next, Io.uartSel, Io.timerSel, Io.ledSel, ioIn, Bridge.ioRe, hread, hsel, hp]

theorem readTarget_of_not_ioLoad {s : Soc} {i : SocIn} (h : ioLoad i.req = false) :
    (next s i).io.readTargetR = .none := by
  have hre : (ioIn i).ioRe = false := by
    simpa [ioLoad, ioIn, Bridge.ioRe, Bool.and_comm] using h
  simp [next, Io.next, hre]

theorem uart_rdata_of_read {r : Uart.Regs} {p : Uart.In} (hre : p.re = true)
    (hwe : p.we = false) : (Uart.next r p).rdata = Uart.readReg r p.addr := by
  -- the soft reset clears the answer, but it needs a write
  simp [Uart.next, Uart.softResetReq, Uart.writeCtrlReq, hre, hwe]

theorem timer_rdata_of_read {r : Timer.Regs} {p : DevIn} (hre : p.re = true) :
    (Timer.next r p).rdata = Timer.readReg r p.addr := by
  simp [Timer.next, hre]

/-- The peripheral port after one cycle. -/
theorem next_ioRdata (s : Soc) (i : SocIn) :
    Io.ioRdata (next s i).io =
      if ioLoad i.req then
        if Map.page i.req.addr == Map.page Map.LEDS_BASE_ADDR then (next s i).io.led
        else addressed s i.req
      else 0#32 := by
  cases hload : ioLoad i.req with
  | false => simp [Io.ioRdata, readTarget_of_not_ioLoad hload]
  | true =>
      have hparts : Bridge.cpuRead i.req = true ∧ Bridge.ioRegionSel i.req = true := by
        simpa [ioLoad] using hload
      rcases hparts with ⟨hread, hsel⟩
      have htarget := readTarget_of_ioLoad (s := s) hload
      have hplic := not_plic_of_ioRegionSel hsel
      have hram := not_ram_of_ioRegionSel hsel
      have hwe := ioWe_of_cpuRead hread
      -- UART, timer, LEDs
      rcases (page_of_ioRegionSel hsel).2 with hp | hp | hp
      · have hre : (Io.uartIn (ioIn i)).re = true := by
          simp [Io.uartIn, Io.uartSel, ioIn, Bridge.ioRe, hread, hsel, hp]
        have hw : (Io.uartIn (ioIn i)).we = false := by simp [Io.uartIn, hwe]
        have hdata : (next s i).io.uart.rdata =
            Uart.readReg s.io.uart (i.req.addr.extractLsb' 0 16) := uart_rdata_of_read hre hw
        simpa [Io.ioRdata, htarget, addressed, hp, hplic, hram] using hdata
      · have hre : (Io.timerIn (ioIn i)).re = true := by
          simp [Io.timerIn, Io.timerSel, ioIn, Bridge.ioRe, hread, hsel, hp]
        have hdata : (next s i).io.timer.rdata =
            Timer.readReg s.io.timer (i.req.addr.extractLsb' 0 16) := timer_rdata_of_read hre
        simpa [Io.ioRdata, htarget, addressed, hp, hplic, hram] using hdata
      · simp [Io.ioRdata, htarget, hp]

/-- The interrupt controller's port after one cycle. -/
theorem next_plicRdata (s : Soc) (i : SocIn) :
    (next s i).plic.plicRdata =
      if plicLoad i.req then addressed s i.req else s.plic.plicRdata := by
  have hread : ((plicIn s i).plicSel && (plicIn s i).plicRe) = plicLoad i.req := by
    simp only [plicIn, Bridge.plicRe, plicLoad]
    cases Bridge.plicRegionSel i.req <;> cases Bridge.cpuRead i.req <;> rfl
  have hnext : (next s i).plic.plicRdata =
      if plicLoad i.req then Plic.readData s.plic i.req.addr else s.plic.plicRdata := by
    simp only [next, Plic.next, hread]
    rfl
  rw [hnext]
  by_cases hload : plicLoad i.req = true
  · have hsel : Bridge.plicRegionSel i.req = true := by
      simp only [plicLoad, Bool.and_eq_true] at hload
      exact hload.2
    simp [hload, addressed, hsel, not_ram_of_plicRegionSel hsel]
  · simp [hload]

/-- In every cycle of every run the two ports hold what they were left with. -/
theorem ports_hold (s₀ : Soc) (inp : Nat → SocIn) (t : Nat) :
    Io.ioRdata (run s₀ inp t).io = ioLeft s₀ inp t ∧
      (run s₀ inp t).plic.plicRdata = plicLeft s₀ inp t := by
  induction t with
  | zero => exact ⟨rfl, rfl⟩
  | succ t ih => exact ⟨next_ioRdata _ _, by rw [plicLeft, ← ih.2]; exact next_plicRdata _ _⟩

/-! ## What a load returns -/

/-- One request through the bridge. -/
theorem next_cpuDmemRdata (s : Soc) (i : SocIn) (hload : Bridge.cpuRead i.req = true)
    (hdec : Decoded i.req) :
    cpuDmemRdata (next s i) =
      if Bridge.ramSel i.req then addressed s i.req
      else if Bridge.ioRegionSel i.req then Io.ioRdata s.io
      else s.plic.plicRdata := by
  have hen := (wen_of_cpuRead hload).1
  rcases hdec with hsel | hsel | hsel
  · simp [cpuDmemRdata, Bridge.cpuDmemRdata, next, Bridge.next, hen, hsel, hload, answers,
      DataRam.rdata, addressed]
  · simp [cpuDmemRdata, Bridge.cpuDmemRdata, next, Bridge.next, hen, hsel, hload, answers,
      not_ram_of_ioRegionSel hsel]
  · simp [cpuDmemRdata, Bridge.cpuDmemRdata, next, Bridge.next, hen, hsel, hload, answers,
      not_ram_of_plicRegionSel hsel, not_io_of_plicRegionSel hsel]

/-- A load returns what it addressed exactly when it addressed the memory, or a register that
happens to hold what its port was left with by the accesses before. -/
theorem load_returns_addressed_iff (s₀ : Soc) (inp : Nat → SocIn) (t : Nat)
    (hload : Bridge.cpuRead (inp t).req = true) (hdec : Decoded (inp t).req) :
    cpuDmemRdata (run s₀ inp (t + 1)) = addressed (run s₀ inp t) (inp t).req ↔
      Bridge.ramSel (inp t).req = true ∨
      (Bridge.ioRegionSel (inp t).req = true ∧
        ioLeft s₀ inp t = addressed (run s₀ inp t) (inp t).req) ∨
      (Bridge.plicRegionSel (inp t).req = true ∧
        plicLeft s₀ inp t = addressed (run s₀ inp t) (inp t).req) := by
  have hports := ports_hold s₀ inp t
  -- each target returns what it has, and the three regions exclude each other
  have hret : cpuDmemRdata (run s₀ inp (t + 1)) =
      if Bridge.ramSel (inp t).req then addressed (run s₀ inp t) (inp t).req
      else if Bridge.ioRegionSel (inp t).req then ioLeft s₀ inp t
      else plicLeft s₀ inp t := by
    rw [← hports.1, ← hports.2]
    exact next_cpuDmemRdata _ _ hload hdec
  rw [hret]
  rcases hdec with hsel | hsel | hsel
  · simp [hsel]
  · simp [hsel, not_ram_of_ioRegionSel hsel, not_plic_of_ioRegionSel hsel]
  · simp [hsel, not_ram_of_plicRegionSel hsel, not_io_of_plicRegionSel hsel]

/-! ## A load that returns something else -/

/-- A power-up state with every register at zero. -/
def zero : Soc :=
  { bridge := Bridge.reset
    ram := fun _ => 0#32
    io :=
      { uart :=
          Uart.reset
            { uartCtrl := 0#32
              uartBaud := 0#32
              rdata := 0#32
              overflowError := false
              line := ⟨false, false, false, false, false, false, 0#32, 0#32⟩
              txr := ⟨fun _ => 0#8, 0#3, 0#3, 0#4, .idle, 0#3, 0#8, false⟩
              rxr := ⟨fun _ => 0#8, 0#3, 0#3, 0#4, .idle, 0#3, 0#8⟩
              flags := ⟨false, false, false, false, false, false⟩ }
        timer := Timer.reset
        led := 0#32
        readTargetR := .none }
    plic := Plic.reset }

/-- `sw` of 1 to the LED register in cycle 0, `lw` of the LED register in every cycle after. -/
def ledReadBack (t : Nat) : SocIn :=
  { req :=
      { en := true
        addr := Map.LEDS_BASE_ADDR
        wen := if t = 0 then 0xF#4 else 0#4
        wdata := 1#32 }
    clkUart := false
    uartRx := true
    externalInterrupts := 0#32 }

/-- The first load after the store returns 0, not the 1 that was stored. -/
theorem load_not_always_addressed :
    Bridge.cpuRead (ledReadBack 1).req = true ∧ Decoded (ledReadBack 1).req ∧
      addressed (run zero ledReadBack 1) (ledReadBack 1).req = 1#32 ∧
      cpuDmemRdata (run zero ledReadBack 2) = 0#32 := by
  decide +kernel

/-- The second load, one cycle later, returns the LED register. -/
theorem load_returns_addressed_iff_second :
    cpuDmemRdata (run zero ledReadBack 3) =
      addressed (run zero ledReadBack 2) (ledReadBack 2).req :=
  (load_returns_addressed_iff zero ledReadBack 2 (by decide) (by decide)).mpr
    (.inr (.inl ⟨by decide, by decide +kernel⟩))

end Soc
end RiscvCpu
