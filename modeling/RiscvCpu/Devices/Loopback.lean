import RiscvCpu.Devices.Fifo
import RiscvCpu.Lib.Serial

/-!
# Loopback — the receiver reads what the transmitter sends

Transmitter and receiver count the same divisor, so they do not drift apart: from the falling edge of
a start bit on, both are at a fixed place of the frame.  The proof carries the age of the frame on
the line; the transmitter is in bit `q` at count `c`, the receiver in bit `m` at another count, and
the receiver's counter wraps, seen through the synchroniser, inside bit `m` of the transmitter.
-/

namespace RiscvCpu
namespace Uart

open Serial

/-- Enabled in baud mode with divisor `b`. -/
structure Configured (b : Nat) (r : Regs) : Prop where
  en : uartEn r = true
  boundary : boundaryOn r = true
  baud : r.uartBaud.toNat = b

variable {b : Nat} {r : Regs} {p : In}

/-! ## The two counters -/

theorem txTick_eq (hc : Configured b r) : txTick r = decide (b ≤ r.line.baudCnt.toNat) := by
  simp [txTick, baudTick, hc.en, hc.boundary, BitVec.le_def, hc.baud]

theorem rxTick_eq (hc : Configured b r) : rxTick r = decide (b ≤ r.line.rxBaudCnt.toNat) := by
  simp [rxTick, rxBaudTick, hc.en, hc.boundary, BitVec.le_def, hc.baud]

/-- A counter below the divisor does not wrap around the word. -/
theorem count_succ (hc : Configured b r) {x : Word} (h : x.toNat < b) :
    (x + 1#32).toNat = x.toNat + 1 := by
  have hb := hc.baud
  have hlt := r.uartBaud.isLt
  rw [BitVec.toNat_add, BitVec.toNat_ofNat]
  omega

theorem next_baudCnt (hc : Configured b r) (hreset : softResetReq p = false) :
    (next r p).line.baudCnt.toNat =
      if b ≤ r.line.baudCnt.toNat then 0 else r.line.baudCnt.toNat + 1 := by
  have hle : r.uartBaud ≤ r.line.baudCnt ↔ b ≤ r.line.baudCnt.toNat := by
    rw [BitVec.le_def, hc.baud]
  simp only [next, nextLine, hc.en, hc.boundary, hreset, Bool.not_true, Bool.or_self,
    Bool.false_eq_true, if_false, hle]
  split
  next => rfl
  next hlt => exact count_succ hc (Nat.lt_of_not_le hlt)

/-- Outside the idle state the receiver's counter runs like the transmitter's. -/
theorem next_rxBaudCnt (hc : Configured b r) (hreset : softResetReq p = false)
    (hstate : r.rxr.state ≠ .idle) :
    (next r p).line.rxBaudCnt.toNat =
      if b ≤ r.line.rxBaudCnt.toNat then 0 else r.line.rxBaudCnt.toNat + 1 := by
  have hle : r.uartBaud ≤ r.line.rxBaudCnt ↔ b ≤ r.line.rxBaudCnt.toNat := by
    rw [BitVec.le_def, hc.baud]
  have hidle : (r.rxr.state == RxState.idle) = false := by simpa using hstate
  simp only [next, nextLine, hc.en, hc.boundary, hreset, hidle, Bool.not_true, Bool.or_self,
    Bool.false_and, Bool.false_eq_true, if_false, hle]
  split
  next => rfl
  next hlt => exact count_succ hc (Nat.lt_of_not_le hlt)

/-- A falling edge starts the receiver half a bit before its first sample. -/
theorem next_rxBaudCnt_of_falling (hc : Configured b r) (hreset : softResetReq p = false)
    (hstate : r.rxr.state = .idle) (hfall : rxFalling r = true) :
    (next r p).line.rxBaudCnt.toNat = b / 2 := by
  simp only [next, nextLine, hc.en, hc.boundary, hreset, hstate, hfall, Bool.not_true,
    Bool.or_self, Bool.false_eq_true, if_false, beq_self_eq_true, Bool.and_self, if_true]
  rw [BitVec.toNat_ushiftRight, hc.baud, Nat.shiftRight_eq_div_pow, Nat.pow_one]

/-! ## The transmitter -/

/-- The state of the transmitter in bit `q` of a frame; after the stop bit it is idle. -/
def txSlotState (q : Nat) : TxState :=
  if q = 0 then .start else if q ≤ 8 then .data else if q = 9 then .stop else .idle

theorem txSlotState_data {j : Nat} (hj : j < 8) : txSlotState (j + 1) = .data := by
  simp [txSlotState, Nat.succ_le_of_lt hj]

theorem txSlotState_idle_iff {q : Nat} : txSlotState q = .idle ↔ 9 < q := by
  rcases Nat.lt_or_ge 9 q with hlt | hle
  · have h0 : q ≠ 0 := by omega
    have h8 : ¬ q ≤ 8 := by omega
    have h9 : q ≠ 9 := by omega
    simp [txSlotState, h0, h8, h9, hlt]
  · have hcases : q = 0 ∨ (∃ j, j < 8 ∧ q = j + 1) ∨ q = 9 := by
      rcases q with - | j
      · exact Or.inl rfl
      · rcases Nat.lt_or_ge j 8 with hj | hj
        · exact Or.inr (Or.inl ⟨j, hj, rfl⟩)
        · exact Or.inr (Or.inr (by omega))
    rcases hcases with rfl | ⟨j, hj, rfl⟩ | rfl
    · simp [txSlotState]
    · rw [txSlotState_data hj]
      simp only [reduceCtorEq, false_iff]
      omega
    · simp [txSlotState]

/-- The transmitter sends bit `q` of the frame of `x` and its counter stands at `c`. -/
structure Sending (b : Nat) (x : BitVec 8) (q c : Nat) (r : Regs) : Prop where
  slot : q ≤ 10
  phase : c ≤ b
  count : r.line.baudCnt.toNat = c
  state : r.txr.state = txSlotState q
  bit : ∀ j, j < 8 → q = j + 1 → r.txr.bitIdx.toNat = j
  shift : q ≤ 8 → r.txr.shift = x
  level : r.txr.tx = frameBit x q

/-- The transmitter is busy, or its counter has not reached the divisor: it takes no byte. -/
theorem txPop_of_sending {x : BitVec 8} {q c : Nat} (hc : Configured b r)
    (h : Sending b x q c r) (hq : q ≤ 9 ∨ c < b) : txPop r = false := by
  rcases hq with hq | hlt
  · have hbusy : (r.txr.state == TxState.idle) = false := by
      rw [h.state, beq_eq_false_iff_ne, ne_eq, txSlotState_idle_iff]
      omega
    simp [txPop, hbusy]
  · have htick : txTick r = false := by
      rw [txTick_eq hc, h.count]
      simpa using hlt
    simp [txPop, htick]

/-- Between two ticks only the counter moves. -/
theorem sending_count {x : BitVec 8} {q c : Nat} (hc : Configured b r)
    (hreset : softResetReq p = false) (h : Sending b x q c r) (hlt : c < b) :
    Sending b x q (c + 1) (next r p) := by
  have htick : txTick r = false := by
    rw [txTick_eq hc, h.count]
    simpa using hlt
  have hpop := txPop_of_sending hc h (Or.inr hlt)
  have hcount := @next_baudCnt b r p hc hreset
  rw [h.count, if_neg (Nat.not_le_of_lt hlt)] at hcount
  -- the state machine stands still; an idle transmitter drives the line high
  have hkeep : nextTxState r = (r.txr.state, r.txr.bitIdx, r.txr.tx) := by
    unfold nextTxState
    cases hst : r.txr.state with
    | idle =>
        have hq : 9 < q := txSlotState_idle_iff.mp (h.state.symm.trans hst)
        rw [hpop, h.level, frameBit_stop x (by omega)]
        rfl
    | start => simp [htick]
    | data => simp [htick]
    | stop => simp [htick]
  have hregs : (next r p).txr.state = r.txr.state ∧ (next r p).txr.bitIdx = r.txr.bitIdx ∧
      (next r p).txr.shift = r.txr.shift ∧ (next r p).txr.tx = r.txr.tx := by
    simp [next, nextTx, hreset, hkeep, hpop]
  rcases hregs with ⟨hstate, hbit, hshift, htx⟩
  exact
    { slot := h.slot
      phase := hlt
      count := hcount
      state := hstate.trans h.state
      bit := fun j hj hq => by rw [hbit]; exact h.bit j hj hq
      shift := fun hq => hshift.trans (h.shift hq)
      level := htx.trans h.level }

/-- A bit index before the last one. -/
theorem bitIdx_before {i : BitVec 3} {j : Nat} (h : i.toNat = j) (hj : j < 7) :
    (i == 7#3) = false ∧ (i + 1#3).toNat = j + 1 := by
  constructor
  · rw [beq_eq_false_iff_ne, ne_eq, ← BitVec.toNat_inj, h]
    simp
    omega
  · rw [BitVec.toNat_add, h, BitVec.toNat_ofNat]
    omega

theorem bitIdx_last {i : BitVec 3} (h : i.toNat = 7) : (i == 7#3) = true := by
  rw [beq_iff_eq, ← BitVec.toNat_inj, h]
  rfl

/-- On a tick the transmitter goes from one slot of the frame to the next. -/
theorem nextTxState_of_tick {x : BitVec 8} {q : Nat} (h : Sending b x q b r) (hq : q ≤ 9)
    (htick : txTick r = true) :
    ∃ i, nextTxState r = (txSlotState (q + 1), i, frameBit x (q + 1)) ∧
      (q < 8 → i.toNat = q) := by
  rcases Nat.eq_zero_or_pos q with rfl | hpos
  · -- the start bit is followed by data bit 0
    have hst : r.txr.state = .start := h.state
    have hx := h.shift (by omega)
    refine ⟨0#3, ?_, fun _ => rfl⟩
    rw [txSlotState_data (by decide), frameBit_data x (by decide)]
    simp [nextTxState, hst, htick, hx]
  · rcases Nat.lt_or_ge q 9 with hlt | hge
    · rcases Nat.exists_eq_add_of_lt hpos with ⟨j, hj⟩
      have hj' : q = j + 1 := by omega
      subst hj'
      have hj8 : j < 8 := by omega
      have hst : r.txr.state = .data := h.state.trans (txSlotState_data hj8)
      have hidx := h.bit j hj8 rfl
      have hx := h.shift (by omega)
      rcases Nat.lt_or_ge j 7 with hj7 | hj7
      · -- a data bit is followed by the next one
        rcases bitIdx_before hidx hj7 with ⟨hne, hsucc⟩
        refine ⟨r.txr.bitIdx + 1#3, ?_, fun _ => hsucc⟩
        rw [txSlotState_data (by omega), frameBit_data x (by omega)]
        simp only [nextTxState, hst, htick, if_true, hne, Bool.false_eq_true, if_false, hsucc, hx]
      · -- the last data bit is followed by the stop bit
        have hj7' : j = 7 := by omega
        subst hj7'
        refine ⟨r.txr.bitIdx, ?_, fun hlt8 => by omega⟩
        rw [frameBit_stop x (by omega)]
        simp [nextTxState, hst, htick, bitIdx_last hidx, txSlotState]
    · -- the stop bit is followed by the idle line
      have hq9 : q = 9 := by omega
      subst hq9
      have hst : r.txr.state = .stop := h.state
      refine ⟨r.txr.bitIdx, ?_, fun hlt8 => by omega⟩
      rw [frameBit_stop x (by omega)]
      simp [nextTxState, hst, htick, txSlotState]

/-- A tick moves the transmitter to the next bit. -/
theorem sending_tick {x : BitVec 8} {q : Nat} (hc : Configured b r)
    (hreset : softResetReq p = false) (h : Sending b x q b r) (hq : q ≤ 9) :
    Sending b x (q + 1) 0 (next r p) := by
  have htick : txTick r = true := by
    rw [txTick_eq hc, h.count]
    simp
  have hpop := txPop_of_sending hc h (Or.inl hq)
  have hcount := @next_baudCnt b r p hc hreset
  rw [h.count, if_pos (Nat.le_refl b)] at hcount
  rcases nextTxState_of_tick h hq htick with ⟨i, hstep, hidx⟩
  have hregs : (next r p).txr.state = txSlotState (q + 1) ∧ (next r p).txr.bitIdx = i ∧
      (next r p).txr.tx = frameBit x (q + 1) ∧ (next r p).txr.shift = r.txr.shift := by
    simp [next, nextTx, hreset, hpop, hstep]
  rcases hregs with ⟨hstate, hbit, htx, hshift⟩
  exact
    { slot := by omega
      phase := Nat.zero_le b
      count := hcount
      state := hstate
      bit := fun j hj hqj => by
        rw [hbit, hidx (by omega)]
        omega
      shift := fun hle => hshift.trans (h.shift (by omega))
      level := htx }

/-- The transmitter in a frame, one cycle on; in bit 10 this says nothing about the last cycle. -/
theorem sending_step {x : BitVec 8} {q c : Nat} (hc : Configured b r)
    (hreset : softResetReq p = false) (h : Sending b x q c r) (hq : q ≤ 9 ∨ c < b) :
    txPop r = false ∧
      ∃ q' c', q * (b + 1) + c + 1 = q' * (b + 1) + c' ∧ Sending b x q' c' (next r p) := by
  refine ⟨txPop_of_sending hc h hq, ?_⟩
  rcases Nat.lt_or_ge c b with hcb | hcb
  -- inside a bit, or at its last cycle
  · exact ⟨q, c + 1, by omega, sending_count hc hreset h hcb⟩
  · have hcb' : c = b := Nat.le_antisymm h.phase hcb
    subst hcb'
    refine ⟨q + 1, 0, ?_, sending_tick hc hreset h (by omega)⟩
    rw [Nat.succ_mul]
    omega

/-- The level on the line in a frame. -/
theorem line_of_sending {x : BitVec 8} {q c : Nat} (h : Sending b x q c r) :
    r.txr.tx = lineAt (b + 1) x (q * (b + 1) + c) := by
  rw [h.level, lineAt_slot x q (Nat.lt_succ_of_le h.phase)]

/-! ## The receiver -/

/-- The state of the receiver in bit `m` of a frame. -/
def rxSlotState (m : Nat) : RxState :=
  if m = 0 then .start else if m ≤ 8 then .data else .stop

theorem rxSlotState_data {j : Nat} (hj : j < 8) : rxSlotState (j + 1) = .data := by
  simp [rxSlotState, Nat.succ_le_of_lt hj]

theorem rxSlotState_ne_idle (m : Nat) : rxSlotState m ≠ .idle := by
  unfold rxSlotState
  split
  next => simp
  next => split <;> simp

/-- The receiver waits for its sample of bit `m` of the frame of `x`: its counter stands at `c`, and
the data bits before `m` are in its shift register. -/
structure Receiving (b : Nat) (x : BitVec 8) (m c : Nat) (r : Regs) : Prop where
  slot : m ≤ 9
  phase : c ≤ b
  count : r.line.rxBaudCnt.toNat = c
  state : r.rxr.state = rxSlotState m
  bit : ∀ j, j < 8 → m = j + 1 → r.rxr.bitIdx.toNat = j
  bits : ∀ j, j < 8 → j + 1 < m → r.rxr.shift.getLsbD j = x.getLsbD j

theorem setShiftBit_getLsbD (x : BitVec 8) (idx : BitVec 3) (v : Bool) {j : Nat} (hj : j < 8) :
    (setShiftBit x idx v).getLsbD j = if j = idx.toNat then v else x.getLsbD j := by
  have hone : (1#8 <<< idx.toNat).getLsbD j = (decide (j = idx.toNat) && true) :=
    bitAt_getLsbD true hj
  rw [setShiftBit, BitVec.getLsbD_or, BitVec.getLsbD_and, BitVec.getLsbD_not, hone,
    bitAt_getLsbD v hj]
  split
  next heq => simp [heq]
  next hne => simp [hne, hj]

theorem next_rxr (hreset : softResetReq p = false) :
    (next r p).rxr.state = (nextRxState r).1 ∧ (next r p).rxr.bitIdx = (nextRxState r).2 ∧
      (next r p).rxr.shift =
        if r.rxr.state == .data && rxTick r then
          setShiftBit r.rxr.shift r.rxr.bitIdx r.line.rxSync1
        else r.rxr.shift := by
  simp [next, nextRx, hreset]

/-- Between two ticks only the counter moves. -/
theorem receiving_count {x : BitVec 8} {m c : Nat} (hc : Configured b r)
    (hreset : softResetReq p = false) (h : Receiving b x m c r) (hlt : c < b) :
    Receiving b x m (c + 1) (next r p) ∧ rxPush r = false := by
  have htick : rxTick r = false := by
    rw [rxTick_eq hc, h.count]
    simpa using hlt
  have hne : r.rxr.state ≠ .idle := by
    rw [h.state]
    exact rxSlotState_ne_idle m
  have hcount := @next_rxBaudCnt b r p hc hreset hne
  rw [h.count, if_neg (Nat.not_le_of_lt hlt)] at hcount
  -- without a tick the receiver only counts
  have hkeep : nextRxState r = (r.rxr.state, r.rxr.bitIdx) := by
    unfold nextRxState
    cases hst : r.rxr.state with
    | idle => exact absurd hst hne
    | start => simp [htick]
    | data => simp [htick]
    | stop => simp [htick]
  rcases @next_rxr r p hreset with ⟨hstate, hbit, hshift⟩
  rw [hkeep] at hstate hbit
  simp only [htick, Bool.and_false, Bool.false_eq_true, if_false] at hshift
  refine ⟨?_, by simp [rxPush, htick]⟩
  exact
    { slot := h.slot
      phase := hlt
      count := hcount
      state := hstate.trans h.state
      bit := fun j hj hm => by rw [hbit]; exact h.bit j hj hm
      bits := fun j hj hm => by rw [hshift]; exact h.bits j hj hm }

/-- On a tick the receiver goes from one slot of the frame to the next; the start bit is still low in
its middle. -/
theorem nextRxState_of_tick {x : BitVec 8} {m : Nat} (h : Receiving b x m b r) (hm : m ≤ 8)
    (htick : rxTick r = true) (hsample : r.line.rxSync1 = frameBit x m) :
    ∃ i, nextRxState r = (rxSlotState (m + 1), i) ∧ (m < 8 → i.toNat = m) := by
  rcases Nat.eq_zero_or_pos m with rfl | hpos
  · have hst : r.rxr.state = .start := h.state
    refine ⟨0#3, ?_, fun _ => rfl⟩
    simp [nextRxState, hst, htick, hsample, rxSlotState]
  · rcases Nat.exists_eq_add_of_lt hpos with ⟨j, hj⟩
    have hj' : m = j + 1 := by omega
    subst hj'
    have hj8 : j < 8 := by omega
    have hst : r.rxr.state = .data := h.state.trans (rxSlotState_data hj8)
    have hidx := h.bit j hj8 rfl
    rcases Nat.lt_or_ge j 7 with hj7 | hj7
    · rcases bitIdx_before hidx hj7 with ⟨hne, hsucc⟩
      refine ⟨r.rxr.bitIdx + 1#3, ?_, fun _ => hsucc⟩
      rw [rxSlotState_data (by omega)]
      simp [nextRxState, hst, htick, hne]
    · have hj7' : j = 7 := by omega
      subst hj7'
      refine ⟨r.rxr.bitIdx, ?_, fun hlt8 => by omega⟩
      simp [nextRxState, hst, htick, bitIdx_last hidx, rxSlotState]

/-- The bit sampled in slot `m` joins the bits before it. -/
theorem bits_of_tick {x : BitVec 8} {m : Nat} (hreset : softResetReq p = false)
    (h : Receiving b x m b r) (hm : m ≤ 8) (htick : rxTick r = true)
    (hsample : r.line.rxSync1 = frameBit x m) {i : Nat} (hi : i < 8) (him : i + 1 < m + 1) :
    (next r p).rxr.shift.getLsbD i = x.getLsbD i := by
  rcases Nat.exists_eq_add_of_lt (show 0 < m by omega) with ⟨j, hj⟩
  have hj' : m = j + 1 := by omega
  subst hj'
  have hj8 : j < 8 := by omega
  have hst : r.rxr.state = .data := h.state.trans (rxSlotState_data hj8)
  have hshift := (@next_rxr r p hreset).2.2
  rw [hshift, hst, htick, hsample, frameBit_data x hj8]
  simp only [beq_self_eq_true, Bool.and_self, if_true]
  rw [setShiftBit_getLsbD _ _ _ hi, h.bit j hj8 rfl]
  split
  next heq => rw [heq]
  next hne => exact h.bits i hi (by omega)

theorem rxSlotState_ne_stop {m : Nat} (hm : m ≤ 8) : rxSlotState m ≠ .stop := by
  unfold rxSlotState
  split
  next => simp
  next => simp

/-- A sample of the start bit or of a data bit moves the receiver to the next bit. -/
theorem receiving_tick {x : BitVec 8} {m : Nat} (hc : Configured b r)
    (hreset : softResetReq p = false) (h : Receiving b x m b r) (hm : m ≤ 8)
    (hsample : r.line.rxSync1 = frameBit x m) :
    Receiving b x (m + 1) 0 (next r p) ∧ rxPush r = false := by
  have htick : rxTick r = true := by
    rw [rxTick_eq hc, h.count]
    simp
  have hne : r.rxr.state ≠ .idle := by
    rw [h.state]
    exact rxSlotState_ne_idle m
  have hcount := @next_rxBaudCnt b r p hc hreset hne
  rw [h.count, if_pos (Nat.le_refl b)] at hcount
  rcases @next_rxr r p hreset with ⟨hstate, hbit, -⟩
  rcases nextRxState_of_tick h hm htick hsample with ⟨i, hstep, hidx⟩
  rw [hstep] at hstate hbit
  have hnostop : (r.rxr.state == RxState.stop) = false := by
    rw [h.state, beq_eq_false_iff_ne]
    exact rxSlotState_ne_stop hm
  refine ⟨?_, by simp [rxPush, hnostop]⟩
  exact
    { slot := by omega
      phase := Nat.zero_le b
      count := hcount
      state := hstate
      bit := fun j hj hmj => by
        rw [hbit, hidx (by omega)]
        omega
      bits := fun j hj hjm => bits_of_tick hreset h hm htick hsample hj hjm }

/-- The sample of the stop bit delivers the byte. -/
theorem receiving_stop {x : BitVec 8} (hc : Configured b r) (hreset : softResetReq p = false)
    (h : Receiving b x 9 b r) (hsample : r.line.rxSync1 = true) :
    (next r p).rxr.state = .idle ∧ rxPush r = true ∧ r.rxr.shift = x := by
  have htick : rxTick r = true := by
    rw [rxTick_eq hc, h.count]
    simp
  have hst : r.rxr.state = .stop := h.state
  refine ⟨?_, ?_, ?_⟩
  · rw [(next_rxr hreset).1]
    simp [nextRxState, hst, htick]
  · simp [rxPush, hc.en, htick, hst, hsample]
  · apply BitVec.eq_of_getLsbD_eq
    intro j hj
    exact h.bits j hj (by omega)

/-- An idle receiver stays idle while the line does not fall. -/
theorem idle_of_high (hreset : softResetReq p = false) (hst : r.rxr.state = .idle)
    (hfall : rxFalling r = false) : (next r p).rxr.state = .idle ∧ rxPush r = false := by
  refine ⟨?_, by simp [rxPush, hst]⟩
  rw [(next_rxr hreset).1]
  simp [nextRxState, hst, hfall]

/-- A falling edge starts an idle receiver. -/
theorem receiving_of_falling {x : BitVec 8} (hc : Configured b r) (hreset : softResetReq p = false)
    (hst : r.rxr.state = .idle) (hfall : rxFalling r = true) :
    Receiving b x 0 (b / 2) (next r p) ∧ rxPush r = false := by
  have hstate : (next r p).rxr.state = .start := by
    rw [(next_rxr hreset).1]
    simp [nextRxState, hst, hfall, hc.en]
  refine ⟨?_, by simp [rxPush, hst]⟩
  exact
    { slot := Nat.zero_le _
      phase := Nat.div_le_self b 2
      count := next_rxBaudCnt_of_falling hc hreset hst hfall
      state := hstate
      bit := fun j _ hj => by omega
      bits := fun j _ hj => by omega }

/-! ## Both ends of the line -/

/-- Nothing is on the line: it has been high for three cycles and both ends are idle. -/
structure Quiet (b : Nat) (r : Regs) : Prop where
  count : r.line.baudCnt.toNat ≤ b
  txState : r.txr.state = .idle
  tx : r.txr.tx = true
  rxState : r.rxr.state = .idle
  sync0 : r.line.rxSync0 = true
  sync1 : r.line.rxSync1 = true
  sync2 : r.line.rxSync2 = true

/-- The frame of `x` on the line is `age` cycles old. -/
structure Frame (b : Nat) (x : BitVec 8) (age : Nat) (r : Regs) : Prop where
  age_lt : age < 10 * (b + 1) + 2
  sending : ∃ q c, age = q * (b + 1) + c ∧ Sending b x q c r
  sync0 : r.line.rxSync0 = lineBefore (b + 1) x age 1
  sync1 : r.line.rxSync1 = lineBefore (b + 1) x age 2
  sync2 : r.line.rxSync2 = lineBefore (b + 1) x age 3

/-- The falling edge has not come through the synchroniser. -/
def Waiting (age : Nat) (r : Regs) : Prop := age < 3 ∧ r.rxr.state = .idle

/-- The receiver is in bit `m`, at a fixed distance behind the transmitter. -/
def Active (b : Nat) (x : BitVec 8) (age : Nat) (r : Regs) : Prop :=
  ∃ m c, age + b / 2 = 3 + c + m * (b + 1) ∧ Receiving b x m c r

/-- The receiver has delivered the byte. -/
def Delivered (b age : Nat) (r : Regs) : Prop :=
  4 + b + 9 * (b + 1) ≤ age + b / 2 ∧ r.rxr.state = .idle

/-- The transmitter's side of a frame, one cycle on. -/
theorem sending_next {x : BitVec 8} {age : Nat} (hc : Configured b r) (hb : 2 ≤ b)
    (hreset : softResetReq p = false) (h : Frame b x age r) :
    txPop r = false ∧ r.txr.tx = lineBefore (b + 1) x age 0 ∧
      ∃ q c, age + 1 = q * (b + 1) + c ∧ Sending b x q c (next r p) := by
  rcases h.sending with ⟨q, c, hage, hsend⟩
  have hlt := h.age_lt
  -- bit 10 has no last cycle before the frame is over
  have hq : q ≤ 9 ∨ c < b := by
    rcases Nat.lt_or_ge 9 q with hq | hq
    · have hmul : 10 * (b + 1) ≤ q * (b + 1) := Nat.mul_le_mul_right _ hq
      exact Or.inr (by omega)
    · exact Or.inl hq
  rcases @sending_step b r p x q c hc hreset hsend hq with ⟨hpop, q', c', hnext, hsend'⟩
  refine ⟨hpop, ?_, q', c', by omega, hsend'⟩
  rw [lineBefore_zero, hage, line_of_sending hsend]

/-- The receiver's side of a frame whose byte is not delivered yet. -/
theorem pending_next {x : BitVec 8} {age : Nat} (hc : Configured b r) (hb : 2 ≤ b)
    (hreset : softResetReq p = false) (h : Frame b x age r)
    (hpend : Waiting age r ∨ Active b x age r) :
    ((Waiting (age + 1) (next r p) ∨ Active b x (age + 1) (next r p)) ∧ rxPush r = false) ∨
      (Delivered b (age + 1) (next r p) ∧ rxPush r = true ∧ r.rxr.shift = x) := by
  rcases hpend with ⟨hage, hst⟩ | ⟨m, c, hage, hrecv⟩
  · refine Or.inl ?_
    have h2 : r.line.rxSync2 = true := by rw [h.sync2, lineBefore_of_lt hage]
    rcases Nat.lt_or_ge age 2 with hlt | hge
    · have h1 : r.line.rxSync1 = true := by rw [h.sync1, lineBefore_of_lt hlt]
      have hidle := @idle_of_high r p hreset hst (by simp [rxFalling, h1])
      exact ⟨Or.inl ⟨by omega, hidle.1⟩, hidle.2⟩
    · -- the start bit arrives
      have hage2 : age = 2 := by omega
      have h1 : r.line.rxSync1 = false := by
        rw [h.sync1, lineBefore_slot x (show age = 2 + (0 * (b + 1) + 0) by omega) (by omega)]
        rfl
      have hrecv := @receiving_of_falling b r p x hc hreset hst (by simp [rxFalling, h1, h2])
      exact ⟨Or.inr ⟨0, b / 2, by omega, hrecv.1⟩, hrecv.2⟩
  · have hphase := hrecv.phase
    rcases Nat.lt_or_ge c b with hcb | hcb
    · have hnext := @receiving_count b r p x m c hc hreset hrecv hcb
      exact Or.inl ⟨Or.inr ⟨m, c + 1, by omega, hnext.1⟩, hnext.2⟩
    · have hcb' : c = b := Nat.le_antisymm hphase hcb
      subst hcb'
      -- the sample is taken inside bit `m`, seen through the synchroniser
      have hsample : r.line.rxSync1 = frameBit x m := by
        rw [h.sync1]
        exact lineBefore_slot x
          (show age = 2 + (m * (c + 1) + (1 + c - c / 2)) by omega) (by omega)
      rcases Nat.lt_or_ge m 9 with hm | hm
      · have hnext := @receiving_tick c r p x m hc hreset hrecv (by omega) hsample
        refine Or.inl ⟨Or.inr ⟨m + 1, 0, ?_, hnext.1⟩, hnext.2⟩
        rw [Nat.succ_mul]
        omega
      · have hm9 : m = 9 := Nat.le_antisymm hrecv.slot hm
        subst hm9
        rw [frameBit_stop x (by decide)] at hsample
        have hstop := @receiving_stop c r p x hc hreset hrecv hsample
        exact Or.inr ⟨⟨by omega, hstop.1⟩, hstop.2⟩

/-- A delivered frame stays delivered. -/
theorem delivered_next {x : BitVec 8} {age : Nat}
    (hreset : softResetReq p = false) (h : Frame b x age r) (hdone : Delivered b age r) :
    Delivered b (age + 1) (next r p) ∧ rxPush r = false := by
  rcases hdone with ⟨hage, hst⟩
  have h1 : r.line.rxSync1 = true := by
    rw [h.sync1, lineBefore_stop x (Nat.succ_pos b) (by omega)]
  have hidle := @idle_of_high r p hreset hst (by simp [rxFalling, h1])
  exact ⟨⟨by omega, hidle.1⟩, hidle.2⟩

/-- The frame on the line, one cycle on: it is older, or the line has come to rest. -/
theorem frame_next {x : BitVec 8} {age : Nat} (hc : Configured b r) (hb : 2 ≤ b)
    (hreset : softResetReq p = false) (htied : p.rx = r.txr.tx) (h : Frame b x age r) :
    (age + 1 < 10 * (b + 1) + 2 ∧ Frame b x (age + 1) (next r p)) ∨
      (age + 1 = 10 * (b + 1) + 2 ∧ ((next r p).rxr.state = .idle → Quiet b (next r p))) := by
  rcases @sending_next b r p x age hc hb hreset h with ⟨-, hlevel, q, c, hage, hsend⟩
  have hlt := h.age_lt
  have h0 : (next r p).line.rxSync0 = lineBefore (b + 1) x (age + 1) 1 := by
    rw [lineBefore_succ, ← hlevel]
    exact htied
  have h1 : (next r p).line.rxSync1 = lineBefore (b + 1) x (age + 1) 2 := by
    rw [lineBefore_succ]
    exact h.sync0
  have h2 : (next r p).line.rxSync2 = lineBefore (b + 1) x (age + 1) 3 := by
    rw [lineBefore_succ]
    exact h.sync1
  rcases Nat.lt_or_ge (age + 1) (10 * (b + 1) + 2) with hyoung | hold
  · exact Or.inl ⟨hyoung, ⟨hyoung, ⟨q, c, hage, hsend⟩, h0, h1, h2⟩⟩
  · refine Or.inr ⟨by omega, fun hidle => ?_⟩
    have hB : 0 < b + 1 := Nat.succ_pos b
    rw [lineBefore_stop x hB (by omega)] at h0 h1 h2
    -- the stop bit is over: the transmitter is in its tenth slot
    have hq : q = 10 := by
      have hslot := hsend.slot
      have hphase := hsend.phase
      rcases Nat.lt_or_ge q 10 with hq | hq
      · have hmul : q * (b + 1) ≤ 9 * (b + 1) := Nat.mul_le_mul_right _ (by omega)
        omega
      · omega
    subst hq
    exact
      { count := hsend.count ▸ hsend.phase
        txState := hsend.state
        tx := hsend.level
        rxState := hidle
        sync0 := h0
        sync1 := h1
        sync2 := h2 }

/-- An idle link without a byte to send stays idle. -/
theorem quiet_of_empty (hc : Configured b r) (hreset : softResetReq p = false)
    (htied : p.rx = r.txr.tx) (h : Quiet b r) (hpop : txPop r = false) : Quiet b (next r p) := by
  have hidle := @idle_of_high r p hreset h.rxState (by simp [rxFalling, h.sync1])
  have hcount := @next_baudCnt b r p hc hreset
  have hstep : nextTxState r = (.idle, r.txr.bitIdx, true) := by
    simp [nextTxState, h.txState, hpop]
  exact
    { count := by
        rw [hcount]
        split
        next => exact Nat.zero_le b
        next hlt => omega
      txState := by simp [next, nextTx, hreset, hstep]
      tx := by simp [next, nextTx, hreset, hstep]
      rxState := hidle.1
      sync0 := htied.trans h.tx
      sync1 := h.sync0
      sync2 := h.sync1 }

/-- A byte is taken on a tick, which also restarts the counter: the start bit goes out. -/
theorem sending_of_pop (hc : Configured b r) (hreset : softResetReq p = false)
    (hidle : r.txr.state = .idle) (hpop : txPop r = true) :
    Sending b (next r p).txr.shift 0 0 (next r p) := by
  have hcount := @next_baudCnt b r p hc hreset
  have hstep : nextTxState r = (.start, 0#3, false) := by
    simp [nextTxState, hidle, hpop]
  have htick : b ≤ r.line.baudCnt.toNat := by
    have htick : txTick r = true := by
      simp only [txPop, Bool.and_eq_true] at hpop
      exact hpop.1.1.2
    rw [txTick_eq hc] at htick
    simpa using htick
  rw [if_pos htick] at hcount
  exact
    { slot := Nat.zero_le _
      phase := Nat.zero_le b
      count := hcount
      state := by
        simp only [next, nextTx, hreset, hstep, Bool.false_eq_true, if_false]
        rfl
      bit := fun j _ hj => by omega
      shift := fun _ => rfl
      level := by simp [next, nextTx, hreset, hstep] }

/-- A quiet line stays quiet until the transmitter takes a byte. -/
theorem quiet_next (hc : Configured b r) (hreset : softResetReq p = false)
    (htied : p.rx = r.txr.tx) (h : Quiet b r) :
    rxPush r = false ∧
      ((txPop r = false ∧ Quiet b (next r p)) ∨
        (txPop r = true ∧ Frame b (next r p).txr.shift 0 (next r p) ∧ Waiting 0 (next r p))) := by
  have hidle := @idle_of_high r p hreset h.rxState (by simp [rxFalling, h.sync1])
  refine ⟨hidle.2, ?_⟩
  cases hpop : txPop r with
  | false => exact Or.inl ⟨rfl, quiet_of_empty hc hreset htied h hpop⟩
  | true =>
      refine Or.inr ⟨rfl, ?_, by omega, hidle.1⟩
      exact
        { age_lt := by omega
          sending := ⟨0, 0, by omega, sending_of_pop hc hreset h.txState hpop⟩
          sync0 := htied.trans h.tx
          sync1 := h.sync0
          sync2 := h.sync1 }

/-- The bytes taken by the transmitter and the bytes stored by the receiver: equal while the line is
quiet, and one apart while a byte is on its way.  A frame on the line is at least `old` cycles old. -/
def Linked (b old : Nat) (r : Regs) (sent got : List (BitVec 8)) : Prop :=
  (Quiet b r ∧ sent = got) ∨
    ∃ x age, old ≤ age ∧ Frame b x age r ∧
      (((Waiting age r ∨ Active b x age r) ∧ sent = got ++ [x]) ∨ (Delivered b age r ∧ sent = got))

theorem linked_next {sent got : List (BitVec 8)} {old old' : Nat} (hc : Configured b r) (hb : 2 ≤ b)
    (hreset : softResetReq p = false) (htied : p.rx = r.txr.tx)
    (hroom : rxPush r = true → rxStore r = true) (hold : old' ≤ old + 1)
    (hnew : txPop r = true → old' = 0) (h : Linked b old r sent got) :
    Linked b old' (next r p) (sent ++ taken r p) (got ++ stored r p) := by
  have hnone : rxPush r = false → stored r p = [] := by
    intro hpush
    simp [stored, rxStore, hpush]
  rcases h with ⟨hquiet, hsame⟩ | ⟨x, age, hle, hframe, hside⟩
  · rcases quiet_next hc hreset htied hquiet with ⟨hpush, ⟨hpop, hnext⟩ | ⟨hpop, hnext, hwait⟩⟩
    · refine Or.inl ⟨hnext, ?_⟩
      simp [taken, hpop, hnone hpush, hsame]
    · -- a new frame starts
      refine Or.inr ⟨_, 0, Nat.le_of_eq (hnew hpop), hnext, Or.inl ⟨Or.inl hwait, ?_⟩⟩
      simp [taken, hpop, hnone hpush, hsame]
  · have hsend := @sending_next b r p x age hc hb hreset hframe
    have hnotaken : taken r p = [] := by simp [taken, hsend.1]
    rw [hnotaken, List.append_nil]
    rcases frame_next hc hb hreset htied hframe with ⟨hyoung, hnext⟩ | ⟨hage, hrest⟩
    · rcases hside with ⟨hpend, hsame⟩ | ⟨hdone, hsame⟩
      · rcases pending_next hc hb hreset hframe hpend with ⟨hpend', hpush⟩ | ⟨hdone, hpush, hx⟩
        · refine Or.inr ⟨x, age + 1, by omega, hnext, Or.inl ⟨hpend', ?_⟩⟩
          rw [hnone hpush, List.append_nil, hsame]
        · refine Or.inr ⟨x, age + 1, by omega, hnext, Or.inr ⟨hdone, ?_⟩⟩
          rw [hsame, stored, if_pos (hroom hpush), hx]
      · rcases @delivered_next b r p x age hreset hframe hdone with ⟨hdone', hpush⟩
        refine Or.inr ⟨x, age + 1, by omega, hnext, Or.inr ⟨hdone', ?_⟩⟩
        rw [hnone hpush, List.append_nil, hsame]
    · rcases hside with ⟨hpend, hsame⟩ | ⟨hdone, hsame⟩
      · rcases pending_next hc hb hreset hframe hpend with ⟨hpend', -⟩ | ⟨hdone, hpush, hx⟩
        · -- the byte is delivered before the frame is that old
          exfalso
          rcases hpend' with ⟨hwait, -⟩ | ⟨m, c, hm, hrecv⟩
          · omega
          · have hphase := hrecv.phase
            have hmul : m * (b + 1) ≤ 9 * (b + 1) := Nat.mul_le_mul_right _ hrecv.slot
            omega
        · refine Or.inl ⟨hrest hdone.2, ?_⟩
          rw [hsame, stored, if_pos (hroom hpush), hx]
      · rcases @delivered_next b r p x age hreset hframe hdone with ⟨hdone', hpush⟩
        refine Or.inl ⟨hrest hdone'.2, ?_⟩
        rw [hnone hpush, List.append_nil, hsame]

/-! ## Before the port is enabled -/

/-- A disabled port stays at rest and moves no byte. -/
theorem quiet_of_disabled (hoff : uartEn r = false) (htied : p.rx = r.txr.tx) (h : Quiet b r) :
    Quiet b (next r p) ∧ taken r p = [] ∧ stored r p = [] := by
  have hpop : txPop r = false := by simp [txPop, hoff]
  have hpush : rxPush r = false := by simp [rxPush, hoff]
  have hstep : nextTxState r = (.idle, r.txr.bitIdx, true) := by
    simp [nextTxState, h.txState, hpop]
  refine ⟨?_, by simp [taken, hpop], by simp [stored, rxStore, hpush]⟩
  exact
    { count := by simp [next, nextLine, hoff]
      txState := by
        cases hreset : softResetReq p <;> simp [next, nextTx, hreset, hstep]
      tx := by
        cases hreset : softResetReq p <;> simp [next, nextTx, hreset, hstep]
      rxState := by
        cases hreset : softResetReq p <;> simp [next, nextRx, hreset, nextRxState, h.rxState, hoff]
      sync0 := by
        show p.rx = true
        rw [htied, h.tx]
      sync1 := h.sync0
      sync2 := h.sync1 }

/-! ## Whole runs -/

/-- `rx` is tied to `tx`; from cycle `t₀` on the port is enabled in baud mode with divisor `b` and
sees no soft reset; the receive FIFO always has room when a byte completes. -/
structure LoopedBack (r₀ : Regs) (inp : Nat → In) (b t₀ : Nat) : Prop where
  tied : ∀ t, (inp t).rx = (run r₀ inp t).txr.tx
  off : ∀ t, t < t₀ → uartEn (run r₀ inp t) = false
  on : ∀ t, t₀ ≤ t → Configured b (run r₀ inp t)
  noReset : ∀ t, t₀ ≤ t → softResetReq (inp t) = false
  room : ∀ t, rxPush (run r₀ inp t) = true → rxStore (run r₀ inp t) = true

section
variable {r₀ : Regs} {inp : Nat → In} {t₀ : Nat}

theorem quiet_before (h : LoopedBack r₀ inp b t₀) (t : Nat) (ht : t ≤ t₀) :
    Quiet b (run r₀ inp t) ∧ history r₀ inp taken t = [] ∧ history r₀ inp stored t = [] := by
  induction t with
  | zero => exact ⟨⟨Nat.zero_le _, rfl, rfl, rfl, rfl, rfl, rfl⟩, rfl, rfl⟩
  | succ t ih =>
      rcases ih (Nat.le_of_succ_le ht) with ⟨hquiet, htaken, hstored⟩
      rcases quiet_of_disabled (h.off t ht) (h.tied t) hquiet with ⟨hnext, hnone, hnone'⟩
      refine ⟨hnext, ?_, ?_⟩
      · simp [history, htaken, hnone]
      · simp [history, hstored, hnone']

theorem linked_succ (h : LoopedBack r₀ inp b t₀) (hb : 2 ≤ b) {t old old' : Nat}
    (hold : old' ≤ old + 1) (hnew : txPop (run r₀ inp t) = true → old' = 0)
    (hl : Linked b old (run r₀ inp t) (history r₀ inp taken t) (history r₀ inp stored t)) :
    Linked b old' (run r₀ inp (t + 1)) (history r₀ inp taken (t + 1))
      (history r₀ inp stored (t + 1)) := by
  rcases Nat.lt_or_ge t t₀ with hlt | hge
  · rcases quiet_before h (t + 1) hlt with ⟨hquiet, htaken, hstored⟩
    exact Or.inl ⟨hquiet, htaken.trans hstored.symm⟩
  · have hreset := h.noReset t hge
    have hnext := linked_next (h.on t hge) hb hreset (h.tied t) (h.room t) hold hnew hl
    simpa only [run_succ_eq, history, hreset, Bool.false_eq_true, if_false] using hnext

theorem linked_run (h : LoopedBack r₀ inp b t₀) (hb : 2 ≤ b) (t : Nat) :
    Linked b 0 (run r₀ inp t) (history r₀ inp taken t) (history r₀ inp stored t) := by
  induction t with
  | zero =>
      rcases quiet_before h 0 (Nat.zero_le t₀) with ⟨hquiet, htaken, hstored⟩
      exact Or.inl ⟨hquiet, htaken.trans hstored.symm⟩
  | succ t ih => exact linked_succ h hb (Nat.zero_le _) (fun _ => rfl) ih

/-- The transmitter has nothing to send. -/
def TransmitterIdle (r : Regs) : Prop := r.txr.state = .idle ∧ r.txr.count = 0#4

theorem txPop_of_idle (h : TransmitterIdle r) : txPop r = false := by
  simp [txPop, h.2]

/-- A frame whose transmitter is idle again has all its bits on the line. -/
theorem old_of_idle {sent got : List (BitVec 8)} (hidle : TransmitterIdle r)
    (h : Linked b 0 r sent got) : Linked b (10 * (b + 1)) r sent got := by
  rcases h with hquiet | ⟨x, age, -, hframe, hside⟩
  · exact Or.inl hquiet
  · refine Or.inr ⟨x, age, ?_, hframe, hside⟩
    rcases hframe.sending with ⟨q, c, hage, hsend⟩
    have hq := txSlotState_idle_iff.mp (hsend.state.symm.trans hidle.1)
    have hmul : 10 * (b + 1) ≤ q * (b + 1) := Nat.mul_le_mul_right _ hq
    omega

theorem loopback_roundtrip (r₀ : Regs) (inp : Nat → In) (b t₀ : Nat) (hb : 2 ≤ b)
    (h : LoopedBack r₀ inp b t₀) :
    (∀ t, history r₀ inp stored t <+: history r₀ inp accepted t) ∧
      ∀ t, (∀ k, k ≤ 2 → TransmitterIdle (run r₀ inp (t + k))) →
        history r₀ inp stored (t + 2) = history r₀ inp accepted (t + 2) := by
  constructor
  · intro t
    have hstored : history r₀ inp stored t <+: history r₀ inp taken t := by
      rcases linked_run h hb t with ⟨-, hsame⟩ | ⟨x, age, -, -, ⟨-, hsame⟩ | ⟨-, hsame⟩⟩
      · exact ⟨[], by rw [List.append_nil, hsame]⟩
      · exact ⟨[x], hsame.symm⟩
      · exact ⟨[], by rw [List.append_nil, hsame]⟩
    exact hstored.trans ⟨_, tx_account r₀ inp t⟩
  · intro t hidle
    have h0 := old_of_idle (hidle 0 (by decide)) (linked_run h hb t)
    have h1 := linked_succ h hb (Nat.le_refl _)
      (fun hpop => absurd hpop (by rw [txPop_of_idle (hidle 0 (by decide))]; decide)) h0
    have h2 := linked_succ h hb (Nat.le_refl _)
      (fun hpop => absurd hpop (by rw [txPop_of_idle (hidle 1 (by decide))]; decide)) h1
    have hsame : history r₀ inp taken (t + 2) = history r₀ inp stored (t + 2) := by
      rcases h2 with ⟨-, hsame⟩ | ⟨x, age, hold, hframe, -⟩
      · exact hsame
      · -- two cycles after the transmitter went idle the frame has left the line
        have hlt := hframe.age_lt
        omega
    have hqueue : txQueue (run r₀ inp (t + 2)) = [] := txQueue_of_empty (hidle 2 (Nat.le_refl 2)).2
    have haccount := tx_account r₀ inp (t + 2)
    rw [hqueue, List.append_nil] at haccount
    rw [← hsame, haccount]

end

/-! ### A loopback with the smallest divisor -/

/-- The inputs of a port whose `rx` is tied to its `tx`. -/
def tie (r : Regs) (bus : DevIn) : In := { bus with clkUart := false, rx := r.txr.tx }

/-- The run of a tied port over the accesses `bus`. -/
def tiedRun (r₀ : Regs) (bus : Nat → DevIn) : Nat → Regs
  | 0 => reset r₀
  | t + 1 => next (tiedRun r₀ bus t) (tie (tiedRun r₀ bus t) (bus t))

def tiedInputs (r₀ : Regs) (bus : Nat → DevIn) (t : Nat) : In := tie (tiedRun r₀ bus t) (bus t)

theorem run_tiedInputs (r₀ : Regs) (bus : Nat → DevIn) (t : Nat) :
    run r₀ (tiedInputs r₀ bus) t = tiedRun r₀ bus t := by
  induction t with
  | zero => rfl
  | succ t ih =>
      rw [run_succ_eq, ih]
      rfl

/-- Divisor 2, then baud mode, then one byte; after that DATA is read in every cycle. -/
def sendOne : Nat → DevIn
  | 0 => ⟨Map.UART_RT_BAUD, 2#32, true, false⟩
  | 1 => ⟨Map.UART_RT_CTRL, 0b10100#32, true, false⟩
  | 2 => ⟨Map.UART_RT_DATA, 0xA5#32, true, false⟩
  | _ => ⟨Map.UART_RT_DATA, 0#32, false, true⟩

theorem sendOne_after {t : Nat} (h : 2 < t) :
    sendOne t = ⟨Map.UART_RT_DATA, 0#32, false, true⟩ := by
  unfold sendOne
  split
  next => cases h
  next => omega
  next => omega
  next => rfl

/-- A cycle in which DATA is read while `rx` is at level `v`. -/
def readData (v : Bool) : In :=
  { addr := Map.UART_RT_DATA
    wdata := 0#32
    we := false
    re := true
    clkUart := false
    rx := v }

/-- A port that is only read keeps its configuration, and at most one byte in its receive FIFO. -/
theorem settled_next {r : Regs} (hc : Configured 2 r) (hcount : r.rxr.count.toNat ≤ 1) (v : Bool) :
    Configured 2 (next r (readData v)) ∧ (next r (readData v)).rxr.count.toNat ≤ 1 := by
  refine ⟨⟨hc.en, hc.boundary, hc.baud⟩, ?_⟩
  have hreset : softResetReq (readData v) = false := rfl
  have hread : readDataReq (readData v) = true := rfl
  -- every cycle reads, so a byte leaves when there is one
  have hpop : rxPop r (readData v) = (r.rxr.count != 0#4) := by
    simp [rxPop, hc.en, hread]
  have hnext : (next r (readData v)).rxr.count =
      nextCount r.rxr.count (rxStore r) (rxPop r (readData v)) := by
    simp [next, nextRx, hreset]
  rw [hnext, nextCount_toNat (by omega) lt_of_rxStore pos_of_rxPop, hpop]
  cases hne : r.rxr.count != 0#4 with
  | true =>
      cases rxStore r <;> simp [Ring.nextLength] <;> omega
  | false =>
      have hzero : r.rxr.count.toNat = 0 := by
        rw [bne_eq_false_iff_eq] at hne
        rw [hne]
        rfl
      cases rxStore r <;> simp [Ring.nextLength, hzero]

theorem settled_sendOne (t : Nat) (ht : 3 ≤ t) :
    Configured 2 (tiedRun powerUp sendOne t) ∧ (tiedRun powerUp sendOne t).rxr.count.toNat ≤ 1 := by
  induction ht with
  | refl => exact ⟨⟨by decide +kernel, by decide +kernel, by decide +kernel⟩, by decide +kernel⟩
  | @step t ht ih =>
      have hbus := sendOne_after (Nat.lt_of_succ_le ht)
      have hnext := settled_next ih.1 ih.2 (tiedRun powerUp sendOne t).txr.tx
      rw [Nat.succ_eq_add_one, tiedRun, tie, hbus]
      exact hnext

theorem loopedBack_sendOne : LoopedBack powerUp (tiedInputs powerUp sendOne) 2 2 := by
  -- two configuring writes, then the send; afterwards the port is settled
  have hconfigured : ∀ t, 2 ≤ t →
      Configured 2 (tiedRun powerUp sendOne t) ∧
        (tiedRun powerUp sendOne t).rxr.count.toNat ≤ 1 := by
    intro t ht
    rcases Nat.lt_or_ge 2 t with hlt | hge
    · exact settled_sendOne t hlt
    · have ht2 : t = 2 := by omega
      subst ht2
      exact ⟨⟨by decide +kernel, by decide +kernel, by decide +kernel⟩, by decide +kernel⟩
  refine ⟨?_, ?_, ?_, ?_, ?_⟩
  · intro t
    rw [run_tiedInputs]
    rfl
  · intro t ht
    rw [run_tiedInputs]
    have ht' : t = 0 ∨ t = 1 := by omega
    rcases ht' with rfl | rfl <;> decide +kernel
  · intro t ht
    rw [run_tiedInputs]
    exact (hconfigured t ht).1
  · intro t ht
    rcases Nat.lt_or_ge 2 t with hlt | hge
    · rw [tiedInputs, tie, sendOne_after hlt]
      rfl
    · have ht2 : t = 2 := by omega
      subst ht2
      rfl
  -- a byte that completes finds at most one before it
  · intro t hpush
    rw [run_tiedInputs] at hpush ⊢
    have hcount : (tiedRun powerUp sendOne t).rxr.count.toNat ≤ 1 := by
      rcases Nat.lt_or_ge t 2 with hlt | hge
      · have ht' : t = 0 ∨ t = 1 := by omega
        rcases ht' with rfl | rfl <;> decide +kernel
      · exact (hconfigured t hge).2
    rw [rxStore, hpush, Bool.true_and, decide_eq_true_eq, BitVec.lt_def]
    simp only [FIFO_DEPTH, BitVec.toNat_ofNat]
    omega

theorem loopback_roundtrip_sendOne :
    history powerUp (tiedInputs powerUp sendOne) accepted 3 = [0xA5#8] ∧
      ∀ t, history powerUp (tiedInputs powerUp sendOne) stored t <+:
        history powerUp (tiedInputs powerUp sendOne) accepted t :=
  ⟨by decide +kernel, (loopback_roundtrip powerUp (tiedInputs powerUp sendOne) 2 2 (by decide)
    loopedBack_sendOne).1⟩

end Uart
end RiscvCpu
