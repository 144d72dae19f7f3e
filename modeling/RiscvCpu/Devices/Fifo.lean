import RiscvCpu.Lib.Clocked
import RiscvCpu.Lib.Ring
import RiscvCpu.Soc.Uart

/-!
# Fifo — the byte accounts of the serial port

The two FIFOs of the port are circular buffers.  What goes into one and what comes out is written
down as a history that a soft reset empties; the contents of the FIFO are what separates the two.
-/

namespace RiscvCpu
namespace Uart

/-- The state in cycle `t` after reset from the power-up state `r₀`. -/
def run (r₀ : Regs) (inp : Nat → In) (t : Nat) : Regs := Clocked.run next (reset r₀) inp t

theorem run_succ_eq (r₀ : Regs) (inp : Nat → In) (t : Nat) :
    run r₀ inp (t + 1) = next (run r₀ inp t) (inp t) := rfl

/-- A power-up state with every register at zero. -/
def powerUp : Regs :=
  { uartCtrl := 0#32
    uartBaud := 0#32
    rdata := 0#32
    overflowError := false
    line := ⟨false, false, false, false, false, false, 0#32, 0#32⟩
    txr := ⟨fun _ => 0#8, 0#3, 0#3, 0#4, .idle, 0#3, 0#8, false⟩
    rxr := ⟨fun _ => 0#8, 0#3, 0#3, 0#4, .idle, 0#3, 0#8⟩
    flags := ⟨false, false, false, false, false, false⟩ }

/-- The bytes in the transmit FIFO, the oldest first. -/
def txQueue (r : Regs) : List (BitVec 8) :=
  Ring.contents r.txr.buffer r.txr.head r.txr.count.toNat

/-- The bytes in the receive FIFO, the oldest first. -/
def rxQueue (r : Regs) : List (BitVec 8) :=
  Ring.contents r.rxr.buffer r.rxr.head r.rxr.count.toNat

/-! ## Histories -/

/-- The bytes of the events `ev` since the last soft reset. -/
def history (r₀ : Regs) (inp : Nat → In) (ev : Regs → In → List (BitVec 8)) :
    Nat → List (BitVec 8)
  | 0 => []
  | t + 1 =>
      if softResetReq (inp t) then [] else history r₀ inp ev t ++ ev (run r₀ inp t) (inp t)

/-- The byte of a DATA write that the transmit FIFO accepts. -/
def accepted (r : Regs) (p : In) : List (BitVec 8) :=
  if txPush r p then [p.wdata.setWidth 8] else []

/-- The byte the transmitter takes into its shift register. -/
def taken (r : Regs) (p : In) : List (BitVec 8) :=
  if txPop r then [(next r p).txr.shift] else []

/-- The received byte that is stored. -/
def stored (r : Regs) (_ : In) : List (BitVec 8) := if rxStore r then [r.rxr.shift] else []

/-- The byte that a DATA read puts on the read port. -/
def returned (r : Regs) (p : In) : List (BitVec 8) :=
  if rxPop r p then [(next r p).rdata.setWidth 8] else []

/-- A byte is lost: an enabled DATA write is refused, or a received byte finds the FIFO full. -/
def Loses (r : Regs) (p : In) : Prop :=
  (uartEn r = true ∧ writeDataReq p = true ∧ txPush r p = false) ∨
    (rxPush r = true ∧ rxStore r = false)

/-- A STATUS write with bit 5 set. -/
def clearsOverflow (p : In) : Bool := writeStatusReq p && p.wdata.getLsbD 5

variable {r : Regs} {p : In}

/-! ## Pushes and pops -/

theorem lt_of_txPush (h : txPush r p = true) : r.txr.count.toNat < 8 := by
  simp only [txPush, Bool.and_eq_true, decide_eq_true_eq] at h
  exact h.2

theorem pos_of_txPop (h : txPop r = true) : 0 < r.txr.count.toNat := by
  simp only [txPop, Bool.and_eq_true, bne_iff_ne, ne_eq, ← BitVec.toNat_inj] at h
  exact Nat.pos_of_ne_zero h.2

theorem lt_of_rxStore (h : rxStore r = true) : r.rxr.count.toNat < 8 := by
  simp only [rxStore, Bool.and_eq_true, decide_eq_true_eq] at h
  exact h.2

theorem pos_of_rxPop (h : rxPop r p = true) : 0 < r.rxr.count.toNat := by
  simp only [rxPop, Bool.and_eq_true, bne_iff_ne, ne_eq, ← BitVec.toNat_inj] at h
  exact Nat.pos_of_ne_zero h.2

/-- A FIFO count neither overflows nor underflows. -/
theorem nextCount_toNat {count : BitVec 4} {push pop : Bool} (hle : count.toNat ≤ 8)
    (hpush : push = true → count.toNat < 8) (hpop : pop = true → 0 < count.toNat) :
    (nextCount count push pop).toNat = Ring.nextLength count.toNat push pop := by
  cases push <;> cases pop
  case false.false => rfl
  case false.true =>
    have hpos := hpop rfl
    simp only [nextCount, Ring.nextLength, Bool.toNat_false, Bool.toNat_true, Bool.not_false,
      Bool.not_true, Bool.and_self, Bool.false_eq_true, if_false, if_true,
      BitVec.toNat_sub, BitVec.toNat_ofNat]
    omega
  case true.false =>
    have hlt := hpush rfl
    simp only [nextCount, Ring.nextLength, Bool.toNat_false, Bool.toNat_true, Bool.not_false,
      Bool.and_self, if_true, BitVec.toNat_add, BitVec.toNat_ofNat]
    omega
  case true.true => simp [nextCount, Ring.nextLength]

/-- An empty receive FIFO gets a byte only by storing one. -/
theorem stores_of_rise (hempty : r.rxr.count = 0#4) (hnext : (next r p).rxr.count ≠ 0#4) :
    rxStore r = true ∧ softResetReq p = false := by
  cases hreset : softResetReq p with
  | true => simp [next, nextRx, hreset] at hnext
  | false =>
      have hpop : rxPop r p = false := by simp [rxPop, hempty]
      cases hstore : rxStore r with
      | true => exact ⟨rfl, rfl⟩
      | false => simp [next, nextRx, hreset, nextCount, hpop, hstore, hempty] at hnext

/-- The transmit FIFO is not empty after an accepted write. -/
theorem count_after_push (hpush : txPush r p = true) : (next r p).txr.count ≠ 0#4 := by
  have hlt := lt_of_txPush hpush
  have hreset : softResetReq p = false := by
    simp only [txPush, writeDataReq, Bool.and_eq_true, beq_iff_eq] at hpush
    simp [softResetReq, writeCtrlReq, hpush, Map.UART_RT_DATA, Map.UART_RT_CTRL]
  have hcount : (next r p).txr.count = nextCount r.txr.count true (txPop r) := by
    simp only [next, nextTx, hreset, hpush, Bool.false_eq_true, if_false]
  rw [hcount, ne_eq, ← BitVec.toNat_inj, nextCount_toNat (Nat.le_of_lt hlt) (fun _ => hlt)
    pos_of_txPop]
  cases hpop : txPop r with
  | false => simp [Ring.nextLength]
  | true =>
      have := pos_of_txPop hpop
      simp [Ring.nextLength]
      omega

/-! ## One edge -/

/-- The counters of both FIFOs describe circular buffers of eight cells. -/
structure Counted (r : Regs) : Prop where
  tx : Ring.Placed r.txr.head r.txr.tail r.txr.count.toNat
  rx : Ring.Placed r.rxr.head r.rxr.tail r.rxr.count.toNat

theorem counted_reset (r₀ : Regs) : Counted (reset r₀) := ⟨⟨Nat.zero_le _, rfl⟩, ⟨Nat.zero_le _, rfl⟩⟩

theorem counted_next (h : Counted r) (p : In) : Counted (next r p) := by
  by_cases hreset : softResetReq p = true
  · constructor
    · simp only [next, nextTx, hreset, if_true]
      exact ⟨by decide, rfl⟩
    · simp only [next, nextRx, hreset, if_true]
      exact ⟨by decide, rfl⟩
  · constructor
    · have hplaced := Ring.placed_next h.tx (fun hpush => @lt_of_txPush r p hpush) pos_of_txPop
      rw [← nextCount_toNat h.tx.1 lt_of_txPush pos_of_txPop] at hplaced
      simpa only [next, nextTx, hreset, Bool.false_eq_true, if_false] using hplaced
    · have hplaced := Ring.placed_next h.rx lt_of_rxStore (fun hpop => @pos_of_rxPop r p hpop)
      rw [← nextCount_toNat h.rx.1 lt_of_rxStore pos_of_rxPop] at hplaced
      simpa only [next, nextRx, hreset, Bool.false_eq_true, if_false] using hplaced

/-- The byte a pop takes is the oldest one. -/
theorem taken_eq (hreset : softResetReq p = false) :
    taken r p = if txPop r then [r.txr.buffer r.txr.head] else [] := by
  unfold taken
  split
  next hpop => simp [next, nextTx, hreset, hpop]
  next => rfl

theorem returned_eq (hreset : softResetReq p = false) :
    returned r p = if rxPop r p then [r.rxr.buffer r.rxr.head] else [] := by
  unfold returned
  split
  next hpop =>
    simp only [rxPop, readDataReq, Bool.and_eq_true, beq_iff_eq] at hpop
    rcases hpop with ⟨⟨-, hre, haddr⟩, hcount⟩
    have hbyte (b : BitVec 8) : (0#24 ++ b).setWidth 8 = b := by
      exact BitVec.setWidth_append_eq_right
    simp [next, readReg, hreset, hre, haddr, hcount, hbyte]
  next => rfl

theorem txQueue_next (h : Counted r) (hreset : softResetReq p = false) :
    taken r p ++ txQueue (next r p) = txQueue r ++ accepted r p := by
  have hnext := Ring.contents_next r.txr.buffer h.tx (fun hpush => @lt_of_txPush r p hpush) pos_of_txPop
    (p.wdata.setWidth 8)
  rw [taken_eq hreset]
  unfold txQueue accepted
  rw [← hnext, ← nextCount_toNat h.tx.1 lt_of_txPush pos_of_txPop]
  simp only [next, nextTx, hreset, Bool.false_eq_true, if_false]

theorem rxQueue_next (h : Counted r) (hreset : softResetReq p = false) :
    returned r p ++ rxQueue (next r p) = rxQueue r ++ stored r p := by
  have hnext := Ring.contents_next r.rxr.buffer h.rx lt_of_rxStore (fun hpop => @pos_of_rxPop r p hpop)
    r.rxr.shift
  rw [returned_eq hreset]
  unfold rxQueue stored
  rw [← hnext, ← nextCount_toNat h.rx.1 lt_of_rxStore pos_of_rxPop]
  simp only [next, nextRx, hreset, Bool.false_eq_true, if_false]

theorem txQueue_of_empty (h : r.txr.count = 0#4) : txQueue r = [] := by
  rw [txQueue, h]
  rfl

theorem queues_of_softReset (hreset : softResetReq p = true) :
    txQueue (next r p) = [] ∧ rxQueue (next r p) = [] := by
  constructor
  · simp [txQueue, next, nextTx, hreset]
  · simp [rxQueue, next, nextRx, hreset]

/-- The overflow flag after an edge: a lost byte sets it, a STATUS write clears it, a loss in the
cycle of the clearing write wins. -/
theorem next_overflow : (next r p).overflowError = true ↔
    softResetReq p = false ∧
      (Loses r p ∨ (r.overflowError = true ∧ clearsOverflow p = false)) := by
  -- a STATUS write is not a DATA write
  have hstatus : writeDataReq p = true → writeStatusReq p = false := by
    intro hdata
    simp only [writeDataReq, Bool.and_eq_true, beq_iff_eq] at hdata
    simp [writeStatusReq, hdata, Map.UART_RT_DATA, Map.UART_RT_STATUS]
  have hloses : Loses r p ↔ (rxPush r && !rxStore r) = true ∨
      (writeDataReq p && !txPush r p) = true ∧ uartEn r = true := by
    simp only [Loses, Bool.and_eq_true, Bool.not_eq_true']
    constructor
    · rintro (⟨hen, hdata, hpush⟩ | hrx)
      · exact Or.inr ⟨⟨hdata, hpush⟩, hen⟩
      · exact Or.inl hrx
    · rintro (hrx | ⟨⟨hdata, hpush⟩, hen⟩)
      · exact Or.inr hrx
      · exact Or.inl ⟨hen, hdata, hpush⟩
  show nextOverflow r p = true ↔ _
  rw [hloses, nextOverflow, clearsOverflow]
  cases softResetReq p with
  | true => simp
  | false =>
      cases rxPush r && !rxStore r with
      | true => simp
      | false =>
          cases hrefused : writeDataReq p && !txPush r p with
          | true =>
              simp only [Bool.and_eq_true] at hrefused
              cases uartEn r <;> simp [hstatus hrefused.1]
          | false => cases writeStatusReq p && p.wdata.getLsbD 5 <;> simp

/-! ## Whole runs -/

section
variable (r₀ : Regs) (inp : Nat → In)

theorem counted_run (t : Nat) : Counted (run r₀ inp t) :=
  @Clocked.run_invariant _ _ next (reset r₀) inp Counted (fun _ => True) (counted_reset r₀)
    (fun _ => trivial) (fun _ p _ h => counted_next h p) t

/-- The bytes taken and the bytes still in the transmit FIFO are the bytes accepted. -/
theorem tx_account (t : Nat) :
    history r₀ inp taken t ++ txQueue (run r₀ inp t) = history r₀ inp accepted t := by
  induction t with
  | zero => rfl
  | succ t ih =>
      rw [run_succ_eq, history, history]
      cases hreset : softResetReq (inp t) with
      | true => exact (queues_of_softReset hreset).1
      | false =>
          simp only [Bool.false_eq_true, if_false]
          calc
            history r₀ inp taken t ++ taken (run r₀ inp t) (inp t) ++
                txQueue (next (run r₀ inp t) (inp t))
              = history r₀ inp taken t ++
                  (txQueue (run r₀ inp t) ++ accepted (run r₀ inp t) (inp t)) := by
                rw [List.append_assoc, txQueue_next (counted_run r₀ inp t) hreset]
            _ = history r₀ inp accepted t ++ accepted (run r₀ inp t) (inp t) := by
                rw [← List.append_assoc, ih]

/-- The bytes returned and the bytes still in the receive FIFO are the bytes stored. -/
theorem rx_account (t : Nat) :
    history r₀ inp returned t ++ rxQueue (run r₀ inp t) = history r₀ inp stored t := by
  induction t with
  | zero => rfl
  | succ t ih =>
      rw [run_succ_eq, history, history]
      cases hreset : softResetReq (inp t) with
      | true => exact (queues_of_softReset hreset).2
      | false =>
          simp only [Bool.false_eq_true, if_false]
          calc
            history r₀ inp returned t ++ returned (run r₀ inp t) (inp t) ++
                rxQueue (next (run r₀ inp t) (inp t))
              = history r₀ inp returned t ++
                  (rxQueue (run r₀ inp t) ++ stored (run r₀ inp t) (inp t)) := by
                rw [List.append_assoc, rxQueue_next (counted_run r₀ inp t) hreset]
            _ = history r₀ inp stored t ++ stored (run r₀ inp t) (inp t) := by
                rw [← List.append_assoc, ih]

/-- A byte was lost before cycle `t`, with no soft reset from then on and no clearing STATUS write
after it. -/
def LostSince (t : Nat) : Prop :=
  ∃ k, k < t ∧ Loses (run r₀ inp k) (inp k) ∧
    (∀ m, k ≤ m → m < t → softResetReq (inp m) = false) ∧
    ∀ m, k < m → m < t → clearsOverflow (inp m) = false

theorem lostSince_succ (t : Nat) :
    LostSince r₀ inp (t + 1) ↔ softResetReq (inp t) = false ∧
      (Loses (run r₀ inp t) (inp t) ∨
        (LostSince r₀ inp t ∧ clearsOverflow (inp t) = false)) := by
  -- the last loss is in this cycle or before it
  constructor
  · rintro ⟨k, hkt, hloss, hreset, hclear⟩
    refine ⟨hreset t (Nat.le_of_lt_succ hkt) (Nat.lt_succ_self t), ?_⟩
    rcases Nat.lt_succ_iff_lt_or_eq.mp hkt with hlt | rfl
    · refine Or.inr ⟨⟨k, hlt, hloss, ?_, ?_⟩, hclear t hlt (Nat.lt_succ_self t)⟩
      · intro m hkm hmt
        exact hreset m hkm (Nat.lt_succ_of_lt hmt)
      · intro m hkm hmt
        exact hclear m hkm (Nat.lt_succ_of_lt hmt)
    · exact Or.inl hloss
  · rintro ⟨hnow, hloss | ⟨⟨k, hkt, hloss, hreset, hclear⟩, hkeep⟩⟩
    · refine ⟨t, Nat.lt_succ_self t, hloss, ?_, ?_⟩
      · intro m htm hmt
        rw [show m = t by omega]
        exact hnow
      · intro m htm hmt
        omega
    · refine ⟨k, Nat.lt_succ_of_lt hkt, hloss, ?_, ?_⟩
      · intro m hkm hmt
        rcases Nat.lt_succ_iff_lt_or_eq.mp hmt with hlt | rfl
        · exact hreset m hkm hlt
        · exact hnow
      · intro m hkm hmt
        rcases Nat.lt_succ_iff_lt_or_eq.mp hmt with hlt | rfl
        · exact hclear m hkm hlt
        · exact hkeep

theorem overflow_account (t : Nat) :
    (run r₀ inp t).overflowError = true ↔ LostSince r₀ inp t := by
  induction t with
  | zero =>
      constructor
      · intro h
        cases h
      · rintro ⟨k, hk, -⟩
        omega
  | succ t ih => rw [run_succ_eq, next_overflow, lostSince_succ, ih]

/-- The counters of a FIFO: at most eight bytes, as many as the tail is ahead of the head. -/
theorem counts_of_placed {head tail : BitVec 3} {n : Nat} (h : Ring.Placed head tail n) :
    n ≤ 8 ∧ (tail - head).toNat = n % 8 := by
  rcases h with ⟨hle, htail⟩
  refine ⟨hle, ?_⟩
  rw [htail, BitVec.add_comm, BitVec.add_sub_cancel, BitVec.toNat_ofNat]

theorem fifo_accounting (t : Nat) :
    ((run r₀ inp t).txr.count.toNat ≤ 8 ∧
      ((run r₀ inp t).txr.tail - (run r₀ inp t).txr.head).toNat =
        (run r₀ inp t).txr.count.toNat % 8) ∧
    ((run r₀ inp t).rxr.count.toNat ≤ 8 ∧
      ((run r₀ inp t).rxr.tail - (run r₀ inp t).rxr.head).toNat =
        (run r₀ inp t).rxr.count.toNat % 8) ∧
    history r₀ inp taken t ++ txQueue (run r₀ inp t) = history r₀ inp accepted t ∧
    history r₀ inp returned t ++ rxQueue (run r₀ inp t) = history r₀ inp stored t ∧
    ((run r₀ inp t).overflowError = true ↔ LostSince r₀ inp t) := by
  have hcounted := counted_run r₀ inp t
  refine ⟨?tx, ?rx, ?sent, ?read, ?overflow⟩
  case tx => exact counts_of_placed hcounted.tx
  case rx => exact counts_of_placed hcounted.rx
  case sent => exact tx_account r₀ inp t
  case read => exact rx_account r₀ inp t
  case overflow => exact overflow_account r₀ inp t

end

end Uart
end RiscvCpu
