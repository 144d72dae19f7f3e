import RiscvCpu.Devices.Fifo

/-!
# Polling — what a STATUS read of the serial port promises

The status flags are registered, so a STATUS read tells the state of the FIFOs one cycle before it.
The access that the poll was for finds a FIFO that has moved on since: by the access of the cycle
before the poll, and by what the serial side has done up to the access.
-/

namespace RiscvCpu
namespace Uart

/-- Bits of `UART_STATUS`. -/
def RX_READY : Nat := 1
def TX_FULL : Nat := 2

/-- A STATUS read. -/
def readStatusReq (p : In) : Bool := p.re && p.addr == Map.UART_RT_STATUS

/-- The first cycle after `t` in which `ev` is high is `u`. -/
def NextAt (ev : Nat → Bool) (t u : Nat) : Prop :=
  t < u ∧ ev u = true ∧ ∀ k, t < k → k < u → ev k = false

/-- The DATA write of this cycle joins the bytes to send, and it is no overflow. -/
structure WriteAccepted (r : Regs) (p : In) : Prop where
  pushed : txPush r p = true
  queued : taken r p ++ txQueue (next r p) = txQueue r ++ [p.wdata.setWidth 8]
  noOverflow : (next r p).overflowError = true →
    r.overflowError = true ∨ (rxPush r = true ∧ rxStore r = false)

/-- The DATA read of this cycle returns the oldest received byte and takes it away. -/
structure ReadServed (r : Regs) (p : In) : Prop where
  popped : rxPop r p = true
  returned : ∃ x rest, rxQueue r = x :: rest ∧ (next r p).rdata = 0#24 ++ x ∧
    rxQueue (next r p) = rest ++ stored r p

variable {r : Regs} {p : In}

/-! ## One edge -/

theorem softReset_of_readStatusReq (h : readStatusReq p = true) : softResetReq p = false := by
  simp only [readStatusReq, Bool.and_eq_true, beq_iff_eq] at h
  simp [softResetReq, writeCtrlReq, h.2, Map.UART_RT_STATUS, Map.UART_RT_CTRL]

/-- What a STATUS read puts on the read port. -/
theorem rdata_of_readStatusReq (h : readStatusReq p = true) :
    (next r p).rdata.getLsbD TX_FULL = r.flags.txFull ∧
      (next r p).rdata.getLsbD RX_READY = r.flags.rxReady := by
  have hreset := softReset_of_readStatusReq h
  simp only [readStatusReq, Bool.and_eq_true, beq_iff_eq] at h
  have hrdata : (next r p).rdata = uartStatus r := by
    simp [next, hreset, h.1, h.2, readReg, Map.UART_RT_DATA, Map.UART_RT_STATUS]
  rw [hrdata]
  constructor
  · simp only [uartStatus, TX_FULL, BitVec.getLsbD_append, BitVec.getLsbD_ofBool]
    simp
  · simp only [uartStatus, RX_READY, BitVec.getLsbD_append, BitVec.getLsbD_ofBool]
    simp

/-- The transmit FIFO is full after an edge: it was and nothing was taken, or the edge filled it. -/
theorem full_next (h : Counted r) (hreset : softResetReq p = false) :
    (next r p).txr.count = FIFO_DEPTH ↔
      (r.txr.count = FIFO_DEPTH ∧ txPop r = false) ∨
        (r.txr.count = 7#4 ∧ txPush r p = true ∧ txPop r = false) := by
  have hlt : txPush r p = true → r.txr.count.toNat < 8 := lt_of_txPush
  have hpos : txPop r = true → 0 < r.txr.count.toNat := pos_of_txPop
  have hle := h.tx.1
  have hcount : (next r p).txr.count.toNat =
      Ring.nextLength r.txr.count.toNat (txPush r p) (txPop r) := by
    rw [← nextCount_toNat hle hlt hpos]
    simp [next, nextTx, hreset]
  rw [← BitVec.toNat_inj, ← BitVec.toNat_inj, ← BitVec.toNat_inj, hcount]
  cases hpop : txPop r with
  | true =>
      have hne : Ring.nextLength r.txr.count.toNat (txPush r p) true ≠ 8 := by
        cases hpush : txPush r p with
        | true =>
            have := hlt hpush
            simp [Ring.nextLength]
            omega
        | false =>
            simp [Ring.nextLength]
            omega
      simpa [FIFO_DEPTH] using hne
  | false =>
      cases hpush : txPush r p with
      | true =>
          have := hlt hpush
          simp [Ring.nextLength, FIFO_DEPTH]
          omega
      | false => simp [Ring.nextLength, FIFO_DEPTH]

/-- The receive FIFO is empty after an edge: it was and nothing came, or the edge emptied it. -/
theorem empty_next (h : Counted r) (hreset : softResetReq p = false) :
    (next r p).rxr.count = 0#4 ↔
      (r.rxr.count = 0#4 ∧ rxStore r = false) ∨
        (r.rxr.count = 1#4 ∧ rxPop r p = true ∧ rxStore r = false) := by
  have hlt : rxStore r = true → r.rxr.count.toNat < 8 := lt_of_rxStore
  have hpos : rxPop r p = true → 0 < r.rxr.count.toNat := pos_of_rxPop
  have hle := h.rx.1
  have hcount : (next r p).rxr.count.toNat =
      Ring.nextLength r.rxr.count.toNat (rxStore r) (rxPop r p) := by
    rw [← nextCount_toNat hle hlt hpos]
    simp [next, nextRx, hreset]
  rw [← BitVec.toNat_inj, ← BitVec.toNat_inj, ← BitVec.toNat_inj, hcount]
  cases hstore : rxStore r with
  | true =>
      have hne : Ring.nextLength r.rxr.count.toNat true (rxPop r p) ≠ 0 := by
        cases hpop : rxPop r p with
        | true =>
            have := hpos hpop
            simp [Ring.nextLength]
            omega
        | false => simp [Ring.nextLength]
      simpa using hne
  | false =>
      cases hpop : rxPop r p with
      | true =>
          have := hpos hpop
          simp [Ring.nextLength]
          omega
      | false => simp [Ring.nextLength]

/-- A DATA write that finds room is accepted. -/
theorem writeAccepted_iff (h : Counted r) (hen : uartEn r = true) (hwrite : writeDataReq p = true) :
    WriteAccepted r p ↔ r.txr.count ≠ FIFO_DEPTH := by
  have hle := h.tx.1
  have hpush : txPush r p = true ↔ r.txr.count ≠ FIFO_DEPTH := by
    rw [txPush, hen, hwrite, ne_eq, ← BitVec.toNat_inj, Bool.and_self, Bool.true_and,
      decide_eq_true_eq, BitVec.lt_def]
    simp only [FIFO_DEPTH, BitVec.toNat_ofNat] at hle ⊢
    omega
  constructor
  · intro hacc
    exact hpush.mp hacc.pushed
  · intro hroom
    have hpushed := hpush.mpr hroom
    have hreset : softResetReq p = false := by
      simp only [writeDataReq, Bool.and_eq_true, beq_iff_eq] at hwrite
      simp [softResetReq, writeCtrlReq, hwrite, Map.UART_RT_DATA, Map.UART_RT_CTRL]
    refine ⟨hpushed, ?_, ?_⟩
    · rw [txQueue_next h hreset, accepted, if_pos hpushed]
    · intro hover
      rcases (next_overflow.mp hover).2 with (⟨-, -, hrefused⟩ | hlost) | ⟨hold, -⟩
      · rw [hpushed] at hrefused
        cases hrefused
      · exact Or.inr hlost
      · exact Or.inl hold

/-- A DATA read that finds a byte is served. -/
theorem readServed_iff (h : Counted r) (hen : uartEn r = true) (hread : readDataReq p = true) :
    ReadServed r p ↔ r.rxr.count ≠ 0#4 := by
  have hpop : rxPop r p = true ↔ r.rxr.count ≠ 0#4 := by
    rw [rxPop, hen, hread, Bool.and_self, Bool.true_and, bne_iff_ne]
  constructor
  · intro hserved
    exact hpop.mp hserved.popped
  · intro hbyte
    have hpopped := hpop.mpr hbyte
    simp only [readDataReq, Bool.and_eq_true, beq_iff_eq] at hread
    have hreset : softResetReq p = false := by
      simp [softResetReq, writeCtrlReq, hread, Map.UART_RT_DATA, Map.UART_RT_CTRL]
    have hqueue : rxQueue r = r.rxr.buffer r.rxr.head ::
        Ring.contents r.rxr.buffer (r.rxr.head + 1#3) (r.rxr.count.toNat - 1) := by
      rcases Nat.exists_eq_add_of_lt (pos_of_rxPop hpopped) with ⟨m, hm⟩
      have hcount : r.rxr.count.toNat = r.rxr.count.toNat - 1 + 1 := by omega
      rw [rxQueue, hcount, Ring.contents_cons, Nat.add_sub_cancel]
    refine ⟨hpopped, _, _, hqueue, ?_, ?_⟩
    · simp [next, hreset, hread, readReg, hbyte]
    · have hnext := rxQueue_next h hreset
      rw [returned_eq hreset, if_pos hpopped, hqueue, List.singleton_append, List.cons_append] at hnext
      exact (List.cons.inj hnext).2

/-! ## From the poll to the access -/

section Run

variable (r₀ : Regs) (inp : Nat → In)

/-- The cycle before `t` filled the transmit FIFO. -/
def FilledBefore (t : Nat) : Prop :=
  ∃ k, t = k + 1 ∧ (run r₀ inp k).txr.count = 7#4 ∧ txPush (run r₀ inp k) (inp k) = true ∧
    txPop (run r₀ inp k) = false

/-- The cycle before `t` emptied the receive FIFO. -/
def EmptiedBefore (t : Nat) : Prop :=
  ∃ k, t = k + 1 ∧ (run r₀ inp k).rxr.count = 1#4 ∧ rxPop (run r₀ inp k) (inp k) = true ∧
    rxStore (run r₀ inp k) = false

variable {r₀ inp} {t u : Nat}

/-- A flag that reads not full is wrong by the fill of the cycle before. -/
theorem full_iff_of_not_txFull (hflag : (run r₀ inp t).flags.txFull = false)
    (hreset : ∀ k, t = k + 1 → softResetReq (inp k) = false) :
    (run r₀ inp t).txr.count = FIFO_DEPTH ↔ FilledBefore r₀ inp t := by
  cases t with
  | zero =>
      constructor
      · intro h
        cases h
      · rintro ⟨k, hk, -⟩
        cases hk
  | succ k =>
      have hnot : ¬ (run r₀ inp k).txr.count = FIFO_DEPTH := beq_eq_false_iff_ne.mp hflag
      rw [run_succ_eq, full_next (counted_run r₀ inp k) (hreset k rfl)]
      constructor
      · rintro (⟨hfull, -⟩ | hfill)
        · exact absurd hfull hnot
        · exact ⟨k, rfl, hfill⟩
      · rintro ⟨k', hk, hfill⟩
        cases hk
        exact Or.inr hfill

/-- A flag that reads ready is wrong by the read of the cycle before. -/
theorem empty_iff_of_rxReady (hflag : (run r₀ inp t).flags.rxReady = true)
    (hreset : ∀ k, t = k + 1 → softResetReq (inp k) = false) :
    (run r₀ inp t).rxr.count = 0#4 ↔ EmptiedBefore r₀ inp t := by
  cases t with
  | zero => cases hflag
  | succ k =>
      have hnot : ¬ (run r₀ inp k).rxr.count = 0#4 := bne_iff_ne.mp hflag
      rw [run_succ_eq, empty_next (counted_run r₀ inp k) (hreset k rfl)]
      constructor
      · rintro (⟨hempty, -⟩ | htake)
        · exact absurd hempty hnot
        · exact ⟨k, rfl, htake⟩
      · rintro ⟨k', hk, htake⟩
        cases hk
        exact Or.inr htake

/-- Without DATA writes a full FIFO stays full until the transmitter takes a byte. -/
theorem full_between (htu : t ≤ u) (hreset : ∀ k, t ≤ k → k < u → softResetReq (inp k) = false)
    (hidle : ∀ k, t ≤ k → k < u → writeDataReq (inp k) = false) :
    (run r₀ inp u).txr.count = FIFO_DEPTH ↔
      (run r₀ inp t).txr.count = FIFO_DEPTH ∧
        ∀ k, t ≤ k → k < u → txPop (run r₀ inp k) = false := by
  refine @Clocked.iff_forall_between (fun k => (run r₀ inp k).txr.count = FIFO_DEPTH)
    (fun k => txPop (run r₀ inp k) = false) t u htu fun k htk hku => ?_
  have hpush : txPush (run r₀ inp k) (inp k) = false := by simp [txPush, hidle k htk hku]
  rw [run_succ_eq, full_next (counted_run r₀ inp k) (hreset k htk hku), hpush]
  simp

/-- Without DATA reads an empty FIFO stays empty until a byte is received. -/
theorem empty_between (htu : t ≤ u) (hreset : ∀ k, t ≤ k → k < u → softResetReq (inp k) = false)
    (hidle : ∀ k, t ≤ k → k < u → readDataReq (inp k) = false) :
    (run r₀ inp u).rxr.count = 0#4 ↔
      (run r₀ inp t).rxr.count = 0#4 ∧
        ∀ k, t ≤ k → k < u → rxStore (run r₀ inp k) = false := by
  refine @Clocked.iff_forall_between (fun k => (run r₀ inp k).rxr.count = 0#4)
    (fun k => rxStore (run r₀ inp k) = false) t u htu fun k htk hku => ?_
  have hpop : rxPop (run r₀ inp k) (inp k) = false := by simp [rxPop, hidle k htk hku]
  rw [run_succ_eq, empty_next (counted_run r₀ inp k) (hreset k htk hku), hpop]
  simp

end Run

/-- A STATUS read is no DATA access. -/
theorem not_data_of_readStatusReq (h : readStatusReq p = true) :
    writeDataReq p = false ∧ readDataReq p = false := by
  simp only [readStatusReq, Bool.and_eq_true, beq_iff_eq] at h
  simp [writeDataReq, readDataReq, h.2, Map.UART_RT_STATUS, Map.UART_RT_DATA]

theorem NextAt.idle {ev : Nat → Bool} {t u : Nat} (h : NextAt ev t u) (hnow : ev t = false) :
    ∀ k, t ≤ k → k < u → ev k = false := by
  intro k htk hku
  rcases Nat.lt_or_eq_of_le htk with hlt | rfl
  · exact h.2.2 k hlt hku
  · exact hnow

/-- After a poll that reads not full the next DATA write is accepted, unless the cycle before the
poll filled the FIFO and no byte has been taken since; after a poll that reads ready the next DATA
read is served, unless the cycle before the poll emptied the FIFO and no byte has come since. -/
theorem polls_truthful_iff (r₀ : Regs) (inp : Nat → In) (t u : Nat)
    (hen : uartEn (run r₀ inp u) = true)
    (hreset : ∀ k, t ≤ k + 1 → k < u → softResetReq (inp k) = false)
    (hpoll : readStatusReq (inp t) = true) :
    ((run r₀ inp (t + 1)).rdata.getLsbD TX_FULL = false →
      NextAt (fun k => writeDataReq (inp k)) t u →
      (WriteAccepted (run r₀ inp u) (inp u) ↔
        (FilledBefore r₀ inp t → ∃ k, t ≤ k ∧ k < u ∧ txPop (run r₀ inp k) = true))) ∧
    ((run r₀ inp (t + 1)).rdata.getLsbD RX_READY = true →
      NextAt (fun k => readDataReq (inp k)) t u →
      (ReadServed (run r₀ inp u) (inp u) ↔
        (EmptiedBefore r₀ inp t → ∃ k, t ≤ k ∧ k < u ∧ rxStore (run r₀ inp k) = true))) := by
  have hflags := @rdata_of_readStatusReq (run r₀ inp t) (inp t) hpoll
  have hdata := not_data_of_readStatusReq hpoll
  -- no soft reset in the cycle before the poll, nor from the poll to the access
  have hbefore : t < u → ∀ k, t = k + 1 → softResetReq (inp k) = false :=
    fun htu k hk => hreset k (Nat.le_of_eq hk) (by omega)
  have hbetween : ∀ k, t ≤ k → k < u → softResetReq (inp k) = false :=
    fun k htk hku => hreset k (Nat.le_succ_of_le htk) hku
  rw [run_succ_eq, hflags.1, hflags.2]
  constructor
  · intro hflag hnext
    rw [writeAccepted_iff (counted_run r₀ inp u) hen hnext.2.1, ne_eq,
      full_between (Nat.le_of_lt hnext.1) hbetween (hnext.idle hdata.1),
      full_iff_of_not_txFull hflag (hbefore hnext.1)]
    simp only [not_and, not_forall, Bool.not_eq_false, exists_prop]
  · intro hflag hnext
    rw [readServed_iff (counted_run r₀ inp u) hen hnext.2.1, ne_eq,
      empty_between (Nat.le_of_lt hnext.1) hbetween (hnext.idle hdata.2),
      empty_iff_of_rxReady hflag (hbefore hnext.1)]
    simp only [not_and, not_forall, Bool.not_eq_false, exists_prop]

/-- An access of the bus, with both lines of the port at rest. -/
def access (addr : BitVec 16) (wdata : Word) (we : Bool) : In :=
  { addr := addr, wdata := wdata, we := we, re := !we, clkUart := false, rx := true }

/-- Enable, poll, then write. -/
def pollThenWrite (t : Nat) : In :=
  if t = 0 then access Map.UART_RT_CTRL 0b00100#32 true
  else if t = 1 then access Map.UART_RT_STATUS 0#32 false
  else access Map.UART_RT_DATA 0x41#32 true

theorem polls_truthful_iff_first :
    WriteAccepted (run powerUp pollThenWrite 2) (pollThenWrite 2) := by
  have hreset : ∀ k, 1 ≤ k + 1 → k < 2 → softResetReq (pollThenWrite k) = false := by
    intro k _ hk
    have hcases : k = 0 ∨ k = 1 := by omega
    rcases hcases with rfl | rfl <;> rfl
  have hpolls := polls_truthful_iff powerUp pollThenWrite 1 2 (by decide) hreset (by decide)
  refine (hpolls.1 (by decide) ⟨by decide, by decide, fun k hk hk' => by omega⟩).mpr ?_
  rintro ⟨k, hk, hcount, -⟩
  have hzero : k = 0 := by omega
  subst hzero
  cases hcount

/-- Enable, eight writes without a gap, a poll in the next cycle, and the ninth write. -/
def pollBehindWrites (t : Nat) : In :=
  if t = 0 then access Map.UART_RT_CTRL 0b00100#32 true
  else if t = 9 then access Map.UART_RT_STATUS 0#32 false
  else access Map.UART_RT_DATA 0x41#32 true

/-- The poll reads not full, and the write it was for is refused and sets the overflow flag. -/
theorem poll_not_always_truthful :
    (∀ t, softResetReq (pollBehindWrites t) = false) ∧
      (∀ t, 0 < t → uartEn (run powerUp pollBehindWrites t) = true) ∧
      readStatusReq (pollBehindWrites 9) = true ∧
      (run powerUp pollBehindWrites 10).rdata.getLsbD TX_FULL = false ∧
      NextAt (fun k => writeDataReq (pollBehindWrites k)) 9 10 ∧
      (run powerUp pollBehindWrites 11).overflowError = true ∧
      ¬ WriteAccepted (run powerUp pollBehindWrites 10) (pollBehindWrites 10) := by
  have hctrl : ∀ t, 0 < t → writeCtrlReq (pollBehindWrites t) = false := by
    intro t ht
    unfold pollBehindWrites
    rw [if_neg (Nat.ne_of_gt ht)]
    split <;> rfl
  refine ⟨?_, ?_, by decide, by decide, ⟨by decide, by decide, fun k hk hk' => by omega⟩, by decide,
    ?_⟩
  · intro t
    rcases Nat.eq_zero_or_pos t with rfl | hpos
    · rfl
    · rw [softResetReq, hctrl t hpos, Bool.false_and]
  · intro t ht
    induction ht with
    | refl => rfl
    | @step t ht ih =>
        have hkeep : (run powerUp pollBehindWrites (t + 1)).uartCtrl =
            (run powerUp pollBehindWrites t).uartCtrl := by
          rw [run_succ_eq]
          simp [next, hctrl t ht]
        rw [Nat.succ_eq_add_one, uartEn, hkeep]
        exact ih
  · intro hacc
    exact absurd hacc.pushed (by decide)

end Uart
end RiscvCpu
