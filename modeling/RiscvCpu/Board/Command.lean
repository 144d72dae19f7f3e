import RiscvCpu.Board.Panel
import RiscvCpu.Board.Ready

/-!
# Command — the host sets the switches and keys

`rx_ready` stays up for `BAUD_DIV` cycles with the byte on `rx_data`, and the controller obeys the byte in
each of them, which is as good as once.  A switch or key is then what the last command for it said.
-/

namespace RiscvCpu
namespace Board

open Serial

namespace TwinController

variable {r : Regs} {p : In}

/-! ## What the commands say -/

/-- What the last of the bytes with index `n` says. -/
def said (n : Nat) (bytes : List (BitVec 8)) : Bool :=
  ((bytes.filter fun b => index b == n).getLast?.map fun b => b.getLsbD 7).getD false

theorem said_concat (n : Nat) (bytes : List (BitVec 8)) (b : BitVec 8) :
    said n (bytes ++ [b]) = if index b = n then b.getLsbD 7 else said n bytes := by
  rw [said, List.filter_append]
  split
  next h => simp [h]
  next h => simp [h, said]

theorem index_eq_zero (x : BitVec 8) : index x = 0 ↔ x = 0x80#8 ∨ x = 0#8 := by
  revert x
  unfold index
  decide

theorem commands_eq : commands p = (p.rxReady && decide (0 < index p.rxData)) := by
  rw [commands, Bool.and_assoc]
  congr 1
  rw [Bool.eq_iff_iff, Bool.and_eq_true, bne_iff_ne, bne_iff_ne, decide_eq_true_iff,
    Nat.pos_iff_ne_zero, ne_eq, ne_eq, ne_eq, index_eq_zero, not_or]

theorem setBit_getLsbD {n : Nat} (x : BitVec n) (k : Nat) (b : Bool) {i : Nat} (hi : i < n) :
    (setBit x k b).getLsbD i = if i = k then b else x.getLsbD i := by
  have hone : (1#n <<< k).getLsbD i = decide (i = k) := by
    rw [BitVec.getLsbD_shiftLeft, BitVec.getLsbD_one, Bool.eq_iff_iff]
    simp only [hi, decide_true, Bool.true_and, Bool.and_eq_true, Bool.not_eq_true',
      decide_eq_false_iff_not, decide_eq_true_iff]
    omega
  rw [setBit, BitVec.getLsbD_or, BitVec.getLsbD_and, BitVec.getLsbD_not, hone, bitAt_getLsbD b hi]
  split
  next heq => simp [heq]
  next hne => simp [hne, hi]

theorem sw_next {i : Nat} (hi : i < 64) :
    (next r p).sw.getLsbD i =
      if p.rxReady = true ∧ index p.rxData = i + 1 then p.rxData.getLsbD 7 else r.sw.getLsbD i := by
  have hnext : (next r p).sw =
      if commands p && decide (index p.rxData ≤ 64) then
        setBit r.sw (index p.rxData - 1) (p.rxData.getLsbD 7)
      else r.sw := rfl
  rw [hnext, commands_eq]
  split
  next h =>
    simp only [Bool.and_eq_true, decide_eq_true_iff] at h
    have hiff : i = index p.rxData - 1 ↔ p.rxReady = true ∧ index p.rxData = i + 1 :=
      ⟨fun heq => ⟨h.1.1, by omega⟩, fun hcmd => by omega⟩
    rw [setBit_getLsbD _ _ _ hi]
    simp only [hiff]
  next h =>
    rw [if_neg]
    rintro ⟨hready, hindex⟩
    apply h
    simp only [Bool.and_eq_true, decide_eq_true_iff]
    exact ⟨⟨hready, by omega⟩, by omega⟩

theorem key_next {j : Nat} (hj : j < 8) :
    (next r p).key.getLsbD j =
      if p.rxReady = true ∧ index p.rxData = 65 + j then p.rxData.getLsbD 7 else r.key.getLsbD j := by
  have hnext : (next r p).key =
      if commands p && !decide (index p.rxData ≤ 64) && decide (index p.rxData ≤ 72) then
        setBit r.key (index p.rxData - 65) (p.rxData.getLsbD 7)
      else r.key := rfl
  rw [hnext, commands_eq]
  split
  next h =>
    simp only [Bool.and_eq_true, Bool.not_eq_true', decide_eq_true_iff, decide_eq_false_iff_not] at h
    have hiff : j = index p.rxData - 65 ↔ p.rxReady = true ∧ index p.rxData = 65 + j :=
      ⟨fun heq => ⟨h.1.1.1, by omega⟩, fun hcmd => by omega⟩
    rw [setBit_getLsbD _ _ _ hj]
    simp only [hiff]
  next h =>
    rw [if_neg]
    rintro ⟨hready, hindex⟩
    apply h
    simp only [Bool.and_eq_true, Bool.not_eq_true', decide_eq_true_iff, decide_eq_false_iff_not]
    exact ⟨⟨⟨hready, by omega⟩, by omega⟩, by omega⟩

end TwinController

namespace Panel

open TwinController (said said_concat index)
open Uart (Divides Tuned heard hearing done)

variable {div : Word} {inp : Nat → In}

/-- A register bit that follows the shown commands with index `n` is what the last heard one says. -/
theorem follows_commands {f : Nat → Bool} {n : Nat} (hzero : f 0 = false)
    (hshows : ∀ t, Uart.Shows div (uartInAt div inp) t)
    (hnext : ∀ t, f (t + 1) =
      if (twinInAt div inp t).rxReady = true ∧ index (twinInAt div inp t).rxData = n then
        (twinInAt div inp t).rxData.getLsbD 7
      else f t) (t : Nat) :
    f (t + 1) = said n (heard div (uartInAt div inp) t) := by
  have hready : ∀ t, (Uart.run div (uartInAt div inp) t).ready.rxReady = (twinInAt div inp t).rxReady := by
    intro t
    rw [run_uart]
    rfl
  have hdata : ∀ t, (Uart.run div (uartInAt div inp) t).rx.rxData = (twinInAt div inp t).rxData := by
    intro t
    rw [run_uart]
    rfl
  induction t with
  | zero =>
      have hnot : ¬ (twinInAt div inp 0).rxReady = true := fun h => by cases h
      rw [hnext, if_neg fun h => hnot h.1, hzero]
      rfl
  | succ t ih =>
      rw [hnext, ih]
      rcases (hshows t).fresh with hnone | ⟨hup, hbyte⟩
      · -- the byte that is shown has been obeyed already
        rw [Uart.heard_succ, hnone, List.append_nil]
        split
        next h =>
          rcases (hshows (t + 1)).last (by rw [hready]; exact h.1) with ⟨bytes, hbytes⟩
          rw [Uart.heard_succ, hnone, List.append_nil, hdata] at hbytes
          rw [hbytes, said_concat, if_pos h.2]
        next => rfl
      · rw [hready] at hup
        rw [Uart.heard_succ, hbyte, hdata, said_concat]
        simp only [hup, true_and]

variable {B P gap : Nat} {line : Nat → Option (Frame 8)}

theorem shows_panel (hdiv : Divides div B) (htuned : Tuned B P gap) (hline : Spaced gap line)
    (hrx : ∀ t, (inp t).rx = level P (line t)) (t : Nat) : Uart.Shows div (uartInAt div inp) t :=
  Uart.shows_run (fun t => Uart.quiet_of_ready (t := t) hdiv htuned hline hrx) t

/-- For a host within tolerance, every switch and every key is in every cycle what the last command for it
has said, of the commands that had begun on the line the time of one frame before; bytes for neither change
nothing. -/
theorem switches_follow_host (div : Word) (B P gap : Nat) (hdiv : Divides div B)
    (htuned : Tuned B P gap) (line : Nat → Option (Frame 8)) (hline : Spaced gap line)
    (inp : Nat → In) (hrx : ∀ t, (inp t).rx = level P (line t)) (t : Nat) :
    (∀ i, i < 64 → (run div inp (t + (done B + 3) + 1)).twin.sw.getLsbD i =
        said (i + 1) (begun line t)) ∧
      ∀ j, j < 8 → (run div inp (t + (done B + 3) + 1)).twin.key.getLsbD j =
        said (65 + j) (begun line t) := by
  have hshows := fun t => shows_panel hdiv htuned hline hrx t
  rw [← @Uart.heard_of_begun div B P gap line (uartInAt div inp) hdiv htuned hline hrx t]
  constructor
  · intro i hi
    exact @follows_commands div inp (fun t => (run div inp t).twin.sw.getLsbD i) (i + 1)
      BitVec.getLsbD_zero hshows (fun t => TwinController.sw_next hi) _
  · intro j hj
    exact @follows_commands div inp (fun t => (run div inp t).twin.key.getLsbD j) (65 + j)
      BitVec.getLsbD_zero hshows (fun t => TwinController.key_next hj) _

/-- The host sends the byte `x` with bits of 5208 cycles. -/
def hostSends (x : BitVec 8) (t : Nat) : In :=
  { rx := level 5208 (Uart.single x t), seg := 0#40, led := 0#32 }

/-- Switch 2 is set. -/
theorem switches_follow_host_set :
    (∀ i, i < 64 →
        (run (Uart.BAUD_DIV 50000000#32 9600#32) (hostSends 0x83#8)
          (2 + (done 5208 + 3) + 1)).twin.sw.getLsbD i =
        said (i + 1) (begun (Uart.single 0x83#8) 2)) ∧
      ∀ j, j < 8 →
        (run (Uart.BAUD_DIV 50000000#32 9600#32) (hostSends 0x83#8)
          (2 + (done 5208 + 3) + 1)).twin.key.getLsbD j =
        said (65 + j) (begun (Uart.single 0x83#8) 2) :=
  switches_follow_host (Uart.BAUD_DIV 50000000#32 9600#32) 5208 5208 52080
    { toNat := by decide, pos := by decide, le := by decide }
    { early := by decide, late := by decide, stop := by decide, rest := by decide }
    (Uart.single 0x83#8) (Uart.spaced_single 52080 0x83#8) (hostSends 0x83#8) (fun _ => rfl) 2

end Panel
end Board
end RiscvCpu
