import RiscvCpu.Board.TwinController
import RiscvCpu.Lib.Clocked
import Mathlib.Tactic.IntervalCases

/-!
# Display — `display_seg.sv` and `seg7.sv`

The display shows the word at `SEG_ADDR`, four of its eight digits at a time.  What a report says of the
board can be read back from its bytes: the switches, the keys, the LEDs, and the digits that the display
shows at the time.
-/

namespace RiscvCpu
namespace Board

namespace Display

def seg7 (din : BitVec 4) : BitVec 7 :=
  if din = 0x0#4 then 0b0111111#7
  else if din = 0x1#4 then 0b0000110#7
  else if din = 0x2#4 then 0b1011011#7
  else if din = 0x3#4 then 0x4f#7
  else if din = 0x4#4 then 0x66#7
  else if din = 0x5#4 then 0x6d#7
  else if din = 0x6#4 then 0x7d#7
  else if din = 0x7#4 then 0x07#7
  else if din = 0x8#4 then 0x7f#7
  else if din = 0x9#4 then 0x6f#7
  else if din = 0xa#4 then 0x77#7
  else if din = 0xb#4 then 0x7c#7
  else if din = 0xc#4 then 0x39#7
  else if din = 0xd#4 then 0x5e#7
  else if din = 0xe#4 then 0x79#7
  else 0x71#7

/-- Digit `k` of a word. -/
def nibble (s : Word) (k : Nat) : BitVec 4 := s.extractLsb' (4 * k) 4

def next (count : BitVec 5) : BitVec 5 := count + 1#5

/-- The digit at place `i` of the display. -/
def digit (count : BitVec 5) (s : Word) (i : Nat) : BitVec 4 :=
  if count.getLsbD 4 then nibble s (2 * i) else nibble s (2 * i + 1)

def ans (count : BitVec 5) : BitVec 8 := if count.getLsbD 4 then 0b01010101#8 else 0b10101010#8

/-- The ten bits of `seg_output` for place `i`. -/
def place (count : BitVec 5) (s : Word) (i : Nat) : BitVec 10 :=
  (ans count).extractLsb' (2 * i) 2 ++ (0#1 ++ seg7 (digit count s i))

/-- `seg_output` of the bridge. -/
def segOutput (count : BitVec 5) (s : Word) : BitVec 40 :=
  place count s 3 ++ (place count s 2 ++ (place count s 1 ++ place count s 0))

/-- `count` in cycle `t` after reset. -/
def run : Nat → BitVec 5
  | 0 => 0#5
  | t + 1 => next (run t)

/-! ## What can be read -/

/-- The digit with the pattern `x`. -/
def digitOf (x : BitVec 7) : Option (BitVec 4) :=
  ((List.range 16).map (BitVec.ofNat 4)).find? fun d => seg7 d == x

theorem digitOf_seg7 (d : BitVec 4) : digitOf (seg7 d) = some d := by
  revert d
  decide

/-- What the display says of digit `k`, if it shows it. -/
def shown (out : BitVec 40) (k : Nat) : Option (BitVec 4) :=
  if out.extractLsb' (10 * (k / 2) + 8) 2 = (if k % 2 = 0 then 0b01#2 else 0b10#2) then
    digitOf (out.extractLsb' (10 * (k / 2)) 7)
  else none

/-- A field of four places of ten bits. -/
theorem extract_places (x : Nat → BitVec 10) {i lo n : Nat} (hi : i < 4) (hlo : lo + n ≤ 10) :
    (x 3 ++ (x 2 ++ (x 1 ++ x 0))).extractLsb' (10 * i + lo) n = (x i).extractLsb' lo n := by
  apply BitVec.eq_of_getLsbD_eq
  intro j hj
  simp only [BitVec.getLsbD_extractLsb', BitVec.getLsbD_append, hj, decide_true, Bool.true_and]
  interval_cases i
  all_goals
    repeat' split
    all_goals first
      | omega
      | exact congrArg _ (by omega)

theorem place_pattern (count : BitVec 5) (s : Word) (i : Nat) :
    (place count s i).extractLsb' 0 7 = seg7 (digit count s i) := by
  apply BitVec.eq_of_getLsbD_eq
  intro j hj
  have hlt : j < 1 + 7 := by omega
  simp only [place, BitVec.getLsbD_extractLsb', BitVec.getLsbD_append, hj, hlt, decide_true,
    Bool.true_and, Nat.zero_add, if_true]

theorem place_ans (count : BitVec 5) (s : Word) {i : Nat} (hi : i < 4) :
    (place count s i).extractLsb' 8 2 = if count.getLsbD 4 then 0b01#2 else 0b10#2 := by
  have hplace : (place count s i).extractLsb' 8 2 = (ans count).extractLsb' (2 * i) 2 := by
    apply BitVec.eq_of_getLsbD_eq
    intro j hj
    have hge : ¬ 8 + j < 1 + 7 := by omega
    simp only [place, BitVec.getLsbD_extractLsb', BitVec.getLsbD_append, hj, hge, decide_true,
      Bool.true_and, if_false, Nat.add_sub_cancel_left]
  rw [hplace, ans]
  interval_cases i <;> split <;> rfl

/-- A digit is shown in the half of the scan that is its own, and is the right one. -/
theorem shown_segOutput (count : BitVec 5) (s : Word) {k : Nat} (hk : k < 8) :
    shown (segOutput count s) k =
      if count.getLsbD 4 = decide (k % 2 = 0) then some (nibble s k) else none := by
  have hi : k / 2 < 4 := by omega
  have hans : (segOutput count s).extractLsb' (10 * (k / 2) + 8) 2 = _ :=
    (extract_places (place count s) hi (by decide)).trans (place_ans count s hi)
  have hpattern : (segOutput count s).extractLsb' (10 * (k / 2)) 7 = _ :=
    (@extract_places (place count s) _ 0 7 hi (by decide)).trans (place_pattern count s (k / 2))
  rw [shown, hans, hpattern, digitOf_seg7, digit]
  rcases Nat.mod_two_eq_zero_or_one k with heven | hodd
  · have hk2 : 2 * (k / 2) = k := by omega
    cases hphase : count.getLsbD 4 <;> simp [heven, hk2]
  · have hk2 : 2 * (k / 2) + 1 = k := by omega
    cases hphase : count.getLsbD 4 <;> simp [hodd, hk2]

theorem run_getLsbD (t : Nat) : (run t).getLsbD 4 = decide (16 ≤ t % 32) := by
  have hrun : run t = BitVec.ofNat 5 t := by
    induction t with
    | zero => rfl
    | succ t ih => rw [run, next, ih, BitVec.ofNat_add]
  rw [hrun, BitVec.getLsbD_ofNat, Nat.testBit_eq_decide_div_mod_eq]
  simp only [show (4 : Nat) < 5 by decide, decide_true, Bool.true_and, decide_eq_decide]
  omega

end Display

namespace TwinController

open Display

/-! ## What a report says -/

def segOf (v : Vector (BitVec 8) 18) : BitVec 40 := v[4] ++ (v[3] ++ (v[2] ++ (v[1] ++ v[0])))

def keyOf (v : Vector (BitVec 8) 18) : BitVec 8 := v[5]

def swOf (v : Vector (BitVec 8) 18) : BitVec 64 :=
  v[13] ++ (v[12] ++ (v[11] ++ (v[10] ++ (v[9] ++ (v[8] ++ (v[7] ++ v[6]))))))

def ledOf (v : Vector (BitVec 8) 18) : Word := v[17] ++ (v[16] ++ (v[15] ++ v[14]))

/-- A byte on top of the bits below it. -/
theorem extract_join {n : Nat} (x : BitVec n) (m : Nat) :
    x.extractLsb' m 8 ++ x.extractLsb' 0 m = x.extractLsb' 0 (8 + m) :=
  BitVec.extractLsb'_append_extractLsb'_eq_extractLsb' (Nat.zero_add m).symm

/-- The host gets back what the report was made of. -/
theorem fields_status (seg : BitVec 40) (key : BitVec 8) (sw : BitVec 64) (led : Word) :
    segOf (status seg key sw led) = seg ∧ keyOf (status seg key sw led) = key ∧
      swOf (status seg key sw led) = sw ∧ ledOf (status seg key sw led) = led := by
  refine ⟨?_, rfl, ?_, ?_⟩
  · show seg.extractLsb' 32 8 ++ (seg.extractLsb' 24 8 ++ (seg.extractLsb' 16 8 ++
      (seg.extractLsb' 8 8 ++ seg.extractLsb' 0 8))) = seg
    rw [extract_join seg 8, extract_join seg 16, extract_join seg 24, extract_join seg 32]
    exact BitVec.extractLsb'_eq_self
  · show sw.extractLsb' 56 8 ++ (sw.extractLsb' 48 8 ++ (sw.extractLsb' 40 8 ++
      (sw.extractLsb' 32 8 ++ (sw.extractLsb' 24 8 ++ (sw.extractLsb' 16 8 ++
        (sw.extractLsb' 8 8 ++ sw.extractLsb' 0 8)))))) = sw
    rw [extract_join sw 8, extract_join sw 16, extract_join sw 24, extract_join sw 32,
      extract_join sw 40, extract_join sw 48, extract_join sw 56]
    exact BitVec.extractLsb'_eq_self
  · show led.extractLsb' 24 8 ++ (led.extractLsb' 16 8 ++ (led.extractLsb' 8 8 ++
      led.extractLsb' 0 8)) = led
    rw [extract_join led 8, extract_join led 16, extract_join led 24]
    exact BitVec.extractLsb'_eq_self

/-- From a report the host reads the switches, the keys and the LEDs as they were, and no digit of the
display but a right one; and in any 32 cycles of the scan there is one for each of the eight digits in
which a report would show it. -/
theorem report_reads_back (s : Nat → Word) (key : BitVec 8) (sw : BitVec 64) (led : Word) (t : Nat) :
    let report := fun u => status (segOutput (Display.run u) (s u)) key sw led
    swOf (report t) = sw ∧ keyOf (report t) = key ∧ ledOf (report t) = led ∧
      ∀ k, k < 8 →
        (∀ d, shown (segOf (report t)) k = some d → d = nibble (s t) k) ∧
          ∃ u, t ≤ u ∧ u < t + 32 ∧ shown (segOf (report u)) k = some (nibble (s u) k) := by
  intro report
  have hfields := fun u => fields_status (segOutput (Display.run u) (s u)) key sw led
  rcases hfields t with ⟨-, hkey, hsw, hled⟩
  refine ⟨hsw, hkey, hled, ?_⟩
  intro k hk
  have hshown : ∀ u, shown (segOf (report u)) k =
      if decide (16 ≤ u % 32) = decide (k % 2 = 0) then some (nibble (s u) k) else none := by
    intro u
    rw [← run_getLsbD, ← shown_segOutput _ _ hk]
    exact congrArg (shown · k) (hfields u).1
  constructor
  · intro d hd
    rw [hshown] at hd
    split at hd
    next => exact (Option.some.inj hd).symm
    next => cases hd
  · -- the half of the scan in which `k` is shown begins in one of the next 32 cycles
    have hphase : ∃ u, t ≤ u ∧ u < t + 32 ∧ (16 ≤ u % 32 ↔ k % 2 = 0) := by
      rcases Nat.mod_two_eq_zero_or_one k with heven | hodd
      · rcases Nat.lt_or_ge (t % 32) 16 with hlt | hge
        · exact ⟨t + (16 - t % 32), by omega, by omega, by omega⟩
        · exact ⟨t, by omega, by omega, by omega⟩
      · rcases Nat.lt_or_ge (t % 32) 16 with hlt | hge
        · exact ⟨t, by omega, by omega, by omega⟩
        · exact ⟨t + (32 - t % 32), by omega, by omega, by omega⟩
    rcases hphase with ⟨u, htu, hut, hiff⟩
    refine ⟨u, htu, hut, ?_⟩
    rw [hshown, if_pos (decide_eq_decide.mpr hiff)]

end TwinController
end Board
end RiscvCpu
