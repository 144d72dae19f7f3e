import Mathlib.Init
import Mathlib.Logic.Function.Basic

/-!
# Memory — a flat memory with byte strobes

A memory of 32-bit words, one for each word address, written with four byte strobes.
-/

namespace RiscvCpu

abbrev Word := BitVec 32

/-- A flat word-addressed memory. -/
abbrev DMem := BitVec 30 → Word

/-- `addr[31:2]`. -/
def wordAddr (addr : Word) : BitVec 30 := addr.extractLsb' 2 30

/-- One byte lane of a strobed write. -/
def strobeByte (wen : BitVec 4) (lane : Nat) (old new : Word) : BitVec 8 :=
  if wen.getLsbD lane then new.extractLsb' (8 * lane) 8 else old.extractLsb' (8 * lane) 8

/-- The word left by a write of `new` over `old` with byte strobes. -/
def strobeWord (wen : BitVec 4) (old new : Word) : Word :=
  strobeByte wen 3 old new ++ strobeByte wen 2 old new ++ strobeByte wen 1 old new ++
    strobeByte wen 0 old new

theorem strobeByte_zero (lane : Nat) (old new : Word) :
    strobeByte 0#4 lane old new = old.extractLsb' (8 * lane) 8 := by
  simp [strobeByte]

theorem bytes_append (x : Word) :
    x.extractLsb' 24 8 ++ x.extractLsb' 16 8 ++ x.extractLsb' 8 8 ++ x.extractLsb' 0 8 = x := by
  apply BitVec.eq_of_getLsbD_eq
  intro i hi
  simp only [BitVec.getLsbD_append, BitVec.getLsbD_extractLsb']
  grind

/-- No strobe leaves the word as it was. -/
theorem strobeWord_none (old new : Word) : strobeWord 0#4 old new = old := by
  simpa [strobeWord, strobeByte_zero] using bytes_append old

/-- All four strobes replace the word. -/
theorem strobeWord_full (old new : Word) : strobeWord 0b1111#4 old new = new := by
  have hbit : ∀ lane < 4, (0b1111#4).getLsbD lane = true := by decide
  have hbyte (lane : Nat) (h : lane < 4) :
      strobeByte 0b1111#4 lane old new = new.extractLsb' (8 * lane) 8 := by
    simp [strobeByte, hbit lane h]
  rw [strobeWord, hbyte 3 (by omega), hbyte 2 (by omega), hbyte 1 (by omega), hbyte 0 (by omega)]
  exact bytes_append new

/-- The lanes without a strobe do not matter. -/
theorem strobeWord_lanes (wen : BitVec 4) (old new : Word) :
    strobeWord wen old (strobeWord wen 0#32 new) = strobeWord wen old new := by
  have hbyte (lane : Nat) (h : lane = 0 ∨ lane = 1 ∨ lane = 2 ∨ lane = 3) :
      strobeByte wen lane old (strobeWord wen 0#32 new) = strobeByte wen lane old new := by
    cases hw : wen.getLsbD lane with
    | false => simp [strobeByte, hw]
    | true =>
        simp only [strobeByte, hw, if_true]
        apply BitVec.eq_of_getLsbD_eq
        intro n hn
        rcases h with rfl | rfl | rfl | rfl <;>
        · simp only [strobeWord, strobeByte, hw, BitVec.getLsbD_append, BitVec.getLsbD_extractLsb']
          grind
  rw [strobeWord, hbyte 3 (by simp), hbyte 2 (by simp), hbyte 1 (by simp), hbyte 0 (by simp)]
  rfl

namespace DMem

/-- A strobed write to the word that holds `addr`. -/
def write (m : DMem) (addr : Word) (wen : BitVec 4) (wdata : Word) : DMem :=
  Function.update m (wordAddr addr) (strobeWord wen (m (wordAddr addr)) wdata)

variable {m : DMem} {addr : Word} {wen : BitVec 4} {wdata : Word}

theorem write_same :
    m.write addr wen wdata (wordAddr addr) = strobeWord wen (m (wordAddr addr)) wdata :=
  Function.update_self ..

theorem write_other {a : BitVec 30} (h : a ≠ wordAddr addr) : m.write addr wen wdata a = m a :=
  Function.update_of_ne h ..

/-- A write without a strobe writes nothing. -/
theorem write_none : m.write addr 0#4 wdata = m := by
  rw [write, strobeWord_none, Function.update_eq_self]

theorem write_lanes : m.write addr wen (strobeWord wen 0#32 wdata) = m.write addr wen wdata := by
  rw [write, write, strobeWord_lanes]

end DMem

end RiscvCpu
