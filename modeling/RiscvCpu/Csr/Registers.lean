import RiscvCpu.Lib.RegisterFile
import RiscvCpu.Pipeline.Packet

/-!
# Registers — the CSR instructions as accesses to a register file

The CSR file without its bypass, as an instance of `RegisterFile`: thirteen addresses have a register
and the others read as zero, except the two counters, whose contents no instruction decides.
`accessOf` is what a CSR instruction does to the file according to its word and its operand.
-/

namespace RiscvCpu

namespace Csr

/-- The addresses with a register behind them. -/
def registers : List (BitVec 12) :=
  [MSTATUS, MISA, MTVEC, MEPC, MCAUSE, MHARTID, MIE, MIP, MTVAL, MVENDORID, MARCHID, MIMPID,
    MSCRATCH]

def implemented (a : BitVec 12) : Bool := decide (a ∈ registers)

/-- `cycle` and `instret`. -/
def counter (a : BitVec 12) : Bool := a == CYCLE || a == INSTRET

theorem counter_of_implemented : ∀ a, implemented a = true → counter a = false := by
  intro a h
  simp only [implemented, registers, decide_eq_true_eq, List.mem_cons, List.not_mem_nil,
    or_false] at h
  rcases h with rfl | rfl | rfl | rfl | rfl | rfl | rfl | rfl | rfl | rfl | rfl | rfl | rfl
  all_goals rfl

def layout : RegisterFile.Layout (BitVec 12) Word := { implemented := implemented, absent := 0#32 }

/-- The access that the CSR instruction `x` makes with the value `operand`. -/
def accessOf (x operand : Word) : RegisterFile.Access (BitVec 12) Word :=
  { addr := Decode.csrAddr x
    write := Decode.csrWen x
    modify := fun old =>
      if (Decode.csrOp x).rw then operand
      else if (Decode.csrOp x).rs then old ||| operand
      else old &&& ~~~operand }

end Csr

namespace RegfileCsr

open Csr

/-! ## The thirteen registers -/

theorem File.read_of_absent (f : File) {a : BitVec 12} (h : implemented a = false) :
    f.read a = none := by
  simp only [implemented, registers, decide_eq_false_iff_not, List.mem_cons, List.not_mem_nil,
    or_false, not_or] at h
  simp [File.read, h]

theorem File.write_of_absent (f : File) {a : BitVec 12} (x : Word) (h : implemented a = false) :
    f.write a x = f := by
  simp only [implemented, registers, decide_eq_false_iff_not, List.mem_cons, List.not_mem_nil,
    or_false, not_or] at h
  simp [File.write, h]

/-- A register holds the last value written, and the other registers keep theirs. -/
theorem File.read_write (f : File) {a : BitVec 12} (b : BitVec 12) (x : Word)
    (h : implemented a = true) :
    (f.write a x).read b = if b = a then some x else f.read b := by
  simp only [implemented, registers, decide_eq_true_eq, List.mem_cons, List.not_mem_nil,
    or_false] at h
  rcases h with rfl | rfl | rfl | rfl | rfl | rfl | rfl | rfl | rfl | rfl | rfl | rfl | rfl
  all_goals
    split
    · subst b
      rfl
    · rename_i hb
      simp only [MSTATUS, MISA, MTVEC, MEPC, MCAUSE, MHARTID, MIE, MIP, MTVAL, MVENDORID, MARCHID,
        MIMPID, MSCRATCH] at hb
      simp [File.read, File.write, hb, MSTATUS, MISA, MTVEC, MEPC, MCAUSE, MHARTID, MIE, MIP,
        MTVAL, MVENDORID, MARCHID, MIMPID, MSCRATCH]

theorem File.read_write_other (f : File) {a b : BitVec 12} (x : Word) (h : b ≠ a) :
    (f.write a x).read b = f.read b := by
  cases ha : implemented a with
  | true => rw [f.read_write b x ha, if_neg h]
  | false => rw [f.write_of_absent x ha]

end RegfileCsr
end RiscvCpu
