import RiscvCpu.Rtl.CpuTop

/-!
# TbCpuTop — the core between one-cycle memories

The closed system of `test/tb_cpu_top.sv`: `plic_irq` is tied to 0, and both memories answer a
request of one cycle in the next and hold their output while they are not enabled.  The instruction
memory is any function of the address.  The data memory is flat: one word for each word address.
-/

namespace RiscvCpu

namespace Cpu

/-- The power-up state with every register at zero. -/
def zero : Cpu :=
  let entry : IfStage.BpEntry := ⟨0#23, 0#2, 0#32⟩
  { fs :=
      ⟨false, false, 0#32, false, 0#32, fun _ => false, fun _ => false, fun _ => entry,
        fun _ => entry, false, entry, false, 0#32, false, 0#32⟩
    ds := IdStage.reset
    es :=
      { buf := SkidBuffer.reset ExeStage.resetPayload
        mul :=
          ⟨⟨false, false, false, false, 0#32, 0#32, 0#32, false, false, false, 0#32, 0#32, 0#32,
            0#32, 0#17, 0#32⟩, 0#2, false, 0#64, 0#64⟩
        divider := Divider.reset }
    ms := MemStage.reset
    ws := WbStage.reset
    regfile := Regfiles.reset
    regFpu := Regfiles.reset
    csr := RegfileCsr.reset
    stack := ⟨fun _ => false, fun _ => 0#12, fun _ => 0#32, false, 0#32⟩ }

end Cpu

/-- The core with the output registers of its memories and the contents of the data memory. -/
structure Tb where
  cpu : Cpu
  imemRdata : Word
  dmemRdata : Word
  dmem : DMem

namespace Tb

variable (cfg : Config) (imem : Word → Word)

def inputs (s : Tb) : CpuIn :=
  { imemRdata := s.imemRdata, dmemRdata := s.dmemRdata, plicIrq := false }

def reset (cpu : Cpu) (dmem : DMem) : Tb :=
  { cpu := cpu.reset, imemRdata := 0#32, dmemRdata := 0#32, dmem := dmem }

def next (s : Tb) : Tb :=
  let i := s.inputs
  { cpu := Cpu.next cfg s.cpu i
    imemRdata :=
      if Cpu.imemEn cfg s.cpu i then imem (Cpu.imemAddr cfg s.cpu) else s.imemRdata
    dmemRdata :=
      if Cpu.dmemEn cfg s.cpu i then s.dmem (wordAddr (Cpu.dmemAddr s.cpu)) else s.dmemRdata
    dmem :=
      if Cpu.dmemEn cfg s.cpu i then
        s.dmem.write (Cpu.dmemAddr s.cpu) (Cpu.dmemWen cfg s.cpu i) (Cpu.dmemWdata s.cpu)
      else s.dmem }

/-- The system in cycle `t` after reset. -/
def run (cpu : Cpu) (dmem : DMem) : Nat → Tb
  | 0 => reset cpu dmem
  | t + 1 => next cfg imem (run cpu dmem t)

end Tb
end RiscvCpu
