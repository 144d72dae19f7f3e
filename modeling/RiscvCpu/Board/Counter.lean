import RiscvCpu.Lib.Clocked
import RiscvCpu.Lib.Gray
import RiscvCpu.Lib.Memory

/-!
# Counter — `counter.sv`

The millisecond counter of the board, in the domain of `cnt_clk`, and its way to the core, in the domain
of `cpu_clk`.  The two clocks have no relation: a run is any sequence of edges of the two.  When two
edges fall together, what one domain reads of the other may still be old or already new, bit by bit.
-/

namespace RiscvCpu
namespace Board
namespace Counter

structure Regs where
  cntEnableCntD1 : Bool
  cntEnableCntD2 : Bool
  cnt1ms : BitVec 16
  cntMsBin : Word
  cntGrayCpuD1 : Word
  cntGrayCpuD2 : Word

def reset : Regs :=
  { cntEnableCntD1 := false
    cntEnableCntD2 := false
    cnt1ms := 0#16
    cntMsBin := 0#32
    cntGrayCpuD1 := 0#32
    cntGrayCpuD2 := 0#32 }

variable (r : Regs)

/-- A millisecond is over. -/
def tick : Bool := r.cntEnableCntD2 && r.cnt1ms == 49999#16

/-- `cnt_ms_bin ^ (cnt_ms_bin >> 1)`. -/
def cntMsGray : Word := Gray.encode r.cntMsBin

def grayToBin (gray : Word) : Word := Gray.decode gray

/-- `perip_rdata`. -/
def peripRdata : Word := grayToBin r.cntGrayCpuD2

/-- An edge of `cnt_clk` that reads `enable` on `cnt_enable_cpu`. -/
def cntEdge (enable : Bool) : Regs :=
  { r with
    cntEnableCntD1 := enable
    cntEnableCntD2 := r.cntEnableCntD1
    cnt1ms :=
      if r.cntEnableCntD2 then (if r.cnt1ms == 49999#16 then 0#16 else r.cnt1ms + 1#16) else 0#16
    cntMsBin := if tick r then r.cntMsBin + 1#32 else r.cntMsBin }

/-- An edge of `cpu_clk` that reads `gray` on `cnt_ms_gray`. -/
def cpuEdge (gray : Word) : Regs :=
  { r with cntGrayCpuD1 := gray, cntGrayCpuD2 := r.cntGrayCpuD1 }

/-- What comes next: an edge of one clock, or of both.  `late` marks the bits of the Gray code that the
core reads after the edge of the counter. -/
inductive Edge
  | cnt (enable : Bool)
  | cpu
  | both (enable : Bool) (late : Word)

def next : Edge → Regs
  | .cnt enable => cntEdge r enable
  | .cpu => cpuEdge r (cntMsGray r)
  | .both enable late =>
      cpuEdge (cntEdge r enable) (Gray.mix late (cntMsGray r) (cntMsGray (cntEdge r enable)))

/-- The registers after the first `t` edges. -/
def run (edges : Nat → Edge) (t : Nat) : Regs := Clocked.run next reset edges t

end Counter
end Board
end RiscvCpu
