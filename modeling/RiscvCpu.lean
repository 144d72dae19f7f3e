import RiscvCpu.Lib.Chain
import RiscvCpu.Lib.Clocked
import RiscvCpu.Lib.Frames
import RiscvCpu.Lib.Gray
import RiscvCpu.Lib.Matcher
import RiscvCpu.Lib.Memory
import RiscvCpu.Lib.RegisterFile
import RiscvCpu.Lib.Ring
import RiscvCpu.Lib.Serial
import RiscvCpu.Lib.SkidBuffer
import RiscvCpu.Lib.UniqueCase
import RiscvCpu.Rtl.CpuTop
import RiscvCpu.Rtl.Decode
import RiscvCpu.Rtl.Defines
import RiscvCpu.Rtl.Divider
import RiscvCpu.Rtl.ExeStage
import RiscvCpu.Rtl.IdStage
import RiscvCpu.Rtl.IfStage
import RiscvCpu.Rtl.MemStage
import RiscvCpu.Rtl.Mul
import RiscvCpu.Rtl.MulDivIp
import RiscvCpu.Rtl.MulPipeline
import RiscvCpu.Rtl.RegfileCsr
import RiscvCpu.Rtl.StackValueBuffer
import RiscvCpu.Rtl.TbCpuTop
import RiscvCpu.Rtl.WbStage
import RiscvCpu.Soc.Bridge
import RiscvCpu.Soc.Defines
import RiscvCpu.Soc.Io
import RiscvCpu.Soc.MyCpu
import RiscvCpu.Soc.Plic
import RiscvCpu.Soc.System
import RiscvCpu.Soc.Timer
import RiscvCpu.Soc.Uart
import RiscvCpu.Isa.BitManip
import RiscvCpu.Isa.Encoding
import RiscvCpu.Isa.Instr
import RiscvCpu.Isa.Machine
import RiscvCpu.Isa.System
import RiscvCpu.Isa.Trace
import RiscvCpu.Board.Adapter
import RiscvCpu.Board.Command
import RiscvCpu.Board.Counter
import RiscvCpu.Board.Crossing
import RiscvCpu.Board.Display
import RiscvCpu.Board.Panel
import RiscvCpu.Board.PeripBridge
import RiscvCpu.Board.Program
import RiscvCpu.Board.Ready
import RiscvCpu.Board.Receiver
import RiscvCpu.Board.Report
import RiscvCpu.Board.Transmitter
import RiscvCpu.Board.TwinController
import RiscvCpu.Board.Uart
import RiscvCpu.Bus.Load
import RiscvCpu.Bypass.LiveLoad
import RiscvCpu.Csr.Coherence
import RiscvCpu.Csr.Instret
import RiscvCpu.Csr.Registers
import RiscvCpu.Devices.Arbiter
import RiscvCpu.Devices.Claim
import RiscvCpu.Devices.Fifo
import RiscvCpu.Devices.Loopback
import RiscvCpu.Devices.Pending
import RiscvCpu.Devices.Period
import RiscvCpu.Devices.Polling
import RiscvCpu.Devices.Service
import RiscvCpu.Pipeline.Boundary
import RiscvCpu.Pipeline.Control
import RiscvCpu.Pipeline.Fetch
import RiscvCpu.Pipeline.Label
import RiscvCpu.Pipeline.Packet
import RiscvCpu.Pipeline.Path
import RiscvCpu.Pipeline.Predictor
import RiscvCpu.Pipeline.Request
import RiscvCpu.Pipeline.Squash
import RiscvCpu.Pipeline.Stale
import RiscvCpu.Pipeline.Trap
import RiscvCpu.Progress.Delivery
import RiscvCpu.Progress.Interrupt
import RiscvCpu.Progress.Pipeline
import RiscvCpu.Progress.Unit
import RiscvCpu.Refine.Access
import RiscvCpu.Refine.Agree
import RiscvCpu.Refine.BitManip
import RiscvCpu.Refine.Chip
import RiscvCpu.Refine.Classes
import RiscvCpu.Refine.Closed
import RiscvCpu.Refine.Drain
import RiscvCpu.Refine.Execute
import RiscvCpu.Refine.Firmware
import RiscvCpu.Refine.Hart
import RiscvCpu.Refine.Leaving
import RiscvCpu.Refine.MemRequest
import RiscvCpu.Refine.Misaligned
import RiscvCpu.Refine.MulDiv
import RiscvCpu.Refine.Open
import RiscvCpu.Refine.Operands
import RiscvCpu.Refine.Predict
import RiscvCpu.Refine.Privileged
import RiscvCpu.Refine.Retire
import RiscvCpu.Refine.Select
import RiscvCpu.Refine.Sequential
import RiscvCpu.Refine.Simulation
import RiscvCpu.Refine.Stream
import RiscvCpu.Refine.System
import RiscvCpu.Refine.Unstacked
import RiscvCpu.Refine.Values
import RiscvCpu.Sim.Capture
import RiscvCpu.Sim.Hearing
import RiscvCpu.Sim.UartDecoder
import RiscvCpu.Stack.Alias
import RiscvCpu.Stack.Buffer
import RiscvCpu.Stack.Forward
import RiscvCpu.Stack.Lookup
import RiscvCpu.Stack.Operand
import RiscvCpu.Units.Agreement
import RiscvCpu.Units.Backpressure
import RiscvCpu.Units.Division
import RiscvCpu.Units.Multiplier
