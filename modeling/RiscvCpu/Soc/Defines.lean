import RiscvCpu.Rtl.Defines

/-!
# Defines — `my_cpu_defines.svh` and the register ports of the peripherals

The addresses of the peripherals, the interrupt numbers, and the port through which the bus reaches a
peripheral's registers.
-/

namespace RiscvCpu

namespace Map

def UART_BASE_ADDR : Word := 0x8001_0000#32
def UART_RT_DATA : BitVec 16 := 0x0000#16
def UART_RT_STATUS : BitVec 16 := 0x0004#16
def UART_RT_CTRL : BitVec 16 := 0x0008#16
def UART_RT_BAUD : BitVec 16 := 0x000C#16

def TIMER_BASE_ADDR : Word := 0x8002_0000#32
def TIMER_LOAD : BitVec 16 := 0x0000#16
def TIMER_VALUE : BitVec 16 := 0x0004#16
def TIMER_CTRL : BitVec 16 := 0x0008#16
def TIMER_INTCLR : BitVec 16 := 0x000C#16
def TIMER_PRESCALER : BitVec 16 := 0x0010#16

def LEDS_BASE_ADDR : Word := 0x8003_0000#32

def PLIC_NUM_INTERRUPTS : Nat := 32
def PLIC_PRIORITY_BASE_ADDR : Word := 0x8030_0000#32
def PLIC_PENDING_BASE_ADDR : Word := 0x8030_1000#32
def PLIC_ENABLE_BASE_ADDR : Word := 0x8030_2000#32
def PLIC_THRESHOLD_BASE_ADDR : Word := 0x8030_4000#32
def PLIC_CLAIM_BASE_ADDR : Word := 0x8030_4004#32
def PLIC_IN_SERVICE_BASE_ADDR : Word := 0x8030_5000#32

def TIMER_INT_ID : Nat := 1
def UART_RX_INT_ID : Nat := 2
def UART_TX_INT_ID : Nat := 3

/-- `addr[31:16]`. -/
def page (addr : Word) : BitVec 16 := addr.extractLsb' 16 16

@[simp] theorem page_uart : page UART_BASE_ADDR = 0x8001#16 := rfl
@[simp] theorem page_timer : page TIMER_BASE_ADDR = 0x8002#16 := rfl
@[simp] theorem page_leds : page LEDS_BASE_ADDR = 0x8003#16 := rfl

theorem page_toNat (addr : Word) : (page addr).toNat = addr.toNat / 65536 := by
  have := addr.isLt
  simp only [page, BitVec.extractLsb'_toNat, Nat.shiftRight_eq_div_pow]
  omega

end Map

/-- One access to the register port of a peripheral. -/
structure DevIn where
  addr : BitVec 16
  wdata : Word
  we : Bool
  re : Bool

end RiscvCpu
