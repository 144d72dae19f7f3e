import Mathlib.Init

/-!
# UartDecoder — the serial decoder of `coremark_main.cpp`

The class with which the simulation harness reads the serial output of the chip: it is given the
level of the line once per clock, writes the bytes it decodes to `std::cout`, and reports the end of
the benchmark.  `sample` throws on a low stop bit.
-/

namespace RiscvCpu

def kUartCyclesPerBit : BitVec 32 := 1520#32

/-- A character as a byte. -/
def byteOf (c : Char) : BitVec 8 := BitVec.ofNat 8 c.toNat

def kCompletionMarker : List (BitVec 8) :=
  ['C', 'o', 'r', 'r', 'e', 'c', 't', ' ',
    'o', 'p', 'e', 'r', 'a', 't', 'i', 'o', 'n', ' ',
    'v', 'a', 'l', 'i', 'd', 'a', 't', 'e', 'd', '.'].map byteOf

inductive DecoderState
  | idle
  | start
  | data
  | stop
  deriving DecidableEq

structure UartDecoder where
  state : DecoderState
  countdown : BitVec 32
  bit : BitVec 32
  value : BitVec 8
  markerPos : Nat
  markerSeen : Bool

/-- What one call of `sample` does: the decoder after it, the byte it writes, and its result. -/
structure Sampled where
  decoder : UartDecoder
  put : Option (BitVec 8)
  complete : Bool

namespace UartDecoder

/-- A decoder as it is constructed. -/
def init : UartDecoder :=
  { state := .idle
    countdown := 0#32
    bit := 0#32
    value := 0#8
    markerPos := 0
    markerSeen := false }

/-- The line feed that ends the benchmark. -/
def newline : BitVec 8 := byteOf '\n'

/-- `emit`, behind the write to `std::cout`. -/
def emit (d : UartDecoder) (value : BitVec 8) : UartDecoder × Bool :=
  if !d.markerSeen then
    let pos :=
      if kCompletionMarker[d.markerPos]? = some value then d.markerPos + 1
      -- a byte that does not go on with the marker may be its first one
      else if kCompletionMarker[0]? = some value then 1
      else 0
    ({ d with markerPos := pos, markerSeen := decide (pos = kCompletionMarker.length) }, false)
  else (d, value == newline)

def sample (d : UartDecoder) (tx : Bool) : Except String Sampled :=
  -- `countdown_-- == 0` compares and then counts
  let counted := { d with countdown := d.countdown - 1#32 }
  match d.state with
  | .idle =>
      if !tx then
        .ok ⟨{ d with state := .start, countdown := kUartCyclesPerBit / 2#32 - 1#32 }, none, false⟩
      else .ok ⟨d, none, false⟩
  | .start =>
      if d.countdown == 0#32 then
        if !tx then
          .ok ⟨{ counted with
            state := .data, countdown := kUartCyclesPerBit - 1#32, bit := 0#32, value := 0#8 },
            none, false⟩
        else .ok ⟨{ counted with state := .idle }, none, false⟩
      else .ok ⟨counted, none, false⟩
  | .data =>
      if d.countdown == 0#32 then
        let stored :=
          { counted with
            value := d.value ||| ((BitVec.ofBool tx).setWidth 8 <<< d.bit.toNat)
            countdown := kUartCyclesPerBit - 1#32 }
        if d.bit == 7#32 then .ok ⟨{ stored with state := .stop }, none, false⟩
        else .ok ⟨{ stored with bit := d.bit + 1#32 }, none, false⟩
      else .ok ⟨counted, none, false⟩
  | .stop =>
      if d.countdown == 0#32 then
        if !tx then .error "UART framing error"
        else
          let emitted := emit { counted with state := .idle } d.value
          .ok ⟨emitted.1, some d.value, emitted.2⟩
      else .ok ⟨counted, none, false⟩

end UartDecoder

/-- A decoder and what it has written to `std::cout`. -/
structure DecoderRun where
  decoder : UartDecoder
  out : List (BitVec 8)

/-- A new decoder after `t` samples of the line `tx`. -/
def decode (tx : Nat → Bool) : Nat → Except String DecoderRun
  | 0 => .ok ⟨UartDecoder.init, []⟩
  | t + 1 => do
      let s ← decode tx t
      let a ← s.decoder.sample (tx t)
      return ⟨a.decoder, s.out ++ a.put.toList⟩

end RiscvCpu
