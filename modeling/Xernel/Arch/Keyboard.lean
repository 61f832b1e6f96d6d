import Xernel.Word
import Mathlib.Logic.Function.Basic

/-!
# The PS/2 keyboard (`arch/x86_64/keyboard.rs`)

The interrupt handler translates a scancode and pushes the character into a ring buffer, which the
read calls drain.
-/

namespace Xernel
namespace Keyboard

def ringCap : ℕ := 256

structure Ring where
  data : ℕ → UInt8
  head : ℕ
  tail : ℕ

namespace Ring

def new : Ring := { data := fun _ => 0, head := 0, tail := 0 }

/-- Push a byte; silently drops it if the buffer is full. -/
def push (r : Ring) (b : UInt8) : Ring :=
  let next := (r.tail + 1) % ringCap
  if next ≠ r.head then { r with data := Function.update r.data r.tail b, tail := next } else r

def pop (r : Ring) : Option UInt8 × Ring :=
  if r.head = r.tail then (none, r)
  else (some (r.data r.head), { r with head := (r.head + 1) % ringCap })

/-- The drain loop of `read` and `read_nb`: up to `n` buffered bytes. -/
def drain : ℕ → Ring → List UInt8 × Ring
  | 0, r => ([], r)
  | n + 1, r =>
    match r.pop with
    | (none, r) => ([], r)
    | (some b, r) => (b :: (drain n r).1, (drain n r).2)

end Ring

/-- Scancode set 1 make-codes to ASCII; `0` is no character. -/
def sc1 : List UInt8 :=
  [0, 0, 0x31, 0x32, 0x33, 0x34, 0x35, 0x36, 0x37, 0x38, 0x39, 0x30, 0x2d, 0x3d, 0x08, 0x09,
   0x71, 0x77, 0x65, 0x72, 0x74, 0x79, 0x75, 0x69, 0x6f, 0x70, 0x5b, 0x5d, 0x0a, 0, 0x61, 0x73,
   0x64, 0x66, 0x67, 0x68, 0x6a, 0x6b, 0x6c, 0x3b, 0x27, 0x60, 0, 0x5c, 0x7a, 0x78, 0x63, 0x76,
   0x62, 0x6e, 0x6d, 0x2c, 0x2e, 0x2f, 0, 0x2a, 0, 0x20]

/-- The character of a scancode; `none` for release codes and unmapped keys. -/
def translate (scancode : UInt8) : Option UInt8 :=
  match sc1[scancode.toNat]? with
  | none => none
  | some c => if c ≠ 0 then some c else none

/-- The effect of `irq_handler` on the buffer. -/
def irqHandler (r : Ring) (scancode : UInt8) : Ring :=
  (translate scancode).elim r r.push

end Keyboard
end Xernel
