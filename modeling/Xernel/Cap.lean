import Mathlib.Data.List.Basic
import Mathlib.Data.Option.Basic
import Mathlib.Tactic.Common
import Xernel.Word

/-!
# Capability tables (`cap.rs`)

A capability names an object of some kind; a `CNode` is a table of slots, each empty or holding
one capability. Processes name capabilities by slot index and gain them only through `insert`,
which refuses occupied and out-of-range slots.
-/

namespace Xernel

/-- The kind of object a capability refers to. -/
inductive CapType
  | null | untyped | cNode | frame | pageTable | thread | vSpace | endpoint | notification
  | irqHandler | ioPort | ioMem | process
  deriving Repr, DecidableEq

/-- The ABI number of a capability type. -/
def CapType.toNat : CapType → ℕ
  | null => 0 | untyped => 1 | cNode => 2 | frame => 3 | pageTable => 4 | thread => 5
  | vSpace => 6 | endpoint => 7 | notification => 8 | irqHandler => 9 | ioPort => 10
  | ioMem => 11 | process => 12

/-- The errors the table operations return. -/
inductive CapError
  | invalidCap | notPermitted
  deriving Repr, DecidableEq

structure CapEntry where
  capType : CapType
  object : ℕ
  badge : ℕ
  deriving Repr, DecidableEq

namespace CapEntry

def new (capType : CapType) (object : ℕ) : CapEntry := { capType, object, badge := 0 }

/-- The port range `[base, base + count)`, packed into `object`. -/
def ioPort (base count : ℕ) : CapEntry := new .ioPort (base <<< 16 ||| count)

/-- Does the capability cover the port addresses `[port, port + max size 1)`? -/
def authorizesPort (c : CapEntry) (port size : ℕ) : Bool :=
  if c.capType ≠ .ioPort then false
  else
    let base := (c.object >>> 16) % 2 ^ 16
    let count := c.object % 2 ^ 16
    let lo := port
    let hi := lo + max size 1
    decide (base ≤ lo) && decide (hi ≤ base + count)

def process (pid : ℕ) : CapEntry := new .process pid

/-- The PID named by a `Process` capability. -/
def processPid (c : CapEntry) : Option ℕ :=
  if c.capType = .process then some c.object else none

/-- The physical range `[base, base + len)`. -/
def ioMem (base len : ℕ) : CapEntry := { capType := .ioMem, object := base, badge := len }

/-- Does the capability cover the physical range `[phys, phys + len)`? Both ends are computed
with `checked_add`. -/
def authorizesMmio (c : CapEntry) (phys len : ℕ) : Bool :=
  if c.capType ≠ .ioMem then false
  else if phys + len ≤ u64Max ∧ c.object + c.badge ≤ u64Max then
    decide (c.object ≤ phys) && decide (phys + len ≤ c.object + c.badge)
  else false

/-- An allocation budget of `bytes` bytes; `object` is what remains of it. -/
def untyped (bytes : ℕ) : CapEntry := new .untyped bytes

def endpoint (id : ℕ) : CapEntry := new .endpoint id

def notification (id : ℕ) : CapEntry := new .notification id

/-- The physically contiguous run of `pages` pages from `phys`. -/
def frame (phys pages : ℕ) : CapEntry := { capType := .frame, object := phys, badge := pages }

/-- The view `SYS_CAP_IDENTIFY` reports: `(type, a, b)`. -/
def describe (c : CapEntry) : ℕ × ℕ × ℕ :=
  match c.capType with
  | .ioPort => (c.capType.toNat, (c.object >>> 16) % 2 ^ 16, c.object % 2 ^ 16)
  | .untyped => (c.capType.toNat, c.object, 0)
  | _ => (c.capType.toNat, c.object, c.badge)

end CapEntry

structure CNode where
  slots : List (Option CapEntry)
  deriving Repr, DecidableEq

namespace CNode

def new (len : ℕ) : CNode := ⟨List.replicate len none⟩

/-- Read the capability in `index`, if any. -/
def get (c : CNode) (index : ℕ) : Except CapError CapEntry :=
  match c.slots[index]? with
  | none => .error .invalidCap
  | some none => .error .invalidCap
  | some (some cap) => .ok cap

/-- Place `cap` into an empty slot. -/
def insert (c : CNode) (index : ℕ) (cap : CapEntry) : Except CapError CNode :=
  match c.slots[index]? with
  | none => .error .invalidCap
  | some (some _) => .error .notPermitted
  | some none => .ok ⟨c.slots.set index (some cap)⟩

def authorizesPort (c : CNode) (port size : ℕ) : Bool :=
  c.slots.any fun slot => slot.any fun cap => cap.authorizesPort port size

def authorizesMmio (c : CNode) (phys len : ℕ) : Bool :=
  c.slots.any fun slot => slot.any fun cap => cap.authorizesMmio phys len

/-- Charge the first `Untyped` capability among `slots` that still has `amount` bytes. -/
def chargeSlots (amount : ℕ) : List (Option CapEntry) → Option (List (Option CapEntry))
  | [] => none
  | none :: rest => (chargeSlots amount rest).map (none :: ·)
  | some cap :: rest =>
    if cap.capType = .untyped ∧ amount ≤ cap.object then
      some (some { cap with object := cap.object - amount } :: rest)
    else (chargeSlots amount rest).map (some cap :: ·)

/-- `charge_untyped`: the charged table, or `none` where the source returns `false` and changes
nothing. -/
def chargeUntyped (c : CNode) (amount : ℕ) : Option CNode :=
  (chargeSlots amount c.slots).map CNode.mk

/-- Return `amount` bytes to the first `Untyped` capability among `slots`, if there is one. -/
def refundSlots (amount : ℕ) : List (Option CapEntry) → List (Option CapEntry)
  | [] => []
  | none :: rest => none :: refundSlots amount rest
  | some cap :: rest =>
    if cap.capType = .untyped then
      some { cap with object := min (cap.object + amount) u64Max } :: rest
    else some cap :: refundSlots amount rest

def refundUntyped (c : CNode) (amount : ℕ) : CNode := ⟨refundSlots amount c.slots⟩

/-- The capability in slot `i`; `none` for an empty or out-of-range slot. -/
def slot (c : CNode) (i : ℕ) : Option CapEntry := (c.slots[i]?).join

end CNode
end Xernel
