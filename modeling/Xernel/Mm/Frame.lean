import Xernel.Lib.Pool
import Xernel.Word

/-!
# The physical frame allocator (`mm/frame.rs`)

Frames are bumped off the usable regions in order; frames given back go on a free list, which
`alloc` prefers and `allocContiguous` never uses. Addresses are natural numbers: every
address the allocator computes stays far below `2 ^ 64` (`AllocatorRun.no_overflow`).
-/

namespace Xernel

/-- A half-open physical range `[start, stop)`, in bytes. -/
structure Region where
  start : ℕ
  stop : ℕ
  deriving Repr, DecidableEq

/-- The page-rounded form of a region: the whole frames inside it. -/
def Region.rounded (r : Region) : Region :=
  { start := pageUp r.start, stop := pageDown r.stop }

/-- No address lies in both ranges. -/
def Region.Disjoint (r r' : Region) : Prop :=
  ∀ x, r.start ≤ x → x < r.stop → r'.start ≤ x → r'.stop ≤ x

structure PhysFrameAllocator where
  regions : List Region
  regionIdx : ℕ
  cursor : ℕ
  /-- The free list as a stack: `push` and `pop` work on the head. -/
  freeList : List ℕ
  totalFrames : ℕ
  inUse : ℕ

namespace PhysFrameAllocator

def new (regions : List Region) : PhysFrameAllocator :=
  let regions := (regions.map Region.rounded).filter fun r => r.start < r.stop
  { regions
    regionIdx := 0
    cursor := (regions.head?).elim 0 Region.start
    freeList := []
    totalFrames := (regions.map fun r => (r.stop - r.start) / frameSize).sum
    inUse := 0 }

/-- `region_idx += 1`, moving the cursor to the next region if there is one. -/
def nextRegion (a : PhysFrameAllocator) : PhysFrameAllocator :=
  { a with
    regionIdx := a.regionIdx + 1
    cursor := (a.regions[a.regionIdx + 1]?).elim a.cursor Region.start }

/-- The `while` loop that `alloc` (with `n = 1`) and `alloc_contiguous` share: take `n` frames
at the cursor of the first region from the current one on that has room for them. The first
argument bounds the iterations; the loop ends after `regions.length - regionIdx` of them. -/
def bump (n : ℕ) : ℕ → PhysFrameAllocator → Option ℕ × PhysFrameAllocator
  | 0, a => (none, a)
  | fuel + 1, a =>
    match a.regions[a.regionIdx]? with
    | none => (none, a)
    | some region =>
      if a.cursor + n * frameSize ≤ region.stop then
        (some a.cursor,
          { a with cursor := a.cursor + n * frameSize, inUse := a.inUse + n })
      else bump n fuel a.nextRegion

/-- Allocate one frame, returning its physical base address. -/
def alloc (a : PhysFrameAllocator) : Option ℕ × PhysFrameAllocator :=
  match a.freeList with
  | pa :: rest => (some pa, { a with freeList := rest, inUse := a.inUse + 1 })
  | [] => bump 1 (a.regions.length - a.regionIdx) a

/-- Allocate `n` physically contiguous frames, returning the base address. -/
def allocContiguous (a : PhysFrameAllocator) (n : ℕ) : Option ℕ × PhysFrameAllocator :=
  if n = 0 then (none, a) else bump n (a.regions.length - a.regionIdx) a

/-- Return a previously allocated frame to the pool. -/
def free (a : PhysFrameAllocator) (pa : ℕ) : PhysFrameAllocator :=
  { a with freeList := pa :: a.freeList, inUse := a.inUse - 1 }

/-- `(frames_in_use, total_frames)`. -/
def stats (a : PhysFrameAllocator) : ℕ × ℕ := (a.inUse, a.totalFrames)

/-- The frame at `f` has not been reached by the bump cursor yet. -/
def Ahead (a : PhysFrameAllocator) (f : ℕ) : Prop :=
  ∃ j r, a.regions[j]? = some r ∧ r.start ≤ f ∧ f + frameSize ≤ r.stop ∧
    (a.regionIdx < j ∨ a.regionIdx = j ∧ a.cursor ≤ f)

end PhysFrameAllocator

/-! ## Call histories -/

/-- One call of the allocator together with its result. -/
inductive FrameCall
  | alloc (got : Option ℕ)
  | allocContiguous (n : ℕ) (got : Option ℕ)
  | free (pa : ℕ)
  deriving Repr, DecidableEq

namespace FrameCall

/-- A call as an operation on the pool of frames. -/
def poolOp : FrameCall → PoolOp ℕ
  | alloc got => .take got.toList
  | allocContiguous n got => .take (got.elim [] fun base => blockRun frameSize base n)
  | free pa => .give pa

end FrameCall

/-- The frames handed out by `calls` and not freed since. -/
def handedOut (calls : List FrameCall) : List ℕ :=
  PoolOp.outstanding (calls.map FrameCall.poolOp)

/-- A call as an operation on the contiguous runs alone. -/
def FrameCall.runOp : FrameCall → PoolOp ℕ
  | alloc _ => .take []
  | allocContiguous n got => .take (got.elim [] fun base => blockRun frameSize base n)
  | free pa => .give pa

/-- The frames handed out in contiguous runs and not freed since. -/
def runFrames (calls : List FrameCall) : List ℕ :=
  PoolOp.outstanding (calls.map FrameCall.runOp)

/-- The states an allocator for `regions` reaches, with the calls that led there. Contiguous
requests are below `2 ^ 40` frames, and only frames currently handed out are freed. -/
inductive AllocatorRun (regions : List Region) :
    PhysFrameAllocator → List FrameCall → Prop
  | new : AllocatorRun regions (PhysFrameAllocator.new regions) []
  | alloc {a a' : PhysFrameAllocator} {calls : List FrameCall} {got : Option ℕ}
      (h : AllocatorRun regions a calls) (ha : a.alloc = (got, a')) :
      AllocatorRun regions a' (calls ++ [.alloc got])
  | allocContiguous {a a' : PhysFrameAllocator} {calls : List FrameCall} {n : ℕ}
      {got : Option ℕ} (h : AllocatorRun regions a calls) (hn : n < 2 ^ 40)
      (ha : a.allocContiguous n = (got, a')) :
      AllocatorRun regions a' (calls ++ [.allocContiguous n got])
  | free {a : PhysFrameAllocator} {calls : List FrameCall} {pa : ℕ}
      (h : AllocatorRun regions a calls) (hpa : pa ∈ handedOut calls) :
      AllocatorRun regions (a.free pa) (calls ++ [.free pa])

end Xernel
