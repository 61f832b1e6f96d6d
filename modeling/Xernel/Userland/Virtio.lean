import Mathlib.Order.Interval.Set.Defs
import Xernel.Lib.Checked
import Xernel.Syscall
import Xernel.Userland.Fs

/-!
# The virtio queues (`userland/init/src/main.rs`)

A queue is one DMA buffer with three parts: the descriptor table, the avail ring, which the driver
writes, and the used ring, which the device writes. The drivers write through raw pointers; a function
here returns its writes, in the order in which they are made. What the device does is given from
outside: the size of a queue, and how it answers a request.
-/

namespace Xernel
namespace Virtio

open Checked

def descNext : ℕ := 1
def descWrite : ℕ := 2
def blkTIn : ℕ := 0
def blkTOut : ℕ := 1
def qAlign : ℕ := 4096
def vnetHdrLen : ℕ := 10
def netBuf : ℕ := 2048

/-- `(x + a - 1) & !(a - 1)` on `u64`. -/
def alignUp (x a : ℕ) : ℕ := (x + a - 1) &&& (u64Max - (a - 1))

/-- One `write_volatile`. -/
structure Write where
  addr : ℕ
  bytes : List UInt8
  deriving Repr, DecidableEq

/-- A buffer of `dma_alloc(len)`: whole pages of the DMA window. -/
structure DmaBuf (len : ℕ) where
  va : ℕ
  phys : ℕ
  aligned : frameSize ∣ va
  start_le : mmioRegionEnd ≤ va
  end_le : va + len ≤ dmaRegionEnd

/-- What the calls of `dma_alloc` return, one after the other. -/
abbrev DmaAlloc := ℕ → (len : ℕ) → Option (DmaBuf len)

/-- Where the used ring of a queue of size `n` begins. -/
def usedOffset (n : ℕ) : ℕ := alignUp (16 * n + 6 + 2 * n) qAlign

/-- The length of the buffer of a queue of size `n`. -/
def ringTotal (n : ℕ) : ℕ := usedOffset n + 6 + 8 * n

def writeDesc (base i addr len flags next : ℕ) : List Write :=
  let d := base + i * 16
  [⟨d, leBytes 8 addr⟩, ⟨d + 8, leBytes 4 len⟩, ⟨d + 12, leBytes 2 flags⟩, ⟨d + 14, leBytes 2 next⟩]

/-- The two writes to the avail ring that hand descriptor 0 to the device: the entry, and the index. -/
def publish (avail slot idx : ℕ) : List Write :=
  [⟨avail + 4 + 2 * slot, leBytes 2 0⟩, ⟨avail + 2, leBytes 2 idx⟩]

/-! ## The block device -/

structure Blk where
  qVa : ℕ
  usedOff : ℕ
  n : ℕ
  availVa : ℕ
  hdrVa : ℕ
  hdrPhys : ℕ
  dataVa : ℕ
  dataPhys : ℕ
  statusVa : ℕ
  statusPhys : ℕ
  seq : ℕ

/-- Brings up a device whose queue has size `n`. -/
def blkInit (n : ℕ) (dma : DmaAlloc) : Option Blk := do
  if n = 0 then none
  else
    let q ← dma 0 (ringTotal n)
    let b ← dma 1 4096
    pure { qVa := q.va, usedOff := usedOffset n, n, availVa := q.va + 16 * n, hdrVa := b.va,
           hdrPhys := b.phys, dataVa := b.va + 16, dataPhys := b.phys + 16,
           statusVa := b.va + 16 + 512, statusPhys := b.phys + 16 + 512, seq := 0 }

/-- One call of `blk_rw`: `answer` is the status and the data that the device leaves, if it completes
the request in time. -/
structure Request where
  sector : ℕ
  write : Bool
  buf : Fs.Sector
  answer : Option (UInt8 × Fs.Sector)

/-- The writes of a request up to the notification of the device. -/
def Blk.writes (b : Blk) (r : Request) : List Write :=
  [⟨b.hdrVa, leBytes 4 (if r.write then blkTOut else blkTIn)⟩, ⟨b.hdrVa + 4, leBytes 4 0⟩,
    ⟨b.hdrVa + 8, leBytes 8 r.sector⟩, ⟨b.statusVa, [0xFF]⟩] ++
  (if r.write then (List.range 512).map fun i => ⟨b.dataVa + i, [r.buf i]⟩ else []) ++
  writeDesc b.qVa 0 b.hdrPhys 16 descNext 1 ++
  writeDesc b.qVa 1 b.dataPhys 512 (descNext ||| if r.write then 0 else descWrite) 2 ++
  writeDesc b.qVa 2 b.statusPhys 1 descWrite 0 ++
  publish b.availVa (b.seq % b.n) ((b.seq + 1) % 2 ^ 16)

/-- The driver after a request, the writes, and what the caller gets: the result, and its buffer. -/
def blkRw (b : Blk) (r : Request) : Blk × List Write × Bool × Fs.Sector :=
  let writes := b.writes r
  let b := { b with seq := (b.seq + 1) % 2 ^ 16 }
  match r.answer with
  | none => (b, writes, false, r.buf)
  | some (st, data) =>
    if st ≠ 0 then (b, writes, false, r.buf)
    else (b, writes, true, if r.write then r.buf else data)

/-! ## The network device -/

/-- The queues and packet buffers of a card. -/
structure Queues where
  rxRing : ℕ
  rxUsedOff : ℕ
  rxAvail : ℕ
  rxBufVa : ℕ
  rxBufPhys : ℕ
  rxPosted : ℕ
  txRing : ℕ
  txUsedOff : ℕ
  txAvail : ℕ
  txBufVa : ℕ
  txBufPhys : ℕ
  txPosted : ℕ

/-- The ring of a queue of size `n`, with the offset of its used ring and the address of its avail
ring. -/
def vqSetup (n : ℕ) (dma : (len : ℕ) → Option (DmaBuf len)) : Option (ℕ × ℕ × ℕ) :=
  if n = 0 then none
  else (dma (ringTotal n)).map fun q => (q.va, usedOffset n, q.va + 16 * n)

/-- Brings up a card whose receive and transmit queues have sizes `nRx` and `nTx`. -/
def netInit (nRx nTx : ℕ) (dma : DmaAlloc) : Option Queues := do
  let (rxRing, rxUsedOff, rxAvail) ← vqSetup nRx (dma 0)
  let rxBuf ← dma 1 netBuf
  let (txRing, txUsedOff, txAvail) ← vqSetup nTx (dma 2)
  let txBuf ← dma 3 netBuf
  pure { rxRing, rxUsedOff, rxAvail, rxBufVa := rxBuf.va, rxBufPhys := rxBuf.phys, rxPosted := 0,
         txRing, txUsedOff, txAvail, txBufVa := txBuf.va, txBufPhys := txBuf.phys, txPosted := 0 }

/-- `net_rx_arm`. -/
def Queues.rxArm (q : Queues) : Checked (Queues × List Write) := do
  let rxPosted ← add 16 q.rxPosted 1
  pure ({ q with rxPosted },
    writeDesc q.rxRing 0 q.rxBufPhys netBuf descWrite 0 ++
    publish q.rxAvail (rxPosted - 1) rxPosted)

/-- `net_tx`, up to the notification of the device. -/
def Queues.tx (q : Queues) (frame : List UInt8) : Checked (Queues × List Write) := do
  let txPosted ← add 16 q.txPosted 1
  pure ({ q with txPosted },
    (List.range vnetHdrLen).map (fun i => ⟨q.txBufVa + i, [0]⟩) ++
    frame.zipIdx.map (fun b => ⟨q.txBufVa + vnetHdrLen + b.2, [b.1]⟩) ++
    writeDesc q.txRing 0 q.txBufPhys (vnetHdrLen + frame.length) 0 0 ++
    publish q.txAvail (txPosted - 1) txPosted)

end Virtio
end Xernel
