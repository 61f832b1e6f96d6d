import Xernel.Lib.Checked
import Xernel.Word

/-!
# The network driver (`userland/init/src/main.rs`)

The driver posts buffers to the receive and transmit queues of the card and counts them in 16 bits.
What the card does is given from outside: `rx k` is what the receive buffer holds once `k` posted
buffers are filled, or `none` if they are not filled in time, and `tx k` says whether the `k`-th frame
was consumed in time. Additions and accesses to buffers are checked, as in the dev profile; those of
constant size at constant places cannot fail and are checked all the same. The rings themselves, which
the driver writes through raw pointers, are left out.
-/

namespace Xernel

open Checked

def tcpFin : UInt8 := 0x01
def tcpSyn : UInt8 := 0x02
def tcpPsh : UInt8 := 0x08
def tcpAck : UInt8 := 0x10

def ourIp : List UInt8 := [10, 0, 2, 15]

/-- A `virtio-net` device, with the frames handed to it so far. -/
structure Net where
  mac : Fin 6 → UInt8
  rx : ℕ → Option (ℕ → UInt8)
  rxPosted : ℕ
  tx : ℕ → Bool
  txPosted : ℕ
  sent : List (List UInt8)

/-- One TCP connection, as the service host tracks it. -/
structure TcpState where
  dmac : Fin 6 → UInt8
  dip : Fin 4 → UInt8
  sport : UInt16
  dport : UInt16
  ourSeq : ℕ
  theirAck : ℕ
  active : Bool

/-- `TcpState::new()`, with the local port. -/
def TcpState.new (sport : UInt16) : TcpState := ⟨fun _ => 0, fun _ => 0, sport, 0, 0, 0, false⟩

/-- The bytes `(x >> 8) as u8` and `x as u8`. -/
def be16 (x : ℕ) : List UInt8 := [UInt8.ofNat (x / 256), UInt8.ofNat x]

/-- `x.to_be_bytes()` of a `u32`. -/
def be32 (x : ℕ) : List UInt8 := (leBytes 4 x).reverse

/-- The big-endian number in the `n` bytes at `off`. -/
def field (e : List UInt8) (off n : ℕ) : ℕ := leNat ((e.drop off).take n).reverse

/-- The same number, read with a check. -/
def rdField (e : List UInt8) (off n : ℕ) : Checked ℕ := do
  let bytes ← slice e off (off + n)
  pure (leNat bytes.reverse)

/-! ## Checksums -/

/-- The sum over the 16-bit words of the buffer, with a last odd byte as the high byte of a word. -/
def sumWords : List UInt8 → ℕ → Checked ℕ
  | a :: b :: buf, sum => do
    let sum ← add 32 sum (a.toNat * 256 + b.toNat)
    sumWords buf sum
  | [a], sum => add 32 sum (a.toNat * 256)
  | [], sum => .ok sum

/-- The loop that folds the carries into the low 16 bits. The first number bounds the iterations. -/
def foldCarries : ℕ → ℕ → ℕ
  | 0, sum => sum
  | fuel + 1, sum =>
    if sum / 2 ^ 16 ≠ 0 then foldCarries fuel (sum % 2 ^ 16 + sum / 2 ^ 16) else sum

def inetChecksum (buf : List UInt8) : Checked ℕ := do
  let sum ← sumWords buf 0
  pure (2 ^ 16 - 1 - foldCarries 2 sum % 2 ^ 16)

def tcpChecksum (src dst seg : List UInt8) : Checked ℕ := do
  let buf ← copyAll (List.replicate 128 0)
    [(0, src), (4, dst), (9, [6]), (10, be16 seg.length), (12, seg)]
  inetChecksum (← slice buf 0 (12 + seg.length))

/-! ## Frames -/

/-- Arms one receive buffer. -/
def netRxArm (n : Net) : Checked Net := do
  let rxPosted ← add 16 n.rxPosted 1
  pure { n with rxPosted }

/-- Waits for the armed buffer; the first `len` bytes of the frame, or `none` on a timeout. -/
def netRxWait (n : Net) (len : ℕ) : Option (List UInt8) :=
  (n.rx n.rxPosted).map fun frame => (List.range len).map frame

/-- Transmits one frame; whether the device took it in time. -/
def netTx (n : Net) (frame : List UInt8) : Checked (Net × Bool) := do
  let txPosted ← add 16 n.txPosted 1
  pure ({ n with txPosted, sent := n.sent ++ [frame] }, n.tx txPosted)

/-- Builds and transmits one segment. -/
def netTcpSend (n : Net) (dmac : Fin 6 → UInt8) (dip : Fin 4 → UInt8) (sport dport : UInt16)
    (seq ack : ℕ) (flags : UInt8) (data : List UInt8) : Checked (Net × Bool) := do
  let tcpLen := 20 + data.length
  let ipLen := 20 + tcpLen
  let frameLen := 14 + ipLen
  let f ← copyAll (List.replicate (14 + 20 + 20 + 64) 0)
    [(0, List.ofFn dmac), (6, List.ofFn n.mac), (12, [0x08, 0x00]), (14, [0x45]), (16, be16 ipLen),
      (18, [0x42]), (22, [64]), (23, [6]), (26, ourIp), (30, List.ofFn dip)]
  let ipsum ← inetChecksum (← slice f 14 34)
  let f ← copyAll f
    [(24, be16 ipsum), (34, be16 sport.toNat), (36, be16 dport.toNat), (38, be32 seq), (42, be32 ack),
      (46, [0x50]), (47, [flags]), (48, [0x40]), (54, data)]
  let cks ← tcpChecksum ourIp (List.ofFn dip) (← slice f 34 (34 + tcpLen))
  let f ← copyAll f [(50, be16 cks)]
  netTx n (← slice f 0 frameLen)

/-- The segment of a connection with its own sequence numbers. -/
def TcpState.send (tcp : TcpState) (n : Net) (flags : UInt8) (data : List UInt8) :
    Checked (Net × Bool) :=
  netTcpSend n tcp.dmac tcp.dip tcp.sport tcp.dport tcp.ourSeq tcp.theirAck flags data

/-! ## Connecting -/

/-- The destination port of a frame. -/
def rdDport (e : List UInt8) : Checked ℕ := rdField e 36 2

/-- Whether the frame is an IPv4 frame with a TCP segment that has SYN and ACK set. -/
def rdSynAck (r : List UInt8) : Checked Bool := do
  let ethertype ← slice r 12 14
  let proto ← slice r 23 24
  let flags ← slice r 47 48
  pure (ethertype == [0x08, 0x00] && proto == [6] &&
    flags.all fun b => b &&& (tcpSyn ||| tcpAck) == tcpSyn ||| tcpAck)

/-- The wait for the answer to a SYN. The first number bounds the attempts. -/
def connectLoop : ℕ → Net → TcpState → Checked (Net × TcpState × Bool)
  | 0, n, tcp => .ok (n, tcp, false)
  | fuel + 1, n, tcp =>
    match netRxWait n 128 with
    | none => .ok (n, tcp, false)
    | some r => do
      -- segments for other sockets are skipped
      if (← rdDport r) ≠ tcp.sport.toNat then
        let n ← netRxArm n
        connectLoop fuel n tcp
      else if ← rdSynAck r then
        let theirIsn ← rdField r 38 4
        let ourSeq ← add 32 tcp.ourSeq 1
        let theirAck ← add 32 theirIsn 1
        let tcp := { tcp with ourSeq, theirAck }
        let (n, done) ← tcp.send n tcpAck []
        if done then pure (n, tcp, true) else connectLoop fuel n tcp
      else pure (n, tcp, false)

/-- The three-way handshake: whether the connection is established. -/
def netConnect (n : Net) (tcp : TcpState) : Checked (Net × TcpState × Bool) := do
  let ourSeq ← add 32 0x1000 tcp.sport.toNat
  let tcp := { tcp with ourSeq, theirAck := 0 }
  let n ← netRxArm n
  let (n, done) ← tcp.send n tcpSyn []
  if done then connectLoop 4 n tcp else pure (n, tcp, false)

end Xernel
