import Mathlib.Logic.Function.Basic
import Xernel.Lib.Run
import Xernel.Userland.Fs
import Xernel.Userland.Net

/-!
# The service host (`userland/init/src/main.rs`)

`combined_service` answers the requests of its clients one after the other: files from the disk, and
four TCP sockets, each with a local port and a page of shared memory of its own. A request is one word,
the opcode in the top byte and its argument below; a reply is one word and a capability slot. The disk
and the card answer from outside, as in the models of the two drivers; console output is left out.
-/

namespace Xernel

open Checked

def opBye : ℕ := 0
def opNfiles : ℕ := 1
def opFsize : ℕ := 2
def opNamech : ℕ := 3
def opDatach : ℕ := 4
def opReadfile : ℕ := 5
def opNetConnect : ℕ := 10
def opNetSend : ℕ := 11
def opNetRecv : ℕ := 12
def opNetClose : ℕ := 13
def opNetGetFrame : ℕ := 14
def opNetGetReady : ℕ := 15

def sockMax : ℕ := 4
def sockShift : ℕ := 52
def netSockBit : ℕ := 2
def shmFrameSlot : ℕ := 6
def noCap : ℕ := u64Max

/-- The local port of socket 0. -/
def portBase : ℕ := 49152

/-- The contents of a shared page. -/
structure Page where
  bytes : List UInt8
  length_bytes : bytes.length = Fs.pageBytes

/-- `page[off..off + src.len()].copy_from_slice(src)`. -/
def Page.write (p : Page) (off : ℕ) (src : List UInt8) : Checked Page :=
  if h : off + src.length ≤ Fs.pageBytes then
    .ok ⟨p.bytes.take off ++ src ++ p.bytes.drop (off + src.length), by
      simp only [List.length_append, List.length_take, List.length_drop, p.length_bytes]
      omega⟩
  else .error .index

/-- One `ipc_send` on the reply endpoint. -/
structure Reply where
  word : ℕ
  grant : ℕ
  deriving Repr, DecidableEq

/-- The state of `combined_service`: `shm i` is the shared page of socket `i` where the allocation
succeeded (`have_shm`, and `shm_va` other than 0). Replies sent and bits raised on the notification
are kept, oldest first. -/
structure Host where
  blk : Fs.Blk
  net : Net
  gmac : Fin 6 → UInt8
  socks : Fin 4 → TcpState
  shm : Fin 4 → Option Page
  pending : Fin 4 → Bool
  pendingLen : Fin 4 → ℕ
  replies : List Reply
  notified : List ℕ

namespace Host

/-- `ipc_send(REPLY_EP_SLOT, word, grant)`. -/
def ipcSend (h : Host) (word grant : ℕ) : Host := { h with replies := h.replies ++ [⟨word, grant⟩] }

/-- `notify(NOTIF_SLOT, bits)`. -/
def notify (h : Host) (bits : ℕ) : Host := { h with notified := h.notified ++ [bits] }

def setSock (h : Host) (sock : Fin 4) (tcp : TcpState) : Host :=
  { h with socks := Function.update h.socks sock tcp }

def setPending (h : Host) (sock : Fin 4) (pending : Bool) (len : ℕ) : Host :=
  { h with
    pending := Function.update h.pending sock pending
    pendingLen := Function.update h.pendingLen sock len }

def setShm (h : Host) (sock : Fin 4) (page : Page) : Host :=
  { h with shm := Function.update h.shm sock (some page) }

end Host

/-! ## Files -/

section Files

open Fs

/-- `dir[off]`. -/
def dirByte (dir : Sector) (off : ℕ) : Checked UInt8 :=
  if off < sectorSize then .ok (dir off) else .error .index

/-- `rd_u32(&dir, off)`. -/
def dirU32 (dir : Sector) (off : ℕ) : Checked ℕ :=
  if off + 4 ≤ sectorSize then .ok (dir.rdU32 off) else .error .index

/-- `dir[off..off + NAME_LEN]`. -/
def dirName (dir : Sector) (off : ℕ) : Checked (List UInt8) :=
  if off + nameLen ≤ sectorSize then .ok (dir.bytes off nameLen) else .error .index

/-- `i >= DIR_ENTRIES || dir[i * ENT_SIZE] == 0`. -/
def unusedEntry (dir : Sector) (i : ℕ) : Checked Bool :=
  if dirEntries ≤ i then .ok true
  else do
    let b ← dirByte dir (i * entSize)
    pure (b = 0)

/-- `fs_read` into a page. -/
def fsReadPage (b : Blk) (name : List UInt8) (page : Page) : Option ℕ × Page × Blk :=
  let r := fsRead b name page.bytes
  (r.1, ⟨r.2.1, (length_fsRead b name page.bytes).trans page.length_bytes⟩, r.2.2)

/-- Reads the file of entry `i` into the page: its size, or `None`, and the page afterwards. -/
def readByIndex (b : Blk) (i : ℕ) (page : Page) : Checked (Option ℕ × Page × Blk) :=
  match b.read dirSector with
  | (none, b) => .ok (none, page, b)
  | (some dir, b) => do
    if ← unusedEntry dir i then pure (none, page, b)
    else
      let name ← dirName dir (i * entSize)
      pure (fsReadPage b name page)

/-- How many of the given directory entries are in use. -/
def countUsed (dir : Sector) : List ℕ → Checked ℕ
  | [] => .ok 0
  | i :: is => do
    let first ← dirByte dir (i * entSize)
    let count ← countUsed dir is
    pure (if first ≠ 0 then count + 1 else count)

/-- Answers one request of the file service. -/
def serveOne (b : Blk) (op arg : ℕ) : Checked (ℕ × Blk) :=
  match b.read dirSector with
  | (none, b) => .ok (u64Max, b)
  | (some dir, b) => do
    if op = opNfiles then
      let count ← countUsed dir (List.range dirEntries)
      pure (count, b)
    else if op = opFsize then
      if ← unusedEntry dir arg then pure (u64Max, b)
      else
        let size ← dirU32 dir (arg * entSize + 24)
        pure (size, b)
    else if op = opNamech then
      let i := arg / 2 ^ 8
      let pos := arg % 2 ^ 8
      if dirEntries ≤ i ∨ nameLen ≤ pos then pure (0, b)
      else if ← unusedEntry dir i then pure (0, b)
      else
        let c ← dirByte dir (i * entSize + pos)
        pure (c.toNat, b)
    else if op = opDatach then
      let i := arg / 2 ^ 16
      let off := arg % 2 ^ 16
      if ← unusedEntry dir i then pure (0, b)
      else
        let name ← dirName dir (i * entSize)
        match fsRead b name (List.replicate sectorSize 0) with
        | (some size, buf, b) =>
          if off < size ∧ off < buf.length then
            let c ← slice buf off (off + 1)
            pure (leNat c, b)
          else pure (0, b)
        | (none, _, b) => pure (0, b)
    else pure (u64Max, b)

end Files

/-! ## Sockets -/

/-- Classifies one received frame; data for an active socket is acknowledged and copied into its page,
and the socket marked as ready. The socket that got data. -/
def netBufferFrame (h : Host) (e : List UInt8) : Checked (Host × Option (Fin 4)) := do
  let dport ← rdDport e
  if hport : portBase ≤ dport ∧ dport < portBase + sockMax then
    let sock : Fin 4 := ⟨dport - portBase, by simp only [sockMax] at hport; omega⟩
    match h.shm sock with
    | none => pure (h, none)
    | some page =>
      if (h.socks sock).active then
        let ipTotal ← rdField e 16 2
        let plen := ipTotal - 40
        if plen = 0 then pure (h, none)
        else
          let segSeq ← rdField e 38 4
          let theirAck ← add 32 segSeq plen
          let tcp := { h.socks sock with theirAck }
          let n := min (min plen Fs.pageBytes) (e.length - 54)
          let payload ← slice e 54 (54 + n)
          let page ← page.write 0 payload
          let (net, _) ← tcp.send h.net tcpAck []
          let h := ({ h with net }.setSock sock tcp).setShm sock page
          pure ((h.setPending sock true n).notify (2 ^ (netSockBit + sock)), some sock)
      else pure (h, none)
  else pure (h, none)

/-- The polling loop of a receive on `sock`: the bytes got. The first number bounds the attempts. -/
def recvLoop (sock : Fin 4) (max : ℕ) : ℕ → Host → Checked (Host × ℕ)
  | 0, h => .ok (h, 0)
  | fuel + 1, h => do
    let net ← netRxArm h.net
    let h := { h with net }
    match netRxWait h.net 256 with
    | none => pure (h, 0)
    | some e =>
      let dport ← rdDport e
      let (h', got) ← netBufferFrame h e
      if dport ≠ (h.socks sock).sport.toNat then recvLoop sock max fuel h'
      else if got = some sock then
        pure (h'.setPending sock false 0, min (h'.pendingLen sock) (max % 2 ^ 32))
      else recvLoop sock max fuel h'

/-- The mask of the sockets with buffered data. -/
def readyMask (pending : Fin 4 → Bool) : ℕ :=
  (List.finRange 4).foldl (fun mask i => if pending i then mask ||| 2 ^ (i : ℕ) else mask) 0

/-- The polling loop of `OP_NET_GET_READY`. The first number bounds the attempts. -/
def readyLoop : ℕ → ℕ → Host → Checked (Host × ℕ)
  | 0, mask, h => .ok (h, mask)
  | fuel + 1, mask, h =>
    if mask ≠ 0 then .ok (h, mask)
    else do
      let net ← netRxArm h.net
      let h := { h with net }
      match netRxWait h.net 256 with
      | none => pure (h, mask)
      | some e =>
        let (h, got) ← netBufferFrame h e
        match got with
        | some sock => readyLoop fuel (mask ||| 2 ^ (sock : ℕ)) h
        | none => readyLoop fuel mask h

/-! ## Requests -/

/-- The socket of a request. -/
def sockOf (arg : ℕ) : Option (Fin 4) :=
  let sock := arg / 2 ^ sockShift % 16
  if h : sock < 4 then some ⟨sock, h⟩ else none

/-- The rest of the argument of a request about a socket. -/
def sockArg (arg : ℕ) : ℕ := arg % 2 ^ sockShift

/-- The connection with the peer that a connect asks for. -/
def TcpState.withPeer (tcp : TcpState) (gmac : Fin 6 → UInt8) (a : ℕ) : TcpState :=
  { tcp with
    dip := fun k => UInt8.ofNat (a / 2 ^ (24 - 8 * (k : ℕ)))
    dport := UInt16.ofNat (a / 2 ^ 32)
    dmac := gmac }

namespace Host

/-- `OP_READFILE`. -/
def readfile (h : Host) (arg : ℕ) : Checked Host :=
  match h.shm 0 with
  | none => .ok (h.ipcSend u64Max noCap)
  | some page => do
    let (size, page, blk) ← readByIndex h.blk arg page
    let h := { h with blk }.setShm 0 page
    match size with
    | some n => pure (h.ipcSend n shmFrameSlot)
    | none => pure (h.ipcSend u64Max noCap)

/-- `OP_NET_CONNECT`. -/
def netConnect (h : Host) (arg : ℕ) : Checked Host :=
  match sockOf arg with
  | none => .ok (h.ipcSend u64Max noCap)
  | some sock => do
    let tcp := (h.socks sock).withPeer h.gmac (sockArg arg)
    let (net, tcp, active) ← Xernel.netConnect h.net tcp
    let h := { h with net }.setSock sock { tcp with active }
    pure (h.ipcSend (if active then 0 else u64Max) noCap)

/-- `OP_NET_SEND`. -/
def netSend (h : Host) (arg : ℕ) : Checked Host :=
  let len := sockArg arg
  match (sockOf arg).bind fun sock => (h.shm sock).map fun page => (sock, page) with
  | none => .ok (h.ipcSend u64Max noCap)
  | some (sock, page) => do
    let tcp := h.socks sock
    if tcp.active ∧ len ≤ Fs.pageBytes then
      let (net, done) ← tcp.send h.net (tcpPsh ||| tcpAck) (page.bytes.take len)
      let h := { h with net }
      if done then
        let ourSeq ← add 32 tcp.ourSeq len
        pure ((h.setSock sock { tcp with ourSeq }).ipcSend len noCap)
      else pure (h.ipcSend u64Max noCap)
    else pure (h.ipcSend u64Max noCap)

/-- `OP_NET_RECV`. -/
def netRecv (h : Host) (arg : ℕ) : Checked Host :=
  let max := sockArg arg
  match (sockOf arg).filter fun sock => (h.socks sock).active && (h.shm sock).isSome with
  | none => .ok (h.ipcSend u64Max noCap)
  | some sock => do
    if h.pending sock then
      pure ((h.setPending sock false 0).ipcSend (min (h.pendingLen sock) (max % 2 ^ 32)) noCap)
    else
      let (h, got) ← recvLoop sock max 6 h
      pure (h.ipcSend got noCap)

/-- `OP_NET_CLOSE`. -/
def netClose (h : Host) (arg : ℕ) : Checked Host :=
  match (sockOf arg).filter fun sock => (h.socks sock).active with
  | none => .ok (h.ipcSend 0 noCap)
  | some sock => do
    let tcp := h.socks sock
    let (net, _) ← tcp.send h.net (tcpFin ||| tcpAck) []
    pure (({ h with net }.setSock sock { tcp with active := false }).ipcSend 0 noCap)

/-- `OP_NET_GET_FRAME`. -/
def netGetFrame (h : Host) (arg : ℕ) : Checked Host :=
  match (sockOf arg).filter fun sock => (h.shm sock).isSome with
  | none => .ok (h.ipcSend u64Max noCap)
  | some sock => .ok (h.ipcSend Fs.pageBytes (shmFrameSlot + sock))

/-- `OP_NET_GET_READY`. -/
def netGetReady (h : Host) : Checked Host := do
  let (h, mask) ← readyLoop 6 (readyMask h.pending) h
  pure (h.ipcSend mask noCap)

/-- All other opcodes, those of the file service among them. -/
def serveFile (h : Host) (op arg : ℕ) : Checked Host := do
  let (reply, blk) ← serveOne h.blk op arg
  pure ({ h with blk }.ipcSend reply noCap)

/-- Dispatches a request by its opcode. -/
def dispatch (h : Host) (op arg : ℕ) : Checked Host :=
  if op = opReadfile then h.readfile arg
  else if op = opNetConnect then h.netConnect arg
  else if op = opNetSend then h.netSend arg
  else if op = opNetRecv then h.netRecv arg
  else if op = opNetClose then h.netClose arg
  else if op = opNetGetFrame then h.netGetFrame arg
  else if op = opNetGetReady then h.netGetReady
  else h.serveFile op arg

/-- `req >> 56`. -/
def opOf (req : UInt64) : ℕ := req.toNat / 2 ^ 56

/-- `req & ((1 << 56) - 1)`. -/
def argOf (req : UInt64) : ℕ := req.toNat % 2 ^ 56

/-- One turn of the loop of `combined_service`, on the request received: the state in which it waits for
the next one, or `none` once it has returned. -/
def combinedService (h : Host) (req : UInt64) : Checked (Option Host) :=
  if opOf req = opBye then .ok none
  else do
    let h ← h.dispatch (opOf req) (argOf req)
    pure (some h)

/-- The state in which the loop starts. By then the disk is set up, and the card was used for one frame
each to get an address and to resolve the gateway. -/
def Starts (h : Host) : Prop :=
  (∃ b, Fs.fsSetup b = (true, h.blk)) ∧ h.net.rxPosted = 2 ∧ h.net.txPosted = 2 ∧
  h.socks = (fun i : Fin 4 => TcpState.new (UInt16.ofNat (portBase + i))) ∧
  h.pending = (fun _ => false) ∧ h.pendingLen = (fun _ => 0)

/-- What happens to the service host: a request, or a client that writes to a shared page. -/
inductive Event where
  | request (req : UInt64)
  | store (sock : Fin 4) (off : ℕ) (bytes : List UInt8)

/-- The service host and its clients, with the replies to each request. A panic, and the end of the
service, are the end of a run. -/
def system : TransitionSystem Host Event (List Reply) where
  init := Starts
  step h ev :=
    match ev with
    | .request req =>
      match h.combinedService req with
      | .ok (some h') => some (h', h'.replies.drop h.replies.length)
      | _ => none
    | .store sock off bytes =>
      match h.shm sock with
      | none => none
      | some page =>
        match page.write off bytes with
        | .ok page => some (h.setShm sock page, [])
        | .error _ => none

end Host

end Xernel
