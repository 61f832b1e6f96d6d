import Xernel.Lib.Serial
import Xernel.Userland.Checksum
import Xernel.Userland.ServiceTheorems

/-!
# What `net_buffer_frame` acknowledges

A frame with a TCP segment says itself how long its two headers are, and where its payload begins.
`net_buffer_frame` goes by the ports, takes both headers for 20 bytes long, and acknowledges all that the
length of the packet leaves, whatever of it was copied. `AckSound` is what an acknowledgement is to be;
it holds of those frames for which the rest does not matter.
-/

namespace Xernel

open Checked

/-! ## Segments -/

section Segment

variable (e : List UInt8)

/-- The length of the IPv4 header. -/
def ipHeaderLen : ℕ := 4 * (field e 14 1 % 16)

/-- The length of the packet. -/
def ipTotal : ℕ := field e 16 2

def segStart : ℕ := 14 + ipHeaderLen e

/-- The length of the TCP header. -/
def tcpHeaderLen : ℕ := 4 * (field e (segStart e + 12) 1 / 16)

def payloadStart : ℕ := segStart e + tcpHeaderLen e

def payloadEnd : ℕ := 14 + ipTotal e

def seqNum : ℕ := field e (segStart e + 4) 4

def ackNum : ℕ := field e (segStart e + 8) 4

def synFlag : Bool := field e (segStart e + 13) 1 / 2 % 2 = 1

def ackFlag : Bool := field e (segStart e + 13) 1 / 16 % 2 = 1

end Segment

/-- The frame is a TCP segment from the peer of a connection to its local port, in one IPv4 packet. -/
structure FromPeer (tcp : TcpState) (e : List UInt8) : Prop where
  ethertype : field e 12 2 = 0x0800
  version : field e 14 1 / 16 = 4
  ipHeader : 20 ≤ ipHeaderLen e
  whole : field e 20 2 % 2 ^ 14 = 0
  proto : field e 23 1 = 6
  src : (e.drop 26).take 4 = List.ofFn tcp.dip
  dst : (e.drop 30).take 4 = ourIp
  tcpHeader : 20 ≤ tcpHeaderLen e
  fits : ipHeaderLen e + tcpHeaderLen e ≤ ipTotal e
  sport : field e (segStart e) 2 = tcp.dport.toNat
  dport : field e (segStart e + 2) 2 = tcp.sport.toNat

/-- The frame belongs to the byte stream of an open connection. -/
structure OfStream (tcp : TcpState) (e : List UInt8) : Prop where
  peer : FromPeer tcp e
  syn : synFlag e = false

/-! ## Acknowledgements -/

/-- How many of the `n` bytes from byte 54 on belong to the payload and have not been acknowledged
before. -/
def newBytes (tcp : TcpState) (e : List UInt8) (n : ℕ) : ℕ :=
  (List.range n).countP fun k => decide (payloadStart e ≤ 54 + k ∧ 54 + k < payloadEnd e ∧
    Serial.NotBefore tcp.theirAck (seqNum e + (54 + k - payloadStart e)))

/-- The acknowledgement sent for a frame is of the new bytes that were copied to the socket's page. -/
structure AckSound (h : Host) (e : List UInt8) (sock : Fin 4) (h' : Host) : Prop where
  sent : ∃ frame, h'.net.sent = h.net.sent ++ [frame] ∧
    rdField frame 42 4 = .ok (h'.socks sock).theirAck
  copied : ∃ page, h'.shm sock = some page ∧
    page.bytes.take (h'.pendingLen sock) = (e.drop 54).take (h'.pendingLen sock)
  segment : OfStream (h.socks sock) e
  advance : Serial.diff (h.socks sock).theirAck (h'.socks sock).theirAck =
    newBytes (h.socks sock) e (h'.pendingLen sock)
  forward : Serial.NotBefore (h.socks sock).theirAck (h'.socks sock).theirAck

/-- How much of the payload is copied, and of that how much lies after what was acknowledged before: the
rest of it if that ends inside the payload, else the part more than half the way round. -/
def copiedNew (tcp : TcpState) (e : List UInt8) : ℕ :=
  let copied := min (plenOf e) 202
  let options := payloadStart e - 54
  let acked := Serial.diff (seqNum e) tcp.theirAck
  if acked ≤ plenOf e then copied - (options + acked)
  else min copied (options + (acked - 2 ^ 31)) - options

/-- The frame is of the stream. If its IPv4 header has no options, what was acknowledged before ends
inside it or with it; and unless it ends with it, its TCP header has no options either and the payload
fits into what is copied. If the IPv4 header has options, the bytes 38 to 41 happen to be those of the
number that lies the length of the packet before the end of the new bytes. -/
structure Acceptable (tcp : TcpState) (e : List UInt8) : Prop where
  segment : OfStream tcp e
  within : ipHeaderLen e = 20 → Serial.diff (seqNum e) tcp.theirAck ≤ plenOf e
  stored : ipHeaderLen e = 20 → Serial.diff (seqNum e) tcp.theirAck ≠ plenOf e →
    tcpHeaderLen e = 20 ∧ plenOf e ≤ 202
  options : ipHeaderLen e ≠ 20 →
    (e.drop 38).take 4 = be32 (tcp.theirAck + copiedNew tcp e + 2 ^ 32 - plenOf e)

section Counting

variable {tcp : TcpState} {e : List UInt8} {n : ℕ}

lemma plenOf_lt (e : List UInt8) : plenOf e < 2 ^ 16 := by
  have hlt := field_lt e 16 2
  unfold plenOf
  omega

/-- A payload begins at byte 54 or later, and ends `plenOf` bytes after byte 54. -/
lemma FromPeer.payload (h : FromPeer tcp e) : 54 ≤ payloadStart e ∧
    payloadStart e ≤ payloadEnd e ∧ payloadEnd e = 54 + plenOf e := by
  have hip := h.ipHeader
  have htcp := h.tcpHeader
  have hfits := h.fits
  have hplen : plenOf e = ipTotal e - 40 := rfl
  unfold payloadStart payloadEnd segStart
  omega

/-- Only bytes of the payload count. -/
lemma newBytes_le (tcp : TcpState) (e : List UInt8) (n : ℕ) :
    newBytes tcp e n ≤ n - (payloadStart e - 54) := by
  rw [← Serial.countP_range_le]
  refine List.countP_mono_left fun k _ hk => ?_
  obtain ⟨hstart, -⟩ := of_decide_eq_true hk
  exact decide_eq_true (by omega)

/-- When what was acknowledged ends inside the payload, the rest of the payload is new. -/
lemma newBytes_eq (h : FromPeer tcp e) (hn : n ≤ plenOf e)
    (hwithin : Serial.diff (seqNum e) tcp.theirAck ≤ plenOf e) :
    newBytes tcp e n = n - (payloadStart e - 54 + Serial.diff (seqNum e) tcp.theirAck) := by
  obtain ⟨hstart, -, hend⟩ := h.payload
  have hplen := plenOf_lt e
  rw [← Serial.countP_range_le]
  refine List.countP_congr fun k hk => ?_
  have hk := List.mem_range.mp hk
  rw [decide_eq_true_eq, decide_eq_true_eq, hend]
  constructor
  · rintro ⟨hpos, -, hnew⟩
    have hle := (Serial.notBefore_add_iff hwithin (by omega) (by omega)).mp hnew
    omega
  · intro hle
    refine ⟨by omega, by omega, (Serial.notBefore_add_iff hwithin (by omega) (by omega)).mpr ?_⟩
    omega

/-- When it does not, the rest is taken for new that is more than half the way round from there. -/
lemma newBytes_eq_of_lt (h : FromPeer tcp e) (hn : n ≤ plenOf e)
    (hout : plenOf e < Serial.diff (seqNum e) tcp.theirAck) : newBytes tcp e n =
      min n (payloadStart e - 54 + (Serial.diff (seqNum e) tcp.theirAck - 2 ^ 31)) -
        (payloadStart e - 54) := by
  obtain ⟨hstart, -, hend⟩ := h.payload
  have hplen := plenOf_lt e
  rw [← Serial.countP_range_between]
  refine List.countP_congr fun k hk => ?_
  have hk := List.mem_range.mp hk
  rw [decide_eq_true_eq, decide_eq_true_eq, hend]
  constructor
  · rintro ⟨hpos, -, hnew⟩
    have hlt := (Serial.notBefore_add_iff_of_lt hout (by omega)).mp hnew
    omega
  · rintro ⟨hpos, hlt⟩
    refine ⟨by omega, by omega, (Serial.notBefore_add_iff_of_lt hout (by omega)).mpr ?_⟩
    omega

lemma newBytes_copied (h : FromPeer tcp e) :
    newBytes tcp e (min (plenOf e) 202) = copiedNew tcp e := by
  unfold copiedNew
  dsimp only
  split
  next hwithin => exact newBytes_eq h (Nat.min_le_left _ _) hwithin
  next hout => exact newBytes_eq_of_lt h (Nat.min_le_left _ _) (Nat.lt_of_not_le hout)

end Counting

/-! ## What is sent -/

section Sent

variable {n : Net} {tcp : TcpState} {h h' : Host} {e : List UInt8} {sock : Fin 4}

/-- A segment without data has its acknowledgement number at byte 42 of the frame. -/
lemma TcpState.send_sent {flags : UInt8} {s : Net × Bool} (h : tcp.send n flags [] = .ok s)
    (hack : tcp.theirAck < 2 ^ 32) :
    ∃ frame, s.1.sent = n.sent ++ [frame] ∧ rdField frame 42 4 = .ok tcp.theirAck := by
  unfold send at h
  have hdata : ([] : List UInt8).length ≤ 64 := Nat.zero_le _
  obtain ⟨ipsum, cks, -, -, hsend⟩ := netTcpSend_eq hdata
  rw [hsend] at h
  obtain ⟨-, rfl⟩ := netTx_eq_ok.mp h
  refine ⟨_, rfl, ?_⟩
  rw [rdField_of_le (Nat.le_of_ble_eq_true rfl)]
  exact congrArg Except.ok (leNat_be32 hack)

/-- A frame that is acknowledged, and the state of its socket afterwards. -/
lemma netBufferFrame_acked (hlen : 54 ≤ e.length) (hr : netBufferFrame h e = .ok (h', some sock)) :
    segSeqOf e + plenOf e < 2 ^ 32 ∧ (h'.socks sock).theirAck = segSeqOf e + plenOf e ∧
    (∃ page : Page, h'.shm sock = some (page.front e)) ∧ h'.pendingLen sock = (payloadOf e).length ∧
    ∃ frame, h'.net.sent = h.net.sent ++ [frame] ∧
      rdField frame 42 4 = .ok (segSeqOf e + plenOf e) := by
  have hdata : h.dataFor e = some sock := (Host.netBufferFrame_eq_ok hlen hr).1.symm
  obtain ⟨-, ⟨page, hshm⟩, -, -⟩ := Host.dataFor_eq_some.mp hdata
  rw [Host.netBufferFrame_some hlen hdata] at hr
  obtain ⟨ack, hadd, hr⟩ := bind_eq_ok.mp hr
  obtain ⟨hlt, rfl⟩ := add_eq_ok.mp hadd
  obtain ⟨s, hsend, hr⟩ := bind_eq_ok.mp hr
  obtain ⟨rfl, -⟩ := Prod.mk.inj (Except.ok.inj hr)
  obtain ⟨frame, hsent, hack⟩ := TcpState.send_sent hsend hlt
  rw [Host.take_some hdata hshm]
  refine ⟨hlt, ?_, ⟨page, ?_⟩, ?_, frame, hsent, hack⟩
  · simp [Host.notify, Host.setPending, Host.setShm, Host.setSock]
  · simp [Host.notify, Host.setPending, Host.setShm, Host.setSock]
  · simp [Host.notify, Host.setPending, Host.setShm, Host.setSock]

/-- A frame with data for a socket is acknowledged, unless the numbers overflow. -/
lemma netBufferFrame_acks (hlen : 54 ≤ e.length) (hdata : h.dataFor e = some sock)
    (hack : segSeqOf e + plenOf e < 2 ^ 32) (htx : h.net.txPosted + 1 < 2 ^ 16) :
    ∃ h', netBufferFrame h e = .ok (h', some sock) := by
  obtain ⟨r, hr⟩ := (Host.netBufferFrame_completes hlen).mpr fun _ => ⟨hack, htx⟩
  have hsock : r.2 = some sock := (Host.netBufferFrame_eq_ok hlen hr).1.trans hdata
  exact ⟨r.1, by rw [hr, ← hsock]⟩

/-- What the socket's page begins with. -/
lemma Page.take_front (page : Page) (e : List UInt8) :
    (page.front e).bytes.take (payloadOf e).length = (e.drop 54).take (payloadOf e).length := by
  have hcopy : (e.drop 54).take (payloadOf e).length = payloadOf e := by
    rw [length_payloadOf]
    rfl
  rw [hcopy]
  exact List.take_left

lemma length_payloadOf_256 (hlen : e.length = 256) : (payloadOf e).length = min (plenOf e) 202 := by
  rw [length_payloadOf, hlen]
  simp only [Fs.pageBytes]
  omega

lemma seqNum_of_ipHeader (h : ipHeaderLen e = 20) : seqNum e = segSeqOf e := by
  unfold seqNum segStart
  rw [h]
  rfl

/-- The acknowledgement of a frame is of the new bytes copied exactly if the frame is acceptable. -/
lemma ackSound_iff (hlen : e.length = 256) (hr : netBufferFrame h e = .ok (h', some sock)) :
    AckSound h e sock h' ↔ Acceptable (h.socks sock) e := by
  obtain ⟨hsum, hack, ⟨page, hpage⟩, hpending, hsent⟩ := netBufferFrame_acked (by omega) hr
  rw [length_payloadOf_256 hlen] at hpending
  generalize htcp : h.socks sock = tcp
  have hplen := plenOf_lt e
  have hnew := newBytes_le tcp e (min (plenOf e) 202)
  have hfar := Serial.diff_lt (seqNum e) tcp.theirAck
  -- the number at byte 38 settles it, whatever it stands for
  have hadvance_iff (hpeer : FromPeer tcp e) : Serial.diff tcp.theirAck (segSeqOf e + plenOf e) =
      newBytes tcp e (min (plenOf e) 202) ↔
        (e.drop 38).take 4 = be32 (tcp.theirAck + copiedNew tcp e + 2 ^ 32 - plenOf e) := by
    have hseq : field e 38 4 = segSeqOf e := rfl
    rw [Serial.diff_eq_iff (by omega), newBytes_copied hpeer, take_eq_be32_iff (by omega), hseq]
    omega
  constructor
  · intro hsound
    have hadvance := hsound.advance
    have hsegment := hsound.segment
    rw [hack, hpending, htcp] at hadvance
    rw [htcp] at hsegment
    have hwithin : ipHeaderLen e = 20 → Serial.diff (seqNum e) tcp.theirAck ≤ plenOf e := by
      intro hip
      by_contra hout
      rw [← seqNum_of_ipHeader hip, Serial.diff_add_of_lt (by omega)] at hadvance
      omega
    refine ⟨hsegment, hwithin, fun hip hne => ?_, fun _ => ?_⟩
    · -- some of the payload is new, so all of it has been copied
      obtain ⟨hstart, -, -⟩ := hsegment.peer.payload
      have hle := hwithin hip
      rw [← seqNum_of_ipHeader hip, Serial.diff_add_of_le hle (by omega),
        newBytes_eq hsegment.peer (Nat.min_le_left _ _) hle] at hadvance
      have hbegin : payloadStart e = 34 + tcpHeaderLen e := by
        unfold payloadStart segStart
        omega
      have hheader := hsegment.peer.tcpHeader
      omega
    · exact (hadvance_iff hsegment.peer).mp hadvance
  · intro hacc
    have hadvance : Serial.diff tcp.theirAck (segSeqOf e + plenOf e) =
        newBytes tcp e (min (plenOf e) 202) := by
      by_cases hip : ipHeaderLen e = 20
      · have hle := hacc.within hip
        rw [← seqNum_of_ipHeader hip, Serial.diff_add_of_le hle (by omega),
          newBytes_eq hacc.segment.peer (Nat.min_le_left _ _) hle]
        by_cases hend : Serial.diff (seqNum e) tcp.theirAck = plenOf e
        · omega
        · obtain ⟨hheader, hfits⟩ := hacc.stored hip hend
          have hbegin : payloadStart e = 54 := by
            unfold payloadStart segStart
            omega
          omega
      · exact (hadvance_iff hacc.segment.peer).mpr (hacc.options hip)
    constructor
    case sent =>
      rw [hack]
      exact hsent
    case copied =>
      refine ⟨_, hpage, ?_⟩
      rw [hpending, ← length_payloadOf_256 hlen]
      exact page.take_front e
    case segment => rw [htcp]; exact hacc.segment
    case advance => rw [hack, hpending, htcp]; exact hadvance
    case forward =>
      unfold Serial.NotBefore
      rw [hack, htcp, hadvance]
      omega

end Sent

/-- Whenever `net_buffer_frame` acknowledges a frame, it acknowledges the new bytes it has copied if and
only if the frame is acceptable. -/
theorem acks_stored_iff {h h' : Host} {e : List UInt8} {sock : Fin 4} (hlen : e.length = 256)
    (hr : netBufferFrame h e = .ok (h', some sock)) :
    AckSound h e sock h' ↔ Acceptable (h.socks sock) e :=
  ackSound_iff hlen hr

lemma length_zeroPage : (List.replicate Fs.pageBytes (0 : UInt8)).length = Fs.pageBytes :=
  List.length_replicate

/-- A host with one connection, on socket 0, that has received everything up to number 1000. -/
def echoHost : Host where
  blk := ⟨fun _ => Fs.Sector.zero, fun _ => true, 0⟩
  net := ⟨fun _ => 0x52, fun _ => none, 0, fun _ => true, 0, []⟩
  gmac := fun _ => 0
  socks := fun _ =>
    ⟨fun _ => 0, fun k => ([10, 0, 2, 100] : List UInt8).getD k 0, 49152, 7, 0x1C001, 1000, true⟩
  shm := fun _ => some ⟨_, length_zeroPage⟩
  pending := fun _ => false
  pendingLen := fun _ => 0
  replies := []
  notified := []

/-- A frame from the peer of that connection, with so many bytes of data. -/
def peerFrame (flags : UInt8) (seq ack len : ℕ) : List UInt8 :=
  List.replicate 12 0 ++ ([0x08, 0x00, 0x45, 0] ++ (be16 (40 + len) ++ ([0, 0, 0x40, 0, 64, 6, 0, 0] ++
    ([10, 0, 2, 100] ++ (ourIp ++ ([0x00, 0x07, 0xC0, 0x00] ++ (be32 seq ++ (be32 ack ++
      ([0x50, flags, 0x40, 0, 0, 0, 0, 0] ++ List.replicate 202 0x61)))))))))

/-- The segment with number 1000 and so many bytes of data. -/
def echoFrame (len : ℕ) : List UInt8 := peerFrame (tcpPsh ||| tcpAck) 1000 0x1C001 len

lemma ofStream_echoFrame : OfStream (echoHost.socks 0) (echoFrame 5) ∧
    OfStream (echoHost.socks 0) (echoFrame 300) := by
  constructor
  all_goals
    constructor
    case peer => constructor <;> decide +kernel
    case syn => decide +kernel

theorem acks_stored_iff_five : ∃ h', netBufferFrame echoHost (echoFrame 5) = .ok (h', some 0) ∧
    AckSound echoHost (echoFrame 5) 0 h' := by
  have hdata : echoHost.dataFor (echoFrame 5) = some 0 :=
    Host.dataFor_eq_some.mpr ⟨by decide +kernel, ⟨_, rfl⟩, rfl, by decide +kernel⟩
  obtain ⟨h', hr⟩ := netBufferFrame_acks (by decide +kernel) hdata (by decide +kernel) (by decide)
  refine ⟨h', hr, (acks_stored_iff (by decide +kernel) hr).mpr ⟨ofStream_echoFrame.1, ?_, ?_, ?_⟩⟩
  · decide +kernel
  · decide +kernel
  · decide +kernel

/-- A segment with 300 bytes, of which 202 are copied. -/
theorem not_acks_stored : ∃ h', netBufferFrame echoHost (echoFrame 300) = .ok (h', some 0) ∧
    OfStream (echoHost.socks 0) (echoFrame 300) ∧ ¬ AckSound echoHost (echoFrame 300) 0 h' := by
  have hdata : echoHost.dataFor (echoFrame 300) = some 0 :=
    Host.dataFor_eq_some.mpr ⟨by decide +kernel, ⟨_, rfl⟩, rfl, by decide +kernel⟩
  obtain ⟨h', hr⟩ := netBufferFrame_acks (by decide +kernel) hdata (by decide +kernel) (by decide)
  refine ⟨h', hr, ofStream_echoFrame.2, fun hsound => ?_⟩
  obtain ⟨-, hfits⟩ := ((ackSound_iff (by decide +kernel) hr).mp hsound).stored (by decide +kernel)
    (by decide +kernel)
  have hplen : plenOf (echoFrame 300) = 300 := by decide +kernel
  omega

end Xernel
