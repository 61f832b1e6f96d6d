import Xernel.Userland.NetTheorems
import Xernel.Userland.Service

/-!
# Which requests the service host answers

A frame that the host takes for data of a socket has one effect, `Host.take`, and two ways to panic: the
sum of its sequence number and length, and the count of transmitted frames. Both polling loops are one
loop, `poll`, that ends with the first frame of a kind; what it sees is a matter of the card alone. From
this the exact condition under which a request is answered follows, opcode by opcode.
-/

namespace Xernel

open Checked

/-! ## What a frame carries -/

/-- The length of the payload of a segment. -/
def plenOf (e : List UInt8) : ℕ := field e 16 2 - 40

/-- What is copied of the payload. -/
def payloadOf (e : List UInt8) : List UInt8 :=
  (e.drop 54).take (min (min (plenOf e) Fs.pageBytes) (e.length - 54))

/-- The socket a frame is for, by its destination port. -/
def portSock (e : List UInt8) : Option (Fin 4) :=
  if h : portBase ≤ dportOf e ∧ dportOf e < portBase + sockMax then
    some ⟨dportOf e - portBase, by simp only [sockMax] at h; omega⟩
  else none

lemma length_payloadOf (e : List UInt8) :
    (payloadOf e).length = min (min (plenOf e) Fs.pageBytes) (e.length - 54) := by
  rw [payloadOf, List.length_take, List.length_drop]
  omega

lemma length_payloadOf_le (e : List UInt8) : (payloadOf e).length ≤ Fs.pageBytes := by
  rw [length_payloadOf]
  omega

/-- The page with the payload of a frame at its front. -/
def Page.front (p : Page) (e : List UInt8) : Page :=
  ⟨payloadOf e ++ p.bytes.drop (payloadOf e).length, by
    have := length_payloadOf_le e
    rw [List.length_append, List.length_drop, p.length_bytes]
    omega⟩

lemma Page.write_payload (p : Page) (e : List UInt8) : p.write 0 (payloadOf e) = .ok (p.front e) := by
  have hle := length_payloadOf_le e
  rw [Page.write, dif_pos (by omega)]
  simp only [Page.front, List.take_zero, List.nil_append, Nat.zero_add]

namespace Host

/-- The socket that a frame carries data for. -/
def dataFor (h : Host) (e : List UInt8) : Option (Fin 4) :=
  (portSock e).filter fun sock =>
    (h.shm sock).isSome && (h.socks sock).active && decide (plenOf e ≠ 0)

/-- The state once the frame is taken, but for the transmission of the acknowledgement. -/
def take (h : Host) (e : List UInt8) : Host :=
  match h.dataFor e with
  | none => h
  | some sock =>
    match h.shm sock with
    | none => h
    | some page =>
      (((h.setSock sock { h.socks sock with theirAck := segSeqOf e + plenOf e }).setShm sock
        (page.front e)).setPending sock true (payloadOf e).length).notify (2 ^ (netSockBit + sock))

/-- The card is as it was, but for transmissions. -/
structure Transmits (net net' : Net) (k : ℕ) : Prop where
  rx : net'.rx = net.rx
  rxPosted : net'.rxPosted = net.rxPosted
  tx : net'.tx = net.tx
  txPosted : net'.txPosted = net.txPosted + k

variable {h : Host} {e : List UInt8} {sock : Fin 4}

lemma dataFor_eq_some : h.dataFor e = some sock ↔ portSock e = some sock ∧
    (∃ page, h.shm sock = some page) ∧ (h.socks sock).active = true ∧ plenOf e ≠ 0 := by
  rw [dataFor, Option.filter_eq_some_iff]
  simp only [Bool.and_eq_true, Option.isSome_iff_exists, decide_eq_true_eq, and_assoc]

/-- A frame without data for an active socket changes nothing. -/
lemma netBufferFrame_none (hlen : 54 ≤ e.length) (hdata : h.dataFor e = none) :
    netBufferFrame h e = .ok (h, none) := by
  rw [netBufferFrame, rdDport_of_le (by omega), ok_bind]
  split
  next hport =>
    have hsock : portSock e = some ⟨dportOf e - portBase, by simp only [sockMax] at hport; omega⟩ :=
      dif_pos hport
    dsimp only
    split
    · rfl
    next page hshm =>
      split
      next hactive =>
        rw [rdField_of_le (by omega), ok_bind]
        have hplen : plenOf e = 0 := by
          by_contra hne
          rw [dataFor_eq_some.mpr ⟨hsock, ⟨page, hshm⟩, hactive, hne⟩] at hdata
          cases hdata
        exact if_pos hplen
      · rfl
  next => rfl

lemma take_some {page : Page} (hdata : h.dataFor e = some sock) (hshm : h.shm sock = some page) :
    h.take e = (((h.setSock sock { h.socks sock with
      theirAck := segSeqOf e + plenOf e }).setShm sock (page.front e)).setPending sock true
      (payloadOf e).length).notify (2 ^ (netSockBit + (sock : ℕ))) := by
  rw [take, hdata]
  dsimp only
  rw [hshm]

/-- A frame with data for a socket is taken, once its acknowledgement is numbered and sent. -/
lemma netBufferFrame_some (hlen : 54 ≤ e.length) (hdata : h.dataFor e = some sock) :
    netBufferFrame h e = add 32 (segSeqOf e) (plenOf e) >>= fun ack =>
      TcpState.send { h.socks sock with theirAck := ack } h.net tcpAck [] >>= fun s =>
        pure ({ h.take e with net := s.1 }, some sock) := by
  obtain ⟨hsock, ⟨page, hshm⟩, hactive, hplen⟩ := dataFor_eq_some.mp hdata
  obtain ⟨hport, hfin⟩ : ∃ hport : portBase ≤ dportOf e ∧ dportOf e < portBase + sockMax,
      (⟨dportOf e - portBase, by simp only [sockMax] at hport; omega⟩ : Fin 4) = sock := by
    rw [portSock] at hsock
    split at hsock
    next hport => exact ⟨hport, Option.some.inj hsock⟩
    next => cases hsock
  have htake := take_some hdata hshm
  rw [netBufferFrame, rdDport_of_le (by omega), ok_bind, dif_pos hport, hfin]
  dsimp only
  rw [hshm]
  dsimp only
  rw [if_pos hactive, rdField_of_le (by omega), ok_bind, show field e 16 2 - 40 = plenOf e from rfl,
    if_neg hplen, rdSegSeq_of_le (by omega), ok_bind]
  by_cases hack : segSeqOf e + plenOf e < 2 ^ 32
  · have hslice : slice e 54 (54 + min (min (plenOf e) Fs.pageBytes) (e.length - 54)) =
        .ok (payloadOf e) := by
      rw [slice_of_le (by omega) (by omega), Nat.add_sub_cancel_left]
      rfl
    rw [add_of_lt hack, ok_bind, ok_bind, hslice, ok_bind, Page.write_payload, ok_bind]
    cases TcpState.send { h.socks sock with theirAck := segSeqOf e + plenOf e } h.net tcpAck [] with
    | error p => rfl
    | ok s =>
      rw [ok_bind, ok_bind, htake, length_payloadOf]
      rfl
  · rw [add_of_not_lt hack, error_bind, error_bind]

/-- A frame panics only through the numbers of its acknowledgement. -/
lemma netBufferFrame_completes (hlen : 54 ≤ e.length) :
    Completes (netBufferFrame h e) ↔ ((h.dataFor e).isSome →
      segSeqOf e + plenOf e < 2 ^ 32 ∧ h.net.txPosted + 1 < 2 ^ 16) := by
  cases hdata : h.dataFor e with
  | none =>
    rw [netBufferFrame_none hlen hdata]
    simp
  | some sock =>
    rw [netBufferFrame_some hlen hdata, completes_bind]
    constructor
    · rintro ⟨ack, hadd, hrest⟩ -
      obtain ⟨s, hsend, -⟩ := completes_bind.mp hrest
      exact ⟨(add_eq_ok.mp hadd).1, (TcpState.send_completes.mp ⟨s, hsend⟩).2⟩
    · intro hsafe
      obtain ⟨hack, htx⟩ := hsafe rfl
      obtain ⟨frame, hsend⟩ := TcpState.send_nil
        { h.socks sock with theirAck := segSeqOf e + plenOf e } tcpAck htx
      exact ⟨_, add_of_lt hack, completes_bind.mpr ⟨_, hsend, completes_pure _⟩⟩

/-- What a frame does when it does not panic. -/
lemma netBufferFrame_eq_ok (hlen : 54 ≤ e.length) {r : Host × Option (Fin 4)}
    (hr : netBufferFrame h e = .ok r) :
    r.2 = h.dataFor e ∧ r.1 = { h.take e with net := r.1.net } ∧
      Transmits h.net r.1.net (if (h.dataFor e).isSome then 1 else 0) := by
  cases hdata : h.dataFor e with
  | none =>
    rw [netBufferFrame_none hlen hdata] at hr
    obtain rfl := Except.ok.inj hr
    have htake : h.take e = h := by rw [take, hdata]
    rw [htake]
    exact ⟨rfl, rfl, rfl, rfl, rfl, rfl⟩
  | some sock =>
    rw [netBufferFrame_some hlen hdata] at hr
    obtain ⟨ack, -, hr⟩ := bind_eq_ok.mp hr
    obtain ⟨s, hsend, hr⟩ := bind_eq_ok.mp hr
    obtain rfl := Except.ok.inj hr
    have htx := (TcpState.send_completes.mp ⟨s, hsend⟩).2
    obtain ⟨frame, hsend'⟩ := TcpState.send_nil { h.socks sock with theirAck := ack } tcpAck htx
    obtain rfl := Except.ok.inj (hsend.symm.trans hsend')
    exact ⟨rfl, rfl, rfl, rfl, rfl, rfl⟩

/-- Which sockets are connected, and on which ports, is not changed by a frame. -/
lemma take_sock (h : Host) (e : List UInt8) (i : Fin 4) :
    ((h.take e).socks i).active = (h.socks i).active ∧
    ((h.take e).socks i).sport = (h.socks i).sport ∧
    ((h.take e).shm i).isSome = (h.shm i).isSome := by
  rw [take]
  split
  · exact ⟨rfl, rfl, rfl⟩
  next sock _ =>
    split
    · exact ⟨rfl, rfl, rfl⟩
    next page hpage =>
      by_cases hi : i = sock
      · subst hi
        simp [notify, setPending, setShm, setSock, hpage]
      · simp [notify, setPending, setShm, setSock, hi]

lemma take_replies (h : Host) (e : List UInt8) : (h.take e).replies = h.replies := by
  rw [take]
  split
  · rfl
  · split <;> rfl

lemma take_with_net (h : Host) (net : Net) (e : List UInt8) :
    { h with net }.take e = { h.take e with net } := by
  have hdata : ({ h with net } : Host).dataFor e = h.dataFor e := rfl
  rw [take, take, hdata]
  split
  · rfl
  · dsimp only
    split <;> rfl

lemma foldl_take_with_net (net : Net) (es : List (List UInt8)) : ∀ h : Host,
    es.foldl take { h with net } = { es.foldl take h with net } := by
  induction es with
  | nil => exact fun h => rfl
  | cons e es ih =>
    intro h
    rw [List.foldl_cons, List.foldl_cons, take_with_net, ih]

/-- Whose data a frame carries depends on the sockets and pages that there are. -/
lemma dataFor_congr {h' : Host} (hactive : ∀ i, (h'.socks i).active = (h.socks i).active)
    (hshm : ∀ i, (h'.shm i).isSome = (h.shm i).isSome) : h'.dataFor = h.dataFor := by
  funext e
  simp only [dataFor, hactive, hshm]

lemma dataFor_take (h : Host) (e : List UInt8) (net : Net) :
    { h.take e with net }.dataFor = h.dataFor :=
  dataFor_congr (fun i => (h.take_sock e i).1) fun i => (h.take_sock e i).2.2

/-! ## Polling -/

/-- The loop that receives and buffers frames up to the first one at which it is to stop. -/
def poll (stop : List UInt8 → Bool) : ℕ → Host → Checked (Host × Option (List UInt8))
  | 0, h => .ok (h, none)
  | fuel + 1, h =>
    netRxArm h.net >>= fun net =>
      match netRxWait net 256 with
      | none => .ok ({ h with net }, none)
      | some e => netBufferFrame { h with net } e >>= fun r =>
        if stop e then .ok (r.1, some e) else poll stop fuel r.1

/-- The frames that a loop receives in so many attempts after `k` buffers. -/
def seen (frames : ℕ → Option (List UInt8)) (stop : List UInt8 → Bool) : ℕ → ℕ → List (List UInt8)
  | 0, _ => []
  | fuel + 1, k =>
    match frames (k + 1) with
    | none => []
    | some e => e :: if stop e then [] else seen frames stop fuel (k + 1)

/-- How often it waits for one. -/
def waits (frames : ℕ → Option (List UInt8)) (stop : List UInt8 → Bool) : ℕ → ℕ → ℕ
  | 0, _ => 0
  | fuel + 1, k =>
    1 + match frames (k + 1) with
      | none => 0
      | some e => if stop e then 0 else waits frames stop fuel (k + 1)

/-- A 16-bit count has room for so many more. -/
def Fits (posted more : ℕ) : Prop := 0 < more → posted + more < 2 ^ 16

/-- The condition for the loop: the counts of buffers and of acknowledgements, and the numbers of the
segments acknowledged. -/
structure PollSafe (h : Host) (stop : List UInt8 → Bool) (fuel : ℕ) : Prop where
  rx : Fits h.net.rxPosted (waits (h.net.frameAt 256) stop fuel h.net.rxPosted)
  tx : Fits h.net.txPosted ((seen (h.net.frameAt 256) stop fuel h.net.rxPosted).countP
    fun e => (h.dataFor e).isSome)
  ack : ∀ e ∈ seen (h.net.frameAt 256) stop fuel h.net.rxPosted, (h.dataFor e).isSome →
    segSeqOf e + plenOf e < 2 ^ 32

variable {stop : List UInt8 → Bool} {fuel : ℕ}

lemma pollSafe_none (hframe : h.net.frameAt 256 (h.net.rxPosted + 1) = none) :
    PollSafe h stop (fuel + 1) ↔ h.net.rxPosted + 1 < 2 ^ 16 := by
  have hwaits : waits (h.net.frameAt 256) stop (fuel + 1) h.net.rxPosted = 1 := by
    simp only [waits, hframe]
  have hseen : seen (h.net.frameAt 256) stop (fuel + 1) h.net.rxPosted = [] := by
    rw [seen, hframe]
  constructor
  · intro hsafe
    have := hsafe.rx
    rw [hwaits] at this
    exact this Nat.one_pos
  · intro hlt
    refine ⟨?_, ?_, ?_⟩
    · rw [hwaits]
      exact fun _ => hlt
    · rw [hseen]
      exact fun hpos => absurd hpos (Nat.lt_irrefl 0)
    · rw [hseen]
      exact fun e he => absurd he List.not_mem_nil

/-- The condition at one frame, and from there on. -/
lemma pollSafe_some (hframe : h.net.frameAt 256 (h.net.rxPosted + 1) = some e) {h' : Host}
    (hrx : h'.net.rx = h.net.rx) (hposted : h'.net.rxPosted = h.net.rxPosted + 1)
    (htx : h'.net.txPosted = h.net.txPosted + if (h.dataFor e).isSome then 1 else 0)
    (hdata : h'.dataFor = h.dataFor) :
    PollSafe h stop (fuel + 1) ↔ h.net.rxPosted + 1 < 2 ^ 16 ∧
      ((h.dataFor e).isSome → segSeqOf e + plenOf e < 2 ^ 32 ∧ h.net.txPosted + 1 < 2 ^ 16) ∧
      (stop e = false → PollSafe h' stop fuel) := by
  have hframes : h'.net.frameAt 256 = h.net.frameAt 256 := by
    funext k
    simp only [Net.frameAt, hrx]
  have hsafe' : PollSafe h' stop fuel ↔
      Fits (h.net.rxPosted + 1) (waits (h.net.frameAt 256) stop fuel (h.net.rxPosted + 1)) ∧
      Fits (h.net.txPosted + if (h.dataFor e).isSome then 1 else 0)
        ((seen (h.net.frameAt 256) stop fuel (h.net.rxPosted + 1)).countP
          fun e => (h.dataFor e).isSome) ∧
      ∀ e ∈ seen (h.net.frameAt 256) stop fuel (h.net.rxPosted + 1), (h.dataFor e).isSome →
        segSeqOf e + plenOf e < 2 ^ 32 := by
    rw [← hframes, ← hposted, ← htx, ← hdata]
    exact ⟨fun hs => ⟨hs.rx, hs.tx, hs.ack⟩, fun hs => ⟨hs.1, hs.2.1, hs.2.2⟩⟩
  have hsafe : PollSafe h stop (fuel + 1) ↔
      Fits h.net.rxPosted (1 + if stop e then 0 else
        waits (h.net.frameAt 256) stop fuel (h.net.rxPosted + 1)) ∧
      Fits h.net.txPosted ((e :: if stop e then [] else
        seen (h.net.frameAt 256) stop fuel (h.net.rxPosted + 1)).countP
          fun e => (h.dataFor e).isSome) ∧
      ∀ e' ∈ e :: if stop e then [] else seen (h.net.frameAt 256) stop fuel (h.net.rxPosted + 1),
        (h.dataFor e').isSome → segSeqOf e' + plenOf e' < 2 ^ 32 := by
    have hwaits : waits (h.net.frameAt 256) stop (fuel + 1) h.net.rxPosted = 1 + if stop e then 0 else
        waits (h.net.frameAt 256) stop fuel (h.net.rxPosted + 1) := by
      rw [waits, hframe]
    have hseen : seen (h.net.frameAt 256) stop (fuel + 1) h.net.rxPosted = e :: if stop e then [] else
        seen (h.net.frameAt 256) stop fuel (h.net.rxPosted + 1) := by
      rw [seen, hframe]
    rw [← hwaits, ← hseen]
    exact ⟨fun hs => ⟨hs.rx, hs.tx, hs.ack⟩, fun hs => ⟨hs.1, hs.2.1, hs.2.2⟩⟩
  rw [hsafe, hsafe', List.countP_cons, List.forall_mem_cons]
  generalize waits (h.net.frameAt 256) stop fuel (h.net.rxPosted + 1) = w
  generalize seen (h.net.frameAt 256) stop fuel (h.net.rxPosted + 1) = es
  generalize (segSeqOf e + plenOf e < 2 ^ 32) = Ack
  cases stop e with
  | true =>
    simp only [Fits, if_true, List.countP_nil, List.not_mem_nil, false_implies, implies_true, and_true,
      Bool.true_eq_false]
    cases (h.dataFor e).isSome <;> simp only [if_true, Bool.false_eq_true, if_false, true_implies,
      false_implies] <;> grind
  | false =>
    simp only [Fits, Bool.false_eq_true, if_false, true_implies]
    generalize es.countP (fun e => (h.dataFor e).isSome) = c
    generalize (∀ e ∈ es, (h.dataFor e).isSome = true → segSeqOf e + plenOf e < 2 ^ 32) = Rest
    cases (h.dataFor e).isSome <;> simp only [if_true, Bool.false_eq_true, if_false, true_implies,
      false_implies] <;> grind

/-- The host after a frame, for the part of it that polling depends on. -/
lemma buffered_spec (hlen : 54 ≤ e.length) {r : Host × Option (Fin 4)}
    (hr : netBufferFrame { h with net := h.net.armed } e = .ok r) :
    r.1 = { h.take e with net := r.1.net } ∧ r.2 = h.dataFor e ∧ r.1.dataFor = h.dataFor ∧
    r.1.net.rx = h.net.rx ∧ r.1.net.tx = h.net.tx ∧ r.1.net.rxPosted = h.net.rxPosted + 1 ∧
    r.1.net.txPosted = h.net.txPosted + if (h.dataFor e).isSome then 1 else 0 := by
  obtain ⟨hgot, hhost, hnet⟩ := netBufferFrame_eq_ok hlen hr
  have htake : r.1 = { h.take e with net := r.1.net } := by
    rw [take_with_net] at hhost
    exact hhost
  refine ⟨htake, hgot, ?_, hnet.rx, hnet.tx, hnet.rxPosted, hnet.txPosted⟩
  rw [htake]
  exact h.dataFor_take e _

lemma poll_completes : ∀ (fuel : ℕ) (h : Host), Completes (poll stop fuel h) ↔ PollSafe h stop fuel := by
  intro fuel
  induction fuel with
  | zero =>
    intro h
    exact ⟨fun _ => ⟨fun hpos => absurd hpos (Nat.lt_irrefl 0), fun hpos => absurd hpos (Nat.lt_irrefl 0),
      fun e he => absurd he List.not_mem_nil⟩, fun _ => completes_ok _⟩
  | succ fuel ih =>
    intro h
    rw [poll, completes_bind]
    have harmed : ∀ {P : Net → Prop}, (∃ net, netRxArm h.net = .ok net ∧ P net) ↔
        h.net.rxPosted + 1 < 2 ^ 16 ∧ P h.net.armed := by
      intro P
      constructor
      · rintro ⟨net, harm, hP⟩
        obtain ⟨hlt, rfl⟩ := netRxArm_eq_ok.mp harm
        exact ⟨hlt, hP⟩
      · rintro ⟨hlt, hP⟩
        exact ⟨_, netRxArm_eq_ok.mpr ⟨hlt, rfl⟩, hP⟩
    rw [harmed]
    cases hframe : h.net.frameAt 256 (h.net.rxPosted + 1) with
    | none =>
      have hwait : netRxWait h.net.armed 256 = none := hframe
      rw [pollSafe_none hframe, hwait]
      exact ⟨fun hs => hs.1, fun hlt => ⟨hlt, completes_ok _⟩⟩
    | some e =>
      have hwait : netRxWait h.net.armed 256 = some e := hframe
      have hlen : 54 ≤ e.length := by
        rw [Net.length_of_frameAt hframe]
        decide
      rw [hwait]
      dsimp only
      have hframe' := netBufferFrame_completes (h := { h with net := h.net.armed }) hlen
      by_cases hbuf : Completes (netBufferFrame { h with net := h.net.armed } e)
      · obtain ⟨r, hr⟩ := hbuf
        obtain ⟨-, -, hdata, hrx, -, hposted, htx⟩ := buffered_spec hlen hr
        rw [pollSafe_some hframe hrx hposted htx hdata, hr, ok_bind]
        have hsafe := hframe'.mp ⟨r, hr⟩
        refine and_congr_right fun _ => ?_
        cases stop e with
        | true => exact ⟨fun _ => ⟨hsafe, fun hfalse => by cases hfalse⟩, fun _ => completes_ok _⟩
        | false => exact ⟨fun hrest => ⟨hsafe, fun _ => (ih r.1).mp hrest⟩, fun hrest =>
            (ih r.1).mpr (hrest.2 rfl)⟩
      · constructor
        · rintro ⟨-, hrest⟩
          obtain ⟨r, hr, -⟩ := completes_bind.mp hrest
          exact absurd ⟨r, hr⟩ hbuf
        · -- the frame at which it panics is one of those seen
          intro hsafe
          refine absurd (hframe'.mpr fun hdata => ?_) hbuf
          have hsome : (h.dataFor e).isSome = true := hdata
          have hseen : seen (h.net.frameAt 256) stop (fuel + 1) h.net.rxPosted = e :: if stop e then []
              else seen (h.net.frameAt 256) stop fuel (h.net.rxPosted + 1) := by
            rw [seen, hframe]
          refine ⟨hsafe.ack e (by rw [hseen]; exact List.mem_cons_self) hsome, ?_⟩
          have hcount := hsafe.tx
          rw [hseen, List.countP_cons, if_pos hsome] at hcount
          have := hcount (Nat.succ_pos _)
          change h.net.txPosted + 1 < 2 ^ 16
          omega

/-- What the loop leaves behind: the frames it has seen, taken one after the other. -/
lemma poll_eq_ok : ∀ (fuel : ℕ) (h : Host) (r : Host × Option (List UInt8)),
    poll stop fuel h = .ok r →
    r.1 = { (seen (h.net.frameAt 256) stop fuel h.net.rxPosted).foldl take h with net := r.1.net } ∧
    r.1.net.rx = h.net.rx ∧ r.1.net.tx = h.net.tx ∧
    (∀ e, r.2 = some e → stop e = true ∧
      (seen (h.net.frameAt 256) stop fuel h.net.rxPosted).getLast? = some e) ∧
    (r.2 = none → ∀ e ∈ seen (h.net.frameAt 256) stop fuel h.net.rxPosted, stop e = false) := by
  intro fuel
  induction fuel with
  | zero =>
    intro h r hr
    obtain rfl := Except.ok.inj hr
    exact ⟨rfl, rfl, rfl, (fun e he => by cases he),
      fun _ e he => absurd he List.not_mem_nil⟩
  | succ fuel ih =>
    intro h r hr
    obtain ⟨net, harm, hr⟩ := bind_eq_ok.mp hr
    obtain ⟨-, rfl⟩ := netRxArm_eq_ok.mp harm
    cases hframe : h.net.frameAt 256 (h.net.rxPosted + 1) with
    | none =>
      have hwait : netRxWait h.net.armed 256 = none := hframe
      rw [hwait] at hr
      obtain rfl := Except.ok.inj hr
      have hseen : seen (h.net.frameAt 256) stop (fuel + 1) h.net.rxPosted = [] := by
        rw [seen, hframe]
      rw [hseen]
      exact ⟨rfl, rfl, rfl, (fun e he => by cases he),
      fun _ e he => absurd he List.not_mem_nil⟩
    | some e =>
      have hwait : netRxWait h.net.armed 256 = some e := hframe
      have hlen : 54 ≤ e.length := by
        rw [Net.length_of_frameAt hframe]
        decide
      have hseen : seen (h.net.frameAt 256) stop (fuel + 1) h.net.rxPosted = e :: if stop e then []
          else seen (h.net.frameAt 256) stop fuel (h.net.rxPosted + 1) := by
        rw [seen, hframe]
      rw [hwait] at hr
      obtain ⟨q, hq, hr⟩ := bind_eq_ok.mp hr
      obtain ⟨hhost, -, -, hrx, htx, hposted, -⟩ := buffered_spec hlen hq
      rw [hseen]
      cases hstop : stop e with
      | true =>
        rw [hstop, if_pos rfl] at hr
        obtain rfl := Except.ok.inj hr
        rw [if_pos rfl]
        refine ⟨hhost, hrx, htx, fun e' he' => ?_, fun hnone => by cases hnone⟩
        obtain rfl := Option.some.inj he'
        exact ⟨hstop, rfl⟩
      | false =>
        rw [hstop, if_neg Bool.false_ne_true] at hr
        rw [if_neg Bool.false_ne_true]
        -- the rest of the loop runs on the frames of the same card
        obtain ⟨hfold, hrx', htx', hlast, hnone⟩ := ih q.1 r hr
        have hframes : q.1.net.frameAt 256 = h.net.frameAt 256 := by
          funext k
          simp only [Net.frameAt, hrx]
        rw [hframes, hposted] at hfold hlast hnone
        refine ⟨?_, hrx'.trans hrx, htx'.trans htx, fun e' he' => ?_, fun hr e' he' => ?_⟩
        · rw [hhost, foldl_take_with_net] at hfold
          exact hfold
        · obtain ⟨hstop', hlast'⟩ := hlast e' he'
          refine ⟨hstop', ?_⟩
          rw [List.getLast?_cons, hlast']
          rfl
        · rcases List.mem_cons.mp he' with rfl | he'
          · exact hstop
          · exact hnone hr e' he'

/-- A receive on a socket polls up to the first data for it. -/
def recvStop (h : Host) (sock : Fin 4) (e : List UInt8) : Bool :=
  decide (dportOf e = (h.socks sock).sport.toNat) && decide (h.dataFor e = some sock)

/-- What the receive makes of the end of the loop. -/
def recvResult (sock : Fin 4) (max : ℕ) (r : Host × Option (List UInt8)) : Host × ℕ :=
  match r.2 with
  | none => (r.1, 0)
  | some _ => (r.1.setPending sock false 0, min (r.1.pendingLen sock) (max % 2 ^ 32))

lemma recvLoop_eq (sock : Fin 4) (max : ℕ) : ∀ (fuel : ℕ) (h : Host),
    recvLoop sock max fuel h = poll (h.recvStop sock) fuel h >>= fun r =>
      pure (recvResult sock max r) := by
  intro fuel
  induction fuel with
  | zero => exact fun h => rfl
  | succ fuel ih =>
    intro h
    rw [recvLoop, poll]
    cases harm : netRxArm h.net with
    | error p => rfl
    | ok net =>
      obtain ⟨-, rfl⟩ := netRxArm_eq_ok.mp harm
      rw [ok_bind, ok_bind]
      dsimp only
      cases hframe : h.net.frameAt 256 (h.net.rxPosted + 1) with
      | none =>
        have hwait : netRxWait h.net.armed 256 = none := hframe
        rw [hwait]
        rfl
      | some e =>
        have hwait : netRxWait h.net.armed 256 = some e := hframe
        have hlen : 54 ≤ e.length := by
          rw [Net.length_of_frameAt hframe]
          decide
        rw [hwait]
        dsimp only
        rw [rdDport_of_le (by omega), ok_bind]
        cases hbuf : netBufferFrame { h with net := h.net.armed } e with
        | error p => rfl
        | ok q =>
          obtain ⟨hhost, hgot, hdata, -⟩ := buffered_spec hlen hbuf
          -- the loop goes on with the same sockets
          have hstop : q.1.recvStop sock = h.recvStop sock := by
            have hsport : (q.1.socks sock).sport = (h.socks sock).sport := by
              rw [hhost]
              exact (h.take_sock e sock).2.1
            funext e
            simp only [recvStop, hsport, hdata]
          rw [ok_bind, ok_bind, hgot, ih, hstop]
          by_cases hport : dportOf e = (h.socks sock).sport.toNat
          · rw [if_neg (not_not.mpr hport)]
            by_cases hsock : h.dataFor e = some sock
            · have htrue : h.recvStop sock e = true := by simp [recvStop, hport, hsock]
              rw [if_pos hsock, if_pos htrue]
              rfl
            · have hfalse : h.recvStop sock e = false := by simp [recvStop, hsock]
              rw [if_neg hsock, hfalse, if_neg Bool.false_ne_true]
          · have hfalse : h.recvStop sock e = false := by simp [recvStop, hport]
            rw [if_pos hport, hfalse, if_neg Bool.false_ne_true]

/-- `OP_NET_GET_READY` polls up to the first data for any socket. -/
def readyStop (h : Host) (e : List UInt8) : Bool := (h.dataFor e).isSome

/-- The mask of the socket that got data. -/
def gotMask (got : Option (Fin 4)) : ℕ :=
  match got with
  | none => 0
  | some sock => 2 ^ (sock : ℕ)

lemma readyLoop_of_ne_zero {mask : ℕ} (hmask : mask ≠ 0) (fuel : ℕ) (h : Host) :
    readyLoop fuel mask h = .ok (h, mask) := by
  cases fuel with
  | zero => rfl
  | succ fuel => rw [readyLoop, if_pos hmask]

lemma readyLoop_eq : ∀ (fuel : ℕ) (h : Host),
    readyLoop fuel 0 h = poll h.readyStop fuel h >>= fun r =>
      pure (r.1, gotMask (r.2.bind h.dataFor)) := by
  intro fuel
  induction fuel with
  | zero => exact fun h => rfl
  | succ fuel ih =>
    intro h
    rw [readyLoop, if_neg (not_not.mpr rfl), poll]
    cases harm : netRxArm h.net with
    | error p => rfl
    | ok net =>
      obtain ⟨-, rfl⟩ := netRxArm_eq_ok.mp harm
      rw [ok_bind, ok_bind]
      dsimp only
      cases hframe : h.net.frameAt 256 (h.net.rxPosted + 1) with
      | none =>
        have hwait : netRxWait h.net.armed 256 = none := hframe
        rw [hwait]
        rfl
      | some e =>
        have hwait : netRxWait h.net.armed 256 = some e := hframe
        have hlen : 54 ≤ e.length := by
          rw [Net.length_of_frameAt hframe]
          decide
        rw [hwait]
        dsimp only
        cases hbuf : netBufferFrame { h with net := h.net.armed } e with
        | error p => rfl
        | ok q =>
          obtain ⟨-, hgot, hdata, -⟩ := buffered_spec hlen hbuf
          have hstop : q.1.readyStop = h.readyStop := by
            funext e
            simp only [readyStop, hdata]
          rw [ok_bind, ok_bind, hgot]
          cases hsock : h.dataFor e with
          | none =>
            have hfalse : h.readyStop e = false := by simp [readyStop, hsock]
            rw [hfalse, if_neg Bool.false_ne_true, ← hstop, ← hdata]
            exact ih q.1
          | some sock =>
            have htrue : h.readyStop e = true := by simp [readyStop, hsock]
            -- the mask is set, so that the next attempt ends the loop
            have hpos : 0 ||| 2 ^ (sock : ℕ) ≠ 0 := by
              rw [Nat.zero_or]
              exact Nat.pos_iff_ne_zero.mp (Nat.two_pow_pos _)
            rw [htrue, if_pos rfl, ok_bind]
            dsimp only
            rw [readyLoop_of_ne_zero hpos, Nat.zero_or, Option.bind_some, hsock]
            rfl

lemma foldl_take_replies (es : List (List UInt8)) : ∀ h : Host, (es.foldl take h).replies = h.replies := by
  induction es with
  | nil => exact fun h => rfl
  | cons e es ih =>
    intro h
    rw [List.foldl_cons, ih, take_replies]

lemma poll_replies {r : Host × Option (List UInt8)} (hr : poll stop fuel h = .ok r) :
    r.1.replies = h.replies := by
  obtain ⟨hhost, -⟩ := poll_eq_ok fuel h r hr
  rw [hhost]
  exact foldl_take_replies _ h

end Host

/-! ## Files -/

section Files

open Fs

variable {dir : Sector} {i : ℕ}

lemma dirByte_of_lt {off : ℕ} (h : off < sectorSize) : dirByte dir off = .ok (dir off) := if_pos h

/-- An entry that is in use is one of the directory. -/
lemma unusedEntry_eq (dir : Sector) (i : ℕ) :
    ∃ unused, unusedEntry dir i = .ok unused ∧ (unused = false → i < dirEntries) := by
  rw [unusedEntry]
  split
  · exact ⟨true, rfl, fun h => by cases h⟩
  next hlt =>
    have hlt : i < dirEntries := Nat.lt_of_not_le hlt
    rw [dirByte_of_lt (by simp only [dirEntries, entSize, sectorSize] at *; omega)]
    exact ⟨_, rfl, fun _ => hlt⟩

lemma dirName_of_lt (h : i < dirEntries) :
    dirName dir (i * entSize) = .ok (dir.bytes (i * entSize) nameLen) := by
  refine if_pos ?_
  simp only [dirEntries, entSize, nameLen, sectorSize] at *
  omega

lemma readByIndex_completes (b : Blk) (i : ℕ) (page : Page) : Completes (readByIndex b i page) := by
  rw [readByIndex]
  split
  · exact completes_ok _
  next dir b' _ =>
    obtain ⟨unused, hunused, hlt⟩ := unusedEntry_eq dir i
    rw [hunused, ok_bind]
    cases unused with
    | true => exact completes_pure _
    | false =>
      rw [if_neg Bool.false_ne_true, dirName_of_lt (hlt rfl), ok_bind]
      exact completes_pure _

lemma countUsed_completes (dir : Sector) (is : List ℕ) (his : ∀ i ∈ is, i < dirEntries) :
    Completes (countUsed dir is) := by
  induction is with
  | nil => exact completes_ok _
  | cons i is ih =>
    obtain ⟨hi, his⟩ := List.forall_mem_cons.mp his
    obtain ⟨count, hcount⟩ := ih his
    rw [countUsed, dirByte_of_lt (by simp only [dirEntries, entSize, sectorSize] at *; omega), ok_bind,
      hcount, ok_bind]
    exact completes_pure _

/-- The file service answers every request: what it reads of the directory lies in the sector. -/
lemma serveOne_completes (b : Blk) (op arg : ℕ) : Completes (serveOne b op arg) := by
  rw [serveOne]
  split
  · exact completes_ok _
  next dir b' _ =>
    split
    · obtain ⟨count, hcount⟩ := countUsed_completes dir (List.range dirEntries) fun i hi =>
        List.mem_range.mp hi
      rw [hcount, ok_bind]
      exact completes_pure _
    · split
      · obtain ⟨unused, hunused, hlt⟩ := unusedEntry_eq dir arg
        rw [hunused, ok_bind]
        cases unused with
        | true => exact completes_pure _
        | false =>
          have hlt := hlt rfl
          rw [if_neg Bool.false_ne_true, dirU32,
            if_pos (by simp only [dirEntries, entSize, sectorSize] at *; omega), ok_bind]
          exact completes_pure _
      · split
        · dsimp only
          split
          · exact completes_pure _
          next hbounds =>
            obtain ⟨unused, hunused, hlt⟩ := unusedEntry_eq dir (arg / 2 ^ 8)
            rw [hunused, ok_bind]
            cases unused with
            | true => exact completes_pure _
            | false =>
              have hlt := hlt rfl
              rw [if_neg Bool.false_ne_true, dirByte_of_lt (by
                simp only [dirEntries, entSize, nameLen, sectorSize] at *
                omega), ok_bind]
              exact completes_pure _
        · split
          · dsimp only
            obtain ⟨unused, hunused, hlt⟩ := unusedEntry_eq dir (arg / 2 ^ 16)
            rw [hunused, ok_bind]
            cases unused with
            | true => exact completes_pure _
            | false =>
              rw [if_neg Bool.false_ne_true, dirName_of_lt (hlt rfl), ok_bind]
              split
              · split
                next hbounds =>
                  rw [slice_of_le (Nat.le_succ _) hbounds.2, ok_bind]
                  exact completes_pure _
                · exact completes_pure _
              · exact completes_pure _
          · exact completes_pure _

end Files

end Xernel
