import Xernel.Userland.Peer
import Xernel.Userland.Rings
import Xernel.Userland.Streams

/-!
# What the other end of a connection receives

Every segment that the host sends on a connection carries the bytes of one request, or none; the next one
goes on where it ended. The card reads it as it was sent, as long as the entries of the transmit ring have
not reached the buffer. Whatever the network loses, repeats or reorders of them, the other end has a prefix
of what was acknowledged to the clients, and all of it if nothing is lost (`sends_reassembled`).
-/

namespace Xernel

open Checked

/-- What goes out for a segment. -/
lemma TcpState.send_segment {n : Net} {tcp : TcpState} {flags : UInt8} {data : List UInt8}
    {s : Net × Bool} (h : tcp.send n flags data = .ok s) (hseq : tcp.ourSeq < 2 ^ 32) :
    ∃ frame, s = (n.transmitted frame, n.tx (n.txPosted + 1)) ∧
      Segment tcp.route tcp.ourSeq flags data frame := by
  have hdata := (TcpState.send_completes.mp ⟨s, h⟩).1
  obtain ⟨ipsum, cks, hipsum, hcks, hsend⟩ := netTcpSend_eq hdata
  unfold send at h
  rw [hsend] at h
  exact ⟨_, (netTx_eq_ok.mp h).2, segment_frame hseq hdata hipsum hcks⟩

/-! ## Connecting -/

section Connect

variable {n n' : Net} {tcp tcp' : TcpState}

/-- Frames that go out on a connect have the local port of the socket, and its numbers stay small. -/
structure Connecting (n : Net) (tcp : TcpState) (n' : Net) (tcp' : TcpState) : Prop where
  route : tcp'.route = tcp.route
  seq : tcp'.ourSeq < 2 ^ 32
  frames : ∃ fs, n'.sent = n.sent ++ fs ∧
    ∀ f ∈ fs, ∀ route, ToPeer route f → route.sport = tcp.sport

/-- The ports of a frame are those of one connection. -/
lemma Segment.sport {route route' : Route} {seq : ℕ} {flags : UInt8} {data e : List UInt8}
    (h : Segment route seq flags data e) (h' : ToPeer route' e) : route'.sport = route.sport :=
  UInt16.toNat_inj.mp (h'.sport.symm.trans h.toPeer.sport)

lemma Connecting.refl (n : Net) (hseq : tcp.ourSeq < 2 ^ 32) : Connecting n tcp n tcp :=
  ⟨rfl, hseq, [], (List.append_nil _).symm, fun _ hf => absurd hf List.not_mem_nil⟩

/-- A segment goes out first. -/
lemma Connecting.cons {frame : List UInt8} {flags : UInt8} {tcp₁ : TcpState}
    (h : Connecting (n.transmitted frame) tcp₁ n' tcp') (hroute : tcp₁.route = tcp.route)
    (hframe : Segment tcp₁.route tcp₁.ourSeq flags [] frame) : Connecting n tcp n' tcp' := by
  obtain ⟨hroute', hseq, fs, hsent, hfs⟩ := h
  have hsport : tcp₁.sport = tcp.sport := congrArg Route.sport hroute
  refine ⟨hroute'.trans hroute, hseq, frame :: fs, ?_, fun f hf route hto => ?_⟩
  · rw [hsent, Net.transmitted, List.append_assoc]
    rfl
  · rcases List.mem_cons.mp hf with rfl | hf
    · exact (hframe.sport hto).trans hsport
    · exact (hfs f hf route hto).trans hsport

/-- What one attempt of the wait for the answer comes to. -/
inductive ConnectAttempt (fuel : ℕ) (n : Net) (tcp : TcpState) : Net × TcpState × Bool → Prop
  | failed : ConnectAttempt fuel n tcp (n, tcp, false)
  | skipped {r : Net × TcpState × Bool} (h : connectLoop fuel n.armed tcp = .ok r) :
      ConnectAttempt fuel n tcp r
  | confirmed {answer frame : List UInt8}
      (hframe : Segment tcp.route (tcp.ourSeq + 1) tcpAck [] frame) :
      ConnectAttempt fuel n tcp (n.transmitted frame, tcp.answered answer, true)
  | again {answer frame : List UInt8} {r : Net × TcpState × Bool}
      (hframe : Segment tcp.route (tcp.ourSeq + 1) tcpAck [] frame)
      (htaken : n.tx (n.txPosted + 1) = false)
      (h : connectLoop fuel (n.transmitted frame) (tcp.answered answer) = .ok r) :
      ConnectAttempt fuel n tcp r

/-- One round of the handshake. -/
lemma connectLoop_attempt {fuel : ℕ} {r : Net × TcpState × Bool}
    (hr : connectLoop (fuel + 1) n tcp = .ok r) (hseq : tcp.ourSeq + 1 < 2 ^ 32) :
    ConnectAttempt fuel n tcp r := by
  cases hframe : n.frameAt 128 n.rxPosted with
  | none =>
    have hwait : netRxWait n 128 = none := hframe
    rw [connectLoop, hwait] at hr
    obtain rfl := Except.ok.inj hr
    exact .failed
  | some answer =>
    by_cases hport : dportOf answer = tcp.sport.toNat
    · cases hsyn : isSynAck answer with
      | false =>
        rw [connectLoop_refused hframe hport hsyn] at hr
        obtain rfl := Except.ok.inj hr
        exact .failed
      | true =>
        rw [connectLoop_synAck hframe hport hsyn hseq] at hr
        obtain ⟨ack, -, hr⟩ := bind_eq_ok.mp hr
        obtain ⟨s, hsend, hr⟩ := bind_eq_ok.mp hr
        obtain ⟨frame, rfl, hseg⟩ := TcpState.send_segment hsend hseq
        cases htaken : n.tx (n.txPosted + 1) with
        | false =>
          rw [htaken, if_neg Bool.false_ne_true] at hr
          exact .again hseg htaken hr
        | true =>
          rw [htaken, if_pos rfl] at hr
          obtain rfl := Except.ok.inj hr
          exact .confirmed hseg
    · rw [connectLoop_skip hframe hport] at hr
      obtain ⟨net, harm, hr⟩ := bind_eq_ok.mp hr
      obtain ⟨-, rfl⟩ := netRxArm_eq_ok.mp harm
      exact .skipped hr

/-- The frames sent in a handshake have no data. -/
lemma connectLoop_connecting : ∀ (fuel : ℕ) (n : Net) (tcp : TcpState) (r : Net × TcpState × Bool),
    connectLoop fuel n tcp = .ok r → tcp.ourSeq + fuel < 2 ^ 32 → Connecting n tcp r.1 r.2.1 := by
  intro fuel
  induction fuel with
  | zero =>
    intro n tcp r hr hseq
    obtain rfl := Except.ok.inj hr
    exact .refl n hseq
  | succ fuel ih =>
    intro n tcp r hr hseq
    cases connectLoop_attempt hr (by omega) with
    | failed => exact .refl n (by omega)
    | skipped hloop =>
      obtain ⟨hroute, hseq', hframes⟩ := ih n.armed tcp r hloop (by omega)
      exact ⟨hroute, hseq', hframes⟩
    | @confirmed answer frame hframe =>
      have hseq' : (tcp.answered answer).ourSeq < 2 ^ 32 := by
        simp only [TcpState.answered]
        omega
      exact (Connecting.refl (n.transmitted frame) hseq').cons rfl hframe
    | @again answer frame _ hframe _ hloop =>
      have hseq' : (tcp.answered answer).ourSeq + fuel < 2 ^ 32 := by
        simp only [TcpState.answered]
        omega
      exact (ih (n.transmitted frame) (tcp.answered answer) r hloop hseq').cons rfl hframe

/-- The answer is confirmed once if the card takes the frame. -/
lemma connectLoop_confirms : ∀ (fuel : ℕ) (n : Net) (tcp : TcpState) (r : Net × TcpState × Bool),
    connectLoop fuel n tcp = .ok r → tcp.ourSeq + fuel < 2 ^ 32 → r.2.2 = true →
    n.tx (n.txPosted + 1) = true → r.2.1.ourSeq = tcp.ourSeq + 1 ∧
      ∃ frame, r.1.sent = n.sent ++ [frame] ∧ Segment tcp.route (tcp.ourSeq + 1) tcpAck [] frame := by
  intro fuel
  induction fuel with
  | zero =>
    intro n tcp r hr _ hactive
    obtain rfl := Except.ok.inj hr
    cases hactive
  | succ fuel ih =>
    intro n tcp r hr hseq hactive htaken
    cases connectLoop_attempt hr (by omega) with
    | failed => cases hactive
    | skipped hloop => exact ih n.armed tcp r hloop (by omega) hactive htaken
    | @confirmed answer frame hframe => exact ⟨rfl, frame, rfl, hframe⟩
    | again _ hlost _ =>
      rw [htaken] at hlost
      cases hlost

/-- A connect begins with a SYN. -/
lemma netConnect_syn {r : Net × TcpState × Bool} (hr : netConnect n tcp = .ok r) :
    ∃ frame, Segment tcp.route tcp.opening.ourSeq tcpSyn [] frame ∧
      (connectLoop 4 (n.armed.transmitted frame) tcp.opening = .ok r ∨
        r = (n.armed.transmitted frame, tcp.opening, false)) := by
  have hport := tcp.sport.toNat_lt
  have hseq : tcp.opening.ourSeq < 2 ^ 32 := by
    simp only [TcpState.opening]
    omega
  rw [netConnect_eq] at hr
  obtain ⟨net, harm, hr⟩ := bind_eq_ok.mp hr
  obtain ⟨-, rfl⟩ := netRxArm_eq_ok.mp harm
  obtain ⟨s, hsend, hr⟩ := bind_eq_ok.mp hr
  obtain ⟨frame, rfl, hsyn⟩ := TcpState.send_segment hsend hseq
  refine ⟨frame, hsyn, ?_⟩
  dsimp only at hr
  split at hr
  · exact .inl hr
  · exact .inr (Except.ok.inj hr).symm

lemma opening_ourSeq_lt (tcp : TcpState) : tcp.opening.ourSeq + 4 < 2 ^ 32 := by
  have hport := tcp.sport.toNat_lt
  simp only [TcpState.opening]
  omega

/-- So it is for all of `net_connect`. -/
lemma netConnect_connecting {r : Net × TcpState × Bool} (hr : netConnect n tcp = .ok r) :
    Connecting n tcp r.1 r.2.1 := by
  have hseq := opening_ourSeq_lt tcp
  obtain ⟨frame, hsyn, hloop⟩ := netConnect_syn hr
  suffices hloop : Connecting n.armed tcp r.1 r.2.1 from ⟨hloop.route, hloop.seq, hloop.frames⟩
  rcases hloop with hloop | rfl
  · exact (connectLoop_connecting 4 _ _ r hloop hseq).cons rfl hsyn
  · exact (Connecting.refl _ (by dsimp only; omega)).cons rfl hsyn

/-- A connect whose confirmation is taken at once sends two segments: the SYN, and the one behind it. -/
lemma netConnect_opens {r : Net × TcpState × Bool} (hr : netConnect n tcp = .ok r)
    (hactive : r.2.2 = true) (htaken : n.tx (n.txPosted + 2) = true) :
    ∃ seq syn ack, r.2.1.ourSeq = seq + 1 ∧ r.1.sent = n.sent ++ [syn, ack] ∧
      Segment tcp.route seq tcpSyn [] syn ∧ Segment tcp.route (seq + 1) tcpAck [] ack := by
  have hseq := opening_ourSeq_lt tcp
  obtain ⟨syn, hsyn, hloop⟩ := netConnect_syn hr
  rcases hloop with hloop | rfl
  · obtain ⟨hnext, ack, hsent, hack⟩ := connectLoop_confirms 4 _ _ r hloop hseq hactive htaken
    refine ⟨_, syn, ack, hnext, ?_, hsyn, hack⟩
    rw [hsent, Net.transmitted, List.append_assoc]
    rfl
  · cases hactive

end Connect

namespace Host

/-! ## Steps -/

/-- The bytes that a step acknowledges to the client of a socket: those of a send that succeeds, as many as
the reply says from the start of its page. -/
def accepted (i : Fin 4) (u : Transition Host Event (List Reply)) : List UInt8 :=
  match u.event with
  | .store _ _ _ => []
  | .request req =>
    if opOf req = opNetSend ∧ sockOf (argOf req) = some i then
      (u.out.filter fun r => r.word ≠ u64Max).flatMap fun r =>
        ((u.pre.shm i).map fun page => page.bytes.take r.word).getD []
    else []

/-- The sequence numbers fit into 32 bits, and each socket has its port. -/
structure Numbered (h : Host) : Prop where
  sport : ∀ j, (h.socks j).sport = UInt16.ofNat (portBase + (j : ℕ))
  seq : ∀ j, (h.socks j).ourSeq < 2 ^ 32

/-- The connections stay as they are, and what is transmitted carries no data. -/
structure Acks (h h' : Host) : Prop where
  route : ∀ j, (h'.socks j).route = (h.socks j).route
  seq : ∀ j, (h'.socks j).ourSeq = (h.socks j).ourSeq
  frames : ∃ fs, h'.net.sent = h.net.sent ++ fs ∧
    ∀ f ∈ fs, synFlag f = false ∧ (chunkOf f).data = []

/-- A send that reaches the card, and the number of bytes it acknowledges. -/
structure Passes (h : Host) (sock : Fin 4) (data : List UInt8) (h' : Host) : Prop where
  frame : ∃ f, h'.net.sent = h.net.sent ++ [f] ∧
    Segment (h.socks sock).route (h.socks sock).ourSeq (tcpPsh ||| tcpAck) data f
  socks : h'.socks = if h.net.tx (h.net.txPosted + 1) then
    Function.update h.socks sock
      { h.socks sock with ourSeq := (h.socks sock).ourSeq + data.length } else h.socks
  seq : h.net.tx (h.net.txPosted + 1) = true → (h.socks sock).ourSeq + data.length < 2 ^ 32

/-- A connect changes its own socket only. -/
structure Opens (h : Host) (sock : Fin 4) (h' : Host) : Prop where
  others : ∀ j, j ≠ sock → h'.socks j = h.socks j
  sport : (h'.socks sock).sport = (h.socks sock).sport
  seq : (h'.socks sock).ourSeq < 2 ^ 32
  frames : ∃ fs, h'.net.sent = h.net.sent ++ fs ∧
    ∀ f ∈ fs, ∀ route, ToPeer route f → route.sport = (h.socks sock).sport

section Requests

variable {h h' h'' : Host} {i sock : Fin 4} {arg : ℕ} {data : List UInt8}

/-- Nothing is sent. -/
lemma Acks.of_eq (hsocks : h'.socks = h.socks) (hsent : h'.net.sent = h.net.sent) : h.Acks h' where
  route j := by rw [hsocks]
  seq j := by rw [hsocks]
  frames := ⟨[], by rw [hsent, List.append_nil], fun _ hf => absurd hf List.not_mem_nil⟩

/-- Acknowledgements of several frames. -/
lemma Acks.trans (h₁ : h.Acks h') (h₂ : h'.Acks h'') : h.Acks h'' := by
  obtain ⟨fs, hsent, hfs⟩ := h₁.frames
  obtain ⟨fs', hsent', hfs'⟩ := h₂.frames
  refine ⟨fun j => (h₂.route j).trans (h₁.route j), fun j => (h₂.seq j).trans (h₁.seq j), fs ++ fs', ?_,
    fun f hf => ?_⟩
  · rw [hsent', hsent, List.append_assoc]
  · rcases List.mem_append.mp hf with hf | hf
    · exact hfs f hf
    · exact hfs' f hf

/-- A segment without data and without SYN. -/
lemma Acks.of_segment {flags : UInt8} {frame : List UInt8} {route : Route} {seq : ℕ}
    (hroute : ∀ j, (h'.socks j).route = (h.socks j).route)
    (hseq : ∀ j, (h'.socks j).ourSeq = (h.socks j).ourSeq)
    (hsent : h'.net.sent = h.net.sent ++ [frame]) (hframe : Segment route seq flags [] frame)
    (hflags : flags.toNat / 2 % 2 ≠ 1) : h.Acks h' := by
  refine ⟨hroute, hseq, [frame], hsent, fun f hf => ?_⟩
  obtain rfl := List.mem_singleton.mp hf
  exact ⟨hframe.syn.trans (decide_eq_false hflags), congrArg Chunk.data hframe.chunk⟩

/-- A frame that is taken changes what is acknowledged to the peer. -/
lemma take_route (h : Host) (e : List UInt8) (j : Fin 4) :
    ((h.take e).socks j).route = (h.socks j).route ∧
      ((h.take e).socks j).ourSeq = (h.socks j).ourSeq := by
  rw [take]
  split
  · exact ⟨rfl, rfl⟩
  next sock _ =>
    split
    · exact ⟨rfl, rfl⟩
    · by_cases hj : j = sock
      · subst hj
        simp [notify, setPending, setShm, setSock, TcpState.route]
      · simp [notify, setPending, setShm, setSock, hj]

/-- A frame that is buffered is acknowledged without data. -/
lemma netBufferFrame_sends {e : List UInt8} {r : Host × Option (Fin 4)} (hlen : 54 ≤ e.length)
    (hseq : ∀ j, (h.socks j).ourSeq < 2 ^ 32) (hr : netBufferFrame h e = .ok r) : h.Acks r.1 := by
  cases hdata : h.dataFor e with
  | none =>
    rw [netBufferFrame_none hlen hdata] at hr
    obtain rfl := Except.ok.inj hr
    exact .of_eq rfl rfl
  | some sock =>
    rw [netBufferFrame_some hlen hdata] at hr
    obtain ⟨ack, -, hr⟩ := bind_eq_ok.mp hr
    obtain ⟨s, hsend, hr⟩ := bind_eq_ok.mp hr
    obtain rfl := Except.ok.inj hr
    obtain ⟨frame, rfl, hframe⟩ := TcpState.send_segment hsend (hseq sock)
    exact .of_segment (fun j => (h.take_route e j).1) (fun j => (h.take_route e j).2) rfl hframe
      (by decide)

/-- So is each frame that is polled. -/
lemma poll_sends {stop : List UInt8 → Bool} : ∀ (fuel : ℕ) (h : Host)
    (r : Host × Option (List UInt8)), (∀ j, (h.socks j).ourSeq < 2 ^ 32) →
    poll stop fuel h = .ok r → h.Acks r.1 := by
  intro fuel
  induction fuel with
  | zero =>
    intro h r hseq hr
    obtain rfl := Except.ok.inj hr
    exact .of_eq rfl rfl
  | succ fuel ih =>
    intro h r hseq hr
    rw [poll] at hr
    obtain ⟨net, harm, hr⟩ := bind_eq_ok.mp hr
    obtain ⟨-, rfl⟩ := netRxArm_eq_ok.mp harm
    cases hframe : netRxWait h.net.armed 256 with
    | none =>
      rw [hframe] at hr
      obtain rfl := Except.ok.inj hr
      exact .of_eq rfl rfl
    | some e =>
      rw [hframe] at hr
      obtain ⟨q, hq, hr⟩ := bind_eq_ok.mp hr
      have hlen : 54 ≤ e.length := by
        rw [Net.length_of_frameAt hframe]
        decide
      -- arming sends nothing, so only the frame that came is answered
      have harmed : h.Acks { h with net := h.net.armed } := .of_eq rfl rfl
      have hfirst : h.Acks q.1 := harmed.trans (netBufferFrame_sends hlen hseq hq)
      split at hr
      · obtain rfl := Except.ok.inj hr
        exact hfirst
      · exact hfirst.trans (ih q.1 r (fun j => by rw [hfirst.seq]; exact hseq j) hr)

lemma readfile_sends (hx : h.readfile arg = .ok h') : h.Acks h' := by
  rw [readfile] at hx
  split at hx
  · obtain rfl := Except.ok.inj hx
    exact .of_eq rfl rfl
  · obtain ⟨⟨size, page, blk⟩, -, hx⟩ := bind_eq_ok.mp hx
    cases size with
    | some n =>
      obtain rfl := Except.ok.inj hx
      exact .of_eq rfl rfl
    | none =>
      obtain rfl := Except.ok.inj hx
      exact .of_eq rfl rfl

/-- A connect opens a connection on its socket. -/
lemma netConnect_sends (hx : h.netConnect arg = .ok h') (hsock : sockOf arg = some sock) :
    h.Opens sock h' := by
  rw [netConnect, hsock] at hx
  dsimp only at hx
  obtain ⟨r, hr, hx⟩ := bind_eq_ok.mp hx
  obtain ⟨hroute, hseq, hframes⟩ := netConnect_connecting hr
  obtain rfl := Except.ok.inj hx
  refine ⟨fun j hj => by simp [ipcSend, setSock, hj], ?_, ?_, hframes⟩
  · simp only [ipcSend, setSock, Function.update_self]
    exact congrArg Route.sport hroute
  · simp only [ipcSend, setSock, Function.update_self]
    exact hseq

/-- A send is answered by the number of its bytes if the card takes its segment, and else by an error. -/
lemma netSend_sends (hx : h.netSend arg = .ok h') (hseq : ∀ j, (h.socks j).ourSeq < 2 ^ 32) :
    (h.Acks h' ∧ h'.replies = h.replies ++ [⟨u64Max, noCap⟩]) ∨
      ∃ sock page, sockOf arg = some sock ∧ h.shm sock = some page ∧
        (page.bytes.take (sockArg arg)).length = sockArg arg ∧
        h.Passes sock (page.bytes.take (sockArg arg)) h' ∧ h'.replies = h.replies ++
          [⟨if h.net.tx (h.net.txPosted + 1) then sockArg arg else u64Max, noCap⟩] := by
  rw [netSend] at hx
  split at hx
  · obtain rfl := Except.ok.inj hx
    exact .inl ⟨.of_eq rfl rfl, rfl⟩
  next sock page hfound =>
    obtain ⟨sock', hsock, hfound⟩ := Option.bind_eq_some_iff.mp hfound
    obtain ⟨page', hpage, hpair⟩ := Option.map_eq_some_iff.mp hfound
    obtain ⟨rfl, rfl⟩ := Prod.mk.inj hpair
    dsimp only at hx
    split at hx
    next huse =>
      have hlen : (page'.bytes.take (sockArg arg)).length = sockArg arg := by
        rw [List.length_take, page'.length_bytes, min_eq_left huse.2]
      obtain ⟨s, hsend, hx⟩ := bind_eq_ok.mp hx
      obtain ⟨frame, rfl, hframe⟩ := TcpState.send_segment hsend (hseq sock')
      refine .inr ⟨sock', page', hsock, hpage, hlen, ?_⟩
      dsimp only at hx
      cases htaken : h.net.tx (h.net.txPosted + 1) with
      | true =>
        rw [htaken, if_pos rfl] at hx
        obtain ⟨seq, hadd, hx⟩ := bind_eq_ok.mp hx
        obtain ⟨hlt, rfl⟩ := add_eq_ok.mp hadd
        obtain rfl := Except.ok.inj hx
        refine ⟨⟨⟨frame, rfl, hframe⟩, ?_, fun _ => by rw [hlen]; exact hlt⟩, rfl⟩
        rw [htaken, if_pos rfl, hlen]
        rfl
      | false =>
        rw [htaken, if_neg Bool.false_ne_true] at hx
        obtain rfl := Except.ok.inj hx
        refine ⟨⟨⟨frame, rfl, hframe⟩, ?_, fun hfalse => ?_⟩, rfl⟩
        · rw [htaken, if_neg Bool.false_ne_true]
          rfl
        · rw [htaken] at hfalse
          cases hfalse
    next =>
      obtain rfl := Except.ok.inj hx
      exact .inl ⟨.of_eq rfl rfl, rfl⟩

lemma recvResult_sends (sock : Fin 4) (max : ℕ) (r : Host × Option (List UInt8)) :
    r.1.Acks (recvResult sock max r).1 := by
  obtain ⟨h, last⟩ := r
  cases last with
  | none => exact .of_eq rfl rfl
  | some e => exact .of_eq rfl rfl

lemma netRecv_sends (hx : h.netRecv arg = .ok h') (hseq : ∀ j, (h.socks j).ourSeq < 2 ^ 32) :
    h.Acks h' := by
  rw [netRecv] at hx
  dsimp only at hx
  split at hx
  · obtain rfl := Except.ok.inj hx
    exact .of_eq rfl rfl
  next sock _ =>
    split at hx
    · obtain rfl := Except.ok.inj hx
      exact .of_eq rfl rfl
    · rw [recvLoop_eq] at hx
      obtain ⟨r, hr, hx⟩ := bind_eq_ok.mp hx
      obtain ⟨q, hq, hr⟩ := bind_eq_ok.mp hr
      obtain rfl := Except.ok.inj hr
      obtain rfl := Except.ok.inj hx
      have hpoll := (poll_sends 6 h q hseq hq).trans (recvResult_sends sock (sockArg arg) q)
      exact hpoll.trans (.of_eq rfl rfl)

lemma netClose_sends (hx : h.netClose arg = .ok h') (hseq : ∀ j, (h.socks j).ourSeq < 2 ^ 32) :
    h.Acks h' := by
  rw [netClose] at hx
  split at hx
  · obtain rfl := Except.ok.inj hx
    exact .of_eq rfl rfl
  next sock _ =>
    obtain ⟨s, hsend, hx⟩ := bind_eq_ok.mp hx
    obtain ⟨frame, rfl, hframe⟩ := TcpState.send_segment hsend (hseq sock)
    obtain rfl := Except.ok.inj hx
    -- closing changes no field of the connection
    have hkeep : ∀ j, ((Function.update h.socks sock { h.socks sock with active := false } j).route =
        (h.socks j).route) ∧ (Function.update h.socks sock { h.socks sock with active := false }
          j).ourSeq = (h.socks j).ourSeq := by
      intro j
      by_cases hj : j = sock
      · subst hj
        simp [TcpState.route]
      · simp [hj]
    exact .of_segment (fun j => (hkeep j).1) (fun j => (hkeep j).2) rfl hframe (by decide)

lemma netGetFrame_sends (hx : h.netGetFrame arg = .ok h') : h.Acks h' := by
  rw [netGetFrame] at hx
  split at hx
  · obtain rfl := Except.ok.inj hx
    exact .of_eq rfl rfl
  · obtain rfl := Except.ok.inj hx
    exact .of_eq rfl rfl

lemma netGetReady_sends (hx : h.netGetReady = .ok h') (hseq : ∀ j, (h.socks j).ourSeq < 2 ^ 32) :
    h.Acks h' := by
  rw [netGetReady] at hx
  obtain ⟨⟨h₁, mask⟩, hloop, hx⟩ := bind_eq_ok.mp hx
  obtain rfl := Except.ok.inj hx
  by_cases hmask : readyMask h.pending = 0
  · rw [hmask, readyLoop_eq] at hloop
    obtain ⟨q, hq, hloop⟩ := bind_eq_ok.mp hloop
    obtain ⟨rfl, -⟩ := Prod.mk.inj (Except.ok.inj hloop)
    exact (poll_sends 6 h q hseq hq).trans (.of_eq rfl rfl)
  · rw [readyLoop_of_ne_zero hmask] at hloop
    obtain ⟨rfl, -⟩ := Prod.mk.inj (Except.ok.inj hloop)
    exact .of_eq rfl rfl

lemma serveFile_sends {op : ℕ} (hx : h.serveFile op arg = .ok h') : h.Acks h' := by
  rw [serveFile] at hx
  obtain ⟨⟨reply, blk⟩, -, hx⟩ := bind_eq_ok.mp hx
  obtain rfl := Except.ok.inj hx
  exact .of_eq rfl rfl

end Requests

/-! ## Runs -/

section Runs

variable {h h' s : Host} {ev : Event} {out : List Reply} {i sock : Fin 4} {data : List UInt8}
  {ts a b : List (Transition Host Event (List Reply))} {t : Transition Host Event (List Reply)}

/-- What a step may transmit: segments without data, the data of one send, or a handshake. -/
inductive Transmission (h : Host) (ev : Event) (out : List Reply) (h' : Host) : Prop
  | acks (hacks : h.Acks h') (hnone : ∀ i, accepted i ⟨h, ev, out, h'⟩ = [])
  | passes {sock : Fin 4} {data : List UInt8} (hasks : ev.Asks opNetSend sock)
      (hpasses : h.Passes sock data h')
      (haccepted : accepted sock ⟨h, ev, out, h'⟩ = if h.net.tx (h.net.txPosted + 1) then data else [])
      (hnone : ∀ i, i ≠ sock → accepted i ⟨h, ev, out, h'⟩ = [])
  | opens {sock : Fin 4} (hasks : ev.Asks opNetConnect sock) (hopens : h.Opens sock h')
      (hnone : ∀ i, accepted i ⟨h, ev, out, h'⟩ = [])

lemma accepted_other {req : UInt64} (hop : opOf req ≠ opNetSend) :
    accepted i ⟨h, .request req, out, h'⟩ = [] := by
  rw [accepted]
  exact if_neg fun hand => hop hand.1

lemma accepted_socket {req : UInt64} (hsock : sockOf (argOf req) ≠ some i) :
    accepted i ⟨h, .request req, out, h'⟩ = [] := by
  rw [accepted]
  exact if_neg fun hand => hsock hand.2

/-- An error acknowledges nothing. -/
lemma accepted_error {req : UInt64} : accepted i ⟨h, .request req, [⟨u64Max, noCap⟩], h'⟩ = [] := by
  rw [accepted]
  dsimp only
  split <;> simp

lemma accepted_send {req : UInt64} {page : Page} {len : ℕ} (hop : opOf req = opNetSend)
    (hsock : sockOf (argOf req) = some i) (hpage : h.shm i = some page) (hlen : len ≠ u64Max) :
    accepted i ⟨h, .request req, [⟨len, noCap⟩], h'⟩ = page.bytes.take len := by
  rw [accepted]
  dsimp only
  rw [if_pos ⟨hop, hsock⟩]
  simp [hlen, hpage]

lemma netSend_transmission {req : UInt64} (hop : opOf req = opNetSend)
    (hx : h.netSend (argOf req) = .ok h') (hseq : ∀ j, (h.socks j).ourSeq < 2 ^ 32) :
    h.Transmission (.request req) (h'.replies.drop h.replies.length) h' := by
  rcases netSend_sends hx hseq with ⟨hacks, hreply⟩ | ⟨sock, page, hsock, hpage, hlen, hpasses, hreply⟩
  · refine .acks hacks fun i => ?_
    rw [hreply, List.drop_left]
    exact accepted_error
  · have hmax : sockArg (argOf req) ≠ u64Max := by
      have hle := page.length_bytes
      rw [List.length_take] at hlen
      simp only [Fs.pageBytes] at hle
      simp only [u64Max]
      omega
    refine .passes ⟨req, rfl, hop, hsock⟩ hpasses ?_ fun i hi => accepted_socket ?_
    · rw [hreply, List.drop_left]
      cases h.net.tx (h.net.txPosted + 1) with
      | true => exact accepted_send hop hsock hpage hmax
      | false => exact accepted_error
    · rw [hsock]
      exact fun heq => hi (Option.some.inj heq).symm

lemma dispatch_transmission {req : UInt64} {op : ℕ} (hop : opOf req = op)
    (hx : h.dispatch op (argOf req) = .ok h') (hseq : ∀ j, (h.socks j).ourSeq < 2 ^ 32) :
    h.Transmission (.request req) (h'.replies.drop h.replies.length) h' := by
  have hacks : op ≠ opNetSend → h.Acks h' →
      h.Transmission (.request req) (h'.replies.drop h.replies.length) h' :=
    fun hne hacks => .acks hacks fun _ => accepted_other (hop ▸ hne)
  rw [dispatch] at hx
  by_cases hread : op = opReadfile
  · rw [if_pos hread] at hx
    exact hacks (by rw [hread]; decide) (readfile_sends hx)
  rw [if_neg hread] at hx
  by_cases hconnect : op = opNetConnect
  · rw [if_pos hconnect] at hx
    have hne : op ≠ opNetSend := by rw [hconnect]; decide
    cases hsock : sockOf (argOf req) with
    | none =>
      rw [Host.netConnect, hsock] at hx
      obtain rfl := Except.ok.inj hx
      exact hacks hne (.of_eq rfl rfl)
    | some sock =>
      exact .opens ⟨req, rfl, hop.trans hconnect, hsock⟩ (netConnect_sends hx hsock)
        fun _ => accepted_other (hop ▸ hne)
  rw [if_neg hconnect] at hx
  by_cases hsend : op = opNetSend
  · rw [if_pos hsend] at hx
    exact netSend_transmission (hop.trans hsend) hx hseq
  rw [if_neg hsend] at hx
  refine hacks hsend ?_
  split at hx
  · exact netRecv_sends hx hseq
  split at hx
  · exact netClose_sends hx hseq
  split at hx
  · exact netGetFrame_sends hx
  split at hx
  · exact netGetReady_sends hx hseq
  · exact serveFile_sends hx

lemma step_transmission (hs : system.step h ev = some (h', out))
    (hseq : ∀ j, (h.socks j).ourSeq < 2 ^ 32) : h.Transmission ev out h' := by
  cases ev with
  | request req =>
    simp only [system] at hs
    split at hs
    next h₁ hx =>
      obtain ⟨rfl, rfl⟩ := Prod.mk.inj (Option.some.inj hs)
      rw [combinedService] at hx
      split at hx
      · cases hx
      · obtain ⟨h₂, hdispatch, hx⟩ := bind_eq_ok.mp hx
        obtain rfl := Option.some.inj (Except.ok.inj hx)
        exact dispatch_transmission rfl hdispatch hseq
    next => cases hs
  | store sock off bytes =>
    simp only [system] at hs
    split at hs
    · cases hs
    next page _ =>
      split at hs
      next page' _ =>
        obtain ⟨rfl, rfl⟩ := Prod.mk.inj (Option.some.inj hs)
        exact .acks (.of_eq rfl rfl) fun i => rfl
      next => cases hs

lemma Numbered.step (hn : h.Numbered) (hs : system.step h ev = some (h', out)) : h'.Numbered := by
  cases step_transmission hs hn.seq with
  | acks hacks =>
    refine ⟨fun j => ?_, fun j => by rw [hacks.seq]; exact hn.seq j⟩
    rw [← hn.sport j]
    exact congrArg Route.sport (hacks.route j)
  | @passes sock data _ hpasses =>
    have hsocks := hpasses.socks
    split at hsocks
    next htaken =>
      refine ⟨fun j => ?_, fun j => ?_⟩
      · by_cases hj : j = sock
        · subst hj
          rw [hsocks, Function.update_self]
          exact hn.sport j
        · rw [hsocks, Function.update_of_ne hj]
          exact hn.sport j
      · by_cases hj : j = sock
        · subst hj
          rw [hsocks, Function.update_self]
          exact hpasses.seq htaken
        · rw [hsocks, Function.update_of_ne hj]
          exact hn.seq j
    next => exact ⟨fun j => by rw [hsocks]; exact hn.sport j, fun j => by rw [hsocks]; exact hn.seq j⟩
  | @opens sock _ hopens =>
    refine ⟨fun j => ?_, fun j => ?_⟩
    · by_cases hj : j = sock
      · subst hj
        rw [hopens.sport]
        exact hn.sport j
      · rw [hopens.others j hj]
        exact hn.sport j
    · by_cases hj : j = sock
      · subst hj
        exact hopens.seq
      · rw [hopens.others j hj]
        exact hn.seq j

lemma numbered_run (hrun : Run system ts s) : s.Numbered := by
  refine Run.invariant (fun h hstart => ?_) (fun _ _ _ _ _ hn hs => hn.step hs) hrun
  obtain ⟨-, -, -, hsocks, -⟩ := hstart
  constructor
  · intro j
    rw [hsocks]
    rfl
  · intro j
    rw [hsocks]
    exact Nat.two_pow_pos 32

lemma Numbered.port_inj (hn : h.Numbered) (hport : (h.socks i).sport = (h.socks sock).sport) :
    i = sock := by
  rw [hn.sport, hn.sport] at hport
  have hnat := congrArg UInt16.toNat hport
  simp only [UInt16.toNat_ofNat', portBase] at hnat
  omega

/-- What a step does on the connection of one socket: it sends the bytes that it acknowledges, in one
segment, and otherwise segments without data. -/
structure Sends (h : Host) (i : Fin 4) (bytes : List UInt8) (h' : Host) : Prop where
  route : (h'.socks i).route = (h.socks i).route
  seq : (h'.socks i).ourSeq = (h.socks i).ourSeq + bytes.length
  frames : ∃ fs, h'.net.sent = h.net.sent ++ fs ∧
    (∀ f ∈ fs, ToPeer (h.socks i).route f → synFlag f = false ∧
      ((chunkOf f).data = [] ∨ chunkOf f = ⟨(h.socks i).ourSeq, bytes⟩)) ∧
    (bytes ≠ [] → ∃ f ∈ fs, ToPeer (h.socks i).route f ∧ chunkOf f = ⟨(h.socks i).ourSeq, bytes⟩)

lemma step_sends (hn : h.Numbered) (hs : system.step h ev = some (h', out))
    (hconn : ¬ ev.Asks opNetConnect i)
    (htaken : ev.Asks opNetSend i → h.net.tx (h.net.txPosted + 1) = true) :
    h.Sends i (accepted i ⟨h, ev, out, h'⟩) h' := by
  cases step_transmission hs hn.seq with
  | acks hacks hnone =>
    obtain ⟨fs, hsent, hfs⟩ := hacks.frames
    rw [hnone]
    exact ⟨hacks.route i, hacks.seq i, fs, hsent, fun f hf _ => ⟨(hfs f hf).1, .inl (hfs f hf).2⟩,
      fun hne => absurd rfl hne⟩
  | @passes sock data hasks hpasses haccepted hnone =>
    obtain ⟨f, hsent, hframe⟩ := hpasses.frame
    have hsocks := hpasses.socks
    by_cases hi : i = sock
    · subst hi
      rw [haccepted, if_pos (htaken hasks)]
      rw [if_pos (htaken hasks)] at hsocks
      refine ⟨?_, ?_, [f], hsent, fun f' hf' _ => ?_, fun _ => ⟨f, List.mem_singleton_self f,
        hframe.toPeer, hframe.chunk⟩⟩
      · rw [hsocks, Function.update_self]
        rfl
      · rw [hsocks, Function.update_self]
      · obtain rfl := List.mem_singleton.mp hf'
        exact ⟨hframe.syn, .inr hframe.chunk⟩
    · -- segments of another socket have another source port
      have hkeep : h'.socks i = h.socks i := by
        rw [hsocks]
        split
        · exact Function.update_of_ne hi _ _
        · rfl
      rw [hnone i hi]
      refine ⟨by rw [hkeep], by rw [hkeep]; rfl, [f], hsent, fun f' hf' hto => ?_, fun hne => absurd rfl hne⟩
      obtain rfl := List.mem_singleton.mp hf'
      exact absurd (hn.port_inj (hframe.sport hto)) hi
  | @opens sock hasks hopens hnone =>
    have hi : i ≠ sock := by
      rintro rfl
      exact hconn hasks
    obtain ⟨fs, hsent, hfs⟩ := hopens.frames
    rw [hnone]
    refine ⟨by rw [hopens.others i hi], by rw [hopens.others i hi]; rfl, fs, hsent, fun f hf hto => ?_,
      fun hne => absurd rfl hne⟩
    exact absurd (hn.port_inj (hfs f hf _ hto)) hi

/-- A connect that succeeds, with its confirmation taken at once, sends two segments. -/
lemma connect_sends (hasks : ev.Asks opNetConnect i) (hs : system.step h ev = some (h', [⟨0, noCap⟩]))
    (hfirst : h.net.tx (h.net.txPosted + 2) = true) :
    ∃ seq syn ack, (h'.socks i).ourSeq = seq + 1 ∧ h'.net.sent = h.net.sent ++ [syn, ack] ∧
      Segment (h'.socks i).route seq tcpSyn [] syn ∧
      Segment (h'.socks i).route (seq + 1) tcpAck [] ack := by
  obtain ⟨req, hreq, hop, hsock⟩ := hasks
  obtain rfl : ev = .request req := by
    cases ev with
    | request req' => exact congrArg Event.request (Option.some.inj hreq)
    | store sock off bytes => cases hreq
  simp only [system] at hs
  split at hs
  next h₁ hx =>
    obtain ⟨rfl, hreply⟩ := Prod.mk.inj (Option.some.inj hs)
    rw [combinedService, if_neg (by rw [hop]; decide)] at hx
    obtain ⟨h₂, hdispatch, hx⟩ := bind_eq_ok.mp hx
    obtain rfl := Option.some.inj (Except.ok.inj hx)
    rw [hop, dispatch, if_neg (by decide), if_pos rfl, netConnect, hsock] at hdispatch
    obtain ⟨r, hr, hdispatch⟩ := bind_eq_ok.mp hdispatch
    have hroute := (netConnect_connecting hr).route
    obtain rfl := Except.ok.inj hdispatch
    have hactive : r.2.2 = true := by
      rw [ipcSend, setSock, List.drop_left] at hreply
      cases hactive : r.2.2 with
      | true => rfl
      | false =>
        rw [hactive] at hreply
        cases hreply
    obtain ⟨seq, syn, ack, hseq, hsent, hsyn, hack⟩ := netConnect_opens hr hactive hfirst
    rw [← hroute] at hsyn hack
    refine ⟨seq, syn, ack, ?_, hsent, ?_, ?_⟩
    · simp only [ipcSend, setSock, Function.update_self]
      exact hseq
    · simp only [ipcSend, setSock, Function.update_self]
      exact hsyn
    · simp only [ipcSend, setSock, Function.update_self]
      exact hack
  next => cases hs

/-- What has gone out on a connection since it was opened: the SYN first, then segments that cover the
bytes acknowledged so far, and nothing else. -/
structure Outgoing (route : Route) (base : ℕ) (before : List (List UInt8)) (i : Fin 4) (S : List UInt8)
    (h : Host) : Prop where
  same : (h.socks i).route = route
  seq : (h.socks i).ourSeq = base + S.length
  frames : ∃ syn fs, h.net.sent = before ++ syn :: fs ∧ ToPeer route syn ∧ synFlag syn = true ∧
    Reassembly.Covers (route.chunks fs) base (base + S.length) ∧
    ∀ f ∈ syn :: fs, OfConnection route base S f

lemma Outgoing.step {route : Route} {base : ℕ} {before : List (List UInt8)} {S bytes : List UInt8}
    (ho : Outgoing route base before i S h) (hsends : h.Sends i bytes h') :
    Outgoing route base before i (S ++ bytes) h' := by
  obtain ⟨syn, fs, hsent, hto, hsyn, hcovers, hfs⟩ := ho.frames
  obtain ⟨fs', hsent', hfs', hdata⟩ := hsends.frames
  rw [ho.same, ho.seq] at hfs' hdata
  refine ⟨hsends.route.trans ho.same, ?_, syn, fs ++ fs', ?_, hto, hsyn, ?_, fun f hf => ?_⟩
  · rw [hsends.seq, ho.seq, List.length_append, Nat.add_assoc]
  · rw [hsent', hsent, List.append_assoc]
    rfl
  · rw [Route.chunks, List.filter_append, List.map_append, List.length_append, ← Nat.add_assoc]
    refine hcovers.append ?_
    -- new bytes are covered by the segment that carries them
    by_cases hbytes : bytes = []
    · rw [hbytes]
      exact Reassembly.covers_of_le _ le_rfl
    · obtain ⟨f, hf, hto', hchunk⟩ := hdata hbytes
      refine Reassembly.covers_of_mem (c := chunkOf f) ?_ (by rw [hchunk]) (by rw [hchunk])
      exact List.mem_map_of_mem (List.mem_filter.mpr ⟨hf, decide_eq_true hto'⟩)
  · have hsplit : f ∈ syn :: fs ∨ f ∈ fs' := by
      rw [← List.mem_append]
      exact hf
    rcases hsplit with hf | hf
    · intro hto'
      obtain ⟨hnum, hchunk⟩ := hfs f hf hto'
      exact ⟨hnum, hchunk.append bytes⟩
    · intro hto'
      obtain ⟨hflag, hcase⟩ := hfs' f hf hto'
      refine ⟨fun hsyn' => absurd (hflag.symm.trans hsyn') Bool.false_ne_true, ?_⟩
      rcases hcase with hnil | hchunk
      · exact Chunk.ofStream_nil hnil
      · rw [hchunk]
        exact Chunk.ofStream_append base S bytes

/-- A step posts buffers and frames. -/
lemma step_posts (hs : system.step h ev = some (h', out)) :
    ∃ arms sends, h.net.Posts h'.net arms sends := by
  cases ev with
  | request req =>
    simp only [system] at hs
    split at hs
    next h₁ hx =>
      obtain ⟨rfl, -⟩ := Prod.mk.inj (Option.some.inj hs)
      rw [combinedService] at hx
      split at hx
      · cases hx
      · obtain ⟨h₂, hdispatch, hx⟩ := bind_eq_ok.mp hx
        obtain rfl := Option.some.inj (Except.ok.inj hx)
        exact ⟨_, _, dispatch_posts hdispatch⟩
    next => cases hs
  | store sock off bytes =>
    simp only [system] at hs
    split at hs
    · cases hs
    · split at hs
      · obtain ⟨rfl, -⟩ := Prod.mk.inj (Option.some.inj hs)
        exact ⟨0, 0, .refl h.net⟩
      · cases hs

/-- The card reads the frames of a part of a run as they were sent, if the ring stays off the buffer. -/
lemma posts_cardReads {q : Virtio.Queues} {n n' : Net} {arms sends : ℕ} {frames : List (List UInt8)}
    (h : n.Posts n' arms sends) (hsent : n'.sent = n.sent ++ frames)
    (hapart : q.BufferApart n'.txPosted) {j : ℕ} {f : List UInt8} (hf : frames[j]? = some f)
    (μ : ℕ → UInt8) : q.cardReads (n.txPosted + j) μ f = f := by
  obtain ⟨fs, hsent', hlen, hfs⟩ := h.frames
  obtain rfl : fs = frames := List.append_cancel_left (hsent'.symm.trans hsent)
  have hj : j < sends := hlen ▸ (List.getElem?_eq_some_iff.mp hf).1
  have hlt := h.txFits (by omega)
  refine Virtio.cardReads_eq hapart ?_ (by omega) (hfs f (List.mem_of_getElem? hf)) μ
  rw [h.txPosted]
  omega

/-- In every run, on every connection of every socket, as long as the card takes its segments in time and
the entries of the transmit ring have not reached the buffer: the card reads the frames as they were sent,
and whatever the network loses, repeats or reorders of them, the other end has a prefix of the bytes
acknowledged to the clients, and all of them if everything comes in order, whatever comes in between. -/
theorem sends_reassembled {q : Virtio.Queues} (hrun : Run system ts s) (hts : ts = a ++ t :: b)
    (hconnects : Connects i t) (hcurrent : ∀ u ∈ b, ¬ u.event.Asks opNetConnect i)
    (hfirst : t.pre.net.tx (t.pre.net.txPosted + 2) = true)
    (htaken : ∀ u ∈ b, u.event.Asks opNetSend i → u.pre.net.tx (u.pre.net.txPosted + 1) = true)
    (hapart : q.BufferApart s.net.txPosted) :
    ∃ frames, s.net.sent = t.pre.net.sent ++ frames ∧
      (∀ j f, frames[j]? = some f → ∀ μ, q.cardReads (t.pre.net.txPosted + j) μ f = f) ∧
      ∀ got : List (List UInt8), (∀ e ∈ got, e ∈ frames ∨ ¬ ToPeer (t.post.socks i).route e) →
        (t.post.socks i).route.received got <+: b.flatMap (accepted i) ∧
          (frames.Sublist got → (t.post.socks i).route.received got = b.flatMap (accepted i)) := by
  obtain ⟨-, hstep, -⟩ := hrun.split hts
  rw [hconnects.2] at hstep
  obtain ⟨seq, syn, ack, hseq, hsent, hsyn, hack⟩ := connect_sends hconnects.1 hstep hfirst
  have hsynFlag : synFlag syn = true := hsyn.syn.trans (by decide)
  have hackFlag : synFlag ack = false := hack.syn.trans (by decide)
  have hstart : Outgoing (t.post.socks i).route (seq + 1) t.pre.net.sent i [] t.post := by
    refine ⟨rfl, hseq, syn, [ack], hsent, hsyn.toPeer, hsynFlag, Reassembly.covers_of_le _ le_rfl,
      fun f hf hto => ?_⟩
    rcases List.mem_cons.mp hf with rfl | hf
    · refine ⟨fun _ => ?_, Chunk.ofStream_nil (congrArg Chunk.data hsyn.chunk)⟩
      exact congrArg (· + 1) (congrArg Chunk.seq hsyn.chunk)
    · obtain rfl := List.mem_singleton.mp hf
      refine ⟨fun hflag => ?_, Chunk.ofStream_nil (congrArg Chunk.data hack.chunk)⟩
      exact absurd (hackFlag.symm.trans hflag) Bool.false_ne_true
  let Q : List (Transition Host Event (List Reply)) → Host → Prop := fun c h => Numbered h ∧
    Outgoing (t.post.socks i).route (seq + 1) t.pre.net.sent i (c.flatMap (accepted i)) h ∧
    ∃ arms sends, t.pre.net.Posts h.net arms sends
  -- the invariant along the part of the run that follows the connect
  have hkeep : ∀ c, ∀ u ∈ b, system.step u.pre u.event = some (u.post, u.out) →
      Q c u.pre → Q (c ++ [u]) u.post := by
    rintro c u hu hs ⟨hn, ho, arms, sends, hposts⟩
    obtain ⟨arms', sends', hposts'⟩ := step_posts hs
    refine ⟨hn.step hs, ?_, _, _, hposts.trans hposts'⟩
    rw [List.flatMap_append, List.flatMap_singleton]
    exact ho.step (step_sends hn hs (hcurrent u hu) (htaken u hu))
  obtain ⟨-, -, hpost⟩ := hrun.split hts
  obtain ⟨-, hend, arms, sends, hposts⟩ : Q b s :=
    hrun.preserved_along hts ⟨numbered_run hpost, hstart, step_posts hstep⟩ hkeep
  obtain ⟨syn, fs, hsent, hto, hflag, hcovers, hfs⟩ := hend.frames
  refine ⟨syn :: fs, hsent, fun j f hf μ => posts_cardReads hposts hsent hapart hf μ,
    fun got hgot => ?_⟩
  have hall : ∀ e ∈ got, OfConnection (t.post.socks i).route (seq + 1) (b.flatMap (accepted i)) e := by
    intro e he
    rcases hgot e he with hmem | hnot
    · exact hfs e hmem
    · exact fun hto => absurd hto hnot
  exact ⟨Route.received_prefix hall, fun hsub => Route.received_all hto hflag hcovers hall hsub⟩

/-- Two sends of a client: the other end has all five bytes if the frames come in order, the first three
of them again, and nothing of the second send if the first is lost. The card finds the second one in its
buffer, whatever was there before. -/
theorem sends_reassembled_two :
    ∃ (t : Transition Host Event (List Reply)) (b : List (Transition Host Event (List Reply)))
      (s : Host) (syn ack first second : List UInt8), Run system (t :: b) s ∧ Connects 0 t ∧
      s.net.sent = [syn, ack, first, second] ∧ b.flatMap (accepted 0) = [1, 2, 3, 4, 5] ∧
      (∀ μ, Virtio.bootQueues.cardReads 5 μ second = second) ∧
      (t.post.socks 0).route.received [syn, ack, first, first, second] = [1, 2, 3, 4, 5] ∧
      (t.post.socks 0).route.received [second, syn, ack] <+: [1, 2, 3, 4, 5] := by
  have hfacts : (system.replay (booted [segment portBase 99 (tcpSyn ||| tcpAck) []])
      [.request (requestOf opNetConnect 0 (7 * 2 ^ 32)), .store 0 0 [1, 2, 3],
        .request (requestOf opNetSend 0 3), .store 0 0 [4, 5], .request (requestOf opNetSend 0 2)]).map
      (fun r => (r.1.head?.any fun t => Connects 0 t ∧ t.pre.net.sent = [] ∧
          t.pre.net.tx (t.pre.net.txPosted + 2) = true ∧ t.pre.net.txPosted = 2,
        r.1.tail.flatMap (accepted 0),
        (r.1.tail.all fun u => ¬ u.event.Asks opNetConnect 0 ∧
          u.pre.net.tx (u.pre.net.txPosted + 1) = true), r.2.net.sent.length, r.2.net.txPosted)) =
      some (true, [1, 2, 3, 4, 5], true, 4, 6) := by decide +kernel
  obtain ⟨⟨ts, s⟩, hreplay, hfacts⟩ := Option.map_eq_some_iff.mp hfacts
  simp only [Prod.mk.injEq, List.all_eq_true, decide_eq_true_eq] at hfacts
  obtain ⟨hfirst, haccepted, hlater, hlen, hposted⟩ := hfacts
  have hrun : Run system ts s := (Run.start (starts_booted _)).append_replay hreplay
  have hapart : Virtio.bootQueues.BufferApart s.net.txPosted :=
    Virtio.bootQueues_apart (by rw [hposted]; decide)
  cases ts with
  | nil => cases hfirst
  | cons t b =>
    obtain ⟨hconnects, hnone, htaken, htwo⟩ : Connects 0 t ∧ t.pre.net.sent = [] ∧
      t.pre.net.tx (t.pre.net.txPosted + 2) = true ∧ t.pre.net.txPosted = 2 := of_decide_eq_true hfirst
    have haccepted : b.flatMap (accepted 0) = [1, 2, 3, 4, 5] := haccepted
    obtain ⟨frames, hsent, hreads, hgot⟩ := sends_reassembled hrun (List.nil_append _).symm hconnects
      (fun u hu => (hlater u hu).1) htaken (fun u hu _ => (hlater u hu).2) hapart
    rw [hnone, List.nil_append] at hsent
    rw [haccepted, ← hsent] at hgot
    rw [htwo, ← hsent] at hreads
    obtain ⟨syn, ack, first, second, hframes⟩ := List.length_eq_four.mp hlen
    rw [hframes] at hgot hreads
    refine ⟨t, b, s, syn, ack, first, second, hrun, hconnects, hframes, haccepted, hreads 3 second rfl,
      ?_, ?_⟩
    · refine (hgot _ fun e he => .inl ?_).2 ?_
      · simp only [List.mem_cons] at he ⊢
        grind
      · exact ((List.sublist_cons_self first [first, second]).cons_cons ack).cons_cons syn
    · refine (hgot _ fun e he => .inl ?_).1
      simp only [List.mem_cons] at he ⊢
      grind

end Runs

end Host

end Xernel
