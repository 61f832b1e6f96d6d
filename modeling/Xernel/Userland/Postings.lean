import Xernel.Userland.ServiceTheorems

/-!
# What a request posts to the card

How many receive buffers the service host arms for a request, and how many frames it transmits, in terms
of the state before and of the frames that come in. `Net.Posts` says what becomes of the card with it; the
places that the driver writes to in its rings depend on these counts alone.
-/

namespace Xernel

open Checked

/-- The size of the array in which a segment is built. -/
def maxFrame : ℕ := 14 + 20 + 20 + 64

/-- The card after so many more buffers were armed and frames transmitted, within the 16-bit counts. -/
structure Net.Posts (n n' : Net) (arms sends : ℕ) : Prop where
  rx : n'.rx = n.rx
  tx : n'.tx = n.tx
  rxPosted : n'.rxPosted = n.rxPosted + arms
  txPosted : n'.txPosted = n.txPosted + sends
  rxFits : Host.Fits n.rxPosted arms
  txFits : Host.Fits n.txPosted sends
  frames : ∃ fs, n'.sent = n.sent ++ fs ∧ fs.length = sends ∧ ∀ f ∈ fs, f.length ≤ maxFrame

lemma Host.Fits.zero (posted : ℕ) : Fits posted 0 := fun hpos => absurd hpos (Nat.lt_irrefl 0)

/-- Counts that are reached in two parts. -/
lemma Host.Fits.add {posted a b : ℕ} (h : Fits posted a) (h' : Fits (posted + a) b) :
    Fits posted (a + b) := by
  intro hpos
  rcases Nat.eq_zero_or_pos b with rfl | hb
  · exact h hpos
  · have hlt := h' hb
    omega

namespace Net.Posts

variable {n n' n'' : Net} {arms sends arms' sends' : ℕ}

lemma refl (n : Net) : n.Posts n 0 0 :=
  ⟨rfl, rfl, rfl, rfl, .zero _, .zero _, [], (List.append_nil _).symm, rfl,
    fun _ hf => absurd hf List.not_mem_nil⟩

/-- Two functions in a row. -/
lemma trans (h : n.Posts n' arms sends) (h' : n'.Posts n'' arms' sends') :
    n.Posts n'' (arms + arms') (sends + sends') := by
  obtain ⟨fs, hsent, hlen, hfs⟩ := h.frames
  obtain ⟨fs', hsent', hlen', hfs'⟩ := h'.frames
  have hrx := h'.rxFits
  have htx := h'.txFits
  rw [h.rxPosted] at hrx
  rw [h.txPosted] at htx
  refine ⟨h'.rx.trans h.rx, h'.tx.trans h.tx, ?_, ?_, h.rxFits.add hrx, h.txFits.add htx, fs ++ fs', ?_,
    ?_, fun f hf => ?_⟩
  · rw [h'.rxPosted, h.rxPosted, Nat.add_assoc]
  · rw [h'.txPosted, h.txPosted, Nat.add_assoc]
  · rw [hsent', hsent, List.append_assoc]
  · rw [List.length_append, hlen, hlen']
  · exact (List.mem_append.mp hf).elim (hfs f) (hfs' f)

/-- One buffer for receiving. -/
lemma armed {n : Net} (h : netRxArm n = .ok n') : n.Posts n' 1 0 := by
  obtain ⟨hlt, rfl⟩ := netRxArm_eq_ok.mp h
  exact ⟨rfl, rfl, rfl, rfl, fun _ => hlt, .zero _, [], (List.append_nil _).symm, rfl,
    fun _ hf => absurd hf List.not_mem_nil⟩

/-- One frame, whether the card takes it or not. -/
lemma transmitted {frame : List UInt8} {s : Net × Bool} (h : netTx n frame = .ok s)
    (hlen : frame.length ≤ maxFrame) : n.Posts s.1 0 1 := by
  obtain ⟨hlt, rfl⟩ := netTx_eq_ok.mp h
  exact ⟨rfl, rfl, rfl, rfl, .zero _, fun _ => hlt, [frame], rfl, rfl,
    fun f hf => by rwa [List.mem_singleton.mp hf]⟩

/-- What is received does not depend on what was posted. -/
lemma frameAt (h : n.Posts n' arms sends) (len : ℕ) : n'.frameAt len = n.frameAt len := by
  funext k
  rw [Net.frameAt, Net.frameAt, h.rx]

end Net.Posts

section Segments

variable {n : Net} {tcp : TcpState} {s : Net × Bool} {flags : UInt8} {data : List UInt8}

/-- A segment is one frame, and no longer than its array. -/
lemma TcpState.send_posts (h : tcp.send n flags data = .ok s) : n.Posts s.1 0 1 := by
  rw [send, netTcpSend] at h
  obtain ⟨f, hf, h⟩ := bind_eq_ok.mp h
  obtain ⟨header, -, h⟩ := bind_eq_ok.mp h
  obtain ⟨ipsum, -, h⟩ := bind_eq_ok.mp h
  obtain ⟨f₂, hf₂, h⟩ := bind_eq_ok.mp h
  obtain ⟨seg, -, h⟩ := bind_eq_ok.mp h
  obtain ⟨cks, -, h⟩ := bind_eq_ok.mp h
  obtain ⟨f₃, hf₃, h⟩ := bind_eq_ok.mp h
  obtain ⟨frame, hframe, h⟩ := bind_eq_ok.mp h
  have hlen : f₃.length = maxFrame := by
    rw [(copyAll_spec _ _).1 f₃ hf₃, (copyAll_spec _ _).1 f₂ hf₂, (copyAll_spec _ _).1 f hf,
      List.length_replicate]
    rfl
  have hle : frame.length ≤ f₃.length := by
    rw [slice] at hframe
    split at hframe
    · obtain rfl := Except.ok.inj hframe
      rw [List.length_take, List.length_drop]
      omega
    · cases hframe
  exact .transmitted h (by omega)

end Segments

/-! ## Connecting -/

section Connect

variable {n : Net} {tcp : TcpState} {r : List UInt8} {fuel : ℕ} {s : Net × TcpState × Bool}

/-- How often a handshake is confirmed, in so many attempts: never if no answer comes, and else until the
card takes the frame. -/
def confirms (frames : ℕ → Option (List UInt8)) (tx : ℕ → Bool) (port fuel rxPosted txPosted : ℕ) : ℕ :=
  let skips := skipped frames port fuel rxPosted
  if skips < fuel ∧ (frames (rxPosted + skips)).any isSynAck then tries tx (fuel - skips) txPosted
  else 0

/-- A frame that is skipped takes one attempt. -/
lemma confirms_skip {frames : ℕ → Option (List UInt8)} {tx : ℕ → Bool} {port fuel k txPosted : ℕ}
    (hskip : skipped frames port (fuel + 1) k = 1 + skipped frames port fuel (k + 1)) :
    confirms frames tx port (fuel + 1) k txPosted = confirms frames tx port fuel (k + 1) txPosted := by
  simp only [confirms, hskip]
  generalize skipped frames port fuel (k + 1) = j
  have hlt : 1 + j < fuel + 1 ↔ j < fuel := by omega
  have hsub : fuel + 1 - (1 + j) = fuel - j := by omega
  simp only [hlt, hsub, ← Nat.add_assoc]

/-- The loop at an answer confirms it until the card takes the frame. -/
lemma connectLoop_confirm_posts (hsyn : isSynAck r = true) : ∀ (fuel : ℕ) (n : Net) (tcp : TcpState),
    n.frameAt 128 n.rxPosted = some r → dportOf r = tcp.sport.toNat → tcp.ourSeq + fuel < 2 ^ 32 →
    connectLoop fuel n tcp = .ok s → n.Posts s.1 0 (tries n.tx fuel n.txPosted) := by
  intro fuel
  induction fuel with
  | zero =>
    intro n tcp _ _ _ hs
    obtain rfl := Except.ok.inj hs
    exact .refl n
  | succ fuel ih =>
    intro n tcp hr hport hseq hs
    rw [connectLoop_synAck hr hport hsyn (by omega)] at hs
    obtain ⟨ack, -, hs⟩ := bind_eq_ok.mp hs
    obtain ⟨q, hsend, hs⟩ := bind_eq_ok.mp hs
    have hfirst : n.Posts q.1 0 1 := TcpState.send_posts hsend
    obtain ⟨frame, hq⟩ := (tcp.answered r).send_nil tcpAck (TcpState.send_completes.mp ⟨q, hsend⟩).2
    obtain rfl := Except.ok.inj (hsend.symm.trans hq)
    rw [tries]
    cases htaken : n.tx (n.txPosted + 1) with
    | true =>
      rw [htaken] at hs
      obtain rfl := Except.ok.inj hs
      exact hfirst
    | false =>
      rw [htaken] at hs
      have hrest := ih (n.transmitted frame) (tcp.answered r) hr hport
        (by simp only [TcpState.answered]; omega) hs
      have hall := hfirst.trans hrest
      rwa [Nat.zero_add] at hall

/-- A buffer for each frame that is not the answer, and a confirmation for each time it is. -/
lemma connectLoop_posts : ∀ (fuel : ℕ) (n : Net) (tcp : TcpState), tcp.ourSeq + fuel < 2 ^ 32 →
    connectLoop fuel n tcp = .ok s →
    n.Posts s.1 (skipped (n.frameAt 128) tcp.sport.toNat fuel n.rxPosted)
      (confirms (n.frameAt 128) n.tx tcp.sport.toNat fuel n.rxPosted n.txPosted) := by
  intro fuel
  induction fuel with
  | zero =>
    intro n tcp _ hs
    obtain rfl := Except.ok.inj hs
    exact .refl n
  | succ fuel ih =>
    intro n tcp hseq hs
    cases hr : n.frameAt 128 n.rxPosted with
    | none =>
      have hwait : netRxWait n 128 = none := hr
      have hskip : skipped (n.frameAt 128) tcp.sport.toNat (fuel + 1) n.rxPosted = 0 := by
        rw [skipped, hr]
      rw [connectLoop, hwait] at hs
      obtain rfl := Except.ok.inj hs
      rw [confirms, hskip, Nat.add_zero n.rxPosted, hr]
      exact .refl n
    | some r =>
      by_cases hport : dportOf r = tcp.sport.toNat
      · -- the answer, or a refusal: nothing more is skipped
        have hskip : skipped (n.frameAt 128) tcp.sport.toNat (fuel + 1) n.rxPosted = 0 := by
          rw [skipped, hr]
          exact if_neg (not_not.mpr hport)
        rw [confirms, hskip, Nat.add_zero n.rxPosted, hr, Nat.sub_zero, Option.any_some]
        cases hsyn : isSynAck r with
        | false =>
          rw [connectLoop_refused hr hport hsyn] at hs
          obtain rfl := Except.ok.inj hs
          rw [if_neg (by simp)]
          exact .refl n
        | true =>
          rw [if_pos ⟨Nat.succ_pos _, rfl⟩]
          exact connectLoop_confirm_posts hsyn (fuel + 1) n tcp hr hport hseq hs
      · have hskip : skipped (n.frameAt 128) tcp.sport.toNat (fuel + 1) n.rxPosted =
            1 + skipped (n.frameAt 128) tcp.sport.toNat fuel (n.rxPosted + 1) := by
          rw [skipped, hr]
          exact if_pos hport
        rw [connectLoop_skip hr hport] at hs
        obtain ⟨n', harm, hs⟩ := bind_eq_ok.mp hs
        have hfirst := Net.Posts.armed harm
        obtain ⟨-, rfl⟩ := netRxArm_eq_ok.mp harm
        have hrest : n.armed.Posts s.1 (skipped (n.frameAt 128) tcp.sport.toNat fuel (n.rxPosted + 1))
            (confirms (n.frameAt 128) n.tx tcp.sport.toNat fuel (n.rxPosted + 1) n.txPosted) :=
          ih n.armed tcp (by omega) hs
        have hall := hfirst.trans hrest
        rw [Nat.zero_add] at hall
        rw [hskip, confirms_skip hskip]
        exact hall

/-- How many buffers a handshake arms: one for the answer, and one for each frame that it skips. -/
def Net.handshakeArms (n : Net) (port : ℕ) : ℕ :=
  1 + if n.tx (n.txPosted + 1) then skipped (n.frameAt 128) port 4 (n.rxPosted + 1) else 0

/-- How many frames it transmits: the SYN and the confirmations. -/
def Net.handshakeSends (n : Net) (port : ℕ) : ℕ :=
  1 + if n.tx (n.txPosted + 1) then
    confirms (n.frameAt 128) n.tx port 4 (n.rxPosted + 1) (n.txPosted + 1) else 0

/-- The SYN and the first buffer come before. -/
lemma netConnect_posts (hs : netConnect n tcp = .ok s) :
    n.Posts s.1 (n.handshakeArms tcp.sport.toNat) (n.handshakeSends tcp.sport.toNat) := by
  have hport := tcp.sport.toNat_lt
  have hseq : tcp.opening.ourSeq + 4 < 2 ^ 32 := by
    simp only [TcpState.opening]
    omega
  rw [netConnect_eq] at hs
  obtain ⟨n', harm, hs⟩ := bind_eq_ok.mp hs
  obtain ⟨q, hsend, hs⟩ := bind_eq_ok.mp hs
  have hfirst := (Net.Posts.armed harm).trans (TcpState.send_posts hsend)
  obtain ⟨-, rfl⟩ := netRxArm_eq_ok.mp harm
  have htx : n.txPosted + 1 < 2 ^ 16 := (TcpState.send_completes.mp ⟨q, hsend⟩).2
  obtain ⟨frame, hq⟩ : ∃ frame, tcp.opening.send n.armed tcpSyn [] =
      .ok (n.armed.transmitted frame, n.armed.tx (n.armed.txPosted + 1)) := tcp.opening.send_nil tcpSyn htx
  obtain rfl := Except.ok.inj (hsend.symm.trans hq)
  have htaken : n.armed.tx (n.armed.txPosted + 1) = n.tx (n.txPosted + 1) := rfl
  rw [Net.handshakeArms, Net.handshakeSends]
  rw [htaken] at hs
  split at hs
  next hdone =>
    rw [if_pos hdone, if_pos hdone]
    exact hfirst.trans (connectLoop_posts 4 _ tcp.opening hseq hs)
  next hdone =>
    obtain rfl := Except.ok.inj hs
    rw [if_neg hdone, if_neg hdone]
    exact hfirst

end Connect

namespace Host

variable {h h' : Host} {op arg : ℕ} {e : List UInt8} {stop : List UInt8 → Bool}

/-! ## Polling -/

/-- How many buffers the polling loop arms. -/
def pollArms (h : Host) (stop : List UInt8 → Bool) (fuel : ℕ) : ℕ :=
  waits (h.net.frameAt 256) stop fuel h.net.rxPosted

/-- How many frames it acknowledges. -/
def pollSends (h : Host) (stop : List UInt8 → Bool) (fuel : ℕ) : ℕ :=
  (seen (h.net.frameAt 256) stop fuel h.net.rxPosted).countP fun e => (h.dataFor e).isSome

/-- An acknowledgement for each frame with data. -/
lemma netBufferFrame_posts {r : Host × Option (Fin 4)} (hlen : 54 ≤ e.length)
    (hr : netBufferFrame h e = .ok r) :
    h.net.Posts r.1.net 0 (if (h.dataFor e).isSome then 1 else 0) := by
  cases hdata : h.dataFor e with
  | none =>
    rw [netBufferFrame_none hlen hdata] at hr
    obtain rfl := Except.ok.inj hr
    exact .refl h.net
  | some sock =>
    rw [netBufferFrame_some hlen hdata] at hr
    obtain ⟨ack, -, hr⟩ := bind_eq_ok.mp hr
    obtain ⟨s, hsend, hr⟩ := bind_eq_ok.mp hr
    obtain rfl := Except.ok.inj hr
    exact TcpState.send_posts hsend

/-- A buffer and perhaps an acknowledgement for each frame polled. -/
lemma poll_posts : ∀ (fuel : ℕ) (h : Host) (r : Host × Option (List UInt8)),
    poll stop fuel h = .ok r → h.net.Posts r.1.net (h.pollArms stop fuel) (h.pollSends stop fuel) := by
  intro fuel
  induction fuel with
  | zero =>
    intro h r hr
    obtain rfl := Except.ok.inj hr
    exact .refl h.net
  | succ fuel ih =>
    intro h r hr
    obtain ⟨net, harm, hr⟩ := bind_eq_ok.mp hr
    have harmed := Net.Posts.armed harm
    obtain ⟨-, rfl⟩ := netRxArm_eq_ok.mp harm
    rw [pollArms, pollSends, waits, seen]
    cases hframe : h.net.frameAt 256 (h.net.rxPosted + 1) with
    | none =>
      have hwait : netRxWait h.net.armed 256 = none := hframe
      rw [hwait] at hr
      obtain rfl := Except.ok.inj hr
      exact harmed
    | some e =>
      have hwait : netRxWait h.net.armed 256 = some e := hframe
      have hlen : 54 ≤ e.length := by
        rw [Net.length_of_frameAt hframe]
        decide
      rw [hwait] at hr
      obtain ⟨q, hq, hr⟩ := bind_eq_ok.mp hr
      obtain ⟨-, -, hdata, -, -, hposted, -⟩ := buffered_spec hlen hq
      have hfirst := harmed.trans (netBufferFrame_posts hlen hq)
      dsimp only
      rw [List.countP_cons]
      cases hstop : stop e with
      | true =>
        rw [hstop] at hr
        obtain rfl := Except.ok.inj hr
        rw [if_pos rfl, if_pos rfl, List.countP_nil, Nat.zero_add, Nat.add_zero]
        rw [Nat.zero_add] at hfirst
        exact hfirst
      | false =>
        rw [hstop] at hr
        -- the rest of the loop runs on the same card and sockets
        have hall := hfirst.trans (ih q.1 r hr)
        rw [pollArms, pollSends, hfirst.frameAt, hposted, hdata, Nat.zero_add, Nat.add_comm _
          (List.countP _ _)] at hall
        exact hall

/-! ## Requests -/

/-- The socket on which a receive polls. -/
def receiver (h : Host) (arg : ℕ) : Option (Fin 4) :=
  (sockOf arg).filter fun sock => (h.socks sock).active && (h.shm sock).isSome && !h.pending sock

/-- The socket whose page a send transmits from. -/
def sender (h : Host) (arg : ℕ) : Option (Fin 4) :=
  (sockOf arg).filter fun sock =>
    (h.shm sock).isSome && (h.socks sock).active && decide (sockArg arg ≤ Fs.pageBytes)

/-- The socket that a close shuts down. -/
def closing (h : Host) (arg : ℕ) : Option (Fin 4) :=
  (sockOf arg).filter fun sock => (h.socks sock).active

/-- How many receive buffers a request arms. -/
def arms (h : Host) (op arg : ℕ) : ℕ :=
  if op = opNetConnect then
    (sockOf arg).elim 0 fun sock => h.net.handshakeArms (h.socks sock).sport.toNat
  else if op = opNetRecv then (h.receiver arg).elim 0 fun sock => h.pollArms (h.recvStop sock) 6
  else if op = opNetGetReady then
    if readyMask h.pending = 0 then h.pollArms h.readyStop 6 else 0
  else 0

/-- How many frames a request transmits. -/
def sends (h : Host) (op arg : ℕ) : ℕ :=
  if op = opNetConnect then
    (sockOf arg).elim 0 fun sock => h.net.handshakeSends (h.socks sock).sport.toNat
  else if op = opNetSend then (h.sender arg).elim 0 fun _ => 1
  else if op = opNetRecv then (h.receiver arg).elim 0 fun sock => h.pollSends (h.recvStop sock) 6
  else if op = opNetClose then (h.closing arg).elim 0 fun _ => 1
  else if op = opNetGetReady then
    if readyMask h.pending = 0 then h.pollSends h.readyStop 6 else 0
  else 0

lemma netConnect_host_posts (hx : h.netConnect arg = .ok h') :
    h.net.Posts h'.net ((sockOf arg).elim 0 fun sock => h.net.handshakeArms (h.socks sock).sport.toNat)
      ((sockOf arg).elim 0 fun sock => h.net.handshakeSends (h.socks sock).sport.toNat) := by
  rw [netConnect] at hx
  cases hsock : sockOf arg with
  | none =>
    rw [hsock] at hx
    obtain rfl := Except.ok.inj hx
    exact .refl h.net
  | some sock =>
    rw [hsock] at hx
    obtain ⟨s, hs, hx⟩ := bind_eq_ok.mp hx
    have hposts := netConnect_posts hs
    obtain rfl := Except.ok.inj hx
    exact hposts

/-- One frame, if the socket is open. -/
lemma netSend_posts (hx : h.netSend arg = .ok h') :
    h.net.Posts h'.net 0 ((h.sender arg).elim 0 fun _ => 1) := by
  rw [netSend] at hx
  cases hsock : sockOf arg with
  | none =>
    rw [hsock] at hx
    obtain rfl := Except.ok.inj hx
    rw [sender, hsock]
    exact .refl h.net
  | some sock =>
    cases hshm : h.shm sock with
    | none =>
      simp only [hsock, Option.bind_some, hshm, Option.map_none] at hx
      obtain rfl := Except.ok.inj hx
      rw [sender, hsock, Option.filter_some, hshm]
      exact .refl h.net
    | some page =>
      simp only [hsock, Option.bind_some, hshm, Option.map_some] at hx
      rw [sender, hsock, Option.filter_some, hshm]
      split at hx
      next huse =>
        obtain ⟨s, hsend, hx⟩ := bind_eq_ok.mp hx
        have hposts : h.net.Posts s.1 0 1 := TcpState.send_posts hsend
        rw [if_pos (by simp [huse.1, huse.2]), Option.elim_some]
        split at hx
        · obtain ⟨seq, -, hx⟩ := bind_eq_ok.mp hx
          obtain rfl := Except.ok.inj hx
          exact hposts
        · obtain rfl := Except.ok.inj hx
          exact hposts
      next huse =>
        obtain rfl := Except.ok.inj hx
        rw [if_neg (by simpa using huse), Option.elim_none]
        exact .refl h.net

lemma netRecv_posts (hx : h.netRecv arg = .ok h') :
    h.net.Posts h'.net ((h.receiver arg).elim 0 fun sock => h.pollArms (h.recvStop sock) 6)
      ((h.receiver arg).elim 0 fun sock => h.pollSends (h.recvStop sock) 6) := by
  rw [netRecv] at hx
  cases hsock : (sockOf arg).filter fun sock => (h.socks sock).active && (h.shm sock).isSome with
  | none =>
    rw [hsock] at hx
    obtain rfl := Except.ok.inj hx
    have hnone : h.receiver arg = none := by
      rw [receiver, ← Option.filter_filter, hsock, Option.filter_none]
    rw [hnone]
    exact .refl h.net
  | some sock =>
    rw [hsock] at hx
    have hrecv : h.receiver arg = (some sock).filter fun sock => !h.pending sock := by
      rw [receiver, ← Option.filter_filter, hsock]
    dsimp only at hx
    rw [hrecv, Option.filter_some]
    split at hx
    next hpending =>
      obtain rfl := Except.ok.inj hx
      rw [hpending]
      exact .refl h.net
    next hpending =>
      rw [recvLoop_eq] at hx
      obtain ⟨r, hr, hx⟩ := bind_eq_ok.mp hx
      obtain ⟨q, hq, hr⟩ := bind_eq_ok.mp hr
      obtain rfl := Except.ok.inj hr
      obtain rfl := Except.ok.inj hx
      rw [if_pos (by simpa using hpending)]
      have hnet : (recvResult sock (sockArg arg) q).1.net = q.1.net := by
        rw [recvResult]
        split <;> rfl
      rw [ipcSend, hnet]
      exact poll_posts 6 h q hq

/-- One FIN, if the socket is open. -/
lemma netClose_posts (hx : h.netClose arg = .ok h') :
    h.net.Posts h'.net 0 ((h.closing arg).elim 0 fun _ => 1) := by
  rw [netClose] at hx
  rw [closing]
  cases hsock : (sockOf arg).filter fun sock => (h.socks sock).active with
  | none =>
    rw [hsock] at hx
    obtain rfl := Except.ok.inj hx
    exact .refl h.net
  | some sock =>
    rw [hsock] at hx
    obtain ⟨s, hsend, hx⟩ := bind_eq_ok.mp hx
    obtain rfl := Except.ok.inj hx
    exact TcpState.send_posts hsend

lemma netGetReady_posts (hx : h.netGetReady = .ok h') :
    h.net.Posts h'.net (if readyMask h.pending = 0 then h.pollArms h.readyStop 6 else 0)
      (if readyMask h.pending = 0 then h.pollSends h.readyStop 6 else 0) := by
  rw [netGetReady] at hx
  obtain ⟨⟨h₁, mask⟩, hloop, hx⟩ := bind_eq_ok.mp hx
  obtain rfl := Except.ok.inj hx
  by_cases hmask : readyMask h.pending = 0
  · rw [if_pos hmask, if_pos hmask]
    rw [hmask, readyLoop_eq] at hloop
    obtain ⟨q, hq, hloop⟩ := bind_eq_ok.mp hloop
    obtain ⟨rfl, -⟩ := Prod.mk.inj (Except.ok.inj hloop)
    exact poll_posts 6 h q hq
  · rw [if_neg hmask, if_neg hmask]
    rw [readyLoop_of_ne_zero hmask] at hloop
    obtain ⟨rfl, -⟩ := Prod.mk.inj (Except.ok.inj hloop)
    exact .refl h.net

/-- The other opcodes leave the card alone. -/
lemma readfile_posts (hx : h.readfile arg = .ok h') : h.net.Posts h'.net 0 0 := by
  rw [readfile] at hx
  split at hx
  · obtain rfl := Except.ok.inj hx
    exact .refl h.net
  · obtain ⟨⟨size, page, blk⟩, -, hx⟩ := bind_eq_ok.mp hx
    cases size with
    | some n =>
      obtain rfl := Except.ok.inj hx
      exact .refl h.net
    | none =>
      obtain rfl := Except.ok.inj hx
      exact .refl h.net

lemma netGetFrame_posts (hx : h.netGetFrame arg = .ok h') : h.net.Posts h'.net 0 0 := by
  rw [netGetFrame] at hx
  split at hx
  · obtain rfl := Except.ok.inj hx
    exact .refl h.net
  · obtain rfl := Except.ok.inj hx
    exact .refl h.net

lemma serveFile_posts (hx : h.serveFile op arg = .ok h') : h.net.Posts h'.net 0 0 := by
  rw [serveFile] at hx
  obtain ⟨⟨reply, blk⟩, -, hx⟩ := bind_eq_ok.mp hx
  obtain rfl := Except.ok.inj hx
  exact .refl h.net

/-- A request that is handled posts just that. -/
theorem dispatch_posts (hx : h.dispatch op arg = .ok h') :
    h.net.Posts h'.net (h.arms op arg) (h.sends op arg) := by
  rw [dispatch] at hx
  by_cases hread : op = opReadfile
  · subst hread
    exact readfile_posts hx
  rw [if_neg hread] at hx
  by_cases hconnect : op = opNetConnect
  · subst hconnect
    exact netConnect_host_posts hx
  rw [if_neg hconnect] at hx
  by_cases hsend : op = opNetSend
  · subst hsend
    exact netSend_posts hx
  rw [if_neg hsend] at hx
  by_cases hrecv : op = opNetRecv
  · subst hrecv
    exact netRecv_posts hx
  rw [if_neg hrecv] at hx
  by_cases hclose : op = opNetClose
  · subst hclose
    exact netClose_posts hx
  rw [if_neg hclose] at hx
  by_cases hframe : op = opNetGetFrame
  · subst hframe
    exact netGetFrame_posts hx
  rw [if_neg hframe] at hx
  by_cases hready : op = opNetGetReady
  · subst hready
    exact netGetReady_posts hx
  rw [if_neg hready] at hx
  rw [arms, sends, if_neg hconnect, if_neg hrecv, if_neg hready, if_neg hconnect, if_neg hsend,
    if_neg hrecv, if_neg hclose, if_neg hready]
  exact serveFile_posts hx

end Host

end Xernel
