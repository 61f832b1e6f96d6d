import Xernel.Syscall
import Xernel.Userland.Streams

/-!
# Which sockets are ready

The service host keeps a flag for each socket with unread data, and raises a bit of a notification each
time it buffers a frame. The flags are cleared when the data is handed out, the bits when a client takes
them with a `WAIT`: nothing keeps the two in step. A `WAIT` names the sockets that got data since the
last one, which are the ones with unread data only if none of that data was read meanwhile, and none is
left from before.
-/

namespace Xernel
namespace Host

open Checked

variable {h h' : Host} {ev : Event} {i : Fin 4} {arg : ℕ} {out : List Reply}

/-! ## Flags and bits after a request -/

/-- While the event is handled, a frame with data for this socket comes in. -/
def Gets (h : Host) (ev : Event) (i : Fin 4) : Prop := ∃ e ∈ h.looks ev, h.dataFor e = some i

instance (h : Host) (ev : Event) (i : Fin 4) : Decidable (h.Gets ev i) :=
  inferInstanceAs (Decidable (∃ e ∈ h.looks ev, h.dataFor e = some i))

/-- The socket on which the event is a receive that is not refused. -/
def recvSock (h : Host) : Event → Option (Fin 4)
  | .store _ _ _ => none
  | .request req =>
    if opOf req = opNetRecv then
      (sockOf (argOf req)).filter fun sock => (h.socks sock).active && (h.shm sock).isSome
    else none

/-- The bits raised for the frames of a list. -/
def raised (h : Host) (es : List (List UInt8)) : List ℕ :=
  es.filterMap fun e => (h.dataFor e).map fun sock : Fin 4 => 2 ^ (netSockBit + (sock : ℕ))

lemma take_ready (h : Host) (e : List UInt8) :
    (h.take e).notified = h.notified ++ h.raised [e] ∧
      ∀ i, (h.take e).pending i = true ↔ h.pending i = true ∨ h.dataFor e = some i := by
  rw [take, raised]
  cases hdata : h.dataFor e with
  | none =>
    refine ⟨?_, fun i => ?_⟩
    · rw [List.filterMap_cons, hdata]
      exact (List.append_nil _).symm
    · simp
  | some sock =>
    obtain ⟨-, ⟨page, hpage⟩, -, -⟩ := dataFor_eq_some.mp hdata
    dsimp only
    rw [hpage]
    refine ⟨?_, fun i => ?_⟩
    · rw [List.filterMap_cons, hdata]
      rfl
    · by_cases hi : i = sock
      · simp [notify, setPending, setShm, setSock, hi]
      · have hne : sock ≠ i := fun heq => hi heq.symm
        simp [notify, setPending, setShm, setSock, hi, hne]

lemma foldl_take_ready (es : List (List UInt8)) : ∀ h : Host,
    (es.foldl take h).notified = h.notified ++ h.raised es ∧
      ∀ i, (es.foldl take h).pending i = true ↔
        h.pending i = true ∨ ∃ e ∈ es, h.dataFor e = some i := by
  induction es with
  | nil =>
    intro h
    exact ⟨(List.append_nil _).symm, fun i => by simp⟩
  | cons e es ih =>
    intro h
    obtain ⟨hbits, hflags⟩ := h.take_ready e
    obtain ⟨hbits', hflags'⟩ := ih (h.take e)
    have hdata : (h.take e).dataFor = h.dataFor := h.dataFor_take e (h.take e).net
    refine ⟨?_, fun i => ?_⟩
    · rw [List.foldl_cons, hbits', hbits, List.append_assoc]
      congr 1
      rw [raised, raised, raised, hdata, ← List.filterMap_append]
      rfl
    · rw [List.foldl_cons, hflags', hflags, hdata, or_assoc]
      simp

/-- The request touches neither the flags nor the notification. -/
structure Quiet (h h' : Host) : Prop where
  pending : h'.pending = h.pending
  notified : h'.notified = h.notified

lemma readfile_quiet (hx : h.readfile arg = .ok h') : h.Quiet h' := by
  rw [readfile] at hx
  split at hx
  · obtain rfl := Except.ok.inj hx
    exact ⟨rfl, rfl⟩
  · obtain ⟨⟨size, page, blk⟩, -, hx⟩ := bind_eq_ok.mp hx
    cases size with
    | some n =>
      obtain rfl := Except.ok.inj hx
      exact ⟨rfl, rfl⟩
    | none =>
      obtain rfl := Except.ok.inj hx
      exact ⟨rfl, rfl⟩

lemma netConnect_quiet (hx : h.netConnect arg = .ok h') : h.Quiet h' := by
  rw [netConnect] at hx
  split at hx
  · obtain rfl := Except.ok.inj hx
    exact ⟨rfl, rfl⟩
  · obtain ⟨⟨net, tcp, active⟩, -, hx⟩ := bind_eq_ok.mp hx
    obtain rfl := Except.ok.inj hx
    exact ⟨rfl, rfl⟩

lemma netSend_quiet (hx : h.netSend arg = .ok h') : h.Quiet h' := by
  rw [netSend] at hx
  split at hx
  · obtain rfl := Except.ok.inj hx
    exact ⟨rfl, rfl⟩
  · dsimp only at hx
    split at hx
    · obtain ⟨⟨net, done⟩, -, hx⟩ := bind_eq_ok.mp hx
      dsimp only at hx
      split at hx
      · obtain ⟨seq, -, hx⟩ := bind_eq_ok.mp hx
        obtain rfl := Except.ok.inj hx
        exact ⟨rfl, rfl⟩
      · obtain rfl := Except.ok.inj hx
        exact ⟨rfl, rfl⟩
    · obtain rfl := Except.ok.inj hx
      exact ⟨rfl, rfl⟩

lemma netClose_quiet (hx : h.netClose arg = .ok h') : h.Quiet h' := by
  rw [netClose] at hx
  split at hx
  · obtain rfl := Except.ok.inj hx
    exact ⟨rfl, rfl⟩
  · obtain ⟨⟨net, done⟩, -, hx⟩ := bind_eq_ok.mp hx
    obtain rfl := Except.ok.inj hx
    exact ⟨rfl, rfl⟩

lemma netGetFrame_quiet (hx : h.netGetFrame arg = .ok h') : h.Quiet h' := by
  rw [netGetFrame] at hx
  split at hx
  · obtain rfl := Except.ok.inj hx
    exact ⟨rfl, rfl⟩
  · obtain rfl := Except.ok.inj hx
    exact ⟨rfl, rfl⟩

lemma serveFile_quiet {op : ℕ} (hx : h.serveFile op arg = .ok h') : h.Quiet h' := by
  rw [serveFile] at hx
  obtain ⟨⟨reply, blk⟩, -, hx⟩ := bind_eq_ok.mp hx
  obtain rfl := Except.ok.inj hx
  exact ⟨rfl, rfl⟩

/-- What an event does to flags and bits: a bit is raised for each frame taken, and the socket flagged,
unless it is the one that is read. That one has no unread data afterwards but what came in meanwhile. -/
structure Buffers (h h' : Host) (ev : Event) : Prop where
  notified : h'.notified = h.notified ++ h.raised (h.looks ev)
  pending : ∀ i, h.recvSock ev ≠ some i → (h'.pending i = true ↔ h.pending i = true ∨ h.Gets ev i)
  read : ∀ i, h.recvSock ev = some i → h'.pending i = true → h.Gets ev i

lemma Quiet.buffers (hq : h.Quiet h') (hlooks : h.looks ev = []) (hrecv : h.recvSock ev = none) :
    h.Buffers h' ev := by
  refine ⟨?_, fun i _ => ?_, fun i hi => ?_⟩
  · rw [hlooks, hq.notified]
    exact (List.append_nil _).symm
  · rw [hq.pending, Gets, hlooks]
    simp
  · rw [hrecv] at hi
    cases hi

/-- The wait for data flags the sockets it got data for. -/
lemma netGetReady_buffers {req : UInt64} (hop : opOf req = opNetGetReady)
    (hx : h.netGetReady = .ok h') : h.Buffers h' (.request req) := by
  have hne : ¬ opOf req = opNetRecv := by rw [hop]; decide
  have hrecv : h.recvSock (.request req) = none := if_neg hne
  rw [netGetReady] at hx
  obtain ⟨⟨h₁, mask⟩, hloop, hx⟩ := bind_eq_ok.mp hx
  obtain rfl := Except.ok.inj hx
  by_cases hmask : readyMask h.pending = 0
  · rw [hmask, readyLoop_eq] at hloop
    obtain ⟨q, hq, hloop⟩ := bind_eq_ok.mp hloop
    obtain ⟨rfl, -⟩ := Prod.mk.inj (Except.ok.inj hloop)
    obtain ⟨hhost, -⟩ := poll_eq_ok 6 h q hq
    have hlooks : h.looks (.request req) = seen (h.net.frameAt 256) h.readyStop 6 h.net.rxPosted := by
      rw [looks, if_neg hne, if_pos ⟨hop, hmask⟩]
    obtain ⟨hbits, hflags⟩ := foldl_take_ready (h.looks (.request req)) h
    rw [← hlooks] at hhost
    refine ⟨?_, fun i _ => ?_, fun i hi => ?_⟩
    · show q.1.notified = _
      rw [hhost]
      exact hbits
    · show q.1.pending i = true ↔ _
      rw [hhost]
      exact hflags i
    · rw [hrecv] at hi
      cases hi
  · rw [readyLoop_of_ne_zero hmask] at hloop
    obtain ⟨rfl, -⟩ := Prod.mk.inj (Except.ok.inj hloop)
    have hquiet : h.Quiet (h.ipcSend mask noCap) := ⟨rfl, rfl⟩
    refine hquiet.buffers ?_ hrecv
    rw [looks, if_neg hne, if_neg fun hall => hmask hall.2]

/-- A receive does so too, and takes the flag of its own socket down. -/
lemma netRecv_buffers {req : UInt64} (hop : opOf req = opNetRecv)
    (hx : h.netRecv (argOf req) = .ok h') : h.Buffers h' (.request req) := by
  rw [netRecv] at hx
  dsimp only at hx
  have hrecv : h.recvSock (.request req) = (sockOf (argOf req)).filter fun sock =>
      (h.socks sock).active && (h.shm sock).isSome := by
    rw [recvSock, if_pos hop]
  cases hfilter : (sockOf (argOf req)).filter fun sock =>
      (h.socks sock).active && (h.shm sock).isSome with
  | none =>
    rw [hfilter] at hx
    obtain rfl := Except.ok.inj hx
    have hquiet : h.Quiet (h.ipcSend u64Max noCap) := ⟨rfl, rfl⟩
    refine hquiet.buffers ?_ (hrecv.trans hfilter)
    rw [looks, if_pos hop, hfilter]
  | some sock =>
    rw [hfilter] at hx hrecv
    dsimp only at hx
    cases hpending : h.pending sock with
    | true =>
      -- what is buffered is handed out, without a look at the card
      rw [hpending, if_pos rfl] at hx
      obtain rfl := Except.ok.inj hx
      have hlooks : h.looks (.request req) = [] := by
        rw [looks, if_pos hop, hfilter]
        exact if_pos hpending
      refine ⟨?_, fun i hi => ?_, fun i hi => ?_⟩
      · rw [hlooks]
        exact (List.append_nil _).symm
      · have hne : i ≠ sock := fun heq => hi (by rw [hrecv, heq])
        rw [Gets, hlooks]
        simp [ipcSend, setPending, hne]
      · obtain rfl := Option.some.inj (hrecv.symm.trans hi)
        simp [ipcSend, setPending]
    | false =>
      rw [hpending, if_neg Bool.false_ne_true] at hx
      have hlooks : h.looks (.request req) =
          seen (h.net.frameAt 256) (h.recvStop sock) 6 h.net.rxPosted := by
        rw [looks, if_pos hop, hfilter]
        dsimp only
        rw [hpending, if_neg Bool.false_ne_true]
      -- nothing is buffered: the card is polled, and the data of this socket handed out at once
      rw [recvLoop_eq] at hx
      obtain ⟨r, hr, hx⟩ := bind_eq_ok.mp hx
      obtain ⟨q, hq, hr⟩ := bind_eq_ok.mp hr
      obtain rfl := Except.ok.inj hr
      obtain rfl := Except.ok.inj hx
      obtain ⟨hhost, -⟩ := poll_eq_ok 6 h q hq
      obtain ⟨hbits, hflags⟩ := foldl_take_ready (h.looks (.request req)) h
      rw [← hlooks] at hhost
      have hnotified : q.1.notified = h.notified ++ h.raised (h.looks (.request req)) := by
        rw [hhost]
        exact hbits
      have hflags' : ∀ i, q.1.pending i = true ↔ h.pending i = true ∨ h.Gets (.request req) i := by
        rw [hhost]
        exact hflags
      obtain ⟨h₁, last⟩ := q
      cases last with
      | none =>
        refine ⟨hnotified, fun i _ => hflags' i, fun i hi hset => ?_⟩
        obtain rfl := Option.some.inj (hrecv.symm.trans hi)
        refine ((hflags' sock).mp hset).resolve_left ?_
        rw [hpending]
        exact Bool.false_ne_true
      | some e =>
        refine ⟨hnotified, fun i hi => ?_, fun i hi => ?_⟩
        · have hne : i ≠ sock := fun heq => hi (by rw [hrecv, heq])
          rw [← hflags']
          simp [recvResult, ipcSend, setPending, hne]
        · obtain rfl := Option.some.inj (hrecv.symm.trans hi)
          simp [recvResult, ipcSend, setPending]

/-- The same for all events. -/
lemma step_buffers (hs : system.step h ev = some (h', out)) : h.Buffers h' ev := by
  cases ev with
  | store sock off bytes =>
    simp only [system] at hs
    split at hs
    · cases hs
    · split at hs
      next page' _ =>
        obtain ⟨rfl, -⟩ := Prod.mk.inj (Option.some.inj hs)
        have hquiet : h.Quiet (h.setShm sock page') := ⟨rfl, rfl⟩
        exact hquiet.buffers rfl rfl
      next => cases hs
  | request req =>
    simp only [system] at hs
    split at hs
    next h₁ hx =>
      obtain ⟨rfl, -⟩ := Prod.mk.inj (Option.some.inj hs)
      rw [combinedService] at hx
      split at hx
      · cases hx
      obtain ⟨h₂, hdispatch, hx⟩ := bind_eq_ok.mp hx
      obtain rfl := Option.some.inj (Except.ok.inj hx)
      rw [dispatch] at hdispatch
      by_cases hrecv : opOf req = opNetRecv
      · rw [hrecv, if_neg (by decide), if_neg (by decide), if_neg (by decide), if_pos rfl] at hdispatch
        exact netRecv_buffers hrecv hdispatch
      by_cases hready : opOf req = opNetGetReady
      · rw [hready, if_neg (by decide), if_neg (by decide), if_neg (by decide), if_neg (by decide),
          if_neg (by decide), if_neg (by decide), if_pos rfl] at hdispatch
        exact netGetReady_buffers hready hdispatch
      -- no other request polls the card
      have hlooks : h.looks (.request req) = [] := by
        rw [looks, if_neg hrecv, if_neg fun hall => hready hall.1]
      refine Quiet.buffers ?_ hlooks (if_neg hrecv)
      rw [if_neg hrecv, if_neg hready] at hdispatch
      split at hdispatch
      · exact readfile_quiet hdispatch
      split at hdispatch
      · exact netConnect_quiet hdispatch
      split at hdispatch
      · exact netSend_quiet hdispatch
      split at hdispatch
      · exact netClose_quiet hdispatch
      split at hdispatch
      · exact netGetFrame_quiet hdispatch
      · exact serveFile_quiet hdispatch
    next => cases hs

/-! ## The reply of `OP_NET_GET_READY` -/

lemma readyMask_none {pending : Fin 4 → Bool} (hnone : ∀ i, pending i ≠ true) :
    readyMask pending = 0 := by
  have heq : pending = fun _ => false := funext fun i => eq_false_of_ne_true (hnone i)
  rw [heq]
  rfl

lemma readyMask_single {pending : Fin 4 → Bool} {sock : Fin 4}
    (hsingle : ∀ i, pending i = true ↔ i = sock) : readyMask pending = 2 ^ (sock : ℕ) := by
  have heq : pending = fun i => decide (i = sock) :=
    funext fun i => by rw [Bool.eq_iff_iff, hsingle, decide_eq_true_iff]
  have hall : ∀ sock : Fin 4, readyMask (fun i => decide (i = sock)) = 2 ^ (sock : ℕ) := by decide
  rw [heq, hall]

lemma readyMask_ne_zero {pending : Fin 4 → Bool} {i : Fin 4} (hi : pending i = true) :
    readyMask pending ≠ 0 := by
  have hfold : ∀ (l : List (Fin 4)) (mask : ℕ), mask ≠ 0 ∨ i ∈ l →
      l.foldl (fun mask i => if pending i then mask ||| 2 ^ (i : ℕ) else mask) mask ≠ 0 := by
    intro l
    induction l with
    | nil => exact fun mask hmask => hmask.resolve_right List.not_mem_nil
    | cons j l ih =>
      intro mask hmask
      rw [List.foldl_cons]
      refine ih _ ?_
      by_cases hj : i = j
      · rw [← hj, if_pos hi]
        exact .inl fun hzero => absurd (Nat.or_eq_zero_iff.mp hzero).2 (Nat.two_pow_pos _).ne'
      · refine hmask.imp (fun hne => ?_) fun hmem => (List.mem_cons.mp hmem).resolve_left hj
        split
        · exact fun hzero => hne (Nat.or_eq_zero_iff.mp hzero).1
        · exact hne
  exact hfold _ 0 (.inr (List.mem_finRange i))

/-- The loop stops at the first frame at which it is to stop. -/
lemma seen_stop {frames : ℕ → Option (List UInt8)} {stop : List UInt8 → Bool} :
    ∀ (fuel k : ℕ) (e : List UInt8), e ∈ seen frames stop fuel k → stop e = true →
      (seen frames stop fuel k).getLast? = some e := by
  intro fuel
  induction fuel with
  | zero => exact fun k e he => absurd he List.not_mem_nil
  | succ fuel ih =>
    intro k e he hstop
    rw [seen] at he ⊢
    split at he
    · exact absurd he List.not_mem_nil
    next e' heq =>
      rcases List.mem_cons.mp he with rfl | hrest
      · rw [if_pos hstop]
        rfl
      · split at hrest
        · exact absurd hrest List.not_mem_nil
        next hgo =>
          rw [if_neg hgo, List.getLast?_cons, ih (k + 1) e hrest hstop]
          rfl

/-- The reply is the mask of the sockets that are flagged then. -/
lemma netGetReady_reply (hx : h.netGetReady = .ok h') :
    h'.replies = h.replies ++ [⟨readyMask h'.pending, noCap⟩] := by
  rw [netGetReady] at hx
  obtain ⟨⟨h₁, mask⟩, hloop, hx⟩ := bind_eq_ok.mp hx
  obtain rfl := Except.ok.inj hx
  by_cases hmask : readyMask h.pending = 0
  swap
  · rw [readyLoop_of_ne_zero hmask] at hloop
    obtain ⟨rfl, rfl⟩ := Prod.mk.inj (Except.ok.inj hloop)
    rfl
  rw [hmask, readyLoop_eq] at hloop
  obtain ⟨q, hq, hloop⟩ := bind_eq_ok.mp hloop
  obtain ⟨rfl, rfl⟩ := Prod.mk.inj (Except.ok.inj hloop)
  obtain ⟨hhost, -, -, hlast, hnone⟩ := poll_eq_ok 6 h q hq
  have hreplies := poll_replies hq
  -- nothing was flagged before
  have hclear : ∀ i, h.pending i ≠ true := by
    intro i hi
    have hpos : readyMask h.pending ≠ 0 := readyMask_ne_zero hi
    exact hpos hmask
  have hflags : ∀ i, q.1.pending i = true ↔ ∃ e ∈ seen (h.net.frameAt 256) h.readyStop 6
      h.net.rxPosted, h.dataFor e = some i := by
    intro i
    rw [hhost]
    have hiff := (foldl_take_ready (seen (h.net.frameAt 256) h.readyStop 6 h.net.rxPosted) h).2 i
    rw [or_iff_right (hclear i)] at hiff
    exact hiff
  suffices hword : gotMask (q.2.bind h.dataFor) = readyMask q.1.pending by
    show q.1.replies ++ [⟨_, noCap⟩] = h.replies ++ [⟨readyMask q.1.pending, noCap⟩]
    rw [hreplies, hword]
  cases hgot : q.2 with
  | none =>
    rw [readyMask_none]
    · rfl
    · intro i hi
      obtain ⟨e, he, hdata⟩ := (hflags i).mp hi
      have hstop := hnone hgot e he
      rw [readyStop, hdata] at hstop
      cases hstop
  | some e =>
    obtain ⟨hstop, hend⟩ := hlast e hgot
    obtain ⟨sock, hsock⟩ := Option.isSome_iff_exists.mp hstop
    rw [Option.bind_some, hsock, readyMask_single]
    · rfl
    · intro i
      rw [hflags]
      constructor
      · rintro ⟨e', he', hdata⟩
        have hend' := seen_stop 6 _ e' he' (by rw [readyStop, hdata]; rfl)
        obtain rfl := Option.some.inj (hend.symm.trans hend')
        exact Option.some.inj (hdata.symm.trans hsock)
      · rintro rfl
        exact ⟨e, List.mem_of_getLast? hend, hsock⟩

lemma getReady_step {req : UInt64} (hop : opOf req = opNetGetReady)
    (hs : system.step h (.request req) = some (h', out)) :
    out = [⟨readyMask h'.pending, noCap⟩] := by
  simp only [system] at hs
  split at hs
  next h₁ hx =>
    obtain ⟨rfl, rfl⟩ := Prod.mk.inj (Option.some.inj hs)
    rw [combinedService, if_neg (by rw [hop]; decide)] at hx
    obtain ⟨h₂, hdispatch, hx⟩ := bind_eq_ok.mp hx
    obtain rfl := Option.some.inj (Except.ok.inj hx)
    rw [hop, dispatch, if_neg (by decide), if_neg (by decide), if_neg (by decide), if_neg (by decide),
      if_neg (by decide), if_neg (by decide), if_pos rfl] at hdispatch
    rw [netGetReady_reply hdispatch]
    exact List.drop_left
  next => cases hs

end Host

/-! ## A client that waits -/

/-- `READY_BIT | NET_READY_BIT`, raised once the host is up. -/
def startBits : ℕ := 0x1 ||| 0x2

/-- The service host and the kernel objects that it shares with its client. -/
structure Ready where
  host : Host
  ipc : Ipc

namespace Ready

/-- What the client does: something that the service host sees, or a `WAIT`. -/
inductive Event where
  | service (ev : Host.Event)
  | wait

/-- What the service host sees of it. -/
def Event.service? : Event → Option Host.Event
  | .service ev => some ev
  | .wait => none

/-- What it gets: the replies to a request, or the word of the notification. -/
inductive Answer where
  | replies (replies : List Reply)
  | woke (word : ℕ)
  deriving Repr, DecidableEq

/-- `notify`, the result of which is ignored. All processes have notification 0 in `NOTIF_SLOT`. -/
def notify (c : Ipc) (bits : ℕ) : Ipc := (c.signal 0 bits).getD c

/-- One client and the service host. A client whose `WAIT` blocks makes no further step, and then nobody
does. -/
def system : TransitionSystem Ready Event Answer where
  init s := s.host.Starts ∧ s.ipc.notifications 0 = startBits
  step s ev :=
    match ev with
    | .service ev => (Host.system.step s.host ev).map fun r =>
        (⟨r.1, (r.1.notified.drop s.host.notified.length).foldl notify s.ipc⟩, .replies r.2)
    | .wait => (s.ipc.pollTake 0).map fun r => ({ s with ipc := r.2 }, .woke r.1)

abbrev Step := Transition Ready Event Answer

variable {s s' : Ready} {ts : List Step} {i : Fin 4} {out : Answer}

/-- Whether the bit of the socket is raised. -/
def bit (s : Ready) (i : Fin 4) : Bool := (s.ipc.notifications 0).testBit (netSockBit + (i : ℕ))

/-- The word names exactly the sockets with unread data. -/
def Names (s : Ready) (word : ℕ) : Prop :=
  ∀ i : Fin 4, word.testBit (netSockBit + (i : ℕ)) = true ↔ s.host.pending i = true

/-- Data for the socket has come in since the last `WAIT`. -/
def Fresh (i : Fin 4) (ts : List Step) : Prop :=
  ∃ a t b ev, ts = a ++ t :: b ∧ t.event = .service ev ∧ t.pre.host.Gets ev i ∧
    ∀ u ∈ b, u.event ≠ .wait

/-- Whether it names the socket: the word of a `WAIT` does if it has its bit. -/
def Answer.names (i : Fin 4) : Answer → Bool
  | .replies _ => false
  | .woke word => word.testBit (netSockBit + (i : ℕ))

/-- A `WAIT` has named the socket, and the client has not read it since. -/
def Unread (i : Fin 4) (ts : List Step) : Prop :=
  ∃ a t b, ts = a ++ t :: b ∧ t.out.names i = true ∧
    ∀ u ∈ b, ∀ ev, u.event = .service ev → u.pre.host.recvSock ev ≠ some i

/-- After the steps `ts`, the client reads the data of a socket once a `WAIT` has taken its bit, not as
it comes in, and waits once it has read the sockets named before, unless they got data again. -/
def InTurn (ts : List Step) (s : Ready) : Event → Prop
  | .service ev => ∀ i ∈ s.host.recvSock ev, ¬ Fresh i ts ∧ ¬ s.host.Gets ev i
  | .wait => ∀ i, Unread i ts → Fresh i ts

lemma foldl_notify (j : ℕ) (bits : List ℕ) : ∀ c : Ipc,
    ((bits.foldl notify c).notifications 0).testBit j = true ↔
      (c.notifications 0).testBit j = true ∨ ∃ b ∈ bits, b.testBit j = true := by
  induction bits with
  | nil => exact fun c => by simp
  | cons b bits ih =>
    intro c
    have hone : (notify c b).notifications 0 = c.notifications 0 ||| b := by
      simp [notify, Ipc.signal, numNotifications]
    rw [List.foldl_cons, ih, hone, Nat.testBit_or]
    simp [or_assoc]

/-- Which bits are raised after a step of the service host. -/
lemma service_bit {ev : Host.Event} (hs : system.step s (.service ev) = some (s', out)) :
    s.host.Buffers s'.host ev ∧
      ∀ i, s'.bit i = true ↔ s.bit i = true ∨ s.host.Gets ev i := by
  obtain ⟨⟨h', replies⟩, hstep, heq⟩ := Option.map_eq_some_iff.mp hs
  obtain ⟨rfl, -⟩ := Prod.mk.inj heq
  have hbuffers := Host.step_buffers hstep
  refine ⟨hbuffers, fun i => ?_⟩
  unfold bit
  dsimp only
  rw [foldl_notify, hbuffers.notified, List.drop_left]
  refine or_congr_right ?_
  unfold Host.raised Host.Gets
  constructor
  · rintro ⟨b, hb, hbit⟩
    obtain ⟨e, he, hmap⟩ := List.mem_filterMap.mp hb
    obtain ⟨sock, hsock, rfl⟩ := Option.map_eq_some_iff.mp hmap
    rw [Nat.testBit_two_pow, decide_eq_true_iff] at hbit
    have hval : (sock : ℕ) = i := by omega
    exact ⟨e, he, by rw [hsock, Fin.ext hval]⟩
  · rintro ⟨e, he, hdata⟩
    refine ⟨_, List.mem_filterMap.mpr ⟨e, he, by rw [hdata]; rfl⟩, ?_⟩
    exact Nat.testBit_two_pow_self

/-- A `WAIT` returns the word and takes it. -/
lemma wait_word (hs : system.step s .wait = some (s', out)) :
    out = .woke (s.ipc.notifications 0) ∧ s'.host = s.host ∧ ∀ i, s'.bit i = false := by
  obtain ⟨⟨word, ipc⟩, htake, heq⟩ := Option.map_eq_some_iff.mp hs
  obtain ⟨rfl, rfl⟩ := Prod.mk.inj heq
  unfold Ipc.pollTake at htake
  split at htake
  · obtain ⟨rfl, rfl⟩ := Prod.mk.inj (Option.some.inj htake)
    refine ⟨rfl, rfl, fun i => ?_⟩
    simp [bit]
  · cases htake

lemma not_fresh_nil : ¬ Fresh i [] := by
  rintro ⟨a, t, b, ev, hts, -⟩
  simp at hts

lemma fresh_snoc (u : Step) : Fresh i (ts ++ [u]) ↔
    (∃ ev, u.event = .service ev ∧ u.pre.host.Gets ev i) ∨ u.event ≠ .wait ∧ Fresh i ts := by
  constructor
  · rintro ⟨a, t, b, ev, hts, hev, hgets, hno⟩
    rcases List.snoc_eq_append_cons hts with ⟨-, rfl, -⟩ | ⟨b', rfl, rfl⟩
    · exact .inl ⟨ev, hev, hgets⟩
    · refine .inr ⟨hno u (by simp), a, t, b', ev, rfl, hev, hgets, fun v hv => ?_⟩
      exact hno v (List.mem_append_left _ hv)
  · rintro (⟨ev, hev, hgets⟩ | ⟨hne, a, t, b, ev, rfl, hev, hgets, hno⟩)
    · exact ⟨ts, u, [], ev, rfl, hev, hgets, fun v hv => absurd hv List.not_mem_nil⟩
    · refine ⟨a, t, b ++ [u], ev, by simp, hev, hgets, fun v hv => ?_⟩
      rcases List.mem_append.mp hv with hv | hv
      · exact hno v hv
      · rw [List.mem_singleton.mp hv]
        exact hne

/-- The bits raised are those of the sockets that got data since the last `WAIT`. -/
lemma bit_iff_fresh (h : Run system ts s) (i : Fin 4) : s.bit i = true ↔ Fresh i ts := by
  induction h with
  | start hinit =>
    refine iff_of_false (fun hbit => ?_) not_fresh_nil
    have hzero : ∀ i : Fin 4, startBits.testBit (netSockBit + (i : ℕ)) = false := by decide
    rw [bit, hinit.2, hzero] at hbit
    cases hbit
  | @next ts s s' e o hrun hs ih =>
    rw [fresh_snoc]
    cases e with
    | wait =>
      refine iff_of_false (fun hbit => ?_) ?_
      · rw [(wait_word hs).2.2 i] at hbit
        cases hbit
      · rintro (⟨ev, hev, -⟩ | ⟨hne, -⟩)
        · cases hev
        · exact hne rfl
    | service ev =>
      rw [(service_bit hs).2 i, ih, or_comm]
      refine or_congr ?_ ?_
      · constructor
        · exact fun hgets => ⟨ev, rfl, hgets⟩
        · rintro ⟨ev', hev, hgets⟩
          obtain rfl := Event.service.inj hev
          exact hgets
      · exact (and_iff_right (by simp)).symm

lemma unread_snoc (u : Step) : Unread i (ts ++ [u]) ↔ u.out.names i = true ∨
    (∀ ev, u.event = .service ev → u.pre.host.recvSock ev ≠ some i) ∧ Unread i ts := by
  constructor
  · rintro ⟨a, t, b, hts, hnames, hno⟩
    rcases List.snoc_eq_append_cons hts with ⟨-, rfl, -⟩ | ⟨b', rfl, rfl⟩
    · exact .inl hnames
    · exact .inr ⟨hno u (by simp), a, t, b', rfl, hnames, fun v hv => hno v (List.mem_append_left _ hv)⟩
  · rintro (hnames | ⟨hread, a, t, b, rfl, hnames, hno⟩)
    · exact ⟨ts, u, [], rfl, hnames, fun v hv => absurd hv List.not_mem_nil⟩
    · refine ⟨a, t, b ++ [u], by simp, hnames, fun v hv => ?_⟩
      rcases List.mem_append.mp hv with hv | hv
      · exact hno v hv
      · rw [List.mem_singleton.mp hv]
        exact hread

/-- Unread data has been named. -/
lemma not_unread (hno : ∀ t ∈ ts, t.out.names i = false) : ¬ Unread i ts := by
  rintro ⟨a, t, b, rfl, hnames, -⟩
  rw [hno t (by simp)] at hnames
  cases hnames

/-- The data that has not been read came in since the last `WAIT`, or a `WAIT` has named it. -/
lemma fresh_or_unread (h : Run system ts s) (i : Fin 4) :
    s.host.pending i = true → Fresh i ts ∨ Unread i ts := by
  refine h.invariant_along (I := fun ts s => s.host.pending i = true → Fresh i ts ∨ Unread i ts)
    (C := fun _ _ _ => True) (fun s hinit hset => ?_) (fun ts s e s' o hrun hinv _ hs hset => ?_)
    fun _ _ _ _ => trivial
  · obtain ⟨⟨-, -, -, -, hclear, -⟩, -⟩ := hinit
    rw [hclear] at hset
    cases hset
  rw [fresh_snoc, unread_snoc]
  cases e with
  | wait =>
    -- what the word does not name was named before
    obtain ⟨rfl, hhost, -⟩ := wait_word hs
    rw [hhost] at hset
    refine .inr ?_
    rcases hinv hset with hfresh | hunread
    · exact .inl ((bit_iff_fresh hrun i).mpr hfresh)
    · exact .inr ⟨fun ev hev => (nomatch hev), hunread⟩
  | service ev =>
    obtain ⟨hbuffers, -⟩ := service_bit hs
    have hnew : s.host.Gets ev i → ∃ ev', Event.service ev = .service ev' ∧ s.host.Gets ev' i :=
      fun hgets => ⟨ev, rfl, hgets⟩
    by_cases hrecv : s.host.recvSock ev = some i
    · exact .inl (.inl (hnew (hbuffers.read i hrecv hset)))
    · rcases (hbuffers.pending i hrecv).mp hset with hold | hgets
      · refine (hinv hold).imp (fun hfresh => .inr ⟨by simp, hfresh⟩) fun hunread => .inr ⟨?_, hunread⟩
        rintro ev' hev
        rw [← Event.service.inj hev]
        exact hrecv
      · exact .inl (.inl (hnew hgets))

/-- As long as the client takes turns, no bit outlives the data. -/
lemma pending_of_bit (h : Run system ts s)
    (hturn : ∀ a t b, ts = a ++ t :: b → t.pre.InTurn a t.event) :
    ∀ i, s.bit i = true → s.host.pending i = true := by
  refine h.invariant_along (I := fun _ s => ∀ i, s.bit i = true → s.host.pending i = true)
    (C := fun ts s => s.InTurn ts) (fun s hinit i hbit => ?_)
    (fun ts s e s' o hrun hinv hC hs i hbit => ?_) hturn
  · have hzero : ∀ i : Fin 4, startBits.testBit (netSockBit + (i : ℕ)) = false := by decide
    rw [bit, hinit.2, hzero] at hbit
    cases hbit
  · cases e with
    | wait =>
      rw [(wait_word hs).2.2 i] at hbit
      cases hbit
    | service ev =>
      obtain ⟨hbuffers, hbits⟩ := service_bit hs
      have hraised := (hbits i).mp hbit
      by_cases hrecv : s.host.recvSock ev = some i
      · -- the data that is read has no bit any more
        obtain ⟨hold, hquiet⟩ := hC i hrecv
        rw [bit_iff_fresh hrun] at hraised
        exact absurd hraised (not_or_intro hold hquiet)
      · rw [hbuffers.pending i hrecv]
        exact hraised.imp_left (hinv i)

/-- In every run, `OP_NET_GET_READY` replies with the sockets that have unread data; a `WAIT` names them
if and only if they are those that got data since the last one. As long as the client takes turns, it
does, and does not block while there are some. -/
theorem wait_names_ready (h : Run system ts s) :
    (∀ t ∈ ts, ∀ req, t.event = .service (.request req) → Host.opOf req = opNetGetReady →
      t.out = .replies [⟨readyMask t.post.host.pending, noCap⟩]) ∧
    (∀ word s', system.step s .wait = some (s', .woke word) →
      (s.Names word ↔ ∀ i, Fresh i ts ↔ s.host.pending i = true)) ∧
    ((∀ a t b, ts = a ++ t :: b → t.pre.InTurn a t.event) → s.InTurn ts .wait →
      (∀ word s', system.step s .wait = some (s', .woke word) → s.Names word) ∧
      (readyMask s.host.pending ≠ 0 → (system.step s .wait).isSome)) := by
  have hword : ∀ {word s'}, system.step s .wait = some (s', .woke word) →
      ∀ i : Fin 4, word.testBit (netSockBit + (i : ℕ)) = s.bit i := by
    intro word s' hs i
    rw [Answer.woke.inj (wait_word hs).1]
    rfl
  -- what an earlier `WAIT` named has been read since, so that unread data is new
  have hnew : s.InTurn ts .wait → ∀ i, s.host.pending i = true → s.bit i = true :=
    fun hwait i hset => (bit_iff_fresh h i).mpr ((fresh_or_unread h i hset).elim id (hwait i))
  refine ⟨fun t ht req hev hop => ?_, fun word s' hs => ?_, fun hturn hwait => ⟨fun word s' hs => ?_, ?_⟩⟩
  · obtain ⟨-, hs⟩ := h.mem_step ht
    rw [hev] at hs
    obtain ⟨⟨h', replies⟩, hstep, heq⟩ := Option.map_eq_some_iff.mp hs
    obtain ⟨hpost, hout⟩ := Prod.mk.inj heq
    rw [← hpost, ← hout, Host.getReady_step hop hstep]
  · refine forall_congr' fun i => ?_
    rw [hword hs, bit_iff_fresh h]
  · intro i
    rw [hword hs]
    exact ⟨pending_of_bit h hturn i, hnew hwait i⟩
  · intro hmask
    -- some socket has unread data, and its bit is raised
    obtain ⟨i, hi⟩ : ∃ i, s.host.pending i = true := by
      by_contra hnone
      exact hmask (Host.readyMask_none fun i hi => hnone ⟨i, hi⟩)
    have hbit := hnew hwait i hi
    have hne : s.ipc.notifications 0 ≠ 0 := by
      intro hzero
      rw [bit, hzero, Nat.zero_testBit] at hbit
      cases hbit
    have htake : (s.ipc.pollTake 0).isSome := by
      rw [Ipc.pollTake, if_pos ⟨by decide, hne⟩]
      rfl
    rw [system, Option.isSome_map]
    exact htake

/-- Socket 0 of the host is connected and gets two bytes. -/
def oneSegment : Ready where
  host := Host.booted [Host.segment portBase 99 (tcpSyn ||| tcpAck) [],
    Host.segment portBase 100 tcpAck [1, 2]]
  ipc := ⟨fun _ => [], fun _ => startBits⟩

lemma init_oneSegment : system.init oneSegment := ⟨Host.starts_booted _, rfl⟩

/-- A request with this opcode about socket 0. -/
def ask (op a : ℕ) : Event := .service (.request (Host.requestOf op 0 a))

/-- The client connects, takes the bits that tell it that the host is up, asks for ready sockets, and
waits. -/
theorem wait_names_ready_one :
    ∃ ts s s', Run system ts s ∧ (∀ a t b, ts = a ++ t :: b → t.pre.InTurn a t.event) ∧
      s.InTurn ts .wait ∧ system.step s .wait = some (s', .woke 4) ∧ s.Names 4 := by
  have hfacts : (system.replay oneSegment [ask opNetConnect (7 * 2 ^ 32), .wait,
      ask opNetGetReady 0]).map (fun r =>
        ((r.1.all fun t => decide (∀ i, t.out.names i = false ∧
            ∀ ev ∈ t.event.service?, t.pre.host.recvSock ev ≠ some i)),
          (system.step r.2 .wait).map Prod.snd)) = some (true, some (.woke 4)) := by decide +kernel
  obtain ⟨⟨ts, s⟩, hreplay, hfacts⟩ := Option.map_eq_some_iff.mp hfacts
  simp only [Prod.mk.injEq, List.all_eq_true, decide_eq_true_eq] at hfacts
  obtain ⟨hquiet, hout⟩ := hfacts
  obtain ⟨⟨s', out⟩, hstep, rfl⟩ := Option.map_eq_some_iff.mp hout
  have hrun : Run system ts s := (Run.start init_oneSegment).append_replay hreplay
  -- nothing is read, and no socket is named before the last step
  have hturn : ∀ a t b, ts = a ++ t :: b → t.pre.InTurn a t.event := by
    rintro a ⟨pre, e, out, post⟩ b rfl
    cases e with
    | service ev => exact fun i hi => absurd hi ((hquiet _ (by simp) i).2 ev rfl)
    | wait =>
      exact fun i hunread => absurd hunread (not_unread fun t ht =>
        (hquiet t (List.mem_append_left _ ht) i).1)
  have hwait : s.InTurn ts .wait := fun i hunread =>
    absurd hunread (not_unread fun t ht => (hquiet t ht i).1)
  exact ⟨ts, s, s', hrun, hturn, hwait, hstep, ((wait_names_ready hrun).2.2 hturn hwait).1 4 s' hstep⟩

/-- If the data is read before the `WAIT`, that names a socket without any; and if it is not read, a
second `WAIT` blocks although `OP_NET_GET_READY` has just named the socket. -/
theorem not_wait_names_ready :
    (∃ ts s s' word, Run system ts s ∧ ts.map Transition.event =
        [ask opNetConnect (7 * 2 ^ 32), ask opNetGetReady 0, ask opNetRecv 100] ∧
      system.step s .wait = some (s', .woke word) ∧ ¬ s.Names word) ∧
    ∃ ts s, Run system ts s ∧ ts.map Transition.event =
        [ask opNetConnect (7 * 2 ^ 32), ask opNetGetReady 0, .wait, ask opNetGetReady 0] ∧
      ts.getLast?.map Transition.out = some (.replies [⟨1, noCap⟩]) ∧ system.step s .wait = none := by
  have hstale : (system.replay oneSegment [ask opNetConnect (7 * 2 ^ 32), ask opNetGetReady 0,
      ask opNetRecv 100]).map (fun r => (r.2.host.pending 0, (system.step r.2 .wait).map Prod.snd)) =
      some (false, some (.woke 7)) := by decide +kernel
  have hblocks : (system.replay oneSegment [ask opNetConnect (7 * 2 ^ 32), ask opNetGetReady 0, .wait,
      ask opNetGetReady 0]).map (fun r => (r.1.getLast?.map Transition.out,
        (system.step r.2 .wait).isNone)) = some (some (.replies [⟨1, noCap⟩]), true) := by decide +kernel
  obtain ⟨⟨ts, s⟩, hreplay, hfacts⟩ := Option.map_eq_some_iff.mp hstale
  obtain ⟨hpending, hout⟩ := Prod.mk.inj hfacts
  obtain ⟨⟨s', out⟩, hstep, rfl⟩ := Option.map_eq_some_iff.mp hout
  obtain ⟨⟨ts', t⟩, hreplay', hfacts'⟩ := Option.map_eq_some_iff.mp hblocks
  obtain ⟨hlast, hnone⟩ := Prod.mk.inj hfacts'
  refine ⟨⟨ts, s, s', 7, (Run.start init_oneSegment).append_replay hreplay,
      TransitionSystem.replay_events hreplay, hstep, fun hnames => ?_⟩,
    ts', t, (Run.start init_oneSegment).append_replay hreplay',
      TransitionSystem.replay_events hreplay', hlast, Option.isNone_iff_eq_none.mp hnone⟩
  have hset := (hnames 0).mp (by decide)
  rw [hpending] at hset
  cases hset

/-! ## The system calls behind it -/

/-- Every process starts with notification 0 in `NOTIF_SLOT`. -/
lemma seedCaps_notif (pid : ℕ) : (seedCaps pid).get notifSlot = .ok (.notification 0) := by
  unfold seedCaps
  dsimp only
  split <;> rfl

section Kernel

variable {k : Kernel} (h : k.sched.cur.caps.get notifSlot = .ok (.notification 0))

include h

lemma currentNotificationId_notif : k.currentNotificationId notifSlot = some 0 := by
  rw [Kernel.currentNotificationId, Kernel.currentCapGet, h]
  rfl

/-- With it, `SYS_SIGNAL` does what `notify` stands for. -/
lemma sysSignal_ipc (bits : ℕ) : (k.sysSignal notifSlot bits).1.ipc = notify k.ipc bits := by
  rw [Kernel.sysSignal, currentNotificationId_notif h]
  rfl

/-- `SYS_WAIT` takes the word, or blocks. -/
lemma sysWait_ipc : k.sysWait notifSlot =
    match k.ipc.pollTake 0 with
    | some (bits, ipc) => ({ k with ipc }, some bits)
    | none => (k.blockOn (.notification 0) (.wait 0), none) := by
  rw [Kernel.sysWait, currentNotificationId_notif h]
  rfl

end Kernel

end Ready
end Xernel
