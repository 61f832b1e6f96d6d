import Xernel.Userland.Rings

/-!
# Every request has its answer, or none

For each opcode the condition under which handling it completes, and that it then sends exactly one
reply. File requests have no condition. Requests about sockets do: a segment has room for 64 bytes, though
a request may ask to send a page; sequence numbers are added with a check, though they come from the
network and go round; the buffers posted to the card are counted in 16 bits; and the entries of the rings
that they are published in, one behind the other, run out of mapped memory even before that.
-/

namespace Xernel

open Checked

namespace Host

variable {h : Host} {arg : ℕ} {x : Checked Host}

/-- Handling completes and sends one reply. -/
def Answers (h : Host) (x : Checked Host) : Prop :=
  ∃ h' r, x = .ok h' ∧ h'.replies = h.replies ++ [r]

lemma answers_iff (hreply : ∀ h', x = .ok h' → ∃ r, h'.replies = h.replies ++ [r]) :
    h.Answers x ↔ Completes x := by
  constructor
  · rintro ⟨h', r, hx, -⟩
    exact ⟨h', hx⟩
  · rintro ⟨h', hx⟩
    obtain ⟨r, hr⟩ := hreply h' hx
    exact ⟨h', r, hx, hr⟩

lemma ipcSend_replies {h' : Host} (hreplies : h'.replies = h.replies) (word grant : ℕ) :
    ∃ r, (h'.ipcSend word grant).replies = h.replies ++ [r] :=
  ⟨⟨word, grant⟩, by rw [ipcSend, hreplies]⟩

lemma answers_ok {h' : Host} (hreplies : h'.replies = h.replies) (word grant : ℕ) :
    h.Answers (.ok (h'.ipcSend word grant)) := by
  obtain ⟨r, hr⟩ := ipcSend_replies hreplies word grant
  exact ⟨_, r, rfl, hr⟩

/-! ## Files -/

lemma readfile_answers (h : Host) (arg : ℕ) : h.Answers (h.readfile arg) := by
  rw [readfile]
  split
  · exact answers_ok rfl _ _
  next page _ =>
    obtain ⟨⟨size, page', blk⟩, hread⟩ := readByIndex_completes h.blk arg page
    rw [hread, ok_bind]
    cases size with
    | some n => exact answers_ok rfl _ _
    | none => exact answers_ok rfl _ _

lemma serveFile_answers (h : Host) (op arg : ℕ) : h.Answers (h.serveFile op arg) := by
  obtain ⟨⟨reply, blk⟩, hserve⟩ := serveOne_completes h.blk op arg
  rw [serveFile, hserve, ok_bind]
  exact answers_ok rfl _ _

lemma netGetFrame_answers (h : Host) (arg : ℕ) : h.Answers (h.netGetFrame arg) := by
  rw [netGetFrame]
  split
  · exact answers_ok rfl _ _
  · exact answers_ok rfl _ _

/-! ## Sockets -/

/-- A connect goes through the handshake. -/
def ConnectSafe (h : Host) (arg : ℕ) : Prop :=
  ∀ sock, sockOf arg = some sock → HandshakeSafe h.net (h.socks sock).sport.toNat

/-- What is sent fits into one frame, and its number into 32 bits. -/
def SendSafe (h : Host) (arg : ℕ) : Prop :=
  ∀ sock, sockOf arg = some sock → (h.shm sock).isSome → (h.socks sock).active →
    sockArg arg ≤ Fs.pageBytes →
    sockArg arg ≤ 64 ∧ h.net.txPosted + 1 < 2 ^ 16 ∧
    (h.net.tx (h.net.txPosted + 1) → (h.socks sock).ourSeq + sockArg arg < 2 ^ 32)

/-- A receive with nothing buffered polls the card. -/
def RecvSafe (h : Host) (arg : ℕ) : Prop :=
  ∀ sock, sockOf arg = some sock → (h.socks sock).active → (h.shm sock).isSome →
    h.pending sock = false → PollSafe h (h.recvStop sock) 6

/-- A close sends one segment. -/
def CloseSafe (h : Host) (arg : ℕ) : Prop :=
  ∀ sock, sockOf arg = some sock → (h.socks sock).active → h.net.txPosted + 1 < 2 ^ 16

/-- So does the wait for any socket. -/
def ReadySafe (h : Host) : Prop := readyMask h.pending = 0 → PollSafe h h.readyStop 6

lemma netConnect_answers : h.Answers (h.netConnect arg) ↔ h.ConnectSafe arg := by
  rw [netConnect, ConnectSafe]
  cases hsock : sockOf arg with
  | none => exact ⟨fun _ sock hs => absurd hs (by simp), fun _ => answers_ok rfl _ _⟩
  | some sock =>
    have hiff : Completes (Xernel.netConnect h.net ((h.socks sock).withPeer h.gmac (sockArg arg))) ↔
        HandshakeSafe h.net (h.socks sock).sport.toNat :=
      netConnect_completes
    dsimp only
    rw [answers_iff (fun h' hx => ?_), completes_bind]
    · constructor
      · rintro ⟨r, hr, -⟩ sock' hs
        obtain rfl := Option.some.inj hs
        exact hiff.mp ⟨r, hr⟩
      · intro hsafe
        obtain ⟨r, hr⟩ := hiff.mpr (hsafe sock rfl)
        exact ⟨r, hr, completes_pure _⟩
    · obtain ⟨r, -, hx⟩ := bind_eq_ok.mp hx
      obtain rfl := Except.ok.inj hx
      exact ⟨_, rfl⟩

lemma netSend_answers : h.Answers (h.netSend arg) ↔ h.SendSafe arg := by
  rw [netSend, SendSafe]
  cases hsock : sockOf arg with
  | none => exact ⟨fun _ sock hs => absurd hs (by simp), fun _ => answers_ok rfl _ _⟩
  | some sock =>
    cases hshm : h.shm sock with
    | none =>
      simp only [Option.bind_some, hshm, Option.map_none]
      refine ⟨fun _ sock' hs hpage => ?_, fun _ => answers_ok rfl _ _⟩
      obtain rfl := Option.some.inj hs
      rw [hshm] at hpage
      cases hpage
    | some page =>
      simp only [Option.bind_some, hshm, Option.map_some]
      split
      next hsend =>
        -- a page has at least the bytes asked for, but the frame has room for 64
        obtain ⟨hactive, hlen⟩ := hsend
        have htake : (page.bytes.take (sockArg arg)).length = sockArg arg := by
          rw [List.length_take, page.length_bytes]
          omega
        rw [answers_iff (fun h' hx => ?_), completes_bind]
        · constructor
          · rintro ⟨s, hs, hrest⟩ sock' hsock' - - -
            obtain rfl := Option.some.inj hsock'
            obtain ⟨hdata, htx⟩ := TcpState.send_completes.mp ⟨s, hs⟩
            obtain ⟨frame, hs'⟩ := TcpState.send_of_le hdata htx
            obtain rfl := Except.ok.inj (hs.symm.trans hs')
            rw [htake] at hdata
            refine ⟨hdata, htx, fun hdone => ?_⟩
            rw [if_pos hdone] at hrest
            obtain ⟨seq, hseq, -⟩ := completes_bind.mp hrest
            exact (add_eq_ok.mp hseq).1
          · intro hsafe
            obtain ⟨hdata, htx, hseq⟩ := hsafe sock rfl (by rw [hshm]; rfl) hactive hlen
            obtain ⟨frame, hs⟩ : ∃ frame, (h.socks sock).send h.net (tcpPsh ||| tcpAck)
                (page.bytes.take (sockArg arg)) =
                  .ok (h.net.transmitted frame, h.net.tx (h.net.txPosted + 1)) :=
              TcpState.send_of_le (by rw [htake]; exact hdata) htx
            refine ⟨_, hs, ?_⟩
            dsimp only
            split
            next hdone =>
              rw [add_of_lt (hseq hdone), ok_bind]
              exact completes_pure _
            next => exact completes_pure _
        · obtain ⟨s, -, hx⟩ := bind_eq_ok.mp hx
          split at hx
          · obtain ⟨seq, -, hx⟩ := bind_eq_ok.mp hx
            obtain rfl := Except.ok.inj hx
            exact ⟨_, rfl⟩
          · obtain rfl := Except.ok.inj hx
            exact ⟨_, rfl⟩
      next hsend =>
        refine ⟨fun _ sock' hs _ hactive hlen => ?_, fun _ => answers_ok rfl _ _⟩
        obtain rfl := Option.some.inj hs
        exact absurd ⟨hactive, hlen⟩ hsend

lemma recvResult_replies {sock : Fin 4} {max : ℕ} (r : Host × Option (List UInt8)) :
    (recvResult sock max r).1.replies = r.1.replies := by
  rw [recvResult]
  split <;> rfl

lemma netRecv_answers : h.Answers (h.netRecv arg) ↔ h.RecvSafe arg := by
  rw [netRecv, RecvSafe]
  cases hsock : (sockOf arg).filter fun sock => (h.socks sock).active && (h.shm sock).isSome with
  | none =>
    refine ⟨fun _ sock hs hactive hshm => ?_, fun _ => answers_ok rfl _ _⟩
    rw [hs, Option.filter_some, hactive, hshm] at hsock
    cases hsock
  | some sock =>
    obtain ⟨hs, huse⟩ := Option.filter_eq_some_iff.mp hsock
    obtain ⟨hactive, hshm⟩ := Bool.and_eq_true_iff.mp huse
    dsimp only
    cases hpending : h.pending sock with
    | true =>
      rw [if_pos rfl]
      refine ⟨fun _ sock' hs' _ _ hfalse => ?_, fun _ => answers_ok rfl _ _⟩
      obtain rfl := Option.some.inj (hs.symm.trans hs')
      rw [hpending] at hfalse
      cases hfalse
    | false =>
      rw [if_neg Bool.false_ne_true, recvLoop_eq]
      rw [answers_iff (fun h' hx => ?_), completes_bind]
      · constructor
        · rintro ⟨r, hr, -⟩ sock' hs' - - -
          obtain rfl := Option.some.inj (hs.symm.trans hs')
          obtain ⟨q, hq, -⟩ := bind_eq_ok.mp hr
          exact (poll_completes 6 h).mp ⟨q, hq⟩
        · intro hsafe
          obtain ⟨q, hq⟩ := (poll_completes 6 h).mpr (hsafe sock hs hactive hshm hpending)
          exact ⟨_, bind_eq_ok.mpr ⟨q, hq, rfl⟩, completes_pure _⟩
      · obtain ⟨r, hr, hx⟩ := bind_eq_ok.mp hx
        obtain ⟨q, hq, hr⟩ := bind_eq_ok.mp hr
        obtain rfl := Except.ok.inj hr
        obtain rfl := Except.ok.inj hx
        exact ipcSend_replies ((recvResult_replies q).trans (poll_replies hq)) _ _

lemma netClose_answers : h.Answers (h.netClose arg) ↔ h.CloseSafe arg := by
  rw [netClose, CloseSafe]
  cases hsock : (sockOf arg).filter fun sock => (h.socks sock).active with
  | none =>
    refine ⟨fun _ sock hs hactive => ?_, fun _ => answers_ok rfl _ _⟩
    rw [hs, Option.filter_some, hactive] at hsock
    cases hsock
  | some sock =>
    obtain ⟨hs, hactive⟩ := Option.filter_eq_some_iff.mp hsock
    dsimp only
    rw [answers_iff (fun h' hx => ?_), completes_bind]
    · constructor
      · rintro ⟨r, hr, -⟩ sock' - -
        exact (TcpState.send_completes.mp ⟨r, hr⟩).2
      · intro hsafe
        obtain ⟨frame, hsend⟩ := (h.socks sock).send_nil (tcpFin ||| tcpAck) (hsafe sock hs hactive)
        exact ⟨_, hsend, completes_pure _⟩
    · obtain ⟨r, -, hx⟩ := bind_eq_ok.mp hx
      obtain rfl := Except.ok.inj hx
      exact ⟨_, rfl⟩

lemma netGetReady_answers : h.Answers h.netGetReady ↔ h.ReadySafe := by
  rw [netGetReady, ReadySafe]
  -- with a bit set the answer is there at once; without one the card is polled
  by_cases hmask : readyMask h.pending = 0
  · rw [hmask, readyLoop_eq, answers_iff (fun h' hx => ?_), completes_bind]
    · constructor
      · rintro ⟨r, hr, -⟩ -
        obtain ⟨q, hq, -⟩ := bind_eq_ok.mp hr
        exact (poll_completes 6 h).mp ⟨q, hq⟩
      · intro hsafe
        obtain ⟨q, hq⟩ := (poll_completes 6 h).mpr (hsafe rfl)
        exact ⟨_, bind_eq_ok.mpr ⟨q, hq, rfl⟩, completes_pure _⟩
    · obtain ⟨r, hr, hx⟩ := bind_eq_ok.mp hx
      obtain ⟨q, hq, hr⟩ := bind_eq_ok.mp hr
      obtain rfl := Except.ok.inj hr
      obtain rfl := Except.ok.inj hx
      exact ipcSend_replies (poll_replies hq) _ _
  · rw [readyLoop_of_ne_zero hmask, ok_bind]
    exact ⟨fun _ hzero => absurd hzero hmask, fun _ => answers_ok rfl _ _⟩

/-! ## Requests -/

/-- The condition under which the host answers a request. -/
structure Safe (h : Host) (op arg : ℕ) : Prop where
  connect : op = opNetConnect → h.ConnectSafe arg
  send : op = opNetSend → h.SendSafe arg
  recv : op = opNetRecv → h.RecvSafe arg
  close : op = opNetClose → h.CloseSafe arg
  ready : op = opNetGetReady → h.ReadySafe

/-- A request of one of the opcodes for which there is no condition is safe. -/
lemma safe_of {op : ℕ} (hop : op ∉ [opNetConnect, opNetSend, opNetRecv, opNetClose, opNetGetReady]) :
    h.Safe op arg := by
  simp only [List.mem_cons, List.not_mem_nil, or_false, not_or] at hop
  obtain ⟨hconnect, hsend, hrecv, hclose, hready⟩ := hop
  exact ⟨fun h => absurd h hconnect, fun h => absurd h hsend, fun h => absurd h hrecv,
    fun h => absurd h hclose, fun h => absurd h hready⟩

lemma dispatch_answers (h : Host) (op arg : ℕ) : h.Answers (h.dispatch op arg) ↔ h.Safe op arg := by
  have other : ∀ {a b : ℕ} {P : Prop}, a ≠ b → a = b → P := fun hne heq => absurd heq hne
  rw [dispatch]
  by_cases hread : op = opReadfile
  · subst hread
    exact ⟨fun _ => safe_of (by decide), fun _ => h.readfile_answers arg⟩
  rw [if_neg hread]
  by_cases hconnect : op = opNetConnect
  · subst hconnect
    rw [if_pos rfl, netConnect_answers]
    exact ⟨fun hs => ⟨fun _ => hs, other (by decide), other (by decide), other (by decide),
      other (by decide)⟩, fun hs => hs.connect rfl⟩
  rw [if_neg hconnect]
  by_cases hsend : op = opNetSend
  · subst hsend
    rw [if_pos rfl, netSend_answers]
    exact ⟨fun hs => ⟨other (by decide), fun _ => hs, other (by decide), other (by decide),
      other (by decide)⟩, fun hs => hs.send rfl⟩
  rw [if_neg hsend]
  by_cases hrecv : op = opNetRecv
  · subst hrecv
    rw [if_pos rfl, netRecv_answers]
    exact ⟨fun hs => ⟨other (by decide), other (by decide), fun _ => hs, other (by decide),
      other (by decide)⟩, fun hs => hs.recv rfl⟩
  rw [if_neg hrecv]
  by_cases hclose : op = opNetClose
  · subst hclose
    rw [if_pos rfl, netClose_answers]
    exact ⟨fun hs => ⟨other (by decide), other (by decide), other (by decide), fun _ => hs,
      other (by decide)⟩, fun hs => hs.close rfl⟩
  rw [if_neg hclose]
  by_cases hframe : op = opNetGetFrame
  · subst hframe
    exact ⟨fun _ => safe_of (by decide), fun _ => h.netGetFrame_answers arg⟩
  rw [if_neg hframe]
  by_cases hready : op = opNetGetReady
  · subst hready
    rw [if_pos rfl, netGetReady_answers]
    exact ⟨fun hs => ⟨other (by decide), other (by decide), other (by decide), other (by decide),
      fun _ => hs⟩, fun hs => hs.ready rfl⟩
  rw [if_neg hready]
  exact ⟨fun _ => safe_of (by simp [hconnect, hsend, hrecv, hclose, hready]),
    fun _ => h.serveFile_answers op arg⟩

/-- The ring entries that a request publishes lie in an area. -/
def RingsIn (h : Host) (q : Virtio.Queues) (area : Set ℕ) (op arg : ℕ) : Prop :=
  Virtio.EntriesIn area q.rxAvail h.net.rxPosted (h.arms op arg) ∧
    Virtio.EntriesIn area q.txAvail h.net.txPosted (h.sends op arg)

/-- The host answers a request, with all writes of the driver in mapped memory, exactly when it is safe and
the ring entries that it publishes are mapped. A write elsewhere is a page fault, which ends the host. -/
theorem combinedService_answers_iff {q : Virtio.Queues} {area : Set ℕ} (hfix : q.FixedIn area) (h : Host)
    (req : UInt64) (hreq : opOf req ≠ opBye) :
    (∃ h' r, h.combinedService req = .ok (some h') ∧ h'.replies = h.replies ++ [r] ∧
      ∀ w ∈ q.writes h.net h'.net, w.Within area) ↔
      h.Safe (opOf req) (argOf req) ∧ h.RingsIn q area (opOf req) (argOf req) := by
  -- what a request posts decides where the driver writes, if it completes
  have hrings : ∀ {h'}, h.dispatch (opOf req) (argOf req) = .ok h' →
      ((∀ w ∈ q.writes h.net h'.net, w.Within area) ↔ h.RingsIn q area (opOf req) (argOf req)) :=
    fun hdispatch => Virtio.writes_in_iff hfix (dispatch_posts hdispatch)
  rw [← dispatch_answers, Answers, combinedService, if_neg hreq]
  constructor
  · rintro ⟨h', r, hx, hreplies, hwrites⟩
    obtain ⟨h'', hdispatch, hx⟩ := bind_eq_ok.mp hx
    obtain rfl := Option.some.inj (Except.ok.inj hx)
    exact ⟨⟨h'', r, hdispatch, hreplies⟩, (hrings hdispatch).mp hwrites⟩
  · rintro ⟨⟨h', r, hdispatch, hreplies⟩, hin⟩
    exact ⟨h', r, bind_eq_ok.mpr ⟨h', hdispatch, rfl⟩, hreplies, (hrings hdispatch).mpr hin⟩

/-! ## A host and its peers -/

/-- A frame with a TCP segment for the given port. -/
def segment (port seq : ℕ) (flags : UInt8) (payload : List UInt8) : ℕ → UInt8 := fun i =>
  (List.replicate 12 0 ++ [0x08, 0x00, 0x45, 0] ++ be16 (40 + payload.length) ++ List.replicate 5 0 ++
    [6] ++ List.replicate 12 0 ++ be16 port ++ be32 seq ++ List.replicate 5 0 ++ [flags] ++
    List.replicate 6 0 ++ payload).getD i 0

/-- A host that has just started, on a device that does what it is told and a card that receives the
given frames. -/
def booted (frames : List (ℕ → UInt8)) : Host where
  blk := (Fs.fsSetup ⟨fun _ => Fs.Sector.zero, fun _ => true, 0⟩).2
  net := ⟨fun _ => 0x52, fun k => frames[k - 3]?, 2, fun _ => true, 2, []⟩
  gmac := fun _ => 0x52
  socks := fun i => TcpState.new (UInt16.ofNat (portBase + i))
  shm := fun _ => some ⟨List.replicate Fs.pageBytes 0, List.length_replicate⟩
  pending := fun _ => false
  pendingLen := fun _ => 0
  replies := []
  notified := []

lemma starts_booted (frames : List (ℕ → UInt8)) : (booted frames).Starts := by
  have hsetup : (Fs.fsSetup ⟨fun _ => Fs.Sector.zero, fun _ => true, 0⟩).1 = true := by
    decide +kernel
  exact ⟨⟨_, Prod.ext hsetup rfl⟩, rfl, rfl, rfl, rfl, rfl⟩

/-- The request with this opcode, socket and argument. -/
def requestOf (op sock a : ℕ) : UInt64 := UInt64.ofNat (op * 2 ^ 56 + sock * 2 ^ sockShift + a)

/-- Socket 0 is connected to port 7 of some peer. -/
def connectEvents : List Event := [.request (requestOf opNetConnect 0 (7 * 2 ^ 32 + 0x0a000264))]

/-- On a connected socket, 64 bytes are sent and answered. -/
theorem combinedService_answers_iff_send :
    ∃ (ts : List (Transition Host Event (List Reply))) (h : Host), Run system ts h ∧
      ts.map Transition.event = connectEvents ∧ opOf (requestOf opNetSend 0 64) ≠ opBye ∧
      ∃ h' r, h.combinedService (requestOf opNetSend 0 64) = .ok (some h') ∧
        h'.replies = h.replies ++ [r] ∧
        ∀ w ∈ Virtio.bootQueues.writes h.net h'.net, w.Within Virtio.bootPages := by
  have hfacts : (system.replay (booted [segment portBase 99 (tcpSyn ||| tcpAck) []])
      connectEvents).map (fun r => (r.2.net.txPosted, (r.2.socks 0).ourSeq,
        r.2.arms opNetSend (argOf (requestOf opNetSend 0 64)),
        r.2.sends opNetSend (argOf (requestOf opNetSend 0 64)))) =
      some (4, 0x1000 + portBase + 1, 0, 1) := by decide +kernel
  obtain ⟨⟨ts, h⟩, hreplay, hfacts⟩ := Option.map_eq_some_iff.mp hfacts
  simp only [Prod.mk.injEq] at hfacts
  obtain ⟨htx, hseq, harms, hsends⟩ := hfacts
  have hrun : Run system ts h := (Run.start (starts_booted _)).append_replay hreplay
  refine ⟨ts, h, hrun, TransitionSystem.replay_events hreplay, by decide, ?_⟩
  have hop : opOf (requestOf opNetSend 0 64) = opNetSend := by decide
  refine (combinedService_answers_iff Virtio.bootQueues_fixedIn h _ (by decide)).mpr
    ⟨⟨?_, ?_, ?_, ?_, ?_⟩, ?_⟩
  · exact fun hop => absurd hop (by decide)
  · intro _ sock hsock _ _ _
    have hzero : sockOf (argOf (requestOf opNetSend 0 64)) = some 0 := by decide
    obtain rfl := Option.some.inj (hzero.symm.trans hsock)
    have harg : sockArg (argOf (requestOf opNetSend 0 64)) = 64 := by decide
    rw [harg, htx, hseq]
    exact ⟨le_rfl, by decide, fun _ => by decide⟩
  · exact fun hop => absurd hop (by decide)
  · exact fun hop => absurd hop (by decide)
  · exact fun hop => absurd hop (by decide)
  · rw [RingsIn, hop, harms, hsends, htx, Virtio.bootQueues_entriesIn.1, Virtio.bootQueues_entriesIn.2]
    exact ⟨.inl rfl, .inr (by decide)⟩

/-- On a connected socket, a request to send 65 bytes of the page is not answered: the frame has no room
for the last one. -/
theorem not_combinedService_answers :
    ∃ (ts : List (Transition Host Event (List Reply))) (h : Host), Run system ts h ∧
      ts.map Transition.event = connectEvents ∧ opOf (requestOf opNetSend 0 65) ≠ opBye ∧
      ¬ ∃ h' r, h.combinedService (requestOf opNetSend 0 65) = .ok (some h') ∧
        h'.replies = h.replies ++ [r] := by
  have hfacts : (system.replay (booted [segment portBase 99 (tcpSyn ||| tcpAck) []])
      connectEvents).map (fun r => ((r.2.socks 0).active, (r.2.shm 0).isSome)) =
      some (true, true) := by decide +kernel
  obtain ⟨⟨ts, h⟩, hreplay, hfacts⟩ := Option.map_eq_some_iff.mp hfacts
  obtain ⟨hactive, hshm⟩ := Prod.mk.inj hfacts
  have hrun : Run system ts h := (Run.start (starts_booted _)).append_replay hreplay
  refine ⟨ts, h, hrun, TransitionSystem.replay_events hreplay, by decide, ?_⟩
  rintro ⟨h', r, hx, hreplies⟩
  rw [combinedService, if_neg (by decide)] at hx
  obtain ⟨h'', hdispatch, hx⟩ := bind_eq_ok.mp hx
  obtain rfl := Option.some.inj (Except.ok.inj hx)
  have hsafe := ((dispatch_answers h _ _).mp ⟨h'', r, hdispatch, hreplies⟩).send (by decide)
  have hroom := (hsafe 0 (by decide) hshm hactive (by decide)).1
  exact absurd hroom (by decide)

end Host

end Xernel
