import Xernel.Delivery
import Xernel.Userland.Answers

/-!
# Whose reply it is

All processes have the same two endpoints: requests are sent on endpoint 0, and replies, which do not say
what they reply to, come back on endpoint 1. The service takes the requests in the order in which they
were sent, and answers them in this order; who gets the next answer is whoever receives next. It is the
client that asked only if the clients receive in the order in which they have sent.
-/

namespace Xernel
namespace Host

open Checked

variable {h h' : Host} {arg : ℕ} {word : ℕ}

/-! ## The reply to a request -/

/-- Handling a request sends one reply, with which at most the frame of a shared page goes along. Pages
come and go with the service only. -/
structure Replied (h h' : Host) (r : Reply) : Prop where
  replies : h'.replies = h.replies ++ [r]
  grant : r.grant = noCap ∨ ∃ sock : Fin 4, (h.shm sock).isSome ∧ r.grant = shmFrameSlot + sock
  shm : ∀ sock, (h'.shm sock).isSome = (h.shm sock).isSome

lemma replied_word (hreplies : h'.replies = h.replies)
    (hshm : ∀ sock, (h'.shm sock).isSome = (h.shm sock).isSome) :
    ∃ r, h.Replied (h'.ipcSend word noCap) r := by
  refine ⟨⟨word, noCap⟩, ?_, .inl rfl, hshm⟩
  rw [ipcSend, hreplies]

lemma foldl_take_shm (es : List (List UInt8)) (sock : Fin 4) : ∀ h : Host,
    ((es.foldl take h).shm sock).isSome = (h.shm sock).isSome := by
  induction es with
  | nil => exact fun h => rfl
  | cons e es ih =>
    intro h
    rw [List.foldl_cons, ih, (h.take_sock e sock).2.2]

lemma poll_shm {stop : List UInt8 → Bool} {fuel : ℕ} {r : Host × Option (List UInt8)}
    (hr : poll stop fuel h = .ok r) (sock : Fin 4) : (r.1.shm sock).isSome = (h.shm sock).isSome := by
  obtain ⟨hhost, -⟩ := poll_eq_ok fuel h r hr
  rw [hhost]
  exact foldl_take_shm _ sock h

lemma readfile_replied (hx : h.readfile arg = .ok h') : ∃ r, h.Replied h' r := by
  rw [readfile] at hx
  split at hx
  · obtain rfl := Except.ok.inj hx
    exact replied_word rfl fun _ => rfl
  next page hpage =>
    obtain ⟨⟨size, page', blk⟩, -, hx⟩ := bind_eq_ok.mp hx
    have hzero : (h.shm 0).isSome := by rw [hpage]; rfl
    have hshm : ∀ sock, ((Function.update h.shm 0 (some page')) sock).isSome = (h.shm sock).isSome := by
      intro sock
      by_cases hsock : sock = 0
      · rw [hsock, Function.update_self, hzero]
        rfl
      · rw [Function.update_of_ne hsock]
    cases size with
    | some n =>
      obtain rfl := Except.ok.inj hx
      exact ⟨⟨n, shmFrameSlot⟩, rfl, .inr ⟨0, hzero, rfl⟩, hshm⟩
    | none =>
      obtain rfl := Except.ok.inj hx
      exact replied_word rfl hshm

lemma netConnect_replied (hx : h.netConnect arg = .ok h') : ∃ r, h.Replied h' r := by
  rw [netConnect] at hx
  split at hx
  · obtain rfl := Except.ok.inj hx
    exact replied_word rfl fun _ => rfl
  · obtain ⟨⟨net, tcp, active⟩, -, hx⟩ := bind_eq_ok.mp hx
    obtain rfl := Except.ok.inj hx
    exact replied_word rfl fun _ => rfl

lemma netSend_replied (hx : h.netSend arg = .ok h') : ∃ r, h.Replied h' r := by
  rw [netSend] at hx
  split at hx
  · obtain rfl := Except.ok.inj hx
    exact replied_word rfl fun _ => rfl
  · dsimp only at hx
    split at hx
    · obtain ⟨⟨net, done⟩, -, hx⟩ := bind_eq_ok.mp hx
      dsimp only at hx
      split at hx
      · obtain ⟨seq, -, hx⟩ := bind_eq_ok.mp hx
        obtain rfl := Except.ok.inj hx
        exact replied_word rfl fun _ => rfl
      · obtain rfl := Except.ok.inj hx
        exact replied_word rfl fun _ => rfl
    · obtain rfl := Except.ok.inj hx
      exact replied_word rfl fun _ => rfl

lemma recvResult_shm {sock : Fin 4} {max : ℕ} (r : Host × Option (List UInt8)) :
    (recvResult sock max r).1.shm = r.1.shm := by
  rw [recvResult]
  split <;> rfl

lemma netRecv_replied (hx : h.netRecv arg = .ok h') : ∃ r, h.Replied h' r := by
  rw [netRecv] at hx
  dsimp only at hx
  split at hx
  · obtain rfl := Except.ok.inj hx
    exact replied_word rfl fun _ => rfl
  · split at hx
    · obtain rfl := Except.ok.inj hx
      exact replied_word rfl fun _ => rfl
    · rw [recvLoop_eq] at hx
      obtain ⟨r, hr, hx⟩ := bind_eq_ok.mp hx
      obtain ⟨q, hq, hr⟩ := bind_eq_ok.mp hr
      obtain rfl := Except.ok.inj hr
      obtain rfl := Except.ok.inj hx
      refine replied_word ((recvResult_replies q).trans (poll_replies hq)) fun sock => ?_
      rw [recvResult_shm, poll_shm hq]

lemma netClose_replied (hx : h.netClose arg = .ok h') : ∃ r, h.Replied h' r := by
  rw [netClose] at hx
  split at hx
  · obtain rfl := Except.ok.inj hx
    exact replied_word rfl fun _ => rfl
  · obtain ⟨⟨net, done⟩, -, hx⟩ := bind_eq_ok.mp hx
    obtain rfl := Except.ok.inj hx
    exact replied_word rfl fun _ => rfl

lemma netGetFrame_replied (hx : h.netGetFrame arg = .ok h') : ∃ r, h.Replied h' r := by
  rw [netGetFrame] at hx
  split at hx
  · obtain rfl := Except.ok.inj hx
    exact replied_word rfl fun _ => rfl
  next sock hsock =>
    obtain rfl := Except.ok.inj hx
    obtain ⟨-, hshm⟩ := Option.filter_eq_some_iff.mp hsock
    exact ⟨⟨Fs.pageBytes, shmFrameSlot + sock⟩, rfl, .inr ⟨sock, hshm, rfl⟩, fun _ => rfl⟩

lemma netGetReady_replied (hx : h.netGetReady = .ok h') : ∃ r, h.Replied h' r := by
  rw [netGetReady] at hx
  obtain ⟨⟨h₁, mask⟩, hloop, hx⟩ := bind_eq_ok.mp hx
  obtain rfl := Except.ok.inj hx
  by_cases hmask : readyMask h.pending = 0
  · rw [hmask, readyLoop_eq] at hloop
    obtain ⟨q, hq, hloop⟩ := bind_eq_ok.mp hloop
    obtain ⟨rfl, -⟩ := Prod.mk.inj (Except.ok.inj hloop)
    exact replied_word (poll_replies hq) (poll_shm hq)
  · rw [readyLoop_of_ne_zero hmask] at hloop
    obtain ⟨rfl, -⟩ := Prod.mk.inj (Except.ok.inj hloop)
    exact replied_word rfl fun _ => rfl

lemma serveFile_replied {op : ℕ} (hx : h.serveFile op arg = .ok h') : ∃ r, h.Replied h' r := by
  rw [serveFile] at hx
  obtain ⟨⟨reply, blk⟩, -, hx⟩ := bind_eq_ok.mp hx
  obtain rfl := Except.ok.inj hx
  exact replied_word rfl fun _ => rfl

/-- Every request that the service gets through is replied to once. -/
lemma combinedService_replied {req : UInt64} (hx : h.combinedService req = .ok (some h')) :
    ∃ r, h.Replied h' r := by
  rw [combinedService] at hx
  split at hx
  · cases hx
  obtain ⟨h₁, hdispatch, hx⟩ := bind_eq_ok.mp hx
  obtain rfl := Option.some.inj (Except.ok.inj hx)
  rw [dispatch] at hdispatch
  split at hdispatch
  · exact readfile_replied hdispatch
  split at hdispatch
  · exact netConnect_replied hdispatch
  split at hdispatch
  · exact netSend_replied hdispatch
  split at hdispatch
  · exact netRecv_replied hdispatch
  split at hdispatch
  · exact netClose_replied hdispatch
  split at hdispatch
  · exact netGetFrame_replied hdispatch
  split at hdispatch
  · exact netGetReady_replied hdispatch
  · exact serveFile_replied hdispatch

end Host

/-! ## Clients and service -/

/-- The service host, the kernel's endpoints and the clients. -/
structure Clients where
  /-- The service host, until it ends. -/
  host : Option Host
  /-- The capabilities of its process, which it sends along with replies. -/
  caps : ℕ → Option CapEntry
  ipc : Ipc
  /-- The clients that have sent a request, and not got a reply. -/
  waiting : ℕ → Bool

namespace Clients

/-- The two halves of `request`, a turn of the service, and a client that writes to a shared page. -/
inductive Event where
  | send (client : ℕ) (op arg : UInt64)
  | recv (client : ℕ)
  | serve
  | store (sock : Fin 4) (off : ℕ) (bytes : List UInt8)

/-- What `request` returns, and the request that is served with its replies. -/
inductive Output where
  | none
  | returned (word : ℕ)
  | served (req : UInt64) (replies : List Reply)
  deriving Repr, DecidableEq

/-- `(op << 56) | arg`. -/
def requestWord (op arg : UInt64) : UInt64 := op <<< 56 ||| arg

/-- `ipc_send(REPLY_EP_SLOT, word, grant)` of the service host, the result of which is ignored. -/
def sendReply (caps : ℕ → Option CapEntry) (c : Ipc) (r : Reply) : Ipc :=
  if r.grant = noCap then (c.send 1 (r.word, none)).getD c
  else
    match caps r.grant with
    | none => c
    | some cap => (c.send 1 (r.word, some cap)).getD c

/-- The service handles a request that it has taken from its endpoint. `OP_BYE` and a panic end it. The
bits that it raises are left out, as nobody waits for them here. -/
def serve (s : Clients) (h : Host) (req : UInt64) : Clients × Output :=
  match h.combinedService req with
  | .ok (some h') =>
    let replies := h'.replies.drop h.replies.length
    ({ s with host := some h', ipc := replies.foldl (sendReply s.caps) s.ipc }, .served req replies)
  | _ => ({ s with host := none }, .served req [])

/-- Any number of clients and the service, in any order. A `RECV` from an empty endpoint blocks. The
service sends a frame along only if it has one. -/
def system : TransitionSystem Clients Event Output where
  init s :=
    (∃ h, s.host = some h ∧ h.Starts ∧
      ∀ sock : Fin 4, (h.shm sock).isSome → (s.caps (shmFrameSlot + sock)).isSome) ∧
    s.ipc.endpoints 0 = [] ∧ s.ipc.endpoints 1 = [] ∧ ∀ c, s.waiting c = false
  step s ev :=
    match ev with
    | .send c op arg =>
      if s.waiting c then none
      else (s.ipc.send 0 ((requestWord op arg).toNat, none)).map fun ipc =>
        ({ s with ipc, waiting := Function.update s.waiting c true }, .none)
    | .recv c =>
      if s.waiting c then (s.ipc.tryRecv 1).map fun r =>
        ({ s with ipc := r.2, waiting := Function.update s.waiting c false }, .returned r.1.1)
      else none
    | .serve =>
      match s.host, s.ipc.tryRecv 0 with
      | some h, some (msg, ipc) => some ({ s with ipc }.serve h (UInt64.ofNat msg.1))
      | _, _ => none
    | .store sock off bytes =>
      match s.host with
      | none => none
      | some h => (Host.system.step h (.store sock off bytes)).map fun r =>
        ({ s with host := some r.1 }, .none)

abbrev Step := Transition Clients Event Output

variable {s s' : Clients} {ts a b : List Step} {t : Step} {c : ℕ} {out : Output}

/-! ## Histories -/

def sentIn (t : Step) : Option (ℕ × UInt64) :=
  match t.event with
  | .send c op arg => some (c, requestWord op arg)
  | _ => none

def handledIn (t : Step) : Option (UInt64 × List Reply) :=
  match t.out with
  | .served req replies => some (req, replies)
  | _ => none

def returnedIn (t : Step) : Option (ℕ × ℕ) :=
  match t.event, t.out with
  | .recv c, .returned word => some (c, word)
  | _, _ => none

/-- The requests sent, oldest first, and by whom. -/
def sent (ts : List Step) : List (ℕ × UInt64) := ts.filterMap sentIn

/-- The requests handled by the service, oldest first, and the replies it computed for each. -/
def handled (ts : List Step) : List (UInt64 × List Reply) := ts.filterMap handledIn

/-- The calls of `request` that have returned, oldest first, with what they returned to whom. -/
def returned (ts : List Step) : List (ℕ × ℕ) := ts.filterMap returnedIn

/-- The words of the replies. -/
def answers (ts : List Step) : List ℕ := (handled ts).flatMap fun x => x.2.map Reply.word

/-- The request with this number is the last one that the client has sent. -/
def LastSent (ts : List Step) (c k : ℕ) (req : UInt64) : Prop :=
  (sent ts)[k]? = some (c, req) ∧ ∀ j req', k < j → (sent ts)[j]? ≠ some (c, req')

/-- The word is the reply computed for the client's own request, the last one that it has sent. -/
def OwnReply (ts : List Step) (c word : ℕ) : Prop :=
  ∃ k req grant, LastSent ts c k req ∧ (handled ts)[k]? = some (req, [⟨word, grant⟩])

/-- It is the client's turn to receive: of the requests that have not returned, its own is the oldest. -/
def InTurn (ts : List Step) (c : ℕ) : Prop :=
  ((sent ts)[(returned ts).length]?).map Prod.fst = some c

/-- All clients receive when it is their turn. -/
def InTurns (ts : List Step) : Prop :=
  ∀ k t c, ts[k]? = some t → t.event = .recv c → InTurn (ts.take k) c

/-! ## Steps -/

/-- The words on the request endpoint. -/
def requests (s : Clients) : List UInt64 := (s.ipc.endpoints 0).map fun m => UInt64.ofNat m.1

/-- The words on the reply endpoint. -/
def replies (s : Clients) : List ℕ := (s.ipc.endpoints 1).map Prod.fst

/-- The service holds a frame for each page that it has. -/
def HoldsFrames (s : Clients) : Prop :=
  ∀ h, s.host = some h → ∀ sock : Fin 4, (h.shm sock).isSome → (s.caps (shmFrameSlot + sock)).isSome

lemma send_step {op arg : UInt64} (hs : system.step s (.send c op arg) = some (s', out)) :
    s.waiting c = false ∧ out = .none ∧ s'.host = s.host ∧ s'.caps = s.caps ∧
      s'.requests = s.requests ++ [requestWord op arg] ∧ s'.replies = s.replies ∧
      s'.waiting = Function.update s.waiting c true := by
  simp only [system] at hs
  split at hs
  · cases hs
  next hwaiting =>
    obtain ⟨ipc, hsend, heq⟩ := Option.map_eq_some_iff.mp hs
    obtain ⟨rfl, rfl⟩ := Prod.mk.inj heq
    obtain ⟨-, hqueue, hother, -⟩ := Ipc.send_eq_some hsend
    refine ⟨eq_false_of_ne_true hwaiting, rfl, rfl, rfl, ?_, ?_, rfl⟩
    · unfold requests
      rw [hqueue, List.map_append]
      simp
    · unfold replies
      rw [hother 1 (by decide)]

lemma recv_step (hs : system.step s (.recv c) = some (s', out)) :
    ∃ word, s.waiting c = true ∧ out = .returned word ∧ s'.host = s.host ∧ s'.caps = s.caps ∧
      s'.requests = s.requests ∧ s.replies = word :: s'.replies ∧
      s'.waiting = Function.update s.waiting c false := by
  simp only [system] at hs
  split at hs
  next hwaiting =>
    obtain ⟨⟨msg, ipc⟩, hrecv, heq⟩ := Option.map_eq_some_iff.mp hs
    obtain ⟨rfl, rfl⟩ := Prod.mk.inj heq
    obtain ⟨hqueue, hother, -⟩ := Ipc.tryRecv_eq_some hrecv
    refine ⟨msg.1, hwaiting, rfl, rfl, rfl, ?_, ?_, rfl⟩
    · unfold requests
      rw [hother 0 (by decide)]
    · unfold replies
      rw [hqueue]
      rfl
  · cases hs

lemma store_step {sock : Fin 4} {off : ℕ} {bytes : List UInt8} (hframes : s.HoldsFrames)
    (hs : system.step s (.store sock off bytes) = some (s', out)) :
    out = .none ∧ s'.host.isSome = s.host.isSome ∧ s'.HoldsFrames ∧ s'.ipc = s.ipc ∧
      s'.waiting = s.waiting := by
  simp only [system] at hs
  split at hs
  · cases hs
  next h hhost =>
    obtain ⟨⟨h', replies⟩, hstore, heq⟩ := Option.map_eq_some_iff.mp hs
    obtain ⟨rfl, rfl⟩ := Prod.mk.inj heq
    refine ⟨rfl, by rw [hhost]; rfl, fun h₁ hh₁ i hi => ?_, rfl, rfl⟩
    obtain rfl := Option.some.inj hh₁
    refine hframes h hhost i ?_
    simp only [Host.system] at hstore
    split at hstore
    · cases hstore
    next page hpage =>
      split at hstore
      · obtain ⟨rfl, -⟩ := Prod.mk.inj (Option.some.inj hstore)
        by_cases hsock : i = sock
        · rw [hsock, hpage]
          rfl
        · simpa [Host.setShm, hsock] using hi
      · cases hstore

/-- A reply whose frame the service holds gets to the reply endpoint. -/
lemma sendReply_queued {caps : ℕ → Option CapEntry} {r : Reply}
    (hgrant : r.grant = noCap ∨ (caps r.grant).isSome) (ipc : Ipc) :
    ((sendReply caps ipc r).endpoints 1).map Prod.fst = (ipc.endpoints 1).map Prod.fst ++ [r.word] ∧
      (sendReply caps ipc r).endpoints 0 = ipc.endpoints 0 := by
  unfold sendReply
  split
  · simp [Ipc.send, numEndpoints]
  next hne =>
    obtain ⟨cap, hcap⟩ := Option.isSome_iff_exists.mp (hgrant.resolve_left hne)
    rw [hcap]
    simp [Ipc.send, numEndpoints]

/-- A turn of the service: one reply, unless the service ends. -/
lemma serve_step (hframes : s.HoldsFrames) (hs : system.step s .serve = some (s', out)) :
    ∃ req rs, out = .served req rs ∧ s.host.isSome ∧ s.requests = req :: s'.requests ∧
      s'.replies = s.replies ++ rs.map Reply.word ∧ s'.waiting = s.waiting ∧ s'.HoldsFrames ∧
      ((∃ r, rs = [r]) ∨ rs = [] ∧ s'.host = none) := by
  simp only [system] at hs
  split at hs
  next h msg ipc hhost hrecv =>
    obtain ⟨hqueue, hother, -⟩ := Ipc.tryRecv_eq_some hrecv
    have hrequests : s.requests =
        UInt64.ofNat msg.1 :: (ipc.endpoints 0).map fun m => UInt64.ofNat m.1 := by
      unfold requests
      rw [hqueue]
      rfl
    have hreplies : (ipc.endpoints 1).map Prod.fst = s.replies := by
      rw [hother 1 (by decide)]
      rfl
    have hsome : s.host.isSome := by rw [hhost]; rfl
    have hserve := Option.some.inj hs
    unfold serve at hserve
    split at hserve
    next h' hx =>
      obtain ⟨rfl, rfl⟩ := Prod.mk.inj hserve
      -- the service goes on, and has sent one reply
      obtain ⟨r, hr⟩ := Host.combinedService_replied hx
      have hgrant : r.grant = noCap ∨ (s.caps r.grant).isSome := by
        refine hr.grant.imp_right ?_
        rintro ⟨sock, hsock, heq⟩
        rw [heq]
        exact hframes h hhost sock hsock
      have hnew : h'.replies.drop h.replies.length = [r] := by
        rw [hr.replies]
        exact List.drop_left
      obtain ⟨hqueued, hrest⟩ := sendReply_queued hgrant ipc
      refine ⟨_, [r], by rw [hnew], hsome, ?_, ?_, rfl, ?_, .inl ⟨r, rfl⟩⟩
      · unfold requests at hrequests ⊢
        dsimp only
        rw [hnew, List.foldl_cons, List.foldl_nil, hrest]
        exact hrequests
      · unfold replies at hreplies ⊢
        dsimp only
        rw [hnew, List.foldl_cons, List.foldl_nil, hqueued, hreplies]
        rfl
      · intro h₁ hh₁ sock hsock
        obtain rfl := Option.some.inj hh₁
        rw [hr.shm] at hsock
        exact hframes h hhost sock hsock
    next =>
      obtain ⟨rfl, rfl⟩ := Prod.mk.inj hserve
      refine ⟨_, [], rfl, hsome, hrequests, ?_, rfl, ?_, .inr ⟨rfl, rfl⟩⟩
      · rw [List.map_nil, List.append_nil]
        exact hreplies
      · intro h₁ hh₁
        cases hh₁
  next => cases hs

/-! ## Runs -/

lemma sent_snoc (ts : List Step) (t : Step) : sent (ts ++ [t]) = sent ts ++ (sentIn t).toList :=
  filterMap_snoc _ _ _

lemma returned_snoc (ts : List Step) (t : Step) :
    returned (ts ++ [t]) = returned ts ++ (returnedIn t).toList :=
  filterMap_snoc _ _ _

/-- What a step adds to the histories. -/
lemma histories_snoc (ts : List Step) (t : Step) :
    sent (ts ++ [t]) = sent ts ++ (sentIn t).toList ∧
    handled (ts ++ [t]) = handled ts ++ (handledIn t).toList ∧
    returned (ts ++ [t]) = returned ts ++ (returnedIn t).toList ∧
    answers (ts ++ [t]) =
      answers ts ++ (handledIn t).toList.flatMap fun x => x.2.map Reply.word := by
  have hhandled : handled (ts ++ [t]) = handled ts ++ (handledIn t).toList := filterMap_snoc _ _ _
  refine ⟨sent_snoc ts t, hhandled, returned_snoc ts t, ?_⟩
  unfold answers
  rw [hhandled, List.flatMap_append]

/-- Requests and replies are queued in order. What was sent is what was handled and then what is on the
request endpoint; what was answered is what was returned and then what is on the reply endpoint. -/
structure Orderly (ts : List Step) (s : Clients) : Prop where
  requests : (sent ts).map Prod.snd = (handled ts).map Prod.fst ++ s.requests
  replies : answers ts = (returned ts).map Prod.snd ++ s.replies
  -- as long as the service lives, replies are numbered as requests are
  each : s.host.isSome → (answers ts).length = (handled ts).length
  answered : ∀ k word : ℕ, (answers ts)[k]? = some word →
    ∃ req grant, (handled ts)[k]? = some (req, [⟨word, grant⟩])
  waiting : ∀ c, ((sent ts).map Prod.fst).count c =
    ((returned ts).map Prod.fst).count c + (s.waiting c).toNat
  frames : s.HoldsFrames

lemma orderly_start (hinit : system.init s) : Orderly [] s := by
  obtain ⟨⟨h, hhost, -, hframes⟩, hrequests, hreplies, hwaiting⟩ := hinit
  refine ⟨?_, ?_, fun _ => rfl, ?_, fun c => ?_, ?_⟩
  · unfold Clients.requests
    rw [hrequests]
    rfl
  · unfold Clients.replies
    rw [hreplies]
    rfl
  · intro k word hk
    cases hk
  · rw [hwaiting]
    rfl
  · intro h' hh'
    obtain rfl := Option.some.inj (hhost.symm.trans hh')
    exact hframes

lemma Orderly.send {op arg : UInt64} (ho : Orderly ts s)
    (hs : system.step s (.send c op arg) = some (s', out)) :
    Orderly (ts ++ [⟨s, .send c op arg, out, s'⟩]) s' := by
  obtain ⟨hidle, rfl, hhost, hcaps, hrequests, hreplies, hwaiting⟩ := send_step hs
  obtain ⟨hsent, hhandled, hreturned, hanswers⟩ :=
    histories_snoc ts ⟨s, .send c op arg, .none, s'⟩
  simp only [sentIn, handledIn, returnedIn, Option.toList_none, Option.toList_some, List.append_nil,
    List.flatMap_nil] at hsent hhandled hreturned hanswers
  refine ⟨?_, ?_, ?_, ?_, fun d => ?_, ?_⟩
  · rw [hsent, hhandled, hrequests, List.map_append, ho.requests, List.append_assoc]
    rfl
  · rw [hanswers, hreturned, hreplies, ho.replies]
  · rw [hanswers, hhandled, hhost]
    exact ho.each
  · rw [hanswers, hhandled]
    exact ho.answered
  · rw [hsent, hreturned, hwaiting, List.map_append, List.count_append, ho.waiting d]
    by_cases hd : d = c
    · simp [hd, hidle]
    · have hne : c ≠ d := fun heq => hd heq.symm
      simp [hd, hne]
  · unfold HoldsFrames
    rw [hhost, hcaps]
    exact ho.frames

lemma Orderly.recv (ho : Orderly ts s) (hs : system.step s (.recv c) = some (s', out)) :
    Orderly (ts ++ [⟨s, .recv c, out, s'⟩]) s' := by
  obtain ⟨word, hwaits, rfl, hhost, hcaps, hrequests, hreplies, hwaiting⟩ := recv_step hs
  obtain ⟨hsent, hhandled, hreturned, hanswers⟩ :=
    histories_snoc ts ⟨s, .recv c, .returned word, s'⟩
  simp only [sentIn, handledIn, returnedIn, Option.toList_none, Option.toList_some, List.append_nil,
    List.flatMap_nil] at hsent hhandled hreturned hanswers
  refine ⟨?_, ?_, ?_, ?_, fun d => ?_, ?_⟩
  · rw [hsent, hhandled, hrequests, ho.requests]
  · rw [hanswers, hreturned, ho.replies, hreplies, List.map_append, List.append_assoc]
    rfl
  · rw [hanswers, hhandled, hhost]
    exact ho.each
  · rw [hanswers, hhandled]
    exact ho.answered
  · rw [hsent, hreturned, hwaiting, List.map_append, List.count_append, ho.waiting d]
    by_cases hd : d = c
    · simp [hd, hwaits]
    · have hne : c ≠ d := fun heq => hd heq.symm
      simp [hd, hne]
  · unfold HoldsFrames
    rw [hhost, hcaps]
    exact ho.frames

lemma Orderly.serve (ho : Orderly ts s) (hs : system.step s .serve = some (s', out)) :
    Orderly (ts ++ [⟨s, .serve, out, s'⟩]) s' := by
  obtain ⟨req, rs, rfl, hsome, hrequests, hreplies, hwaiting, hframes, hrs⟩ := serve_step ho.frames hs
  obtain ⟨hsent, hhandled, hreturned, hanswers⟩ :=
    histories_snoc ts ⟨s, .serve, .served req rs, s'⟩
  simp only [sentIn, handledIn, returnedIn, Option.toList_none, Option.toList_some, List.append_nil,
    List.flatMap_cons, List.flatMap_nil] at hsent hhandled hreturned hanswers
  have heach := ho.each hsome
  refine ⟨?_, ?_, ?_, ?_, fun d => ?_, hframes⟩
  · rw [hsent, hhandled, ho.requests, hrequests, List.map_append, List.append_assoc]
    rfl
  · rw [hanswers, hreturned, ho.replies, hreplies, List.append_assoc]
  · intro hsome'
    rcases hrs with ⟨r, rfl⟩ | ⟨-, hend⟩
    · rw [hanswers, hhandled, List.length_append, List.length_append, heach]
      rfl
    · rw [hend] at hsome'
      cases hsome'
  · intro k word hk
    rcases hrs with ⟨r, rfl⟩ | ⟨rfl, -⟩
    · rw [hanswers] at hk
      rw [hhandled]
      by_cases hlt : k < (answers ts).length
      · rw [List.getElem?_append_left hlt] at hk
        rw [List.getElem?_append_left (by omega)]
        exact ho.answered k word hk
      · -- the new answer has the number of the request just handled
        obtain rfl : k = (answers ts).length := by
          obtain ⟨hlt', -⟩ := List.getElem?_eq_some_iff.mp hk
          simp only [List.length_append, List.map_cons, List.map_nil, List.length_singleton] at hlt'
          omega
        rw [List.getElem?_append_right le_rfl, Nat.sub_self] at hk
        rw [List.getElem?_append_right (by omega), heach, Nat.sub_self]
        obtain rfl := Option.some.inj hk
        exact ⟨req, r.grant, rfl⟩
    · rw [hanswers, List.map_nil, List.append_nil] at hk
      obtain ⟨req', grant, hget⟩ := ho.answered k word hk
      refine ⟨req', grant, ?_⟩
      rw [hhandled, List.getElem?_append_left (List.getElem?_eq_some_iff.mp hget).1]
      exact hget
  · rw [hsent, hreturned, hwaiting]
    exact ho.waiting d

lemma Orderly.store {sock : Fin 4} {off : ℕ} {bytes : List UInt8} (ho : Orderly ts s)
    (hs : system.step s (.store sock off bytes) = some (s', out)) :
    Orderly (ts ++ [⟨s, .store sock off bytes, out, s'⟩]) s' := by
  obtain ⟨rfl, hhost, hframes, hipc, hwaiting⟩ := store_step ho.frames hs
  obtain ⟨hsent, hhandled, hreturned, hanswers⟩ :=
    histories_snoc ts ⟨s, .store sock off bytes, .none, s'⟩
  simp only [sentIn, handledIn, returnedIn, Option.toList_none, List.append_nil,
    List.flatMap_nil] at hsent hhandled hreturned hanswers
  refine ⟨?_, ?_, ?_, ?_, ?_, hframes⟩
  · rw [hsent, hhandled, ho.requests, Clients.requests, Clients.requests, hipc]
  · rw [hanswers, hreturned, ho.replies, Clients.replies, Clients.replies, hipc]
  · rw [hanswers, hhandled, hhost]
    exact ho.each
  · rw [hanswers, hhandled]
    exact ho.answered
  · rw [hsent, hreturned, hwaiting]
    exact ho.waiting

lemma orderly (h : Run system ts s) : Orderly ts s := by
  induction h with
  | start hinit => exact orderly_start hinit
  | @next ts s s' e o hrun hs ih =>
    cases e with
    | send c op arg => exact ih.send hs
    | recv c => exact ih.recv hs
    | serve => exact ih.serve hs
    | store sock off bytes => exact ih.store hs

/-- Whoever receives gets the reply to the oldest request that has not returned. -/
lemma recv_oldest (h : Run system ts s) (hs : system.step s (.recv c) = some (s', out)) :
    ∃ d req word grant, out = .returned word ∧ (sent ts)[(returned ts).length]? = some (d, req) ∧
      (handled ts)[(returned ts).length]? = some (req, [⟨word, grant⟩]) := by
  have ho := orderly h
  obtain ⟨word, -, rfl, -, -, -, hreplies, -⟩ := recv_step hs
  have hanswer : (answers ts)[(returned ts).length]? = some word := by
    rw [ho.replies, hreplies, List.getElem?_append_right (by rw [List.length_map]), List.length_map,
      Nat.sub_self]
    rfl
  obtain ⟨req, grant, hhandled⟩ := ho.answered _ _ hanswer
  have hreq : ((sent ts).map Prod.snd)[(returned ts).length]? = some req := by
    have hlt : (returned ts).length < ((handled ts).map Prod.fst).length := by
      rw [List.length_map]
      exact (List.getElem?_eq_some_iff.mp hhandled).1
    rw [ho.requests, List.getElem?_append_left hlt, List.getElem?_map, hhandled]
    rfl
  rw [List.getElem?_map] at hreq
  obtain ⟨⟨d, req'⟩, hsent, heq⟩ := Option.map_eq_some_iff.mp hreq
  obtain rfl : req' = req := heq
  exact ⟨d, req', word, grant, rfl, hsent, hhandled⟩

lemma InTurns.take (hturn : InTurns ts) (k : ℕ) : InTurns (ts.take k) := by
  intro j u c hj hu
  have hlt : j < k := by
    have hlen := (List.getElem?_eq_some_iff.mp hj).1
    rw [List.length_take] at hlen
    omega
  rw [List.getElem?_take_of_lt hlt] at hj
  rw [List.take_take, min_eq_left hlt.le]
  exact hturn j u c hj hu

lemma inTurns_of_snoc (hturn : InTurns (ts ++ [t])) :
    InTurns ts ∧ ∀ c, t.event = .recv c → InTurn ts c := by
  constructor
  · have hturns := hturn.take ts.length
    rw [List.take_left] at hturns
    exact hturns
  · intro c ht
    have hin := hturn ts.length t c List.getElem?_concat_length ht
    rw [List.take_left] at hin
    exact hin

/-- If all receive in turn, calls return in the order in which they were made. -/
lemma returned_prefix (h : Run system ts s) (hturn : InTurns ts) :
    (returned ts).map Prod.fst <+: (sent ts).map Prod.fst := by
  induction h with
  | start => exact List.nil_prefix
  | @next ts s s' e o hrun hs ih =>
    obtain ⟨hturns, hin⟩ := inTurns_of_snoc hturn
    have hprefix := ih hturns
    rw [returned_snoc, sent_snoc]
    cases e with
    | recv c =>
      obtain ⟨word, -, rfl, -⟩ := recv_step hs
      have hnext : InTurn ts c := hin c rfl
      unfold InTurn at hnext
      rw [← List.getElem?_map] at hnext
      obtain ⟨rest, hrest⟩ := hprefix
      rw [← hrest, List.getElem?_append_right (by rw [List.length_map]), List.length_map,
        Nat.sub_self] at hnext
      simp only [returnedIn, sentIn, Option.toList_some, Option.toList_none, List.append_nil,
        List.map_append]
      rw [← hrest, List.prefix_append_right_inj]
      cases rest with
      | nil => cases hnext
      | cons d rest =>
        obtain rfl : d = c := Option.some.inj hnext
        exact ⟨rest, rfl⟩
    | send c op arg =>
      simp only [returnedIn, sentIn, Option.toList_some, Option.toList_none, List.append_nil,
        List.map_append]
      exact hprefix.trans (List.prefix_append _ _)
    | serve =>
      simp only [returnedIn, sentIn, Option.toList_none, List.append_nil]
      exact hprefix
    | store sock off bytes =>
      simp only [returnedIn, sentIn, Option.toList_none, List.append_nil]
      exact hprefix

/-- A client waits for one reply at a time, so the oldest request that has not returned is the last one
of the client that sent it. -/
lemma lastSent_of_inTurn {req : UInt64} (h : Run system ts s) (hturn : InTurns ts)
    (hwaiting : s.waiting c = true) (hsent : (sent ts)[(returned ts).length]? = some (c, req)) :
    LastSent ts c (returned ts).length req := by
  refine ⟨hsent, fun j req' hj hlater => ?_⟩
  obtain ⟨rest, hrest⟩ := returned_prefix h hturn
  have hcount := (orderly h).waiting c
  rw [← hrest, List.count_append, hwaiting, Bool.toNat_true, Nat.add_left_cancel_iff] at hcount
  -- the request itself is at the head of the rest, a later one would be the second
  have hget : ∀ k d req, (returned ts).length ≤ k → (sent ts)[k]? = some (d, req) →
      rest[k - (returned ts).length]? = some d := by
    intro k d req hk hd
    have hmap : ((sent ts).map Prod.fst)[k]? = some d := by
      rw [List.getElem?_map, hd]
      rfl
    rw [← hrest, List.getElem?_append_right (by rw [List.length_map]; exact hk), List.length_map] at hmap
    exact hmap
  have hhead := hget _ _ _ le_rfl hsent
  have htail := hget _ _ _ hj.le hlater
  rw [Nat.sub_self] at hhead
  cases rest with
  | nil => cases hhead
  | cons d rest =>
    obtain rfl : d = c := Option.some.inj hhead
    obtain ⟨i, hi⟩ : ∃ i, j - (returned ts).length = i + 1 := ⟨j - (returned ts).length - 1, by omega⟩
    rw [hi, List.getElem?_cons_succ] at htail
    rw [List.count_cons_self] at hcount
    have hnone : d ∉ rest := List.count_eq_zero.mp (by omega)
    exact hnone (List.mem_of_getElem? htail)

/-- In every run, a call of `request` returns the reply to the oldest request that has not returned,
whoever sent that. As long as all clients receive in turn, it is the reply to their own request. -/
theorem request_own_reply (h : Run system ts s) :
    (∀ k t c, ts[k]? = some t → t.event = .recv c →
      ∃ d req word grant, t.out = .returned word ∧
        (sent (ts.take k))[(returned (ts.take k)).length]? = some (d, req) ∧
        (handled (ts.take k))[(returned (ts.take k)).length]? = some (req, [⟨word, grant⟩])) ∧
    (InTurns ts → ∀ k t c word, ts[k]? = some t → t.event = .recv c → t.out = .returned word →
      OwnReply (ts.take k) c word) := by
  have hcut : ∀ {k t}, ts[k]? = some t →
      Run system (ts.take k) t.pre ∧ system.step t.pre t.event = some (t.post, t.out) := by
    intro k t hk
    obtain ⟨hlt, rfl⟩ := List.getElem?_eq_some_iff.mp hk
    have hts : ts = ts.take k ++ ts[k] :: ts.drop (k + 1) := by simp
    obtain ⟨hrun, hs, -⟩ := h.split hts
    exact ⟨hrun, hs⟩
  refine ⟨fun k t c hk ht => ?_, fun hturn k t c word hk ht hout => ?_⟩
  · obtain ⟨hrun, hs⟩ := hcut hk
    rw [ht] at hs
    exact recv_oldest hrun hs
  · obtain ⟨hrun, hs⟩ := hcut hk
    rw [ht] at hs
    obtain ⟨d, req, word', grant, hword, hsent, hhandled⟩ := recv_oldest hrun hs
    obtain rfl : word = word' := Output.returned.inj (hout.symm.trans hword)
    obtain ⟨-, hwaiting, -⟩ := recv_step hs
    obtain rfl : d = c := by
      have hin := hturn k t c hk ht
      rw [InTurn, hsent] at hin
      exact Option.some.inj hin
    exact ⟨_, req, grant, lastSent_of_inTurn hrun (hturn.take k) hwaiting hsent, hhandled⟩

/-- The client that receives. -/
def Event.receiver : Event → Option ℕ
  | .recv c => some c
  | _ => none

instance (ts : List Step) (c : ℕ) : Decidable (InTurn ts c) :=
  inferInstanceAs (Decidable (((sent ts)[(returned ts).length]?).map Prod.fst = some c))

/-- `InTurns`, checked step by step. -/
def inTurns (ts : List Step) : Bool :=
  (List.range ts.length).all fun k =>
    ((ts[k]?).bind fun t => t.event.receiver).all fun c => decide (InTurn (ts.take k) c)

lemma inTurns_of_check (hcheck : inTurns ts = true) : InTurns ts := by
  intro k t c hk ht
  have hlt : k < ts.length := (List.getElem?_eq_some_iff.mp hk).1
  have hstep := List.all_eq_true.mp hcheck k (List.mem_range.mpr hlt)
  rw [hk, Option.bind_some, ht] at hstep
  exact of_decide_eq_true hstep

/-- The service has started, and no client has sent anything yet. -/
def started : Clients where
  host := some (Host.booted [])
  caps := fun _ => some (.frame 0x200000 1)
  ipc := ⟨fun _ => [], fun _ => 0⟩
  waiting := fun _ => false

lemma init_started : system.init started :=
  ⟨⟨_, rfl, Host.starts_booted _, fun _ _ => rfl⟩, rfl, rfl, fun _ => rfl⟩

/-- Client 0 asks for the number of files and client 1 for the size of the first one; both requests are
served. -/
def askBoth : List Event :=
  [.send 0 (UInt64.ofNat opNfiles) 0, .send 1 (UInt64.ofNat opFsize) 0, .serve, .serve]

/-- If client 0 receives first, it gets the number of files, and client 1 the size. -/
theorem request_own_reply_two :
    ∃ ts s, Run system ts s ∧ ts.map Transition.event = askBoth ++ [.recv 0, .recv 1] ∧ InTurns ts ∧
      returned ts = [(0, 2), (1, 19)] ∧ OwnReply (ts.take 4) 0 2 ∧ OwnReply (ts.take 5) 1 19 := by
  have hfacts : (system.replay started (askBoth ++ [.recv 0, .recv 1])).map (fun r =>
      (inTurns r.1, returned r.1, (r.1[4]?).map Transition.out, (r.1[5]?).map Transition.out)) =
      some (true, [(0, 2), (1, 19)], some (.returned 2), some (.returned 19)) := by decide +kernel
  obtain ⟨⟨ts, s⟩, hreplay, hfacts⟩ := Option.map_eq_some_iff.mp hfacts
  simp only [Prod.mk.injEq] at hfacts
  obtain ⟨hcheck, hreturned, h4, h5⟩ := hfacts
  have hrun : Run system ts s := (Run.start init_started).append_replay hreplay
  have hevents : ts.map Transition.event = askBoth ++ [.recv 0, .recv 1] :=
    TransitionSystem.replay_events hreplay
  have hevent : ∀ (k : ℕ) (t : Step), ts[k]? = some t →
      (askBoth ++ [.recv 0, .recv 1])[k]? = some t.event := by
    intro k t hk
    rw [← hevents, List.getElem?_map, hk]
    rfl
  obtain ⟨t, ht, hout⟩ := Option.map_eq_some_iff.mp h4
  obtain ⟨u, hu, hout'⟩ := Option.map_eq_some_iff.mp h5
  have hturn := inTurns_of_check hcheck
  refine ⟨ts, s, hrun, hevents, hturn, hreturned, ?_, ?_⟩
  · exact (request_own_reply hrun).2 hturn 4 t 0 2 ht (Option.some.inj (hevent 4 t ht)).symm hout
  · exact (request_own_reply hrun).2 hturn 5 u 1 19 hu (Option.some.inj (hevent 5 u hu)).symm hout'

/-- If client 1 receives first, it gets the number of files for the size that it has asked for. -/
theorem not_request_own_reply :
    ∃ ts s t, Run system ts s ∧ ts.map Transition.event = askBoth ++ [.recv 1] ∧ ts[4]? = some t ∧
      t.event = .recv 1 ∧ t.out = .returned 2 ∧ ¬ OwnReply (ts.take 4) 1 2 := by
  have hfacts : (system.replay started (askBoth ++ [.recv 1])).map (fun r =>
      ((r.1[4]?).map Transition.out, sent (r.1.take 4), handled (r.1.take 4))) =
      some (some (.returned 2), [(0, requestWord 1 0), (1, requestWord 2 0)],
        [(requestWord 1 0, [⟨2, noCap⟩]), (requestWord 2 0, [⟨19, noCap⟩])]) := by decide +kernel
  obtain ⟨⟨ts, s⟩, hreplay, hfacts⟩ := Option.map_eq_some_iff.mp hfacts
  simp only [Prod.mk.injEq] at hfacts
  obtain ⟨h4, hsent, hhandled⟩ := hfacts
  obtain ⟨t, ht, hout⟩ := Option.map_eq_some_iff.mp h4
  have hevents : ts.map Transition.event = askBoth ++ [.recv 1] := TransitionSystem.replay_events hreplay
  have hevent : (askBoth ++ [.recv 1])[4]? = some t.event := by
    rw [← hevents, List.getElem?_map, ht]
    rfl
  refine ⟨ts, s, t, (Run.start init_started).append_replay hreplay, hevents, ht,
    (Option.some.inj hevent).symm, hout, ?_⟩
  rintro ⟨k, req, grant, ⟨hk, -⟩, hword⟩
  rw [hsent] at hk
  rw [hhandled] at hword
  -- the request of client 1 is the second one, and the reply to it is not 2
  rcases k with _ | _ | k
  · cases hk
  · cases hword
  · cases hk

/-! ## The system calls behind it -/

/-- All processes start with the same two endpoints. -/
lemma seedCaps_endpoints (pid : ℕ) :
    (seedCaps pid).get epSlot = .ok (.endpoint 0) ∧
      (seedCaps pid).get replyEpSlot = .ok (.endpoint 1) := by
  unfold seedCaps
  dsimp only
  split
  · exact ⟨rfl, rfl⟩
  · exact ⟨rfl, rfl⟩

section Kernel

variable {k : Kernel}

lemma currentEndpointId_eq {slot id : ℕ} (h : k.sched.cur.caps.get slot = .ok (.endpoint id)) :
    k.currentEndpointId slot = some id := by
  rw [Kernel.currentEndpointId, Kernel.currentCapGet, h]
  rfl

/-- The `SEND` of a client does not fail. -/
lemma sysSend_request (h : k.sched.cur.caps.get epSlot = .ok (.endpoint 0)) (word : ℕ) :
    ∃ ipc, k.ipc.send 0 (word, none) = some ipc ∧
      k.sysSend epSlot word u64Max = ({ k with ipc }.wake (.endpoint 0), some 0) := by
  refine ⟨_, if_pos (by decide), ?_⟩
  rw [Kernel.sysSend, currentEndpointId_eq h]
  rfl

/-- The `SEND` of the service does what `sendReply` stands for. -/
lemma sysSend_reply (h : k.sched.cur.caps.get replyEpSlot = .ok (.endpoint 1)) (r : Reply) :
    (k.sysSend replyEpSlot r.word r.grant).1.ipc = sendReply k.currentCapGet k.ipc r := by
  have hsend : ∀ msg, k.ipc.send 1 msg = some
      { k.ipc with endpoints := Function.update k.ipc.endpoints 1 (k.ipc.endpoints 1 ++ [msg]) } :=
    fun msg => if_pos (by decide)
  rw [Kernel.sysSend, currentEndpointId_eq h, sendReply]
  dsimp only
  by_cases hgrant : r.grant = u64Max
  · have hnone : r.grant = noCap := hgrant
    rw [if_pos hgrant, if_pos hnone, hsend]
    rfl
  · have hsome : ¬ r.grant = noCap := hgrant
    rw [if_neg hgrant, if_neg hsome]
    cases k.currentCapGet r.grant with
    | none => rfl
    | some cap =>
      dsimp only
      rw [hsend]
      rfl

/-- The `RECV` of a client gets the word, or blocks. -/
lemma sysRecv_reply (h : k.sched.cur.caps.get replyEpSlot = .ok (.endpoint 1)) {outPtr : ℕ}
    (hbuf : k.userSliceMut outPtr 8 = true) :
    k.sysRecv replyEpSlot outPtr u64Max =
      match k.ipc.tryRecv 1 with
      | some (msg, ipc) => ({ k with ipc }.copyOut outPtr (leBytes 8 msg.1), some 0)
      | none => (k.blockOn (.endpoint 1) (.recv 1 outPtr u64Max), none) := by
  rw [Kernel.sysRecv, currentEndpointId_eq h]
  dsimp only
  rw [Kernel.recvLoop]
  cases k.ipc.tryRecv 1 with
  | none => rfl
  | some r =>
    obtain ⟨⟨word, cap⟩, ipc⟩ := r
    have hbuf' : ({ k with ipc } : Kernel).userSliceMut outPtr 8 = true := hbuf
    dsimp only [Kernel.deliverMessage]
    rw [if_pos hbuf']
    cases cap with
    | none => rfl
    | some cap => exact if_pos rfl

end Kernel

end Clients

end Xernel
