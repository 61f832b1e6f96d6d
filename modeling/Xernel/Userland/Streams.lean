import Mathlib.Tactic.MkIffOfInductiveProp
import Xernel.Userland.Answers
import Xernel.Userland.FsRuns

/-!
# What a client reads from a socket

Each socket has one page, into which every segment is copied from its start. The bytes of a connection
reach the client whole as long as no segment is taken while the page holds unread ones, the client asks
for all of them, nobody else writes to the page, and the segments taken follow on each other: the host
looks neither at the sender of a segment nor at its sequence number, and acknowledges what it took.
-/

namespace Xernel
namespace Host

open Checked

/-! ## Taking frames, socket by socket -/

/-- What there is about one socket: the number acknowledged, whether it is connected, its page and how
much of it is unread. -/
structure View where
  theirAck : ℕ
  active : Bool
  shm : Option Page
  pending : Bool
  pendingLen : ℕ

def view (h : Host) (i : Fin 4) : View :=
  ⟨(h.socks i).theirAck, (h.socks i).active, h.shm i, h.pending i, h.pendingLen i⟩

variable {h h' : Host} {e : List UInt8} {i : Fin 4}

lemma view_take_of_ne (hdata : h.dataFor e ≠ some i) : (h.take e).view i = h.view i := by
  rw [take]
  split
  · rfl
  next sock hsock =>
    have hne : i ≠ sock := by
      rintro rfl
      exact hdata hsock
    split
    · rfl
    next page _ => simp [view, notify, setPending, setShm, setSock, hne]

/-- The view after a segment for this socket. -/
lemma view_take (hdata : h.dataFor e = some i) :
    ∃ page, h.shm i = some page ∧ (h.take e).view i =
      ⟨segSeqOf e + plenOf e, true, some (page.front e), true, (payloadOf e).length⟩ := by
  obtain ⟨-, ⟨page, hpage⟩, hactive, -⟩ := dataFor_eq_some.mp hdata
  refine ⟨page, hpage, ?_⟩
  rw [take, hdata]
  dsimp only
  rw [hpage]
  simp [view, notify, setPending, setShm, setSock, hactive]

/-- Frames for other sockets leave a socket alone. -/
lemma view_foldl_take_of_nil (es : List (List UInt8)) : ∀ h : Host,
    (∀ e ∈ es, h.dataFor e ≠ some i) → (es.foldl take h).view i = h.view i := by
  induction es with
  | nil => exact fun h _ => rfl
  | cons e es ih =>
    intro h hes
    obtain ⟨he, hes⟩ := List.forall_mem_cons.mp hes
    have hdata : (h.take e).dataFor = h.dataFor := h.dataFor_take e (h.take e).net
    rw [List.foldl_cons, ih (h.take e) (by rwa [hdata]), view_take_of_ne he]

/-- The frames of a list that carry data for a socket. -/
def framesFor (h : Host) (i : Fin 4) (es : List (List UInt8)) : List (List UInt8) :=
  es.filter fun e => h.dataFor e = some i

/-- One frame for a socket among others: it is as if it were the only one. -/
lemma view_foldl_take_of_single (es : List (List UInt8)) : ∀ h : Host,
    h.framesFor i es = [e] → ∃ page, h.shm i = some page ∧ (es.foldl take h).view i =
      ⟨segSeqOf e + plenOf e, true, some (page.front e), true, (payloadOf e).length⟩ := by
  induction es with
  | nil =>
    intro h hes
    cases hes
  | cons e' es ih =>
    intro h hes
    have hdata : (h.take e').dataFor = h.dataFor := h.dataFor_take e' (h.take e').net
    rw [framesFor, List.filter_cons] at hes
    rw [List.foldl_cons]
    split at hes
    next hfor =>
      have hfor : h.dataFor e' = some i := of_decide_eq_true hfor
      obtain ⟨rfl, hrest⟩ := List.cons.inj hes
      obtain ⟨page, hpage, hview⟩ := view_take hfor
      refine ⟨page, hpage, ?_⟩
      rw [view_foldl_take_of_nil es (h.take e') (fun e he hsome => ?_), hview]
      rw [hdata] at hsome
      have hmem : e ∈ es.filter fun e => h.dataFor e = some i :=
        List.mem_filter.mpr ⟨he, decide_eq_true hsome⟩
      rw [hrest] at hmem
      cases hmem
    next hfor =>
      have hfor : h.dataFor e' ≠ some i := by simpa using hfor
      have hview := view_take_of_ne hfor
      obtain ⟨page, hpage, hfold⟩ := ih (h.take e') (by rw [framesFor, hdata]; exact hes)
      have hshm : (h.take e').shm i = h.shm i := congrArg View.shm hview
      exact ⟨page, by rw [← hshm, hpage], hfold⟩

/-! ## Streams -/

/-- The bytes of the peer, given by their sequence numbers, from `base` on up to the number
acknowledged. -/
def acked (P : ℕ → UInt8) (base ack : ℕ) : List UInt8 := (List.range (ack - base)).map fun k => P (base + k)

lemma acked_append (P : ℕ → UInt8) {base ack : ℕ} (hle : base ≤ ack) (n : ℕ) :
    acked P base (ack + n) = acked P base ack ++ (List.range n).map fun k => P (ack + k) := by
  have hsplit : ack + n - base = (ack - base) + n := by omega
  rw [acked, acked, hsplit, List.range_add, List.map_append, List.map_map]
  congr 1
  refine List.map_congr_left fun k _ => ?_
  simp only [Function.comp_apply]
  congr 1
  omega

/-- A segment of at most 202 bytes of the peer. -/
def Carries (P : ℕ → UInt8) (e : List UInt8) : Prop :=
  plenOf e ≤ 202 ∧ payloadOf e = (List.range (plenOf e)).map fun k => P (segSeqOf e + k)

instance (P : ℕ → UInt8) (e : List UInt8) : Decidable (Carries P e) := by
  unfold Carries
  infer_instance

/-- The unread bytes in the page of a socket. -/
def View.unread (v : View) : List UInt8 :=
  if v.pending then (v.shm.map fun page => page.bytes.take v.pendingLen).getD [] else []

/-- The bytes `D` handed out are the first of those acknowledged; while the socket is connected, the
others are in its page. -/
structure Intact (P : ℕ → UInt8) (base : ℕ) (D : List UInt8) (v : View) : Prop where
  le : base ≤ v.theirAck
  pre : D <+: acked P base v.theirAck
  live : v.active = true → D ++ v.unread = acked P base v.theirAck

section Intact

variable {P : ℕ → UInt8} {base : ℕ} {D : List UInt8} {v : View}

/-- A connection starts with nothing acknowledged and nothing to read. -/
lemma intact_start (hpending : v.pending = false) : Intact P v.theirAck [] v where
  le := le_rfl
  pre := List.nil_prefix
  live _ := by
    rw [View.unread, hpending, acked, Nat.sub_self]
    rfl

/-- Nobody minds what else is in the page. -/
lemma Intact.setShm (hv : Intact P base D v) {shm : Option Page}
    (hshm : v.active = true → v.pending = true →
      (shm.map fun page => page.bytes.take v.pendingLen) =
        v.shm.map fun page => page.bytes.take v.pendingLen) :
    Intact P base D { v with shm } where
  le := hv.le
  pre := hv.pre
  live hactive := by
    have hlive := hv.live hactive
    rw [View.unread] at hlive ⊢
    dsimp only
    cases hpending : v.pending with
    | false =>
      rw [hpending] at hlive
      exact hlive
    | true =>
      rw [hpending] at hlive
      rw [hshm hactive hpending]
      exact hlive

/-- A closed socket keeps what it has handed out. -/
lemma Intact.close (hv : Intact P base D v) : Intact P base D { v with active := false } where
  le := hv.le
  pre := hv.pre
  live hactive := by cases hactive

/-- Reading all that is unread. -/
lemma Intact.drain (hv : Intact P base D v) (hactive : v.active = true) (hpending : v.pending = true)
    {page : Page} (hshm : v.shm = some page) :
    Intact P base (D ++ page.bytes.take v.pendingLen) { v with pending := false, pendingLen := 0 } := by
  have hlive := hv.live hactive
  rw [View.unread, hpending, if_pos rfl, hshm] at hlive
  have hall : D ++ page.bytes.take v.pendingLen = acked P base v.theirAck := hlive
  refine ⟨hv.le, ?_, fun _ => ?_⟩
  · exact ⟨[], by rw [List.append_nil, hall]⟩
  · rw [View.unread, if_neg Bool.false_ne_true, List.append_nil]
    exact hall

/-- A segment that follows on what is acknowledged, taken when all of that is read. -/
lemma Intact.take (hv : Intact P base D v) (hactive : v.active = true) (hpending : v.pending = false)
    (hnext : segSeqOf e = v.theirAck) (he : Carries P e) (page : Page) :
    Intact P base D
      ⟨segSeqOf e + plenOf e, true, some (page.front e), true, (payloadOf e).length⟩ := by
  have hlive := hv.live hactive
  rw [View.unread, hpending, if_neg Bool.false_ne_true, List.append_nil] at hlive
  have hmore : acked P base (segSeqOf e + plenOf e) = D ++ payloadOf e := by
    rw [hnext, acked_append P hv.le, ← hlive, he.2, hnext]
  have hfront : (page.front e).bytes.take (payloadOf e).length = payloadOf e := by
    rw [Page.front]
    exact List.take_left
  refine ⟨?_, ?_, fun _ => ?_⟩
  · have := hv.le
    dsimp only
    omega
  · dsimp only
    rw [hmore]
    exact List.prefix_append _ _
  · dsimp only
    rw [hmore, View.unread, if_pos rfl]
    dsimp only [Option.map_some, Option.getD_some]
    rw [hfront]

/-- A list of frames, at most one of them for the socket. -/
lemma Intact.foldl_take (hv : Intact P base D (h.view i)) {es : List (List UInt8)}
    (honce : (h.framesFor i es).length ≤ 1)
    (hnext : ∀ e ∈ h.framesFor i es, h.pending i = false ∧ segSeqOf e = (h.socks i).theirAck)
    (hpeer : ∀ e ∈ h.framesFor i es, Carries P e) :
    Intact P base D ((es.foldl Host.take h).view i) := by
  rcases Nat.le_one_iff_eq_zero_or_eq_one.mp honce with hzero | hone
  · have hnone : ∀ e ∈ es, h.dataFor e ≠ some i := by
      intro e he hsome
      have hmem : e ∈ h.framesFor i es := List.mem_filter.mpr ⟨he, decide_eq_true hsome⟩
      rw [List.length_eq_zero_iff.mp hzero] at hmem
      cases hmem
    rw [view_foldl_take_of_nil es h hnone]
    exact hv
  · obtain ⟨e, hsingle⟩ := List.length_eq_one_iff.mp hone
    have hmem : e ∈ h.framesFor i es := by rw [hsingle]; exact List.mem_singleton_self e
    obtain ⟨hpending, hseq⟩ := hnext e hmem
    have hactive := (dataFor_eq_some.mp (of_decide_eq_true (List.mem_filter.mp hmem).2)).2.2.1
    obtain ⟨page, -, hview⟩ := view_foldl_take_of_single es h hsingle
    rw [hview]
    exact hv.take hactive hpending hseq (hpeer e hmem) page

end Intact

/-! ## Steps -/

/-- The frames that are received and buffered when a request is handled. -/
def looks (h : Host) : Event → List (List UInt8)
  | .store _ _ _ => []
  | .request req =>
    if opOf req = opNetRecv then
      match (sockOf (argOf req)).filter fun sock => (h.socks sock).active && (h.shm sock).isSome with
      | none => []
      | some sock =>
        if h.pending sock then []
        else seen (h.net.frameAt 256) (h.recvStop sock) 6 h.net.rxPosted
    else if opOf req = opNetGetReady ∧ readyMask h.pending = 0 then
      seen (h.net.frameAt 256) h.readyStop 6 h.net.rxPosted
    else []

/-- The request of an event. -/
def Event.req? : Event → Option UInt64
  | .request req => some req
  | .store _ _ _ => none

/-- The page a client writes to, and where. -/
def Event.store? : Event → Option (Fin 4 × ℕ)
  | .request _ => none
  | .store sock off _ => some (sock, off)

/-- A request with this opcode about this socket. -/
def Event.Asks (ev : Event) (op : ℕ) (i : Fin 4) : Prop :=
  ∃ req ∈ ev.req?, opOf req = op ∧ sockOf (argOf req) = some i

-- With all of `UInt64` a finite type, these keep the words from being tried one by one.
instance {p : UInt64 → Prop} [DecidablePred p] (o : Option UInt64) : Decidable (∃ req ∈ o, p req) :=
  Option.decidableExistsMem o

instance {p : UInt64 → Prop} [DecidablePred p] (o : Option UInt64) : Decidable (∀ req ∈ o, p req) :=
  Option.decidableForallMem o

instance (ev : Event) (op : ℕ) (i : Fin 4) : Decidable (ev.Asks op i) :=
  inferInstanceAs (Decidable (∃ req ∈ ev.req?, opOf req = op ∧ sockOf (argOf req) = some i))

/-- What a step may do to the sockets without harm: each takes at most one segment, that follows on what
it has acknowledged, and with nothing unread; all that is unread is asked for; files and clients do not
write over it; and a socket is connected with nothing unread. -/
@[mk_iff]
structure Gentle (h : Host) (ev : Event) : Prop where
  once : ∀ i, (h.framesFor i (h.looks ev)).length ≤ 1
  next : ∀ i, ∀ e ∈ h.framesFor i (h.looks ev),
    h.pending i = false ∧ segSeqOf e = (h.socks i).theirAck
  whole : ∀ req ∈ ev.req?, opOf req = opNetRecv → ∀ i, sockOf (argOf req) = some i →
    ((h.socks i).active = true → h.pending i = true →
      h.pendingLen i ≤ sockArg (argOf req) % 2 ^ 32) ∧
    ∀ e ∈ h.framesFor i (h.looks ev), (payloadOf e).length ≤ sockArg (argOf req) % 2 ^ 32
  file : ∀ req ∈ ev.req?, opOf req = opReadfile → ∀ i : Fin 4, i.val = 0 →
    (h.socks i).active = true → h.pending i = true → ¬ Fs.Used h.blk.disk (argOf req)
  store : ∀ x ∈ ev.store?, (h.socks x.1).active = true → h.pending x.1 = true →
    h.pendingLen x.1 ≤ x.2
  connect : ∀ i, ev.Asks opNetConnect i → h.pending i = false

instance {p : Fin 4 → Prop} [DecidablePred p] : Decidable (∀ i, p i) := Nat.decidableForallFin p

set_option synthInstance.maxSize 512 in
instance (h : Host) (ev : Event) : Decidable (h.Gentle ev) :=
  decidable_of_iff' _ (gentle_iff h ev)

/-- The bytes that a step hands out on a socket: after a receive that succeeds, as many as the reply says
from the start of its page. -/
def handed (i : Fin 4) (u : Transition Host Event (List Reply)) : List UInt8 :=
  match u.event with
  | .store _ _ _ => []
  | .request req =>
    if opOf req = opNetRecv ∧ sockOf (argOf req) = some i then
      (u.out.filter fun r => r.word ≠ u64Max).flatMap fun r =>
        ((u.post.shm i).map fun page => page.bytes.take r.word).getD []
    else []

section Requests

variable {arg : ℕ}

lemma readByIndex_of_unused {b : Fs.Blk} {page : Page} {r : Option ℕ × Page × Fs.Blk}
    (hused : ¬ Fs.Used b.disk arg) (hr : readByIndex b arg page = .ok r) : r.2.1 = page := by
  rw [readByIndex] at hr
  split at hr
  · obtain rfl := Except.ok.inj hr
    rfl
  next dir b' hread =>
    obtain ⟨-, rfl, -⟩ := Fs.Blk.read_eq_some hread
    have hunused : unusedEntry (b.disk Fs.dirSector) arg = .ok true := by
      rw [unusedEntry]
      split
      · rfl
      next hlt =>
        have hlt : arg < Fs.dirEntries := Nat.lt_of_not_le hlt
        have hzero : b.disk Fs.dirSector (arg * Fs.entSize) = 0 := by
          by_contra hne
          exact hused ⟨hlt, hne⟩
        rw [dirByte_of_lt (by simp only [Fs.dirEntries, Fs.entSize, Fs.sectorSize] at *; omega), ok_bind,
          hzero]
        rfl
    rw [hunused, ok_bind, if_pos rfl] at hr
    obtain rfl := Except.ok.inj hr
    rfl

/-- A file goes to the page of socket 0 only, and only if there is one. -/
lemma readfile_view (hx : h.readfile arg = .ok h') (i : Fin 4) :
    ∃ shm, h'.view i = { h.view i with shm } ∧
      (i ≠ 0 ∨ ¬ Fs.Used h.blk.disk arg → shm = h.shm i) := by
  rw [readfile] at hx
  split at hx
  · obtain rfl := Except.ok.inj hx
    exact ⟨h.shm i, rfl, fun _ => rfl⟩
  next page hpage =>
    obtain ⟨⟨size, page', blk⟩, hread, hx⟩ := bind_eq_ok.mp hx
    have hview : h'.view i = { h.view i with shm := Function.update h.shm 0 (some page') i } := by
      cases size with
      | some n =>
        obtain rfl := Except.ok.inj hx
        rfl
      | none =>
        obtain rfl := Except.ok.inj hx
        rfl
    refine ⟨_, hview, fun hcase => ?_⟩
    by_cases hi : i = 0
    · subst hi
      have hunused := hcase.resolve_left (not_not.mpr rfl)
      rw [Function.update_self, hpage]
      exact congrArg some (readByIndex_of_unused hunused hread)
    · rw [Function.update_of_ne hi]

/-- A connect is about its own socket. -/
lemma netConnect_view (hx : h.netConnect arg = .ok h') (hi : sockOf arg ≠ some i) :
    h'.view i = h.view i := by
  rw [netConnect] at hx
  split at hx
  · obtain rfl := Except.ok.inj hx
    rfl
  next sock hsock =>
    have hne : i ≠ sock := by
      rintro rfl
      exact hi hsock
    obtain ⟨⟨net, tcp, active⟩, -, hx⟩ := bind_eq_ok.mp hx
    obtain rfl := Except.ok.inj hx
    simp [view, ipcSend, setSock, hne]

/-- A send changes the own number of its socket only. -/
lemma netSend_view (hx : h.netSend arg = .ok h') (i : Fin 4) : h'.view i = h.view i := by
  rw [netSend] at hx
  split at hx
  · obtain rfl := Except.ok.inj hx
    rfl
  next sock page _ =>
    dsimp only at hx
    split at hx
    · obtain ⟨⟨net, done⟩, -, hx⟩ := bind_eq_ok.mp hx
      dsimp only at hx
      split at hx
      · obtain ⟨seq, -, hx⟩ := bind_eq_ok.mp hx
        obtain rfl := Except.ok.inj hx
        by_cases hi : i = sock
        · subst hi
          simp [view, ipcSend, setSock]
        · simp [view, ipcSend, setSock, hi]
      · obtain rfl := Except.ok.inj hx
        rfl
    · obtain rfl := Except.ok.inj hx
      rfl

/-- A close ends its connection and leaves the page as it is. -/
lemma netClose_view (hx : h.netClose arg = .ok h') (i : Fin 4) :
    h'.view i = h.view i ∨ h'.view i = { h.view i with active := false } := by
  rw [netClose] at hx
  split at hx
  · obtain rfl := Except.ok.inj hx
    exact .inl rfl
  next sock _ =>
    obtain ⟨⟨net, done⟩, -, hx⟩ := bind_eq_ok.mp hx
    obtain rfl := Except.ok.inj hx
    by_cases hi : i = sock
    · subst hi
      exact .inr (by simp [view, ipcSend, setSock])
    · exact .inl (by simp [view, ipcSend, setSock, hi])

lemma netGetFrame_view (hx : h.netGetFrame arg = .ok h') (i : Fin 4) : h'.view i = h.view i := by
  rw [netGetFrame] at hx
  split at hx
  · obtain rfl := Except.ok.inj hx
    rfl
  · obtain rfl := Except.ok.inj hx
    rfl

lemma serveFile_view {op : ℕ} (hx : h.serveFile op arg = .ok h') (i : Fin 4) :
    h'.view i = h.view i := by
  rw [serveFile] at hx
  obtain ⟨⟨reply, blk⟩, -, hx⟩ := bind_eq_ok.mp hx
  obtain rfl := Except.ok.inj hx
  rfl

/-- The wait for data takes the frames it looks at. -/
lemma netGetReady_view (hx : h.netGetReady = .ok h') (i : Fin 4) :
    h'.view i = ((if readyMask h.pending = 0 then
      seen (h.net.frameAt 256) h.readyStop 6 h.net.rxPosted else []).foldl take h).view i := by
  rw [netGetReady] at hx
  obtain ⟨⟨h₁, mask⟩, hloop, hx⟩ := bind_eq_ok.mp hx
  obtain rfl := Except.ok.inj hx
  by_cases hmask : readyMask h.pending = 0
  · rw [hmask, readyLoop_eq] at hloop
    obtain ⟨q, hq, hloop⟩ := bind_eq_ok.mp hloop
    obtain ⟨rfl, -⟩ := Prod.mk.inj (Except.ok.inj hloop)
    obtain ⟨hhost, -⟩ := poll_eq_ok 6 h q hq
    have hview : q.1.view i = ((seen (h.net.frameAt 256) h.readyStop 6 h.net.rxPosted).foldl take
        h).view i := by
      rw [hhost]
      rfl
    rw [if_pos hmask]
    exact hview
  · rw [readyLoop_of_ne_zero hmask] at hloop
    obtain ⟨rfl, -⟩ := Prod.mk.inj (Except.ok.inj hloop)
    rw [if_neg hmask]
    rfl

end Requests

/-! ## Receiving -/

section Receiving

variable {P : ℕ → UInt8} {base : ℕ} {D : List UInt8} {req : UInt64} {out : List Reply}

lemma handed_other {op : ℕ} (hop : opOf req = op) (hne : op ≠ opNetRecv) :
    handed i ⟨h, .request req, out, h'⟩ = [] := by
  rw [handed]
  dsimp only
  rw [if_neg]
  rintro ⟨hrecv, -⟩
  exact hne (hop.symm.trans hrecv)

lemma handed_socket (hi : sockOf (argOf req) ≠ some i) :
    handed i ⟨h, .request req, out, h'⟩ = [] := by
  rw [handed]
  dsimp only
  rw [if_neg]
  rintro ⟨-, hsock⟩
  exact hi hsock

/-- What the reply to a receive on the socket hands out. -/
lemma handed_recv (hop : opOf req = opNetRecv) (hsock : sockOf (argOf req) = some i) {word : ℕ} :
    handed i ⟨h, .request req, [⟨word, noCap⟩], h'⟩ =
      if word = u64Max then [] else ((h'.shm i).map fun page => page.bytes.take word).getD [] := by
  rw [handed]
  dsimp only
  rw [if_pos ⟨hop, hsock⟩]
  by_cases hmax : word = u64Max
  · simp [hmax]
  · simp [hmax]

lemma replies_ipcSend (hreplies : h'.replies = h.replies) (word : ℕ) :
    (h'.ipcSend word noCap).replies.drop h.replies.length = [⟨word, noCap⟩] := by
  rw [ipcSend, hreplies]
  exact List.drop_left

/-- A receive that hands out all that is unread. -/
lemma Intact.handed (hop : opOf req = opNetRecv) (hsock : sockOf (argOf req) = some i)
    (hv : Intact P base D (h'.view i)) (hactive : (h'.socks i).active = true)
    (hpending : h'.pending i = true) {page : Page} (hshm : h'.shm i = some page) {max : ℕ}
    (hmax : h'.pendingLen i ≤ max % 2 ^ 32) (hreplies : h'.replies = h.replies) :
    Intact P base (D ++ Host.handed i ⟨h, .request req,
        ((h'.setPending i false 0).ipcSend (min (h'.pendingLen i) (max % 2 ^ 32))
          noCap).replies.drop h.replies.length,
        (h'.setPending i false 0).ipcSend (min (h'.pendingLen i) (max % 2 ^ 32)) noCap⟩)
      (((h'.setPending i false 0).ipcSend (min (h'.pendingLen i) (max % 2 ^ 32)) noCap).view i) := by
  have hreplies' : (h'.setPending i false 0).replies = h.replies := hreplies
  have hlt : h'.pendingLen i ≠ u64Max := by
    have hword : u64Max = 2 ^ 64 - 1 := rfl
    omega
  have hshm' : (h'.setPending i false 0).shm i = some page := hshm
  rw [replies_ipcSend hreplies', min_eq_left hmax, handed_recv hop hsock, if_neg hlt]
  have hview : ((h'.setPending i false 0).ipcSend (h'.pendingLen i) noCap).view i =
      { h'.view i with pending := false, pendingLen := 0 } := by
    simp [view, ipcSend, setPending]
  have hpage : ((h'.setPending i false 0).ipcSend (h'.pendingLen i) noCap).shm i = some page := hshm
  rw [hview, hpage]
  exact hv.drain hactive hpending hshm

lemma netRecv_intact (hop : opOf req = opNetRecv) (hx : h.netRecv (argOf req) = .ok h')
    (hgentle : h.Gentle (.request req)) (hv : Intact P base D (h.view i))
    (hpeer : ∀ e ∈ h.framesFor i (h.looks (.request req)), Carries P e) :
    Intact P base (D ++ handed i ⟨h, .request req, h'.replies.drop h.replies.length, h'⟩)
      (h'.view i) := by
  have honce := hgentle.once i
  have hnext := hgentle.next i
  rw [netRecv] at hx
  dsimp only at hx
  rw [looks, if_pos hop] at hpeer honce hnext
  cases hfilter : (sockOf (argOf req)).filter fun sock =>
      (h.socks sock).active && (h.shm sock).isSome with
  | none =>
    -- the receive fails, and hands out nothing
    rw [hfilter] at hx
    obtain rfl := Except.ok.inj hx
    have hnone : handed i ⟨h, .request req, (h.ipcSend u64Max noCap).replies.drop h.replies.length,
        h.ipcSend u64Max noCap⟩ = [] := by
      rw [replies_ipcSend rfl]
      by_cases hsock : sockOf (argOf req) = some i
      · rw [handed_recv hop hsock, if_pos rfl]
      · exact handed_socket hsock
    rw [hnone, List.append_nil]
    exact hv
  | some sock =>
    obtain ⟨hsock, huse⟩ := Option.filter_eq_some_iff.mp hfilter
    obtain ⟨hactive, hshm⟩ := Bool.and_eq_true_iff.mp huse
    obtain ⟨page, hpage⟩ := Option.isSome_iff_exists.mp hshm
    obtain ⟨hwhole, hframes⟩ := hgentle.whole req rfl hop sock hsock
    rw [looks, if_pos hop, hfilter] at hframes
    rw [hfilter] at hx hpeer honce hnext
    dsimp only at hx hpeer honce hnext hframes
    cases hpending : h.pending sock with
    | true =>
      rw [hpending, if_pos rfl] at hx
      obtain rfl := Except.ok.inj hx
      by_cases hi : i = sock
      · subst hi
        exact hv.handed hop hsock hactive hpending hpage (hwhole hactive hpending) rfl
      · have hsock' : sockOf (argOf req) ≠ some i := by
          rw [hsock]
          exact fun heq => hi (Option.some.inj heq).symm
        rw [handed_socket hsock', List.append_nil]
        have hview : ((h.setPending sock false 0).ipcSend (min (h.pendingLen sock)
            (sockArg (argOf req) % 2 ^ 32)) noCap).view i = h.view i := by
          simp [view, ipcSend, setPending, hi]
        rw [hview]
        exact hv
    | false =>
      rw [hpending, if_neg Bool.false_ne_true] at hx hpeer honce hnext hframes
      rw [recvLoop_eq] at hx
      obtain ⟨r, hr, hx⟩ := bind_eq_ok.mp hx
      obtain ⟨q, hq, hr⟩ := bind_eq_ok.mp hr
      obtain rfl := Except.ok.inj hr
      obtain rfl := Except.ok.inj hx
      obtain ⟨hhost, -, -, hlast, -⟩ := poll_eq_ok 6 h q hq
      have hreplies := poll_replies hq
      have hview : ∀ j, q.1.view j = ((seen (h.net.frameAt 256) (h.recvStop sock) 6
          h.net.rxPosted).foldl take h).view j := by
        intro j
        rw [hhost]
        rfl
      have hv' : Intact P base D (q.1.view i) := by
        rw [hview]
        exact hv.foldl_take honce hnext hpeer
      obtain ⟨h₁, last⟩ := q
      cases last with
      | none =>
        -- nothing came for the socket, and nothing is handed out
        have hnone : handed i ⟨h, .request req, (h₁.ipcSend 0 noCap).replies.drop h.replies.length,
            h₁.ipcSend 0 noCap⟩ = [] := by
          rw [replies_ipcSend hreplies]
          by_cases hsock' : sockOf (argOf req) = some i
          · rw [handed_recv hop hsock', if_neg (by decide)]
            cases (h₁.ipcSend 0 noCap).shm i <;> simp
          · exact handed_socket hsock'
        simp only [recvResult]
        rw [hnone, List.append_nil]
        exact hv'
      | some e =>
        obtain ⟨hstop, hmem⟩ := hlast e rfl
        have hdata : h.dataFor e = some sock := by
          rw [recvStop, Bool.and_eq_true_iff] at hstop
          exact of_decide_eq_true hstop.2
        have hfor : e ∈ h.framesFor sock (seen (h.net.frameAt 256) (h.recvStop sock) 6
            h.net.rxPosted) := List.mem_filter.mpr ⟨List.mem_of_getLast? hmem, decide_eq_true hdata⟩
        simp only [recvResult]
        by_cases hi : i = sock
        · subst hi
          obtain ⟨e', hsingle⟩ := List.length_eq_one_iff.mp
            (le_antisymm honce (List.length_pos_of_mem hfor))
          obtain rfl : e = e' := by
            rw [hsingle] at hfor
            exact List.mem_singleton.mp hfor
          obtain ⟨page', -, hfold⟩ := view_foldl_take_of_single _ h hsingle
          have hview₁ : h₁.view i = _ := (hview i).trans hfold
          have hlen : h₁.pendingLen i = (payloadOf e).length := congrArg View.pendingLen hview₁
          refine hv'.handed hop hsock (congrArg View.active hview₁) (congrArg View.pending hview₁)
            (congrArg View.shm hview₁) ?_ hreplies
          rw [hlen]
          exact hframes e hfor
        · have hsock' : sockOf (argOf req) ≠ some i := by
            rw [hsock]
            exact fun heq => hi (Option.some.inj heq).symm
          rw [handed_socket hsock', List.append_nil]
          have hview₁ : ((h₁.setPending sock false 0).ipcSend (min (h₁.pendingLen sock)
              (sockArg (argOf req) % 2 ^ 32)) noCap).view i = h₁.view i := by
            simp [view, ipcSend, setPending, hi]
          rw [hview₁]
          exact hv'

/-! ## Runs -/

/-- A client that writes behind what is unread leaves it as it is. -/
lemma Page.take_write {page page' : Page} {off n : ℕ} {bytes : List UInt8}
    (hwrite : page.write off bytes = .ok page') (hn : n ≤ off) :
    page'.bytes.take n = page.bytes.take n := by
  rw [Page.write] at hwrite
  split at hwrite
  next hle =>
    obtain rfl := Except.ok.inj hwrite
    have hlen : n ≤ (page.bytes.take off).length := by
      rw [List.length_take, page.length_bytes]
      omega
    dsimp only
    rw [List.append_assoc, List.take_append_of_le_length hlen, List.take_take, min_eq_left hn]
  next => cases hwrite

lemma dispatch_intact {op : ℕ} (hop : opOf req = op) (hx : h.dispatch op (argOf req) = .ok h')
    (hgentle : h.Gentle (.request req)) (hconn : ¬ Event.Asks (.request req) opNetConnect i)
    (hv : Intact P base D (h.view i))
    (hpeer : ∀ e ∈ h.framesFor i (h.looks (.request req)), Carries P e) :
    Intact P base (D ++ handed i ⟨h, .request req, h'.replies.drop h.replies.length, h'⟩)
      (h'.view i) := by
  -- opcodes that leave the socket as it was
  have hsame : op ≠ opNetRecv → h'.view i = h.view i → Intact P base
      (D ++ handed i ⟨h, .request req, h'.replies.drop h.replies.length, h'⟩) (h'.view i) := by
    intro hne hview
    rw [handed_other hop hne, List.append_nil, hview]
    exact hv
  rw [dispatch] at hx
  by_cases hread : op = opReadfile
  · rw [if_pos hread] at hx
    obtain ⟨shm, hview, hshm⟩ := readfile_view hx i
    rw [handed_other hop (by rw [hread]; decide), List.append_nil, hview]
    refine hv.setShm fun hactive hpending => ?_
    have hkeeps : i ≠ 0 ∨ ¬ Fs.Used h.blk.disk (argOf req) := by
      by_cases hi : i = 0
      · subst hi
        exact .inr (hgentle.file req rfl (hop.trans hread) 0 rfl hactive hpending)
      · exact .inl hi
    rw [hshm hkeeps]
    rfl
  rw [if_neg hread] at hx
  by_cases hconnect : op = opNetConnect
  · rw [if_pos hconnect] at hx
    refine hsame (by rw [hconnect]; decide) (netConnect_view hx fun hsock => ?_)
    exact hconn ⟨req, rfl, hop.trans hconnect, hsock⟩
  rw [if_neg hconnect] at hx
  by_cases hsend : op = opNetSend
  · rw [if_pos hsend] at hx
    exact hsame (by rw [hsend]; decide) (netSend_view hx i)
  rw [if_neg hsend] at hx
  by_cases hrecv : op = opNetRecv
  · rw [if_pos hrecv] at hx
    exact netRecv_intact (hop.trans hrecv) hx hgentle hv hpeer
  rw [if_neg hrecv] at hx
  by_cases hclose : op = opNetClose
  · rw [if_pos hclose] at hx
    rw [handed_other hop hrecv, List.append_nil]
    rcases netClose_view hx i with hview | hview
    · rw [hview]
      exact hv
    · rw [hview]
      exact hv.close
  rw [if_neg hclose] at hx
  by_cases hframe : op = opNetGetFrame
  · rw [if_pos hframe] at hx
    exact hsame hrecv (netGetFrame_view hx i)
  rw [if_neg hframe] at hx
  by_cases hready : op = opNetGetReady
  · rw [if_pos hready] at hx
    have honce := hgentle.once i
    have hnext := hgentle.next i
    have hlooks : h.looks (.request req) = if readyMask h.pending = 0 then
        seen (h.net.frameAt 256) h.readyStop 6 h.net.rxPosted else [] := by
      rw [looks, if_neg (by rw [hop, hready]; decide)]
      by_cases hmask : readyMask h.pending = 0
      · rw [if_pos ⟨hop.trans hready, hmask⟩, if_pos hmask]
      · rw [if_neg fun hand => hmask hand.2, if_neg hmask]
    rw [hlooks] at honce hnext hpeer
    rw [handed_other hop hrecv, List.append_nil, netGetReady_view hx i]
    exact hv.foldl_take honce hnext hpeer
  rw [if_neg hready] at hx
  exact hsame hrecv (serveFile_view hx i)

/-- One step keeps a connection intact. -/
lemma step_intact {ev : Event} (hs : system.step h ev = some (h', out)) (hgentle : h.Gentle ev)
    (hconn : ¬ Event.Asks ev opNetConnect i) (hv : Intact P base D (h.view i))
    (hpeer : ∀ e ∈ h.framesFor i (h.looks ev), Carries P e) :
    Intact P base (D ++ handed i ⟨h, ev, out, h'⟩) (h'.view i) := by
  cases ev with
  | request req =>
    simp only [system] at hs
    split at hs
    next h₁ hx =>
      obtain ⟨rfl, rfl⟩ := Prod.mk.inj (Option.some.inj hs)
      rw [combinedService] at hx
      split at hx
      · cases hx
      · obtain ⟨h₂, hdispatch, hx⟩ := bind_eq_ok.mp hx
        obtain rfl := Option.some.inj (Except.ok.inj hx)
        exact dispatch_intact rfl hdispatch hgentle hconn hv hpeer
    next => cases hs
  | store sock off bytes =>
    simp only [system] at hs
    split at hs
    · cases hs
    next page hpage =>
      split at hs
      next page' hwrite =>
        obtain ⟨rfl, rfl⟩ := Prod.mk.inj (Option.some.inj hs)
        have hnone : handed i ⟨h, .store sock off bytes, [], h.setShm sock page'⟩ = [] := rfl
        rw [hnone, List.append_nil]
        by_cases hi : i = sock
        · subst hi
          have hview : (h.setShm i page').view i = { h.view i with shm := some page' } := by
            simp [view, Host.setShm]
          rw [hview]
          refine hv.setShm fun hactive hpending => ?_
          have hoff : (h.view i).pendingLen ≤ off := hgentle.store (i, off) rfl hactive hpending
          rw [Option.map_some, Page.take_write hwrite hoff, show (h.view i).shm = some page from hpage,
            Option.map_some]
        · have hview : (h.setShm sock page').view i = h.view i := by
            simp [view, Host.setShm, hi]
          rw [hview]
          exact hv
      next => cases hs

end Receiving

/-- The step connects the socket: the reply is 0. -/
def Connects (i : Fin 4) (t : Transition Host Event (List Reply)) : Prop :=
  t.event.Asks opNetConnect i ∧ t.out = [⟨0, noCap⟩]

instance (i : Fin 4) (t : Transition Host Event (List Reply)) : Decidable (Connects i t) := by
  unfold Connects
  infer_instance

/-- A connect does not touch what is unread. -/
lemma connect_pending {ev : Event} {out : List Reply} (hasks : ev.Asks opNetConnect i)
    (hs : system.step h ev = some (h', out)) : h'.pending = h.pending := by
  obtain ⟨req, hreq, hop, -⟩ := hasks
  obtain rfl : ev = .request req := by
    cases ev with
    | request req' => exact congrArg Event.request (Option.some.inj hreq)
    | store sock off bytes => cases hreq
  simp only [system] at hs
  split at hs
  next h₁ hx =>
    obtain ⟨rfl, -⟩ := Prod.mk.inj (Option.some.inj hs)
    rw [combinedService, if_neg (by rw [hop]; decide)] at hx
    obtain ⟨h₂, hdispatch, hx⟩ := bind_eq_ok.mp hx
    obtain rfl := Option.some.inj (Except.ok.inj hx)
    rw [hop, dispatch, if_neg (by decide), if_pos rfl, netConnect] at hdispatch
    split at hdispatch
    · obtain rfl := Except.ok.inj hdispatch
      rfl
    · obtain ⟨⟨net, tcp, active⟩, -, hdispatch⟩ := bind_eq_ok.mp hdispatch
      obtain rfl := Except.ok.inj hdispatch
      rfl
  next => cases hs

/-- In every run, on every connection of every socket: what is handed out from its connect on is a
prefix of what the host has acknowledged of the bytes of its peer, as long as the steps are gentle. -/
theorem streams_intact {ts a b : List (Transition Host Event (List Reply))}
    {t : Transition Host Event (List Reply)} {s : Host} (hrun : Run system ts s)
    (hts : ts = a ++ t :: b) {i : Fin 4} (hconnects : Connects i t)
    (hcurrent : ∀ u ∈ b, ¬ u.event.Asks opNetConnect i) {P : ℕ → UInt8}
    (hpeer : ∀ u ∈ b, ∀ e ∈ u.pre.framesFor i (u.pre.looks u.event), Carries P e)
    (hgentle : ∀ u ∈ t :: b, u.pre.Gentle u.event) :
    b.flatMap (handed i) <+: acked P (t.post.socks i).theirAck (s.socks i).theirAck := by
  obtain ⟨-, hstep, -⟩ := hrun.split hts
  have hpending : (t.post.view i).pending = false := by
    have hpre := (hgentle t List.mem_cons_self).connect i hconnects.1
    rw [← hpre]
    exact congrFun (connect_pending hconnects.1 hstep) i
  have hstart : Intact P (t.post.socks i).theirAck [] (t.post.view i) := intact_start hpending
  have hkeep : ∀ c, ∀ u ∈ b, system.step u.pre u.event = some (u.post, u.out) →
      Intact P (t.post.socks i).theirAck (c.flatMap (handed i)) (u.pre.view i) →
      Intact P (t.post.socks i).theirAck ((c ++ [u]).flatMap (handed i)) (u.post.view i) := by
    intro c u hu hs hv
    rw [List.flatMap_append, List.flatMap_singleton]
    exact step_intact hs (hgentle u (List.mem_cons_of_mem _ hu)) (hcurrent u hu) hv (hpeer u hu)
  let Q : List (Transition Host Event (List Reply)) → Host → Prop := fun c h =>
    Intact P (t.post.socks i).theirAck (c.flatMap (handed i)) (h.view i)
  have hend : Q b s := hrun.preserved_along hts hstart hkeep
  exact hend.pre

/-- The bytes 1, 2, 3 and so on, from sequence number 100 on. -/
def countingPeer (k : ℕ) : UInt8 := UInt8.ofNat (k - 99)

/-- Two segments read one after the other: the first is waited for and then fetched, the second is
fetched as it comes. -/
theorem streams_intact_two :
    ∃ (t : Transition Host Event (List Reply)) (b : List (Transition Host Event (List Reply)))
      (s : Host), Run system (t :: b) s ∧ Connects 0 t ∧ b.flatMap (handed 0) = [1, 2, 3] ∧
      b.flatMap (handed 0) <+: acked countingPeer (t.post.socks 0).theirAck (s.socks 0).theirAck := by
  have hfacts : (system.replay (booted [segment portBase 99 (tcpSyn ||| tcpAck) [],
        segment portBase 100 tcpAck [1, 2], segment portBase 102 tcpAck [3]])
      [.request (requestOf opNetConnect 0 (7 * 2 ^ 32)), .request (requestOf opNetGetReady 0 0),
        .request (requestOf opNetRecv 0 100), .request (requestOf opNetRecv 0 100)]).map
      (fun r => (r.1.head?.any fun t => Connects 0 t, r.1.tail.flatMap (handed 0),
        (r.1.tail.all fun u => ¬ u.event.Asks opNetConnect 0),
        (r.1.tail.all fun u => (u.pre.framesFor 0 (u.pre.looks u.event)).all fun e =>
          Carries countingPeer e), r.1.all fun u => u.pre.Gentle u.event)) =
      some (true, [1, 2, 3], true, true, true) := by decide +kernel
  obtain ⟨⟨ts, s⟩, hreplay, hfacts⟩ := Option.map_eq_some_iff.mp hfacts
  simp only [Prod.mk.injEq, List.all_eq_true, decide_eq_true_eq] at hfacts
  obtain ⟨hconnects, hhanded, hcurrent, hpeer, hgentle⟩ := hfacts
  have hrun : Run system ts s := (Run.start (starts_booted _)).append_replay hreplay
  cases ts with
  | nil => cases hconnects
  | cons t b =>
    have hconnects : Connects 0 t := of_decide_eq_true hconnects
    exact ⟨t, b, s, hrun, hconnects, hhanded,
      streams_intact hrun (List.nil_append _).symm hconnects hcurrent hpeer hgentle⟩

/-- Two segments of socket 0 are taken while socket 1 is read: the second goes over the first, and of the
two bytes acknowledged only the last is handed out. -/
theorem not_streams_intact :
    ∃ (t : Transition Host Event (List Reply)) (b : List (Transition Host Event (List Reply)))
      (s : Host), Run system (t :: b) s ∧ Connects 0 t ∧
      (∀ u ∈ b, ¬ u.event.Asks opNetConnect 0) ∧
      (∀ u ∈ b, ∀ e ∈ u.pre.framesFor 0 (u.pre.looks u.event), Carries countingPeer e) ∧
      (b.flatMap fun u => (u.pre.framesFor 0 (u.pre.looks u.event)).map segSeqOf) = [100, 101] ∧
      b.flatMap (handed 0) = [2] ∧
      acked countingPeer (t.post.socks 0).theirAck (s.socks 0).theirAck = [1, 2] ∧
      ¬ b.flatMap (handed 0) <+:
        acked countingPeer (t.post.socks 0).theirAck (s.socks 0).theirAck := by
  have hfacts : (system.replay (booted [segment portBase 99 (tcpSyn ||| tcpAck) [],
        segment (portBase + 1) 49 (tcpSyn ||| tcpAck) [], segment portBase 100 tcpAck [1],
        segment portBase 101 tcpAck [2]])
      [.request (requestOf opNetConnect 0 (7 * 2 ^ 32)),
        .request (requestOf opNetConnect 1 (7 * 2 ^ 32)),
        .request (requestOf opNetRecv 1 100), .request (requestOf opNetRecv 0 100)]).map
      (fun r => (r.1.head?.any fun t => Connects 0 t, r.1.tail.flatMap (handed 0),
        (r.1.tail.all fun u => ¬ u.event.Asks opNetConnect 0 ∧
          ∀ e ∈ u.pre.framesFor 0 (u.pre.looks u.event), Carries countingPeer e),
        (r.1.tail.flatMap fun u => (u.pre.framesFor 0 (u.pre.looks u.event)).map segSeqOf),
        r.1.take 1 |>.flatMap fun t =>
          acked countingPeer (t.post.socks 0).theirAck (r.2.socks 0).theirAck)) =
      some (true, [2], true, [100, 101], [1, 2]) := by decide +kernel
  obtain ⟨⟨ts, s⟩, hreplay, hfacts⟩ := Option.map_eq_some_iff.mp hfacts
  simp only [Prod.mk.injEq, List.all_eq_true, decide_eq_true_eq] at hfacts
  obtain ⟨hconnects, hhanded, hbetween, hseqs, hacked⟩ := hfacts
  have hrun : Run system ts s := (Run.start (starts_booted _)).append_replay hreplay
  cases ts with
  | nil => cases hconnects
  | cons t b =>
    have hconnects : Connects 0 t := of_decide_eq_true hconnects
    have hhanded : b.flatMap (handed 0) = [2] := hhanded
    have hacked : acked countingPeer (t.post.socks 0).theirAck (s.socks 0).theirAck = [1, 2] :=
      (List.append_nil _).symm.trans hacked
    refine ⟨t, b, s, hrun, hconnects, fun u hu => (hbetween u hu).1, fun u hu => (hbetween u hu).2, hseqs,
      hhanded, hacked, ?_⟩
    rw [hhanded, hacked]
    decide

end Host
end Xernel
