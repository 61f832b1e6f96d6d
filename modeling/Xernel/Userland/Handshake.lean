import Mathlib.Data.Nat.Find
import Xernel.Userland.Segments

/-!
# What decides a handshake

`net_connect` takes the first frame for its port, by bytes 36 and 37, as the answer to its SYN: if it is
marked as a SYN/ACK the connection is up, whoever sent it and whatever it acknowledges, and if not the
connection has failed. A transmission of the final ACK that times out is repeated with the next sequence
number. `netConnect_true_iff` says when it succeeds, and with which numbers.
-/

namespace Xernel

open Checked

/-! ## When the loop succeeds -/

/-- The first frame for the port among those from the `k`-th on, after `j` others. -/
structure FirstOwn (frames : ℕ → Option (List UInt8)) (port k j : ℕ) (r : List UInt8) : Prop where
  others : ∀ i < j, ∃ r', frames (k + i) = some r' ∧ dportOf r' ≠ port
  frame : frames (k + j) = some r
  own : dportOf r = port

/-- The card takes a frame at the transmission after `k` and `t` others, and not before. -/
structure FirstTaken (tx : ℕ → Bool) (k t : ℕ) : Prop where
  others : ∀ i < t, tx (k + 1 + i) = false
  taken : tx (k + 1 + t) = true

/-- The connection is up, after so many receive buffers and with these numbers. -/
def Connects (x : Checked (Net × TcpState × Bool)) (rxPosted ourSeq theirAck : ℕ) : Prop :=
  ∃ n tcp, x = .ok (n, tcp, true) ∧ n.rxPosted = rxPosted ∧ tcp.ourSeq = ourSeq ∧
    tcp.theirAck = theirAck

section Loop

variable {frames : ℕ → Option (List UInt8)} {tx : ℕ → Bool} {port k j j' t t' a b c : ℕ}
  {r r' : List UInt8} {n : Net} {tcp : TcpState}

lemma FirstOwn.unique (h : FirstOwn frames port k j r) (h' : FirstOwn frames port k j' r') :
    j = j' ∧ r = r' := by
  have hle : ∀ {j j' : ℕ} {r r' : List UInt8}, FirstOwn frames port k j r →
      FirstOwn frames port k j' r' → j' ≤ j := by
    intro j j' r r' h h'
    by_contra hlt
    obtain ⟨other, hframe, hport⟩ := h'.others j (by omega)
    rw [h.frame] at hframe
    obtain rfl := Option.some.inj hframe
    exact hport h.own
  obtain rfl := Nat.le_antisymm (hle h' h) (hle h h')
  exact ⟨rfl, Option.some.inj (h.frame.symm.trans h'.frame)⟩

/-- Neither the first frame for the port nor one before it is missing. -/
lemma FirstOwn.received (h : FirstOwn frames port k j r) : ∃ r', frames k = some r' := by
  cases j with
  | zero => exact ⟨r, h.frame⟩
  | succ j =>
    obtain ⟨r', hframe, -⟩ := h.others 0 (Nat.succ_pos j)
    exact ⟨r', hframe⟩

/-- A frame for another port is not the first for the port. -/
lemma FirstOwn.pos (h : FirstOwn frames port k j r) (hframe : frames k = some r')
    (hport : dportOf r' ≠ port) : 0 < j := by
  refine Nat.pos_of_ne_zero fun hzero => hport ?_
  have hown := h.frame
  rw [hzero, Nat.add_zero, hframe] at hown
  rw [Option.some.inj hown]
  exact h.own

/-- Behind a frame for another port. -/
lemma firstOwn_succ (hframe : frames k = some r') (hport : dportOf r' ≠ port) :
    FirstOwn frames port k (j + 1) r ↔ FirstOwn frames port (k + 1) j r := by
  constructor
  · rintro ⟨hothers, hown, hdport⟩
    refine ⟨fun i hi => ?_, ?_, hdport⟩
    · rw [Nat.add_right_comm]
      exact hothers (i + 1) (by omega)
    · rw [Nat.add_right_comm]
      exact hown
  · rintro ⟨hothers, hown, hdport⟩
    refine ⟨fun i hi => ?_, ?_, hdport⟩
    · cases i with
      | zero => exact ⟨r', hframe, hport⟩
      | succ i =>
        rw [← Nat.add_assoc, Nat.add_right_comm]
        exact hothers i (by omega)
    · rw [← Nat.add_assoc, Nat.add_right_comm]
      exact hown

lemma firstTaken_zero : FirstTaken tx k 0 ↔ tx (k + 1) = true :=
  ⟨fun h => h.taken, fun h => ⟨fun i hi => absurd hi (Nat.not_lt_zero i), h⟩⟩

lemma firstTaken_succ : FirstTaken tx k (t + 1) ↔ tx (k + 1) = false ∧ FirstTaken tx (k + 1) t := by
  constructor
  · rintro ⟨hothers, htaken⟩
    refine ⟨hothers 0 (Nat.succ_pos t), fun i hi => ?_, ?_⟩
    · rw [Nat.add_right_comm]
      exact hothers (i + 1) (by omega)
    · rw [Nat.add_right_comm]
      exact htaken
  · rintro ⟨hfirst, hothers, htaken⟩
    refine ⟨fun i hi => ?_, ?_⟩
    · cases i with
      | zero => exact hfirst
      | succ i =>
        rw [← Nat.add_assoc, Nat.add_right_comm]
        exact hothers i (by omega)
    · rw [← Nat.add_assoc, Nat.add_right_comm]
      exact htaken

lemma FirstTaken.pos (h : FirstTaken tx k t) (hfirst : tx (k + 1) = false) : 0 < t := by
  refine Nat.pos_of_ne_zero fun hzero => ?_
  have htaken := h.taken
  rw [hzero, Nat.add_zero, hfirst] at htaken
  cases htaken

lemma FirstTaken.eq_zero (h : FirstTaken tx k t) (hfirst : tx (k + 1) = true) : t = 0 := by
  by_contra hne
  have hother := h.others 0 (Nat.pos_of_ne_zero hne)
  rw [Nat.add_zero, hfirst] at hother
  cases hother

lemma connects_true : Connects (.ok (n, tcp, true)) a b c ↔
    n.rxPosted = a ∧ tcp.ourSeq = b ∧ tcp.theirAck = c := by
  constructor
  · rintro ⟨n', tcp', heq, h⟩
    obtain ⟨rfl, htcp⟩ := Prod.mk.inj (Except.ok.inj heq)
    obtain ⟨rfl, -⟩ := Prod.mk.inj htcp
    exact h
  · exact fun h => ⟨n, tcp, rfl, h⟩

lemma not_connects_false : ¬ Connects (.ok (n, tcp, false)) a b c := by
  rintro ⟨n', tcp', heq, -⟩
  cases heq

lemma Connects.completes {x : Checked (Net × TcpState × Bool)} (h : Connects x a b c) : Completes x := by
  obtain ⟨n', tcp', heq, -⟩ := h
  exact ⟨_, heq⟩

/-- The answer is there: it is confirmed until the card takes the frame. -/
lemma connectLoop_synAck_true (hsyn : isSynAck r = true) (hisn : segSeqOf r + 1 < 2 ^ 32) :
    ∀ (fuel : ℕ) (n : Net) (tcp : TcpState), n.frameAt 128 n.rxPosted = some r →
      dportOf r = tcp.sport.toNat → tcp.ourSeq + fuel < 2 ^ 32 →
      (Connects (connectLoop fuel n tcp) a b c ↔ ∃ t < fuel, FirstTaken n.tx n.txPosted t ∧
        n.txPosted + 1 + t < 2 ^ 16 ∧ n.rxPosted = a ∧ tcp.ourSeq + 1 + t = b ∧
        segSeqOf r + 1 = c) := by
  intro fuel
  induction fuel with
  | zero =>
    intro n tcp hr hport hseq
    refine iff_of_false not_connects_false ?_
    rintro ⟨t, hlt, -⟩
    exact Nat.not_lt_zero t hlt
  | succ fuel ih =>
    intro n tcp hr hport hseq
    rw [connectLoop_synAck hr hport hsyn (by omega), add_of_lt hisn, ok_bind]
    by_cases htx : n.txPosted + 1 < 2 ^ 16
    · obtain ⟨frame, hsend⟩ := (tcp.answered r).send_nil tcpAck htx
      rw [hsend, ok_bind]
      have hnext : Connects (connectLoop fuel (n.transmitted frame) (tcp.answered r)) a b c ↔
          ∃ t < fuel, FirstTaken n.tx (n.txPosted + 1) t ∧ n.txPosted + 1 + 1 + t < 2 ^ 16 ∧
            n.rxPosted = a ∧ tcp.ourSeq + 1 + 1 + t = b ∧ segSeqOf r + 1 = c :=
        ih (n.transmitted frame) (tcp.answered r) hr hport (by simp only [TcpState.answered]; omega)
      -- a confirmation that the card does not take costs an attempt and a sequence number
      cases htaken : n.tx (n.txPosted + 1) with
      | false =>
        rw [if_neg Bool.false_ne_true, hnext]
        constructor
        · rintro ⟨t, hlt, hfirst, hcount, ha, hb, hc⟩
          exact ⟨t + 1, by omega, firstTaken_succ.mpr ⟨htaken, hfirst⟩, by omega, ha, by omega, hc⟩
        · rintro ⟨t, hlt, hfirst, hcount, ha, hb, hc⟩
          obtain ⟨t, rfl⟩ := Nat.exists_eq_add_one.mpr (hfirst.pos htaken)
          exact ⟨t, by omega, (firstTaken_succ.mp hfirst).2, by omega, ha, by omega, hc⟩
      | true =>
        rw [if_pos rfl]
        refine connects_true.trans ?_
        constructor
        · rintro ⟨ha, hb, hc⟩
          exact ⟨0, Nat.succ_pos _, firstTaken_zero.mpr htaken, htx, ha, hb, hc⟩
        · rintro ⟨t, -, hfirst, -, ha, hb, hc⟩
          obtain rfl := hfirst.eq_zero htaken
          exact ⟨ha, hb, hc⟩
    · refine iff_of_false (fun hconnects => ?_) ?_
      · obtain ⟨s, hsend, -⟩ := completes_bind.mp hconnects.completes
        exact htx (TcpState.send_completes.mp ⟨s, hsend⟩).2
      · rintro ⟨t, -, -, hcount, -⟩
        omega

/-- The loop ends well with the first frame for the port: if it is marked as a SYN/ACK, once the card
takes the confirmation. -/
lemma connectLoop_true : ∀ (fuel : ℕ) (n : Net) (tcp : TcpState),
    n.rxPosted < 2 ^ 16 → tcp.ourSeq + fuel < 2 ^ 32 →
    (Connects (connectLoop fuel n tcp) a b c ↔ ∃ j t r, j + t < fuel ∧
      FirstOwn (n.frameAt 128) tcp.sport.toNat n.rxPosted j r ∧ isSynAck r = true ∧
      segSeqOf r + 1 < 2 ^ 32 ∧ FirstTaken n.tx n.txPosted t ∧ n.rxPosted + j < 2 ^ 16 ∧
      n.txPosted + 1 + t < 2 ^ 16 ∧ n.rxPosted + j = a ∧ tcp.ourSeq + 1 + t = b ∧
      segSeqOf r + 1 = c) := by
  intro fuel
  induction fuel with
  | zero =>
    intro n tcp hrx hseq
    refine iff_of_false not_connects_false ?_
    rintro ⟨j, t, r, hlt, -⟩
    exact Nat.not_lt_zero _ hlt
  | succ fuel ih =>
    intro n tcp hrx hseq
    cases hr : n.frameAt 128 n.rxPosted with
    | none =>
      have hwait : netRxWait n 128 = none := hr
      rw [connectLoop, hwait]
      refine iff_of_false not_connects_false ?_
      rintro ⟨j, t, r, -, hfirst, -⟩
      obtain ⟨r', hframe⟩ := hfirst.received
      rw [hr] at hframe
      cases hframe
    | some r' =>
      by_cases hport : dportOf r' = tcp.sport.toNat
      · have hown : FirstOwn (n.frameAt 128) tcp.sport.toNat n.rxPosted 0 r' :=
          ⟨fun i hi => absurd hi (Nat.not_lt_zero i), hr, hport⟩
        -- a frame for the port decides: nothing after it is looked at
        cases hsyn : isSynAck r' with
        | false =>
          rw [connectLoop_refused hr hport hsyn]
          refine iff_of_false not_connects_false ?_
          rintro ⟨j, t, r, -, hfirst, hsyn', -⟩
          obtain ⟨-, rfl⟩ := hown.unique hfirst
          rw [hsyn] at hsyn'
          cases hsyn'
        | true =>
          by_cases hisn : segSeqOf r' + 1 < 2 ^ 32
          · rw [connectLoop_synAck_true hsyn hisn (fuel + 1) n tcp hr hport hseq]
            constructor
            · rintro ⟨t, hlt, htaken, hcount, ha, hb, hc⟩
              exact ⟨0, t, r', by omega, hown, hsyn, hisn, htaken, hrx, hcount, ha, hb, hc⟩
            · rintro ⟨j, t, r, hlt, hfirst, -, -, htaken, -, hcount, ha, hb, hc⟩
              obtain ⟨rfl, rfl⟩ := hown.unique hfirst
              exact ⟨t, by omega, htaken, hcount, ha, hb, hc⟩
          · rw [connectLoop_synAck hr hport hsyn (by omega), add_of_not_lt hisn, error_bind]
            refine iff_of_false (fun hconnects => not_completes_error _ hconnects.completes) ?_
            rintro ⟨j, t, r, -, hfirst, -, hisn', -⟩
            obtain ⟨-, rfl⟩ := hown.unique hfirst
            exact hisn hisn'
      · -- a frame for another port is skipped, after a new buffer was armed
        rw [connectLoop_skip hr hport]
        by_cases harm : n.rxPosted + 1 < 2 ^ 16
        · have hnext : Connects (connectLoop fuel n.armed tcp) a b c ↔ ∃ j t r, j + t < fuel ∧
              FirstOwn (n.frameAt 128) tcp.sport.toNat (n.rxPosted + 1) j r ∧ isSynAck r = true ∧
              segSeqOf r + 1 < 2 ^ 32 ∧ FirstTaken n.tx n.txPosted t ∧
              n.rxPosted + 1 + j < 2 ^ 16 ∧ n.txPosted + 1 + t < 2 ^ 16 ∧
              n.rxPosted + 1 + j = a ∧ tcp.ourSeq + 1 + t = b ∧ segSeqOf r + 1 = c :=
            ih n.armed tcp harm (by omega)
          rw [netRxArm_eq_ok.mpr ⟨harm, rfl⟩, ok_bind, hnext]
          constructor
          · rintro ⟨j, t, r, hlt, hfirst, hsyn, hisn, htaken, hrx', hcount, ha, hb, hc⟩
            exact ⟨j + 1, t, r, by omega, (firstOwn_succ hr hport).mpr hfirst, hsyn, hisn, htaken,
              by omega, hcount, by omega, hb, hc⟩
          · rintro ⟨j, t, r, hlt, hfirst, hsyn, hisn, htaken, hrx', hcount, ha, hb, hc⟩
            obtain ⟨j, rfl⟩ := Nat.exists_eq_add_one.mpr (hfirst.pos hr hport)
            exact ⟨j, t, r, by omega, (firstOwn_succ hr hport).mp hfirst, hsyn, hisn, htaken,
              by omega, hcount, by omega, hb, hc⟩
        · refine iff_of_false (fun hconnects => ?_) ?_
          · obtain ⟨n', hn, -⟩ := completes_bind.mp hconnects.completes
            exact harm (netRxArm_eq_ok.mp hn).1
          · rintro ⟨j, t, r, -, hfirst, -, -, -, hrx', -⟩
            have hpos := hfirst.pos hr hport
            omega

/-! ## When the handshake succeeds -/

/-- The SYN is sent; of the four frames looked at, the one after `j` others is the first for the port, and
marked as a SYN/ACK; of the transmissions that are left, the one after `t` others is the first that the
card takes. -/
structure Accepted (n : Net) (tcp : TcpState) (j t : ℕ) (r : List UInt8) : Prop where
  syn : n.tx (n.txPosted + 1) = true
  attempts : j + t < 4
  first : FirstOwn (n.frameAt 128) tcp.sport.toNat (n.rxPosted + 1) j r
  synAck : isSynAck r = true
  isn : segSeqOf r + 1 < 2 ^ 32
  taken : FirstTaken n.tx (n.txPosted + 1) t
  rxCount : n.rxPosted + 1 + j < 2 ^ 16
  txCount : n.txPosted + 2 + t < 2 ^ 16

lemma netConnect_true_iff : Connects (netConnect n tcp) a b c ↔ ∃ j t r, Accepted n tcp j t r ∧
    n.rxPosted + 1 + j = a ∧ 0x1000 + tcp.sport.toNat + 1 + t = b ∧ segSeqOf r + 1 = c := by
  have hport := tcp.sport.toNat_lt
  rw [netConnect_eq]
  by_cases hrx : n.rxPosted + 1 < 2 ^ 16
  · rw [netRxArm_eq_ok.mpr ⟨hrx, rfl⟩, ok_bind]
    by_cases htx : n.txPosted + 1 < 2 ^ 16
    · obtain ⟨frame, hsend⟩ := tcp.opening.send_nil (n := n.armed) tcpSyn htx
      rw [hsend, ok_bind]
      cases hsyn : n.armed.tx (n.armed.txPosted + 1) with
      | false =>
        refine iff_of_false not_connects_false ?_
        rintro ⟨j, t, r, haccepted, -⟩
        have htrue : n.armed.tx (n.armed.txPosted + 1) = true := haccepted.syn
        rw [hsyn] at htrue
        cases htrue
      | true =>
        rw [if_pos rfl]
        refine (connectLoop_true 4 (n.armed.transmitted frame) tcp.opening hrx (by
          simp only [TcpState.opening]
          omega)).trans ?_
        constructor
        · rintro ⟨j, t, r, hlt, hfirst, hmark, hisn, htaken, hcount, hcount', ha, hb, hc⟩
          exact ⟨j, t, r, ⟨hsyn, hlt, hfirst, hmark, hisn, htaken, hcount, hcount'⟩, ha, hb, hc⟩
        · rintro ⟨j, t, r, haccepted, ha, hb, hc⟩
          exact ⟨j, t, r, haccepted.attempts, haccepted.first, haccepted.synAck, haccepted.isn,
            haccepted.taken, haccepted.rxCount, haccepted.txCount, ha, hb, hc⟩
    · refine iff_of_false (fun hconnects => ?_) ?_
      · obtain ⟨s, hsend, -⟩ := completes_bind.mp hconnects.completes
        exact htx (TcpState.send_completes.mp ⟨s, hsend⟩).2
      · rintro ⟨j, t, r, haccepted, -⟩
        have hcount := haccepted.txCount
        omega
  · refine iff_of_false (fun hconnects => ?_) ?_
    · obtain ⟨n', hn, -⟩ := completes_bind.mp hconnects.completes
      exact hrx (netRxArm_eq_ok.mp hn).1
    · rintro ⟨j, t, r, haccepted, -⟩
      have hcount := haccepted.rxCount
      omega

end Loop

/-! ## The answer to the SYN -/

/-- The frame that `net_connect` receives after `i` others. -/
def Net.answer (n : Net) (i : ℕ) : Option (List UInt8) := n.frameAt 128 (n.rxPosted + 1 + i)

/-- A SYN/ACK from the peer that acknowledges the SYN. -/
structure Genuine (tcp : TcpState) (r : List UInt8) : Prop where
  peer : FromPeer tcp r
  syn : synFlag r = true
  ack : ackFlag r = true
  number : ackNum r = 0x1000 + tcp.sport.toNat + 1

/-- The SYN is sent; at most three other frames are received before a genuine answer; and the card takes
the confirmation in one of the attempts that are left. -/
structure Answered (n : Net) (tcp : TcpState) (g : ℕ) (r : List UInt8) : Prop where
  syn : n.tx (n.txPosted + 1) = true
  le_three : g ≤ 3
  others : ∀ i < g, ∃ r', n.answer i = some r' ∧ ¬ Genuine tcp r'
  frame : n.answer g = some r
  genuine : Genuine tcp r
  taken : ∃ i < 4 - g, n.tx (n.txPosted + 2 + i) = true

/-- The handshake is decided by the answer: with one, the connection is up and has its numbers; and it is
up only if a genuine answer is among the frames received. -/
structure Decided (n : Net) (tcp : TcpState) : Prop where
  established : ∀ g r, Answered n tcp g r → ∃ n' tcp', netConnect n tcp = .ok (n', tcp', true) ∧
    tcp'.ourSeq = 0x1000 + tcp.sport.toNat + 1 ∧ tcp'.theirAck = (seqNum r + 1) % 2 ^ 32
  genuine : ∀ n' tcp', netConnect n tcp = .ok (n', tcp', true) → ∃ i r,
    n.rxPosted + 1 + i ≤ n'.rxPosted ∧ n.answer i = some r ∧ Genuine tcp r

/-- With a genuine answer, the first frame for the port does not come before it, is marked as a SYN/ACK,
has the number of the answer, and the first confirmation is taken; without one, no frame is accepted. -/
structure Orderly (n : Net) (tcp : TcpState) : Prop where
  answered : ∀ g r, Answered n tcp g r → ∃ j r', g ≤ j ∧ Accepted n tcp j 0 r' ∧ segSeqOf r' = seqNum r
  unanswered : (∀ g r, ¬ Answered n tcp g r) → ∀ j t r, ¬ Accepted n tcp j t r

section Decided

variable {n : Net} {tcp : TcpState} {j t : ℕ} {r : List UInt8}

/-- Among the frames up to the accepted one, a genuine answer is an answer in time. -/
lemma Accepted.answered (h : Accepted n tcp j t r) {i : ℕ} {r' : List UInt8} (hi : i ≤ j)
    (hframe : n.answer i = some r') (hgenuine : Genuine tcp r') :
    ∃ g ≤ i, ∃ r'', Answered n tcp g r'' := by
  classical
  have hattempts := h.attempts
  have hex : ∃ g, ∃ r'', n.answer g = some r'' ∧ Genuine tcp r'' := ⟨i, r', hframe, hgenuine⟩
  obtain ⟨r'', hframe', hgenuine'⟩ := Nat.find_spec hex
  have hle : Nat.find hex ≤ i := Nat.find_min' hex ⟨r', hframe, hgenuine⟩
  refine ⟨Nat.find hex, hle, r'', h.syn, by omega, fun i' hi' => ?_, hframe', hgenuine', t, by omega,
    h.taken.taken⟩
  obtain ⟨other, hother, -⟩ := h.first.others i' (by omega)
  exact ⟨other, hother, fun hother' => Nat.find_min hex hi' ⟨other, hother, hother'⟩⟩

end Decided

/-- A handshake is decided by the answer to the SYN exactly if it is orderly. -/
theorem connect_decided_iff (n : Net) (tcp : TcpState) : Decided n tcp ↔ Orderly n tcp := by
  constructor
  · intro hdecided
    refine ⟨fun g r hanswered => ?_, fun hnone j t r haccepted => ?_⟩
    · obtain ⟨n', tcp', hok, hseq, hack⟩ := hdecided.established g r hanswered
      obtain ⟨j, t, r', haccepted, hrx, hb, hc⟩ :=
        netConnect_true_iff.mp ⟨n', tcp', hok, rfl, hseq, hack⟩
      obtain rfl : t = 0 := by omega
      obtain ⟨i, r'', hi, hframe, hgenuine⟩ := hdecided.genuine n' tcp' hok
      refine ⟨j, r', ?_, haccepted, ?_⟩
      · -- a genuine answer that was received is not before the first one
        by_contra hlt
        obtain ⟨other, hother, hnot⟩ := hanswered.others i (by omega)
        rw [hframe] at hother
        obtain rfl := Option.some.inj hother
        exact hnot hgenuine
      · have hisn := haccepted.isn
        have hlt : seqNum r < 256 ^ 4 := field_lt r _ 4
        omega
    · obtain ⟨n', tcp', hok, hrx, -⟩ := netConnect_true_iff.mpr ⟨j, t, r, haccepted, rfl, rfl, rfl⟩
      obtain ⟨i, r', hi, hframe, hgenuine⟩ := hdecided.genuine n' tcp' hok
      obtain ⟨g, -, r'', hanswered⟩ := haccepted.answered (by omega) hframe hgenuine
      exact hnone g r'' hanswered
  · intro horderly
    refine ⟨fun g r hanswered => ?_, fun n' tcp' hok => ?_⟩
    · obtain ⟨j, r', -, haccepted, hnumber⟩ := horderly.answered g r hanswered
      obtain ⟨n', tcp', hok, -, hseq, hack⟩ :=
        netConnect_true_iff.mpr ⟨j, 0, r', haccepted, rfl, rfl, rfl⟩
      refine ⟨n', tcp', hok, hseq, ?_⟩
      have hisn := haccepted.isn
      rw [hack, ← hnumber, Nat.mod_eq_of_lt hisn]
    · obtain ⟨j, t, r, haccepted, hrx, -⟩ := netConnect_true_iff.mp ⟨n', tcp', hok, rfl, rfl, rfl⟩
      by_cases hex : ∃ g r', Answered n tcp g r'
      · obtain ⟨g, r', hanswered⟩ := hex
        obtain ⟨j', r'', hle, haccepted', -⟩ := horderly.answered g r' hanswered
        obtain ⟨rfl, -⟩ := haccepted.first.unique haccepted'.first
        exact ⟨g, r', by omega, hanswered.frame, hanswered.genuine⟩
      · refine absurd haccepted (horderly.unanswered (fun g r' hanswered => ?_) j t r)
        exact hex ⟨g, r', hanswered⟩

/-- A card that receives a FIN/ACK of an earlier connection and then the SYN/ACK. -/
def staleNet : Net where
  mac := fun _ => 0x52
  rx := fun k => some fun i =>
    (if k = 1 then peerFrame (tcpFin ||| tcpAck) 5000 0xD000 0
      else peerFrame (tcpSyn ||| tcpAck) 7000 0xD001 0).getD i 0
  rxPosted := 0
  tx := fun _ => true
  txPosted := 0
  sent := []

/-- The stale segment is for the same port, and the connection fails. -/
theorem not_connect_decided : ¬ Decided staleNet (echoHost.socks 0) := by
  intro hdecided
  have hstale : ∀ r, staleNet.answer 0 = some r → dportOf r = 49152 ∧ synFlag r = false ∧
      isSynAck r = false := by
    intro r hr
    rw [← Option.some.inj hr]
    refine ⟨?_, ?_, ?_⟩ <;> decide +kernel
  obtain ⟨r₀, hr₀⟩ : ∃ r, staleNet.answer 0 = some r := ⟨_, rfl⟩
  obtain ⟨hport, hsyn, hmark⟩ := hstale r₀ hr₀
  obtain ⟨r, hr⟩ : ∃ r, staleNet.answer 1 = some r := ⟨_, rfl⟩
  have hgenuine : Genuine (echoHost.socks 0) r := by
    rw [← Option.some.inj hr]
    constructor
    case peer => constructor <;> decide +kernel
    all_goals decide +kernel
  have hanswered : Answered staleNet (echoHost.socks 0) 1 r := by
    refine ⟨rfl, by decide, fun i hi => ?_, hr, hgenuine, 0, by decide, rfl⟩
    obtain rfl : i = 0 := by omega
    refine ⟨r₀, hr₀, fun hgenuine₀ => ?_⟩
    have htrue := hgenuine₀.syn
    rw [hsyn] at htrue
    cases htrue
  obtain ⟨n', tcp', hok, -⟩ := hdecided.established 1 r hanswered
  obtain ⟨j, t, r', haccepted, -⟩ := netConnect_true_iff.mp ⟨n', tcp', hok, rfl, rfl, rfl⟩
  have hown : FirstOwn (staleNet.frameAt 128) 49152 1 0 r₀ :=
    ⟨fun i hi => absurd hi (Nat.not_lt_zero i), hr₀, hport⟩
  obtain ⟨-, rfl⟩ := hown.unique haccepted.first
  have htrue := haccepted.synAck
  rw [hmark] at htrue
  cases htrue

end Xernel
