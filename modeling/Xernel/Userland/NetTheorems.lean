import Xernel.Userland.Net

/-!
# When the network driver panics

Sending a segment completes when its data fits into the 64 bytes the frame has for it and the count of
transmitted frames does not overflow; arming a buffer, when the count of armed ones does not. A
handshake adds to these the sequence number of the answer. The conditions are exact: what the driver
looks at on the way is described by `skipped` and `tries`.
-/

namespace Xernel

open Checked

lemma rdField_of_le {e : List UInt8} {off n : ℕ} (h : off + n ≤ e.length) :
    rdField e off n = .ok (field e off n) := by
  rw [rdField, slice_of_le (Nat.le_add_right _ _) h, Nat.add_sub_cancel_left]
  rfl

lemma field_lt (e : List UInt8) (off n : ℕ) : field e off n < 256 ^ n := by
  unfold field
  have hlt := leNat_lt ((e.drop off).take n).reverse
  have hle : ((e.drop off).take n).reverse.length ≤ n := by
    rw [List.length_reverse]
    exact List.length_take_le _ _
  exact Nat.lt_of_lt_of_le hlt (Nat.pow_le_pow_right (by decide) hle)

/-- The bytes of a number at an offset of a frame. -/
lemma take_eq_be32_iff {e : List UInt8} {off x : ℕ} (hlen : off + 4 ≤ e.length) :
    (e.drop off).take 4 = be32 x ↔ field e off 4 = x % 2 ^ 32 := by
  unfold field be32
  constructor
  · intro htake
    rw [htake, List.reverse_reverse, leNat_leBytes]
    rfl
  · intro hnat
    have hfour : ((e.drop off).take 4).reverse.length = 4 := by simp; omega
    have hbytes := leBytes_leNat ((e.drop off).take 4).reverse
    have hmod : leBytes 4 (x % 2 ^ 32) = leBytes 4 x := by
      have hsame := leBytes_leNat (leBytes 4 x)
      rw [length_leBytes, leNat_leBytes] at hsame
      exact hsame
    rw [hfour, hnat, hmod] at hbytes
    rw [hbytes, List.reverse_reverse]

/-! ## Checksums -/

/-- The sum of a buffer shorter than `2 ^ 16` words does not overflow. -/
lemma sumWords_completes (buf : List UInt8) (sum : ℕ) (h : sum + 2 ^ 16 * buf.length < 2 ^ 32) :
    Completes (sumWords buf sum) := by
  fun_induction sumWords buf sum with
  | case1 a b buf sum ih =>
    have ha := a.toNat_lt
    have hb := b.toNat_lt
    simp only [List.length_cons] at h
    rw [completes_bind]
    exact ⟨_, add_of_lt (by omega), ih _ (by omega)⟩
  | case2 a sum =>
    have ha := a.toNat_lt
    simp only [List.length_cons, List.length_nil] at h
    exact ⟨_, add_of_lt (by omega)⟩
  | case3 sum => exact completes_ok sum

/-- Two folds are enough for a sum of 32 bits. -/
lemma foldCarries_lt {sum : ℕ} (h : sum < 2 ^ 32) : foldCarries 2 sum < 2 ^ 16 := by
  simp only [foldCarries]
  split_ifs <;> omega

lemma inetChecksum_completes {buf : List UInt8} (h : buf.length < 2 ^ 16) :
    Completes (inetChecksum buf) := by
  obtain ⟨sum, hsum⟩ := sumWords_completes buf 0 (by omega)
  rw [inetChecksum, hsum, ok_bind]
  exact completes_pure _

lemma tcpChecksum_completes {src dst seg : List UInt8} (hsrc : src.length = 4)
    (hdst : dst.length = 4) (hseg : seg.length ≤ 116) : Completes (tcpChecksum src dst seg) := by
  have hcopy : Completes (copyAll (List.replicate 128 0)
      [(0, src), (4, dst), (9, [6]), (10, be16 seg.length), (12, seg)]) := by
    rw [(copyAll_spec _ _).2]
    simp [hsrc, hdst, be16]
    omega
  obtain ⟨buf, hbuf⟩ := hcopy
  have hlen : buf.length = 128 := by
    rw [(copyAll_spec _ _).1 buf hbuf, List.length_replicate]
  rw [tcpChecksum, hbuf, ok_bind, slice_of_le (Nat.zero_le _) (by omega), ok_bind]
  refine inetChecksum_completes ?_
  rw [List.length_take, List.length_drop]
  omega

/-! ## Sending and receiving -/

/-- The driver after a transmission. -/
def Net.transmitted (n : Net) (frame : List UInt8) : Net :=
  { n with txPosted := n.txPosted + 1, sent := n.sent ++ [frame] }

/-- The driver after another buffer was armed. -/
def Net.armed (n : Net) : Net := { n with rxPosted := n.rxPosted + 1 }

lemma netRxArm_eq_ok {n n' : Net} :
    netRxArm n = .ok n' ↔ n.rxPosted + 1 < 2 ^ 16 ∧ n' = n.armed := by
  rw [netRxArm, bind_eq_ok]
  constructor
  · rintro ⟨posted, hadd, hn⟩
    obtain ⟨hlt, rfl⟩ := add_eq_ok.mp hadd
    exact ⟨hlt, (Except.ok.inj hn).symm⟩
  · rintro ⟨hlt, rfl⟩
    exact ⟨_, add_of_lt hlt, rfl⟩

lemma netTx_eq_ok {n : Net} {frame : List UInt8} {r : Net × Bool} :
    netTx n frame = .ok r ↔
      n.txPosted + 1 < 2 ^ 16 ∧ r = (n.transmitted frame, n.tx (n.txPosted + 1)) := by
  rw [netTx, bind_eq_ok]
  constructor
  · rintro ⟨posted, hadd, hr⟩
    obtain ⟨hlt, rfl⟩ := add_eq_ok.mp hadd
    exact ⟨hlt, (Except.ok.inj hr).symm⟩
  · rintro ⟨hlt, rfl⟩
    exact ⟨_, add_of_lt hlt, rfl⟩

section Send

variable {n : Net} {dmac : Fin 6 → UInt8} {dip : Fin 4 → UInt8} {sport dport : UInt16} {seq ack : ℕ}
  {flags : UInt8} {data : List UInt8}

/-- A segment with room for its data is transmitted, in some frame. -/
lemma netTcpSend_of_le (hdata : data.length ≤ 64) (htx : n.txPosted + 1 < 2 ^ 16) :
    ∃ frame, netTcpSend n dmac dip sport dport seq ack flags data =
      .ok (n.transmitted frame, n.tx (n.txPosted + 1)) := by
  -- the writes before the checksum of the header, and those after it
  have hfirst : Completes (copyAll (List.replicate (14 + 20 + 20 + 64) 0)
      [(0, List.ofFn dmac), (6, List.ofFn n.mac), (12, [0x08, 0x00]), (14, [0x45]),
        (16, be16 (20 + (20 + data.length))), (18, [0x42]), (22, [64]), (23, [6]), (26, ourIp),
        (30, List.ofFn dip)]) := by
    rw [(copyAll_spec _ _).2]
    simp [be16, ourIp]
  obtain ⟨f, hf⟩ := hfirst
  have hlen : f.length = 118 := by
    rw [(copyAll_spec _ _).1 f hf, List.length_replicate]
  obtain ⟨ipsum, hipsum⟩ : Completes (inetChecksum ((f.drop 14).take (34 - 14))) :=
    inetChecksum_completes (by rw [List.length_take, List.length_drop]; omega)
  have hsecond : Completes (copyAll f
      [(24, be16 ipsum), (34, be16 sport.toNat), (36, be16 dport.toNat), (38, be32 seq),
        (42, be32 ack), (46, [0x50]), (47, [flags]), (48, [0x40]), (54, data)]) := by
    rw [(copyAll_spec _ _).2, hlen]
    simp [be16, be32, length_leBytes]
    omega
  obtain ⟨f₂, hf₂⟩ := hsecond
  have hlen₂ : f₂.length = 118 := by rw [(copyAll_spec _ _).1 f₂ hf₂, hlen]
  obtain ⟨cks, hcks⟩ : Completes (tcpChecksum ourIp (List.ofFn dip)
      ((f₂.drop 34).take (34 + (20 + data.length) - 34))) :=
    tcpChecksum_completes rfl (List.length_ofFn) (by
      rw [List.length_take, List.length_drop]
      omega)
  obtain ⟨f₃, hf₃⟩ : Completes (copyAll f₂ [(50, be16 cks)]) := by
    rw [(copyAll_spec _ _).2, hlen₂]
    simp [be16]
  have hlen₃ : f₃.length = 118 := by rw [(copyAll_spec _ _).1 f₃ hf₃, hlen₂]
  refine ⟨(f₃.drop 0).take (14 + (20 + (20 + data.length)) - 0), ?_⟩
  rw [netTcpSend]
  rw [hf, ok_bind, slice_of_le (by omega) (by omega), ok_bind, hipsum, ok_bind, hf₂, ok_bind,
    slice_of_le (by omega) (by omega), ok_bind, hcks, ok_bind, hf₃, ok_bind,
    slice_of_le (by omega) (by omega), ok_bind]
  exact netTx_eq_ok.mpr ⟨htx, rfl⟩

/-- Data that does not fit is an access out of bounds; otherwise the count of frames decides. -/
lemma netTcpSend_completes :
    Completes (netTcpSend n dmac dip sport dport seq ack flags data) ↔
      data.length ≤ 64 ∧ n.txPosted + 1 < 2 ^ 16 := by
  constructor
  · rintro ⟨r, h⟩
    rw [netTcpSend] at h
    obtain ⟨f, hf, h⟩ := bind_eq_ok.mp h
    obtain ⟨header, -, h⟩ := bind_eq_ok.mp h
    obtain ⟨ipsum, -, h⟩ := bind_eq_ok.mp h
    obtain ⟨f₂, hf₂, h⟩ := bind_eq_ok.mp h
    obtain ⟨seg, -, h⟩ := bind_eq_ok.mp h
    obtain ⟨cks, -, h⟩ := bind_eq_ok.mp h
    obtain ⟨f₃, -, h⟩ := bind_eq_ok.mp h
    obtain ⟨frame, -, h⟩ := bind_eq_ok.mp h
    have hlen : f.length = 118 := by
      rw [(copyAll_spec _ _).1 f hf, List.length_replicate]
    have hfits := (copyAll_spec _ _).2.mp ⟨f₂, hf₂⟩ (54, data) (by simp)
    exact ⟨by simp only at hfits; omega, (netTx_eq_ok.mp h).1⟩
  · rintro ⟨hdata, htx⟩
    obtain ⟨frame, hsend⟩ := netTcpSend_of_le hdata htx
    exact ⟨_, hsend⟩

end Send

/-! ## Connecting -/

/-- The first `len` bytes of the receive buffer once `k` buffers are filled. -/
def Net.frameAt (n : Net) (len k : ℕ) : Option (List UInt8) :=
  (n.rx k).map fun frame => (List.range len).map frame

lemma Net.length_of_frameAt {n : Net} {len k : ℕ} {e : List UInt8} (h : n.frameAt len k = some e) :
    e.length = len := by
  obtain ⟨frame, -, rfl⟩ := Option.map_eq_some_iff.mp h
  rw [List.length_map, List.length_range]

/-- The destination port of a frame. -/
def dportOf (e : List UInt8) : ℕ := field e 36 2

/-- The sequence number of the segment in a frame. -/
def segSeqOf (e : List UInt8) : ℕ := field e 38 4

lemma rdDport_of_le {e : List UInt8} (h : 38 ≤ e.length) : rdDport e = .ok (dportOf e) :=
  rdField_of_le h

lemma rdSegSeq_of_le {e : List UInt8} (h : 42 ≤ e.length) : rdField e 38 4 = .ok (segSeqOf e) :=
  rdField_of_le h

/-- The frame answers a SYN. -/
def isSynAck (r : List UInt8) : Bool :=
  (r.drop 12).take 2 == [0x08, 0x00] && (r.drop 23).take 1 == [6] &&
    ((r.drop 47).take 1).all fun b => b &&& (tcpSyn ||| tcpAck) == tcpSyn ||| tcpAck

lemma rdSynAck_of_le {r : List UInt8} (h : 48 ≤ r.length) : rdSynAck r = .ok (isSynAck r) := by
  rw [rdSynAck, slice_of_le (by omega) (by omega), ok_bind, slice_of_le (by omega) (by omega), ok_bind,
    slice_of_le (by omega) h]
  rfl

/-- How many of the frames from the `k`-th on are skipped because they are for another port, in so many
attempts. -/
def skipped (frames : ℕ → Option (List UInt8)) (port : ℕ) : ℕ → ℕ → ℕ
  | 0, _ => 0
  | fuel + 1, k =>
    match frames k with
    | none => 0
    | some r => if dportOf r ≠ port then 1 + skipped frames port fuel (k + 1) else 0

/-- How often the handshake is confirmed until the card takes the frame, in so many attempts. -/
def tries (tx : ℕ → Bool) : ℕ → ℕ → ℕ
  | 0, _ => 0
  | fuel + 1, k => 1 + if tx (k + 1) then 0 else tries tx fuel (k + 1)

section Connect

variable {r : List UInt8} {fuel : ℕ} {n : Net} {tcp : TcpState}

/-- The connection as it stands when the answer `r` is confirmed. -/
def TcpState.answered (tcp : TcpState) (r : List UInt8) : TcpState :=
  { tcp with ourSeq := tcp.ourSeq + 1, theirAck := segSeqOf r + 1 }

lemma TcpState.send_completes {flags : UInt8} {data : List UInt8} :
    Completes (tcp.send n flags data) ↔ data.length ≤ 64 ∧ n.txPosted + 1 < 2 ^ 16 :=
  netTcpSend_completes

lemma TcpState.send_of_le {flags : UInt8} {data : List UInt8} (hdata : data.length ≤ 64)
    (htx : n.txPosted + 1 < 2 ^ 16) :
    ∃ frame, tcp.send n flags data = .ok (n.transmitted frame, n.tx (n.txPosted + 1)) :=
  netTcpSend_of_le hdata htx

/-- A segment without data needs a count only. -/
lemma TcpState.send_nil (tcp : TcpState) (flags : UInt8) (htx : n.txPosted + 1 < 2 ^ 16) :
    ∃ frame, tcp.send n flags [] = .ok (n.transmitted frame, n.tx (n.txPosted + 1)) :=
  TcpState.send_of_le (Nat.zero_le _) htx

/-- An attempt that finds a frame for another port. -/
lemma connectLoop_skip (hr : n.frameAt 128 n.rxPosted = some r) (hport : dportOf r ≠ tcp.sport.toNat) :
    connectLoop (fuel + 1) n tcp = netRxArm n >>= fun n => connectLoop fuel n tcp := by
  have hlen := Net.length_of_frameAt hr
  have hwait : netRxWait n 128 = some r := hr
  rw [connectLoop, hwait]
  dsimp only
  rw [rdDport_of_le (by omega), ok_bind, if_pos hport]

/-- An attempt that finds some other frame for this port. -/
lemma connectLoop_refused (hr : n.frameAt 128 n.rxPosted = some r)
    (hport : dportOf r = tcp.sport.toNat) (hsyn : isSynAck r = false) :
    connectLoop (fuel + 1) n tcp = .ok (n, tcp, false) := by
  have hlen := Net.length_of_frameAt hr
  have hwait : netRxWait n 128 = some r := hr
  rw [connectLoop, hwait]
  dsimp only
  rw [rdDport_of_le (by omega), ok_bind, if_neg (not_not.mpr hport),
    rdSynAck_of_le (by omega), ok_bind, hsyn]
  rfl

/-- An attempt that finds the answer. -/
lemma connectLoop_synAck (hr : n.frameAt 128 n.rxPosted = some r)
    (hport : dportOf r = tcp.sport.toNat) (hsyn : isSynAck r = true)
    (hseq : tcp.ourSeq + 1 < 2 ^ 32) :
    connectLoop (fuel + 1) n tcp = add 32 (segSeqOf r) 1 >>= fun _ =>
      (tcp.answered r).send n tcpAck [] >>= fun s =>
        if s.2 then pure (s.1, tcp.answered r, true) else connectLoop fuel s.1 (tcp.answered r) := by
  have hlen := Net.length_of_frameAt hr
  have hwait : netRxWait n 128 = some r := hr
  rw [connectLoop, hwait]
  dsimp only
  rw [rdDport_of_le (by omega), ok_bind, if_neg (not_not.mpr hport),
    rdSynAck_of_le (by omega), ok_bind, hsyn, if_pos rfl, rdSegSeq_of_le (by omega), ok_bind,
    add_of_lt hseq, ok_bind]
  by_cases hisn : segSeqOf r + 1 < 2 ^ 32
  · rw [add_of_lt hisn, ok_bind, ok_bind]
    rfl
  · rw [add_of_not_lt hisn, error_bind, error_bind]

lemma connectLoop_synAck_completes (fuel : ℕ) (hr : n.frameAt 128 n.rxPosted = some r)
    (hport : dportOf r = tcp.sport.toNat) (hsyn : isSynAck r = true)
    (hseq : tcp.ourSeq + 1 < 2 ^ 32) :
    ∃ frame, Completes (connectLoop (fuel + 1) n tcp) ↔ segSeqOf r + 1 < 2 ^ 32 ∧
      n.txPosted + 1 < 2 ^ 16 ∧ (n.tx (n.txPosted + 1) = false →
        Completes (connectLoop fuel (n.transmitted frame) (tcp.answered r))) := by
  rw [connectLoop_synAck hr hport hsyn hseq]
  by_cases hisn : segSeqOf r + 1 < 2 ^ 32
  · rw [add_of_lt hisn, ok_bind]
    by_cases htx : n.txPosted + 1 < 2 ^ 16
    · obtain ⟨frame, hsend⟩ := (tcp.answered r).send_nil tcpAck htx
      refine ⟨frame, ?_⟩
      rw [hsend, ok_bind]
      cases n.tx (n.txPosted + 1) with
      | false => exact ⟨fun hcompletes => ⟨hisn, htx, fun _ => hcompletes⟩, fun hsafe => hsafe.2.2 rfl⟩
      | true => exact ⟨fun _ => ⟨hisn, htx, fun hfalse => by cases hfalse⟩, fun _ => completes_pure _⟩
    · refine ⟨[], ?_⟩
      rw [completes_bind]
      constructor
      · rintro ⟨s, hsend, -⟩
        exact absurd (TcpState.send_completes.mp ⟨s, hsend⟩).2 htx
      · rintro ⟨-, hlt, -⟩
        exact absurd hlt htx
  · refine ⟨[], ?_⟩
    rw [add_of_not_lt hisn, error_bind]
    exact ⟨fun hcompletes => absurd hcompletes (not_completes_error _), fun hsafe =>
      absurd hsafe.1 hisn⟩

/-- The end of a handshake: the answer has come, and is confirmed until the card takes the frame. -/
lemma connectLoop_confirm (hsyn : isSynAck r = true) : ∀ (fuel : ℕ) (n : Net) (tcp : TcpState),
    n.frameAt 128 n.rxPosted = some r → dportOf r = tcp.sport.toNat →
    tcp.ourSeq + (fuel + 1) < 2 ^ 32 →
    (Completes (connectLoop (fuel + 1) n tcp) ↔ segSeqOf r + 1 < 2 ^ 32 ∧
      n.txPosted + tries n.tx (fuel + 1) n.txPosted < 2 ^ 16) := by
  intro fuel
  induction fuel with
  | zero =>
    intro n tcp hr hport hseq
    obtain ⟨frame, hiff⟩ := connectLoop_synAck_completes 0 hr hport hsyn hseq
    have htries : tries n.tx 1 n.txPosted = 1 := by simp [tries]
    rw [hiff, htries]
    exact ⟨fun hsafe => ⟨hsafe.1, hsafe.2.1⟩, fun hsafe => ⟨hsafe.1, hsafe.2, fun _ => completes_ok _⟩⟩
  | succ fuel ih =>
    intro n tcp hr hport hseq
    obtain ⟨frame, hiff⟩ := connectLoop_synAck_completes (fuel + 1) hr hport hsyn (by omega)
    have hnext : Completes (connectLoop (fuel + 1) (n.transmitted frame) (tcp.answered r)) ↔
        segSeqOf r + 1 < 2 ^ 32 ∧
          n.txPosted + 1 + tries n.tx (fuel + 1) (n.txPosted + 1) < 2 ^ 16 :=
      ih (n.transmitted frame) (tcp.answered r) hr hport (by simp only [TcpState.answered]; omega)
    have htries : tries n.tx (fuel + 1 + 1) n.txPosted =
        1 + if n.tx (n.txPosted + 1) then 0 else tries n.tx (fuel + 1) (n.txPosted + 1) := rfl
    rw [hiff, hnext, htries]
    generalize tries n.tx (fuel + 1) (n.txPosted + 1) = k
    cases n.tx (n.txPosted + 1) with
    | false =>
      rw [if_neg Bool.false_ne_true]
      constructor
      · rintro ⟨hisn, -, hrest⟩
        exact ⟨hisn, by have := (hrest rfl).2; omega⟩
      · rintro ⟨hisn, hlt⟩
        exact ⟨hisn, by omega, fun _ => ⟨hisn, by omega⟩⟩
    | true =>
      rw [if_pos rfl]
      exact ⟨fun hsafe => ⟨hsafe.1, hsafe.2.1⟩, fun hsafe => ⟨hsafe.1, hsafe.2, fun h => by cases h⟩⟩

/-- The condition for the wait for an answer, with so many attempts left. -/
def ConnectSafe (frames : ℕ → Option (List UInt8)) (tx : ℕ → Bool) (port fuel rxPosted txPosted : ℕ) :
    Prop :=
  rxPosted + skipped frames port fuel rxPosted < 2 ^ 16 ∧
  ∀ r, skipped frames port fuel rxPosted < fuel →
    frames (rxPosted + skipped frames port fuel rxPosted) = some r → isSynAck r = true →
    segSeqOf r + 1 < 2 ^ 32 ∧
    txPosted + tries tx (fuel - skipped frames port fuel rxPosted) txPosted < 2 ^ 16

lemma connectLoop_completes : ∀ (fuel : ℕ) (n : Net) (tcp : TcpState),
    n.rxPosted < 2 ^ 16 → tcp.ourSeq + fuel < 2 ^ 32 →
    (Completes (connectLoop fuel n tcp) ↔
      ConnectSafe (n.frameAt 128) n.tx tcp.sport.toNat fuel n.rxPosted n.txPosted) := by
  intro fuel
  induction fuel with
  | zero =>
    intro n tcp hrx hseq
    exact ⟨fun _ => ⟨hrx, fun r hlt => absurd hlt (Nat.not_lt_zero _)⟩, fun _ => completes_ok _⟩
  | succ fuel ih =>
    intro n tcp hrx hseq
    cases hr : n.frameAt 128 n.rxPosted with
    | none =>
      have hwait : netRxWait n 128 = none := hr
      have hskip : skipped (n.frameAt 128) tcp.sport.toNat (fuel + 1) n.rxPosted = 0 := by
        rw [skipped, hr]
      rw [connectLoop, hwait, ConnectSafe, hskip]
      refine ⟨fun _ => ⟨hrx, fun r _ hr' => ?_⟩, fun _ => completes_ok _⟩
      rw [Nat.add_zero, hr] at hr'
      cases hr'
    | some r =>
      by_cases hport : dportOf r = tcp.sport.toNat
      · -- the answer, or a refusal: nothing more is skipped
        have hskip : skipped (n.frameAt 128) tcp.sport.toNat (fuel + 1) n.rxPosted = 0 := by
          rw [skipped, hr]
          exact if_neg (not_not.mpr hport)
        rw [ConnectSafe, hskip, Nat.add_zero n.rxPosted, hr, Nat.sub_zero]
        cases hsyn : isSynAck r with
        | false =>
          rw [connectLoop_refused hr hport hsyn]
          refine ⟨fun _ => ⟨hrx, fun r' _ hr' hsyn' => ?_⟩, fun _ => completes_ok _⟩
          rw [← Option.some.inj hr', hsyn] at hsyn'
          cases hsyn'
        | true =>
          rw [connectLoop_confirm hsyn fuel n tcp hr hport hseq]
          constructor
          · intro hsafe
            refine ⟨hrx, fun r' _ hr' _ => ?_⟩
            rw [← Option.some.inj hr']
            exact hsafe
          · rintro ⟨-, hsafe⟩
            exact hsafe r (Nat.succ_pos _) rfl hsyn
      · have hskip : skipped (n.frameAt 128) tcp.sport.toNat (fuel + 1) n.rxPosted =
            1 + skipped (n.frameAt 128) tcp.sport.toNat fuel (n.rxPosted + 1) := by
          rw [skipped, hr]
          exact if_pos hport
        rw [connectLoop_skip hr hport, completes_bind]
        by_cases harm : n.rxPosted + 1 < 2 ^ 16
        · have hnext : Completes (connectLoop fuel n.armed tcp) ↔
              ConnectSafe (n.frameAt 128) n.tx tcp.sport.toNat fuel (n.rxPosted + 1) n.txPosted :=
            ih n.armed tcp harm (by omega)
          have hiff : (∃ n', netRxArm n = .ok n' ∧ Completes (connectLoop fuel n' tcp)) ↔
              Completes (connectLoop fuel n.armed tcp) := by
            constructor
            · rintro ⟨n', hn, hcompletes⟩
              obtain ⟨-, rfl⟩ := netRxArm_eq_ok.mp hn
              exact hcompletes
            · intro hcompletes
              exact ⟨n.armed, netRxArm_eq_ok.mpr ⟨harm, rfl⟩, hcompletes⟩
          rw [hiff, hnext, ConnectSafe, ConnectSafe, hskip]
          generalize skipped (n.frameAt 128) tcp.sport.toNat fuel (n.rxPosted + 1) = k
          rw [← Nat.add_assoc, show fuel + 1 - (1 + k) = fuel - k by omega,
            show 1 + k < fuel + 1 ↔ k < fuel by omega]
        · constructor
          · rintro ⟨n', hn, -⟩
            exact absurd (netRxArm_eq_ok.mp hn).1 harm
          · rintro ⟨hlt, -⟩
            rw [hskip] at hlt
            omega

/-- The condition for a handshake: the counts, and what the answer adds to them. -/
def HandshakeSafe (n : Net) (port : ℕ) : Prop :=
  n.rxPosted + 1 < 2 ^ 16 ∧ n.txPosted + 1 < 2 ^ 16 ∧
  (n.tx (n.txPosted + 1) = true →
    ConnectSafe (n.frameAt 128) n.tx port 4 (n.rxPosted + 1) (n.txPosted + 1))

/-- The connection as it stands when the SYN is sent. -/
def TcpState.opening (tcp : TcpState) : TcpState :=
  { tcp with ourSeq := 0x1000 + tcp.sport.toNat, theirAck := 0 }

lemma netConnect_eq (n : Net) (tcp : TcpState) :
    netConnect n tcp = netRxArm n >>= fun n => tcp.opening.send n tcpSyn [] >>= fun s =>
      if s.2 then connectLoop 4 s.1 tcp.opening else pure (s.1, tcp.opening, false) := by
  have hport := tcp.sport.toNat_lt
  rw [netConnect, add_of_lt (by omega), ok_bind]
  rfl

lemma netConnect_completes : Completes (netConnect n tcp) ↔ HandshakeSafe n tcp.sport.toNat := by
  have hport := tcp.sport.toNat_lt
  have hseq : tcp.opening.ourSeq + 4 < 2 ^ 32 := by
    simp only [TcpState.opening]
    omega
  rw [netConnect_eq, completes_bind]
  constructor
  · rintro ⟨n', harm, hrest⟩
    obtain ⟨hrx, rfl⟩ := netRxArm_eq_ok.mp harm
    obtain ⟨s, hsend, hloop⟩ := completes_bind.mp hrest
    have htx : n.txPosted + 1 < 2 ^ 16 := (TcpState.send_completes.mp ⟨s, hsend⟩).2
    refine ⟨hrx, htx, fun hdone => ?_⟩
    have hdone : n.armed.tx (n.armed.txPosted + 1) = true := hdone
    obtain ⟨frame, hsend'⟩ := tcp.opening.send_nil (n := n.armed) tcpSyn htx
    obtain rfl := Except.ok.inj (hsend.symm.trans hsend')
    rw [if_pos hdone] at hloop
    exact (connectLoop_completes 4 _ _ hrx hseq).mp hloop
  · rintro ⟨hrx, htx, hsafe⟩
    obtain ⟨frame, hsend⟩ := tcp.opening.send_nil (n := n.armed) tcpSyn htx
    refine ⟨n.armed, netRxArm_eq_ok.mpr ⟨hrx, rfl⟩, ?_⟩
    rw [hsend, ok_bind]
    split
    next hdone => exact (connectLoop_completes 4 _ _ hrx hseq).mpr (hsafe hdone)
    next => exact completes_pure _

end Connect

end Xernel
