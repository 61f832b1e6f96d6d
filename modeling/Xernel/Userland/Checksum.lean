import Xernel.Lib.OnesComplement
import Xernel.Userland.NetTheorems

/-!
# The checksums of transmitted segments

`inet_checksum` is the complement of the ones-complement sum of its words, and does not overflow on
anything up to 128 KiB. `net_tcp_send` takes both its checksums over a header in which the field for the
result is still zero; with the results filled in, the header and the segment add up to a zero for the
receiver.
-/

namespace Xernel

open Checked OnesComplement

/-! ## The Internet checksum -/

/-- A sum that fits is the sum of the words. -/
lemma sumWords_of_lt {buf : List UInt8} {s : ℕ} (h : s + (words buf).sum < 2 ^ 32) :
    sumWords buf s = .ok (s + (words buf).sum) := by
  fun_induction sumWords buf s with
  | case1 a b buf s ih =>
    rw [words, List.sum_cons, ← Nat.add_assoc] at h ⊢
    have hfirst : s + (a.toNat * 256 + b.toNat) < 2 ^ 32 := by
      generalize (words buf).sum = rest at h
      omega
    rw [add_of_lt hfirst, ok_bind, ih _ h]
  | case2 a s =>
    rw [words, List.sum_singleton] at h ⊢
    exact add_of_lt h
  | case3 s => rfl

/-- Two folds are enough for 32 bits. -/
lemma foldCarries_eq {s : ℕ} (h : s < 2 ^ 32) : foldCarries 2 s = norm s := by
  have hlt := foldCarries_lt h
  have hfold : norm (foldCarries 2 s) = norm s := by
    unfold foldCarries foldCarries foldCarries
    split
    · split
      · rw [norm_fold, norm_fold]
      · exact norm_fold s
    · rfl
  rw [← hfold, norm_of_lt hlt]

/-- The sum of the words of a buffer of 128 KiB fits into 32 bits. -/
lemma sum_words_lt {buf : List UInt8} (h : buf.length ≤ 131072) : (words buf).sum < 2 ^ 32 := by
  have hle := sum_words_le buf
  omega

/-- The checksum is the complement of the folded sum. -/
lemma inetChecksum_of_lt {buf : List UInt8} (h : (words buf).sum < 2 ^ 32) :
    inetChecksum buf = .ok (2 ^ 16 - 1 - norm (words buf).sum) := by
  have hlt := norm_lt (words buf).sum
  unfold inetChecksum
  rw [sumWords_of_lt (by omega), ok_bind, Nat.zero_add, foldCarries_eq h, Nat.mod_eq_of_lt hlt]
  rfl

/-- `inet_checksum` is the complement of the ones-complement sum. -/
lemma inetChecksum_eq {buf : List UInt8} (h : buf.length ≤ 131072) :
    inetChecksum buf = .ok (2 ^ 16 - 1 - OnesComplement.sum (words buf)) := by
  rw [inetChecksum_of_lt (sum_words_lt h), sum_eq _ (words_lt buf)]

/-! ## Filling in a checksum -/

lemma words_be16 {x : ℕ} (h : x < 2 ^ 16) : words (be16 x) = [x] := by
  unfold be16 words words
  rw [UInt8.toNat_ofNat', UInt8.toNat_ofNat']
  congr 1
  omega

/-- A buffer that is not all zero verifies once its checksum stands where two zeros were. -/
lemma inetChecksum_filled {front back : List UInt8} {c : ℕ} (heven : front.length % 2 = 0)
    (hlen : front.length + 2 + back.length ≤ 131072)
    (hpos : 0 < (words front).sum + (words back).sum)
    (hc : inetChecksum (front ++ [0, 0] ++ back) = .ok c) :
    inetChecksum (front ++ be16 c ++ back) = .ok 0 := by
  have hsplit : ∀ mid : List UInt8, mid.length = 2 → (words (front ++ mid ++ back)).sum =
      (words front).sum + (words mid).sum + (words back).sum := by
    intro mid hmid
    rw [sum_words_append _ _ (by rw [List.length_append, hmid]; omega), sum_words_append _ _ heven]
  have hlt : ∀ mid : List UInt8, mid.length = 2 → (words (front ++ mid ++ back)).sum < 2 ^ 32 := by
    intro mid hmid
    apply sum_words_lt
    rw [List.length_append, List.length_append, hmid]
    exact hlen
  rw [inetChecksum_of_lt (hlt _ rfl), hsplit _ rfl] at hc
  obtain rfl := Except.ok.inj hc
  have hzero : (words [0, 0]).sum = 0 := rfl
  rw [hzero, Nat.add_zero]
  have hnorm := norm_lt ((words front).sum + (words back).sum)
  rw [inetChecksum_of_lt (hlt _ rfl), hsplit _ rfl, words_be16 (by omega), List.sum_singleton,
    Nat.add_right_comm, norm_add_compl hpos, Nat.sub_self]

/-! ## The frame of a segment -/

section Frame

variable {n : Net} {dmac mac : Fin 6 → UInt8} {dip : Fin 4 → UInt8} {sport dport : UInt16}
  {seq ack len : ℕ} {flags : UInt8} {cks data : List UInt8}

/-- The first 14 bytes of a frame. -/
def etherHeader (dmac mac : Fin 6 → UInt8) : List UInt8 :=
  List.ofFn dmac ++ (List.ofFn mac ++ [0x08, 0x00])

/-- The IPv4 header of a segment with so many bytes of data. -/
def ipHeader (dip : Fin 4 → UInt8) (len : ℕ) (cks : List UInt8) : List UInt8 :=
  [0x45, 0] ++ (be16 (20 + (20 + len)) ++ [0x42, 0, 0, 0, 64, 6]) ++ cks ++ (ourIp ++ List.ofFn dip)

/-- The TCP header, without options. -/
def tcpHeader (sport dport : UInt16) (seq ack : ℕ) (flags : UInt8) (cks : List UInt8) : List UInt8 :=
  be16 sport.toNat ++ (be16 dport.toNat ++ (be32 seq ++ (be32 ack ++ [0x50, flags, 0x40, 0]))) ++
    cks ++ [0, 0]

/-- What the TCP checksum covers besides the segment. -/
def pseudoHeader (dip : Fin 4 → UInt8) (len : ℕ) : List UInt8 :=
  ourIp ++ (List.ofFn dip ++ ([0, 6] ++ be16 len))

/-- The writes before the checksum of the IPv4 header. -/
lemma copyAll_ipHeader : copyAll (List.replicate (14 + 20 + 20 + 64) 0)
      [(0, List.ofFn dmac), (6, List.ofFn mac), (12, [0x08, 0x00]), (14, [0x45]),
        (16, be16 (20 + (20 + len))), (18, [0x42]), (22, [64]), (23, [6]), (26, ourIp),
        (30, List.ofFn dip)] =
    .ok (etherHeader dmac mac ++ ipHeader dip len [0, 0] ++
      (List.replicate 20 0 ++ List.replicate 64 0)) := by
  refine copyAll_of_inOrder ?_
  simp [InOrder, be16, ourIp]

/-- The writes before the checksum of the segment. -/
lemma copyAll_tcpHeader (ipsum : ℕ) {zeros : List UInt8} (hzeros : data.length ≤ zeros.length) :
    copyAll (etherHeader dmac mac ++ ipHeader dip len [0, 0] ++ (List.replicate 20 0 ++ zeros))
      [(24, be16 ipsum), (34, be16 sport.toNat), (36, be16 dport.toNat), (38, be32 seq),
        (42, be32 ack), (46, [0x50]), (47, [flags]), (48, [0x40]), (54, data)] =
    .ok (etherHeader dmac mac ++ ipHeader dip len (be16 ipsum) ++
      (tcpHeader sport dport seq ack flags [0, 0] ++ (data ++ zeros.drop data.length))) := by
  have hfront : (etherHeader dmac mac ++ ipHeader dip len [0, 0]).length = 34 := rfl
  have htail : (0 :: 0 :: 0 :: 0 :: 0 :: zeros).drop (5 + data.length) = zeros.drop data.length := by
    rw [Nat.add_comm]
    rfl
  rw [← htail]
  refine copyAll_of_inOrder ?_
  rw [List.length_append, hfront]
  simp only [InOrder, be16, be32, List.length_append, List.length_replicate, List.length_reverse,
    length_leBytes, List.length_cons, List.length_nil]
  omega

/-- The checksum is written into a header that is there already. -/
lemma copyAll_checksum (ipsum cks : ℕ) (rest : List UInt8) :
    copyAll (etherHeader dmac mac ++ ipHeader dip len (be16 ipsum) ++
      (tcpHeader sport dport seq ack flags [0, 0] ++ rest)) [(50, be16 cks)] =
    .ok (etherHeader dmac mac ++ ipHeader dip len (be16 ipsum) ++
      (tcpHeader sport dport seq ack flags (be16 cks) ++ rest)) := by
  have hfront : (etherHeader dmac mac ++ ipHeader dip len (be16 ipsum)).length = 34 := rfl
  have htcp : (tcpHeader sport dport seq ack flags [0, 0]).length = 20 := rfl
  refine copyAll_of_inOrder ?_
  rw [List.length_append, hfront, List.length_append, htcp]
  simp [InOrder, be16]
  omega

/-- The buffer over which the checksum is taken. -/
lemma splice_pseudoHeader (seg zeros : List UInt8) :
    splice 0 (List.replicate 12 0 ++ zeros)
      [(0, ourIp), (4, List.ofFn dip), (9, [6]), (10, be16 len), (12, seg)] =
    pseudoHeader dip len ++ (seg ++ zeros.drop seg.length) := by
  rw [← Nat.zero_add seg.length]
  rfl

lemma tcpChecksum_eq {seg : List UInt8} (hseg : seg.length ≤ 116) :
    tcpChecksum ourIp (List.ofFn dip) seg = inetChecksum (pseudoHeader dip seg.length ++ seg) := by
  have hbuf : (List.replicate 128 0 : List UInt8) =
      List.replicate 12 0 ++ List.replicate 116 0 := by
    rw [List.replicate_append_replicate]
  have horder : InOrder (List.replicate 128 0 : List UInt8).length 0
      [(0, ourIp), (4, List.ofFn dip), (9, [6]), (10, be16 seg.length), (12, seg)] := by
    simp [InOrder, ourIp, be16]
    omega
  have hlen : (pseudoHeader dip seg.length ++ seg).length = 12 + seg.length := by
    rw [List.length_append]
    rfl
  unfold tcpChecksum
  rw [copyAll_of_inOrder horder, hbuf, splice_pseudoHeader, ok_bind, ← List.append_assoc,
    slice_zero hlen, ok_bind]

/-- What `net_tcp_send` hands to the card. -/
lemma netTcpSend_eq (hdata : data.length ≤ 64) : ∃ ipsum cks,
    inetChecksum (ipHeader dip data.length [0, 0]) = .ok ipsum ∧
    inetChecksum (pseudoHeader dip (20 + data.length) ++
      (tcpHeader sport dport seq ack flags [0, 0] ++ data)) = .ok cks ∧
    netTcpSend n dmac dip sport dport seq ack flags data =
      netTx n (etherHeader dmac n.mac ++ (ipHeader dip data.length (be16 ipsum) ++
        (tcpHeader sport dport seq ack flags (be16 cks) ++ data))) := by
  have hheader : (ipHeader dip data.length [0, 0]).length = 20 := rfl
  have hether : (etherHeader dmac n.mac).length = 14 := rfl
  have hpseudo : (pseudoHeader dip (20 + data.length)).length = 12 := rfl
  have hseg : (tcpHeader sport dport seq ack flags [0, 0] ++ data).length = 20 + data.length := by
    rw [List.length_append]
    rfl
  obtain ⟨ipsum, hipsum⟩ : Completes (inetChecksum (ipHeader dip data.length [0, 0])) :=
    ⟨_, inetChecksum_eq (by omega)⟩
  obtain ⟨cks, hcks⟩ : Completes (inetChecksum (pseudoHeader dip (20 + data.length) ++
      (tcpHeader sport dport seq ack flags [0, 0] ++ data))) := by
    refine ⟨_, inetChecksum_eq ?_⟩
    rw [List.length_append, hseg]
    omega
  refine ⟨ipsum, cks, hipsum, hcks, ?_⟩
  have hfront : (etherHeader dmac n.mac ++ ipHeader dip data.length (be16 ipsum)).length = 34 := rfl
  have hheader' : (ipHeader dip data.length (be16 ipsum)).length = 20 := rfl
  have htcp' : (tcpHeader sport dport seq ack flags (be16 cks)).length = 20 := rfl
  have hframe : (etherHeader dmac n.mac ++ (ipHeader dip data.length (be16 ipsum) ++
      (tcpHeader sport dport seq ack flags (be16 cks) ++ data))).length =
      14 + (20 + (20 + data.length)) := by
    rw [List.length_append, List.length_append, List.length_append, htcp', hheader', hether]
  unfold netTcpSend
  dsimp only
  -- the header of the packet, and its checksum
  rw [copyAll_ipHeader, ok_bind, List.append_assoc, slice_append hether (by rw [hheader]), ok_bind,
    hipsum, ok_bind, ← List.append_assoc]
  -- the segment, and its checksum
  rw [copyAll_tcpHeader ipsum (by rwa [List.length_replicate]), ok_bind,
    ← List.append_assoc (tcpHeader ..), slice_append hfront (by rw [hseg]), ok_bind,
    tcpChecksum_eq (by rw [hseg]; omega), hseg, hcks, ok_bind, List.append_assoc (tcpHeader ..),
    copyAll_checksum, ok_bind]
  -- the frame in the buffer
  rw [← List.append_assoc (tcpHeader ..), ← List.append_assoc, ← List.append_assoc,
    List.append_assoc (etherHeader ..), List.append_assoc (etherHeader ..),
    List.append_assoc (ipHeader ..), slice_zero hframe, ok_bind]

/-! ## What the receiver finds -/

/-- The fields of a segment where the driver itself looks for them, and checksums that verify. -/
structure Carries (frame : List UInt8) (dmac mac : Fin 6 → UInt8) (dip : Fin 4 → UInt8)
    (sport dport : UInt16) (seq ack : ℕ) (flags : UInt8) (data : List UInt8) : Prop where
  length : frame.length = 54 + data.length
  ether : slice frame 0 14 = .ok (etherHeader dmac mac)
  header : (slice frame 14 34 >>= inetChecksum) = .ok 0
  segment : (slice frame 34 frame.length >>= fun seg =>
    inetChecksum (pseudoHeader dip seg.length ++ seg)) = .ok 0
  total : rdField frame 16 2 = .ok (40 + data.length)
  proto : slice frame 23 24 = .ok [6]
  src : slice frame 26 30 = .ok ourIp
  dst : slice frame 30 34 = .ok (List.ofFn dip)
  sport : rdField frame 34 2 = .ok sport.toNat
  dport : rdDport frame = .ok dport.toNat
  seq : rdField frame 38 4 = .ok seq
  ack : rdField frame 42 4 = .ok ack
  flags : slice frame 47 48 = .ok [flags]
  data : slice frame 54 (54 + data.length) = .ok data

lemma leNat_be16 {x : ℕ} (h : x < 2 ^ 16) : leNat (be16 x).reverse = x := by
  have hbytes : (be16 x).reverse = [UInt8.ofNat x, UInt8.ofNat (x / 256)] := rfl
  rw [hbytes]
  simp only [leNat, UInt8.toNat_ofNat']
  omega

lemma leNat_be32 {x : ℕ} (h : x < 2 ^ 32) : leNat (be32 x).reverse = x := by
  rw [be32, List.reverse_reverse, leNat_leBytes, Nat.mod_eq_of_lt (by omega)]

/-- The checksum of an IPv4 header verifies. -/
lemma inetChecksum_ipHeader {ipsum : ℕ} (h : inetChecksum (ipHeader dip len [0, 0]) = .ok ipsum) :
    inetChecksum (ipHeader dip len (be16 ipsum)) = .ok 0 := by
  have hfront : ([0x45, 0] ++ (be16 (20 + (20 + len)) ++ [0x42, 0, 0, 0, 64, 6])).length = 10 := rfl
  have hback : (ourIp ++ List.ofFn dip).length = 8 := rfl
  -- the first word is not zero
  have hpos : 0 < (words ([0x45, 0] ++ (be16 (20 + (20 + len)) ++ [0x42, 0, 0, 0, 64, 6]))).sum := by
    rw [sum_words_append _ _ rfl]
    exact Nat.add_pos_left (by decide) _
  exact inetChecksum_filled (by rw [hfront]) (by rw [hfront, hback]; decide)
    (Nat.add_pos_left hpos _) h

/-- The checksum of a segment verifies, together with the addresses. -/
lemma inetChecksum_segment {cks : ℕ} (hdata : data.length ≤ 64)
    (h : inetChecksum (pseudoHeader dip len ++
      (tcpHeader sport dport seq ack flags [0, 0] ++ data)) = .ok cks) :
    inetChecksum (pseudoHeader dip len ++
      (tcpHeader sport dport seq ack flags (be16 cks) ++ data)) = .ok 0 := by
  have hsplit : ∀ c : List UInt8, pseudoHeader dip len ++
      (tcpHeader sport dport seq ack flags c ++ data) =
      ourIp ++ (List.ofFn dip ++ ([0, 6] ++ be16 len) ++ (be16 sport.toNat ++ (be16 dport.toNat ++
        (be32 seq ++ (be32 ack ++ [0x50, flags, 0x40, 0]))))) ++ c ++ ([0, 0] ++ data) := by
    intro c
    simp only [pseudoHeader, tcpHeader, List.append_assoc]
  have hfront : (ourIp ++ (List.ofFn dip ++ ([0, 6] ++ be16 len) ++ (be16 sport.toNat ++
      (be16 dport.toNat ++ (be32 seq ++ (be32 ack ++ [0x50, flags, 0x40, 0])))))).length = 28 := rfl
  have hpos : 0 < (words (ourIp ++ (List.ofFn dip ++ ([0, 6] ++ be16 len) ++ (be16 sport.toNat ++
      (be16 dport.toNat ++ (be32 seq ++ (be32 ack ++ [0x50, flags, 0x40, 0]))))))).sum := by
    rw [sum_words_append _ _ rfl]
    exact Nat.add_pos_left (by decide) _
  rw [hsplit] at h ⊢
  refine inetChecksum_filled (by rw [hfront]) ?_ (Nat.add_pos_left hpos _) h
  rw [hfront, List.length_append, List.length_cons, List.length_singleton]
  omega

/-- A frame with these headers and checksums carries the segment. -/
lemma carries_frame {ipsum cks : ℕ} (hseq : seq < 2 ^ 32) (hack : ack < 2 ^ 32)
    (hdata : data.length ≤ 64) (hipsum : inetChecksum (ipHeader dip data.length [0, 0]) = .ok ipsum)
    (hcks : inetChecksum (pseudoHeader dip (20 + data.length) ++
      (tcpHeader sport dport seq ack flags [0, 0] ++ data)) = .ok cks) :
    Carries (etherHeader dmac mac ++ (ipHeader dip data.length (be16 ipsum) ++
      (tcpHeader sport dport seq ack flags (be16 cks) ++ data)))
      dmac mac dip sport dport seq ack flags data := by
  have hether : (etherHeader dmac mac).length = 14 := rfl
  have hip : (ipHeader dip data.length (be16 ipsum)).length = 20 := rfl
  have htcp : (tcpHeader sport dport seq ack flags (be16 cks)).length = 20 := rfl
  have hseg : (tcpHeader sport dport seq ack flags (be16 cks) ++ data).length = 20 + data.length := by
    rw [List.length_append, htcp]
  have hlen : (etherHeader dmac mac ++ (ipHeader dip data.length (be16 ipsum) ++
      (tcpHeader sport dport seq ack flags (be16 cks) ++ data))).length = 54 + data.length := by
    rw [List.length_append, List.length_append, hseg, hip, hether]
    omega
  have hsport := sport.toNat_lt
  have hdport := dport.toNat_lt
  constructor
  case length => exact hlen
  case header =>
    rw [slice_append hether (by rw [hip]), ok_bind]
    exact inetChecksum_ipHeader hipsum
  case segment =>
    have hstart : (etherHeader dmac mac ++ ipHeader dip data.length (be16 ipsum)).length = 34 := rfl
    rw [hlen, ← List.append_assoc, slice_append_right hstart (by rw [hseg]; omega), ok_bind, hseg]
    exact inetChecksum_segment hdata hcks
  case data =>
    have hstart : (etherHeader dmac mac ++ ipHeader dip data.length (be16 ipsum) ++
        tcpHeader sport dport seq ack flags (be16 cks)).length = 54 := rfl
    rw [← List.append_assoc, ← List.append_assoc, slice_append_right hstart rfl]
  case ether => rw [slice_zero hether]
  case proto =>
    rw [slice_of_le (by omega) (by omega)]
    rfl
  case src =>
    rw [slice_of_le (by omega) (by omega)]
    rfl
  case dst =>
    rw [slice_of_le (by omega) (by omega)]
    rfl
  case flags =>
    rw [slice_of_le (by omega) (by omega)]
    rfl
  case total =>
    rw [rdField_of_le (by omega), show 40 + data.length = 20 + (20 + data.length) by omega]
    exact congrArg Except.ok (leNat_be16 (by omega))
  case sport =>
    rw [rdField_of_le (by omega)]
    exact congrArg Except.ok (leNat_be16 hsport)
  case dport =>
    rw [rdDport_of_le (by omega)]
    exact congrArg Except.ok (leNat_be16 hdport)
  case seq =>
    rw [rdField_of_le (by omega)]
    exact congrArg Except.ok (leNat_be32 hseq)
  case ack =>
    rw [rdField_of_le (by omega)]
    exact congrArg Except.ok (leNat_be32 hack)

end Frame

/-- `inet_checksum` is the complement of the ones-complement sum on every buffer of up to 128 KiB, and
`net_tcp_send` hands to the card a frame that carries its segment. -/
theorem checksums_verify :
    (∀ buf : List UInt8, buf.length ≤ 131072 →
      inetChecksum buf = .ok (2 ^ 16 - 1 - OnesComplement.sum (words buf))) ∧
    ∀ (n : Net) (dmac : Fin 6 → UInt8) (dip : Fin 4 → UInt8) (sport dport : UInt16) (seq ack : ℕ)
      (flags : UInt8) (data : List UInt8), seq < 2 ^ 32 → ack < 2 ^ 32 → data.length ≤ 64 →
      ∃ frame, netTcpSend n dmac dip sport dport seq ack flags data = netTx n frame ∧
        Carries frame dmac n.mac dip sport dport seq ack flags data := by
  refine ⟨fun buf hbuf => inetChecksum_eq hbuf, ?_⟩
  intro n dmac dip sport dport seq ack flags data hseq hack hdata
  obtain ⟨ipsum, cks, hipsum, hcks, hsend⟩ := netTcpSend_eq hdata
  exact ⟨_, hsend, carries_frame hseq hack hdata hipsum hcks⟩

theorem checksums_verify_hi :
    inetChecksum [0x45, 0x00, 0x1C] = .ok 0x9EFF ∧
    ∃ frame, netTcpSend ⟨fun _ => 0x52, fun _ => none, 0, fun _ => true, 0, []⟩ (fun _ => 0xFF)
        (fun _ => 10) 49152 7 0x1000 1 tcpPsh [0x68, 0x69] =
        netTx ⟨fun _ => 0x52, fun _ => none, 0, fun _ => true, 0, []⟩ frame ∧
      Carries frame (fun _ => 0xFF) (fun _ => 0x52) (fun _ => 10) 49152 7 0x1000 1 tcpPsh
        [0x68, 0x69] :=
  ⟨checksums_verify.1 _ (by decide),
    checksums_verify.2 _ _ _ _ _ _ _ _ _ (by decide) (by decide) (by decide)⟩

end Xernel
