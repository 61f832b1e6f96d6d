import Mathlib.Tactic.MkIffOfInductiveProp
import Xernel.Lib.Reassembly
import Xernel.Userland.Segments

/-!
# The other end of a connection

`ToPeer` says which frames the other end of a connection takes for its own, by the addresses, the ports and
both checksums; `Route.receive` what it makes of them: the first SYN opens the connection, and from then on
it reassembles the bytes behind it. Every frame that `net_tcp_send` builds is read there as it was meant
(`segment_frame`).
-/

namespace Xernel

open Checked

/-! ## The other end -/

/-- The two ends of a connection. -/
structure Route where
  dip : Fin 4 → UInt8
  sport : UInt16
  dport : UInt16

def TcpState.route (tcp : TcpState) : Route := ⟨tcp.dip, tcp.sport, tcp.dport⟩

/-- The frame is a TCP segment from the host to the other end, in one IPv4 packet, and its checksums are
right. -/
@[mk_iff]
structure ToPeer (route : Route) (e : List UInt8) : Prop where
  ethertype : field e 12 2 = 0x0800
  version : field e 14 1 / 16 = 4
  ipHeader : 20 ≤ ipHeaderLen e
  whole : field e 20 2 % 2 ^ 14 = 0
  proto : field e 23 1 = 6
  src : (e.drop 26).take 4 = ourIp
  dst : (e.drop 30).take 4 = List.ofFn route.dip
  tcpHeader : 20 ≤ tcpHeaderLen e
  fits : ipHeaderLen e + tcpHeaderLen e ≤ ipTotal e
  sport : field e (segStart e) 2 = route.sport.toNat
  dport : field e (segStart e + 2) 2 = route.dport.toNat
  headerSum : inetChecksum ((e.drop 14).take (ipHeaderLen e)) = .ok 0
  segmentSum : inetChecksum (pseudoHeader route.dip (ipTotal e - ipHeaderLen e) ++
    (e.take (payloadEnd e)).drop (segStart e)) = .ok 0

instance (route : Route) (e : List UInt8) : Decidable (ToPeer route e) :=
  decidable_of_iff' _ (toPeer_iff route e)

/-- The payload of a segment, with its sequence number. -/
def chunkOf (e : List UInt8) : Chunk UInt8 := ⟨seqNum e, (e.take (payloadEnd e)).drop (payloadStart e)⟩

/-- A listening end takes the first SYN, and from then on the bytes that follow it. -/
def Route.receive (route : Route) (r : Option (Reassembly UInt8)) (e : List UInt8) :
    Option (Reassembly UInt8) :=
  if ToPeer route e then
    match r with
    | none => if synFlag e then some ⟨seqNum e + 1, []⟩ else none
    | some r => some (r.accept (chunkOf e))
  else r

/-- The bytes that the other end has after these frames. -/
def Route.received (route : Route) (es : List (List UInt8)) : List UInt8 :=
  ((es.foldl route.receive none).map Reassembly.data).getD []

/-- The frame carries a segment of the connection. -/
structure Segment (route : Route) (seq : ℕ) (flags : UInt8) (data e : List UInt8) : Prop where
  toPeer : ToPeer route e
  chunk : chunkOf e = ⟨seq, data⟩
  syn : synFlag e = decide (flags.toNat / 2 % 2 = 1)

section Frames

variable {route : Route} {n : Net} {dmac mac : Fin 6 → UInt8} {dip : Fin 4 → UInt8} {sport dport : UInt16}
  {seq ack len : ℕ} {flags : UInt8} {data : List UInt8}

lemma segment_frame {ipsum cks : ℕ} (hseq : seq < 2 ^ 32) (hdata : data.length ≤ 64)
    (hipsum : inetChecksum (ipHeader dip data.length [0, 0]) = .ok ipsum)
    (hcks : inetChecksum (pseudoHeader dip (20 + data.length) ++
      (tcpHeader sport dport seq ack flags [0, 0] ++ data)) = .ok cks) :
    Segment ⟨dip, sport, dport⟩ seq flags data
      (etherHeader dmac mac ++ (ipHeader dip data.length (be16 ipsum) ++
        (tcpHeader sport dport seq ack flags (be16 cks) ++ data))) := by
  set e := etherHeader dmac mac ++ (ipHeader dip data.length (be16 ipsum) ++
    (tcpHeader sport dport seq ack flags (be16 cks) ++ data)) with he
  -- both headers have their least length, so the payload begins at 54
  have hfirst : field e 14 1 = 0x45 := rfl
  have hip : ipHeaderLen e = 20 := by rw [ipHeaderLen, hfirst]
  have hstart : segStart e = 34 := by rw [segStart, hip]
  have hoff : field e 46 1 = 0x50 := rfl
  have htcp : tcpHeaderLen e = 20 := by rw [tcpHeaderLen, hstart, hoff]
  have htotal : ipTotal e = 20 + (20 + data.length) := leNat_be16 (by omega)
  have hlen : e.length = 54 + data.length := by
    have hether : (etherHeader dmac mac).length = 14 := rfl
    have hheader : (ipHeader dip data.length (be16 ipsum)).length = 20 := rfl
    have hseg : (tcpHeader sport dport seq ack flags (be16 cks)).length = 20 := rfl
    rw [he, List.length_append, List.length_append, List.length_append, hether, hheader, hseg]
    omega
  have hall : e.take (payloadEnd e) = e := List.take_of_length_le (by rw [payloadEnd]; omega)
  have hsport := sport.toNat_lt
  have hdport := dport.toNat_lt
  refine ⟨?_, ?_, ?_⟩
  · constructor
    case segmentSum =>
      rw [hall, htotal, hip, hstart, Nat.add_sub_cancel_left]
      exact inetChecksum_segment hdata hcks
    case headerSum =>
      rw [hip]
      exact inetChecksum_ipHeader hipsum
    case sport =>
      rw [hstart]
      exact leNat_be16 hsport
    case dport =>
      rw [hstart]
      exact leNat_be16 hdport
    case fits => omega
    case ipHeader => exact hip.ge
    case tcpHeader => exact htcp.ge
    case version => rw [hfirst]
    all_goals rfl
  · have hnum : seqNum e = seq := by
      rw [seqNum, hstart]
      exact leNat_be32 hseq
    rw [chunkOf, hall, hnum, payloadStart, hstart, htcp]
    rfl
  · have hbyte : field e 47 1 = flags.toNat := by
      show leNat [flags] = _
      simp [leNat]
    rw [synFlag, hstart, hbyte]

end Frames

/-! ## The stream -/

section Stream

variable {route : Route} {base : ℕ} {S : List UInt8} {r : Option (Reassembly UInt8)}
  {e : List UInt8} {es : List (List UInt8)}

/-- A frame that is not for the connection, or carries bytes of its stream. -/
def OfConnection (route : Route) (base : ℕ) (S e : List UInt8) : Prop :=
  ToPeer route e → (synFlag e = true → seqNum e + 1 = base) ∧ (chunkOf e).OfStream base S

/-- The chunks among the frames. -/
def Route.chunks (route : Route) (es : List (List UInt8)) : List (Chunk UInt8) :=
  (es.filter fun e => ToPeer route e).map chunkOf

lemma Route.receive_holds (hr : ∀ x ∈ r, x.Holds base S) (he : OfConnection route base S e) :
    ∀ x ∈ route.receive r e, x.Holds base S := by
  intro x hx
  rw [Route.receive.eq_def] at hx
  split at hx
  next hto =>
    obtain ⟨hsyn, hchunk⟩ := he hto
    cases r with
    | none =>
      dsimp only at hx
      split at hx
      next hflag =>
        obtain rfl := Option.some.inj hx
        rw [hsyn hflag]
        exact Reassembly.holds_start base S
      next => cases hx
    | some y =>
      obtain rfl := Option.some.inj hx
      exact (hr y rfl).accept hchunk
  next => exact hr x hx

lemma Route.foldl_receive_holds (hr : ∀ x ∈ r, x.Holds base S)
    (hes : ∀ e ∈ es, OfConnection route base S e) :
    ∀ x ∈ es.foldl route.receive r, x.Holds base S := by
  induction es generalizing r with
  | nil => exact hr
  | cons e es ih =>
    obtain ⟨he, hes⟩ := List.forall_mem_cons.mp hes
    exact ih (receive_holds hr he) hes

/-- Whatever comes of a connection, in whatever order: a prefix of the stream. -/
lemma Route.received_prefix (hes : ∀ e ∈ es, OfConnection route base S e) :
    route.received es <+: S := by
  have hholds := foldl_receive_holds (r := none) (fun x hx => by cases hx) hes
  rw [received]
  cases hend : es.foldl route.receive none with
  | none => exact List.nil_prefix
  | some x => exact (hholds x hend).isPrefix

lemma Route.foldl_receive_some (x : Reassembly UInt8) :
    es.foldl route.receive (some x) = some ((route.chunks es).foldl Reassembly.accept x) := by
  induction es generalizing x with
  | nil => rfl
  | cons e es ih =>
    rw [List.foldl_cons, Route.receive, chunks, List.filter_cons]
    by_cases hto : ToPeer route e
    · rw [if_pos hto, if_pos (decide_eq_true hto), ih]
      rfl
    · rw [if_neg hto, if_neg (by simpa using hto), ih]
      rfl

/-- Once the SYN has come, the connection is there. -/
lemma Route.foldl_receive_isSome (he : e ∈ es) (hto : ToPeer route e) (hsyn : synFlag e = true) :
    ∃ x, es.foldl route.receive r = some x := by
  obtain ⟨before, after, rfl⟩ := List.append_of_mem he
  rw [List.foldl_append, List.foldl_cons]
  cases before.foldl route.receive r with
  | none =>
    rw [Route.receive, if_pos hto, hsyn, if_pos rfl, foldl_receive_some]
    exact ⟨_, rfl⟩
  | some y =>
    rw [Route.receive, if_pos hto, foldl_receive_some]
    exact ⟨_, rfl⟩

/-- If the SYN comes, and after it chunks that cover the stream, all of it comes. -/
lemma Route.received_all {syn : List UInt8} {sent : List (List UInt8)} (hto : ToPeer route syn)
    (hsyn : synFlag syn = true) (hcovers : Reassembly.Covers (route.chunks sent) base (base + S.length))
    (hes : ∀ e ∈ es, OfConnection route base S e) (hsub : (syn :: sent).Sublist es) :
    route.received es = S := by
  obtain ⟨before, after, rfl, hmem, hrest⟩ := List.cons_sublist_iff.mp hsub
  obtain ⟨x, hx⟩ := foldl_receive_isSome (r := none) hmem hto hsyn
  have hholds := foldl_receive_holds (r := none) (fun x hx => by cases hx) hes
  -- before the SYN nothing counts; from there on the chunks are put together
  have hstart : base ≤ x.next := (foldl_receive_holds (r := none) (fun x hx => by cases hx)
    (fun e he => hes e (List.mem_append_left _ he)) x hx).base_le
  rw [List.foldl_append, hx, foldl_receive_some] at hholds
  have hnext := hcovers (route.chunks after) x ((hrest.filter _).map _) hstart
  rw [received, List.foldl_append, hx, foldl_receive_some]
  exact (hholds _ rfl).all hnext

end Stream

end Xernel
