import Mathlib.Data.Nat.Bitwise
import Mathlib.Order.CompletePartialOrder
import Mathlib.Order.Interval.Set.Disjoint
import Xernel.Mappings
import Xernel.Userland.NetTheorems
import Xernel.Userland.Virtio

/-!
# The rings of the drivers

The three parts of a queue lie one behind the other in its buffer, for every size. The block driver
takes its entry of the avail ring modulo the size of the ring, so its requests go round it for ever;
the network driver does not, so its writes leave the ring after as many buffers as the ring has entries.
-/

namespace Xernel
namespace Virtio

open Checked

/-! ## Layout -/

/-- Clearing the low 12 bits of a word. -/
lemma and_not_page {x : ℕ} (h : x < 2 ^ 64) : x &&& (u64Max - (qAlign - 1)) = pageDown x := by
  have hmask : u64Max - (qAlign - 1) = (2 ^ 52 - 1) <<< 12 := rfl
  have hdown : pageDown x = (x >>> 12) <<< 12 := by
    rw [Nat.shiftLeft_eq, Nat.shiftRight_eq_div_pow]
    rfl
  rw [hmask, hdown]
  apply Nat.eq_of_testBit_eq
  intro i
  rw [Nat.testBit_and, Nat.testBit_shiftLeft, Nat.testBit_shiftLeft, Nat.testBit_shiftRight,
    Nat.testBit_two_pow_sub_one]
  by_cases hlow : i < 12
  · simp [show ¬ 12 ≤ i by omega]
  · by_cases hhigh : i < 64
    · simp [show 12 ≤ i by omega, show i - 12 < 52 by omega]
    · have hbit : x.testBit i = false :=
        Nat.testBit_lt_two_pow (h.trans_le (Nat.pow_le_pow_right (by decide) (by omega)))
      rw [show 12 + (i - 12) = i by omega, hbit, Bool.false_and, Bool.and_false]

lemma alignUp_page {x : ℕ} (h : x + 4095 < 2 ^ 64) : alignUp x qAlign = pageUp x :=
  and_not_page h

lemma usedOffset_eq {n : ℕ} (h : n < 2 ^ 16) : usedOffset n = pageUp (16 * n + 6 + 2 * n) :=
  alignUp_page (by omega)

/-- The descriptor table and the avail ring of a queue end where its used ring begins, at a page. -/
lemma le_usedOffset {n : ℕ} (h : n < 2 ^ 16) :
    16 * n + 6 + 2 * n ≤ usedOffset n ∧ frameSize ∣ usedOffset n := by
  rw [usedOffset_eq h]
  exact ⟨le_pageUp _, frameSize_dvd_pageUp _⟩

/-- What `DMA_ALLOC` reports is a buffer of the requested length. -/
theorem dmaAlloc_buf {plat : Platform} {ts : List KernelStep} {k : Kernel} (hdisj : plat.RegionsDisjoint)
    (hfit : plat.RegionsFit) (h : Run (xernel plat) ts k) {t : KernelStep} (ht : t ∈ ts) {args : Args}
    (hact : t.pre.activity t.event = .call .dmaAlloc args) (hout : t.out = some 0) :
    ∃ buf : DmaBuf args.rdi.toNat,
      buf.va = t.post.userWord t.pre.sched.cur.space args.rsi.toNat ∧
      buf.phys = t.post.userWord t.pre.sched.cur.space (args.rsi.toNat + 8) := by
  obtain ⟨a, b, hts⟩ := List.append_of_mem ht
  obtain ⟨hpre, hs, hpost⟩ := h.split hts
  obtain ⟨hlo, -, hdvd⟩ : mmioRegionEnd ≤ t.pre.win.nextDmaVa ∧ t.pre.win.nextDmaVa ≤ dmaRegionEnd ∧
      frameSize ∣ t.pre.win.nextDmaVa := by
    refine hpre.invariant (I := fun k => Window.dma.start ≤ k.win.next .dma ∧
      k.win.next .dma ≤ Window.dma.stop ∧ frameSize ∣ k.win.next .dma) (fun k hk => ?_) ?_
    · obtain ⟨m₀, m, p, -, -, rfl⟩ := boot_cases hk
      exact first_cursor .dma
    · exact fun k e k' o hreach hinv hs => WindowInv.cursor_kept hreach hs hinv
  have htakes := takes_dmaAlloc (aligned_run hdisj hpost) ⟨a, hpre⟩ hs hdvd hdisj hfit
    (spaceInv_run hdisj hpre) hact hout
  have hstart : t.post.userWord t.pre.sched.cur.space args.rsi.toNat = t.pre.win.nextDmaVa := htakes.start
  have hroom : t.post.userWord t.pre.sched.cur.space args.rsi.toNat +
      pagesFor args.rdi.toNat * frameSize ≤ dmaRegionEnd := htakes.room
  have hpages : args.rdi.toNat ≤ pagesFor args.rdi.toNat * frameSize := le_pageUp _
  refine ⟨{ va := t.post.userWord t.pre.sched.cur.space args.rsi.toNat
            phys := t.post.userWord t.pre.sched.cur.space (args.rsi.toNat + 8)
            aligned := ?_, start_le := ?_, end_le := ?_ }, rfl, rfl⟩
  · rw [hstart]
    exact hdvd
  · rw [hstart]
    exact hlo
  · exact (Nat.add_le_add_left hpages _).trans hroom

/-- The bytes of a write all lie in an area. -/
def Write.Within (w : Write) (area : Set ℕ) : Prop := ∀ i < w.bytes.length, w.addr + i ∈ area

lemma Write.within_Ico {w : Write} {lo hi : ℕ} (hlo : lo ≤ w.addr)
    (hhi : w.addr + w.bytes.length ≤ hi) : w.Within (Set.Ico lo hi) := by
  intro i hi'
  rw [Set.mem_Ico]
  omega

/-- A write of a descriptor lies in the table if the table has that descriptor. -/
lemma writeDesc_within {base i addr len flags next n : ℕ} (hi : i < n) :
    ∀ w ∈ writeDesc base i addr len flags next, w.Within (Set.Ico base (base + 16 * n)) := by
  intro w hw
  simp only [writeDesc, List.mem_cons, List.not_mem_nil, or_false] at hw
  rcases hw with rfl | rfl | rfl | rfl <;>
    exact Write.within_Ico (by simp only; omega) (by simp only [length_leBytes]; omega)

/-- Publishing at an entry of the ring writes to the avail ring only. -/
lemma publish_within {avail slot idx n : ℕ} (hslot : slot < n) :
    ∀ w ∈ publish avail slot idx, w.Within (Set.Ico avail (avail + 6 + 2 * n)) := by
  intro w hw
  simp only [publish, List.mem_cons, List.not_mem_nil, or_false] at hw
  rcases hw with rfl | rfl <;>
    exact Write.within_Ico (by simp only; omega) (by simp only [length_leBytes]; omega)

/-! ## The block device -/

namespace Blk

variable {b : Blk} {dma : DmaAlloc} {n : ℕ}

def descTable (b : Blk) : Set ℕ := Set.Ico b.qVa (b.qVa + 16 * b.n)
def availRing (b : Blk) : Set ℕ := Set.Ico b.availVa (b.availVa + 6 + 2 * b.n)
def usedRing (b : Blk) : Set ℕ := Set.Ico (b.qVa + b.usedOff) (b.qVa + b.usedOff + 6 + 8 * b.n)
def requestPage (b : Blk) : Set ℕ := Set.Ico b.hdrVa (b.hdrVa + 4096)

/-- The parts of the queue have no byte in common and fit into its buffer, and the used ring begins at a
page. -/
structure LaidOut (b : Blk) : Prop where
  desc_avail : Disjoint b.descTable b.availRing
  desc_used : Disjoint b.descTable b.usedRing
  avail_used : Disjoint b.availRing b.usedRing
  used_aligned : frameSize ∣ b.qVa + b.usedOff
  fits : b.descTable ∪ b.availRing ∪ b.usedRing ⊆ Set.Ico b.qVa (b.qVa + ringTotal b.n)

/-- The request after `i` others: its head goes to entry `i % n` of the ring, where the device looks for
it, the index counts the requests so far, and nothing else of the queue is written than the driver's
part. -/
structure Sound (b : Blk) (i : ℕ) (writes : List Write) : Prop where
  published : ∃ front, writes = front ++ publish b.availVa (i % b.n) ((i + 1) % 2 ^ 16)
  slot : i % 2 ^ 16 % b.n = i % b.n
  within : ∀ w ∈ writes, w.Within b.descTable ∨ w.Within b.availRing ∨ w.Within b.requestPage

/-- How the addresses of a device that is up lie to each other. -/
structure Placed (b : Blk) : Prop where
  avail : b.availVa = b.qVa + 16 * b.n
  used : b.usedOff = usedOffset b.n
  data : b.dataVa = b.hdrVa + 16
  status : b.statusVa = b.hdrVa + 528
  q_aligned : frameSize ∣ b.qVa

lemma blkInit_placed (h : blkInit n dma = some b) : b.Placed ∧ b.n = n ∧ b.seq = 0 := by
  unfold blkInit at h
  split at h
  · cases h
  · obtain ⟨q, -, h⟩ := Option.bind_eq_some_iff.mp h
    obtain ⟨p, -, h⟩ := Option.bind_eq_some_iff.mp h
    obtain rfl := Option.some.inj h
    exact ⟨⟨rfl, rfl, rfl, rfl, q.aligned⟩, rfl, rfl⟩

lemma Placed.laidOut (h : b.Placed) (hn : b.n < 2 ^ 16) : b.LaidOut := by
  obtain ⟨hle, hdvd⟩ := le_usedOffset hn
  rw [← h.used] at hle hdvd
  constructor
  case desc_avail =>
    rw [descTable, availRing, Set.Ico_disjoint_Ico, h.avail]
    omega
  case desc_used =>
    rw [descTable, usedRing, Set.Ico_disjoint_Ico]
    omega
  case avail_used =>
    rw [availRing, usedRing, Set.Ico_disjoint_Ico, h.avail]
    omega
  case used_aligned => exact Nat.dvd_add h.q_aligned hdvd
  case fits =>
    rintro a ((ha | ha) | ha)
    all_goals
      have ha := Set.mem_Ico.mp ha
      have havail := h.avail
      have hused := h.used
      rw [Set.mem_Ico, ringTotal]
      omega

/-- The driver after some requests. -/
def after (b : Blk) (rs : List Request) : Blk := rs.foldl (fun b r => (blkRw b r).1) b

lemma blkRw_fst (b : Blk) (r : Request) : (blkRw b r).1 = { b with seq := (b.seq + 1) % 2 ^ 16 } := by
  unfold blkRw
  dsimp only
  split
  · rfl
  · split <;> rfl

lemma blkRw_writes (b : Blk) (r : Request) : (blkRw b r).2.1 = b.writes r := by
  unfold blkRw
  dsimp only
  split
  · rfl
  · split <;> rfl

/-- Requests change the count only, which wraps around. -/
lemma after_eq (rs : List Request) (b : Blk) (h : b.seq < 2 ^ 16) :
    b.after rs = { b with seq := (b.seq + rs.length) % 2 ^ 16 } := by
  induction rs generalizing b with
  | nil =>
    rw [List.length_nil, Nat.add_zero, Nat.mod_eq_of_lt h]
    rfl
  | cons r rs ih =>
    have hstep : b.after (r :: rs) = (blkRw b r).1.after rs := rfl
    rw [hstep, blkRw_fst, ih _ (Nat.mod_lt _ (by decide))]
    dsimp only
    rw [Nat.mod_add_mod, Nat.add_assoc, Nat.add_comm 1, List.length_cons]

/-- One request of a device that is up. -/
lemma Placed.sound (h : b.Placed) (hn : 2 < b.n) (hdvd : b.n ∣ 2 ^ 16) (i : ℕ) (r : Request) :
    b.Sound i ({ b with seq := i % 2 ^ 16 }.writes r) := by
  have hslot : i % 2 ^ 16 % b.n = i % b.n := Nat.mod_mod_of_dvd i hdvd
  have hlt : i % b.n < b.n := Nat.mod_lt _ (by omega)
  constructor
  case slot => exact hslot
  case published =>
    rw [writes, hslot, Nat.mod_add_mod]
    exact ⟨_, rfl⟩
  case within =>
    have hdata := h.data
    have hstatus := h.status
    intro w hw
    rw [writes, hslot] at hw
    simp only [List.mem_append] at hw
    rcases hw with ((((hw | hw) | hw) | hw) | hw) | hw
    · -- the header and the status
      right; right
      simp only [List.mem_cons, List.not_mem_nil, or_false] at hw
      rcases hw with rfl | rfl | rfl | rfl <;>
        exact Write.within_Ico (by simp only; omega)
          (by simp only [length_leBytes, List.length_singleton]; omega)
    · -- the data of a write
      right; right
      split at hw
      · obtain ⟨j, hj, rfl⟩ := List.mem_map.mp hw
        have hj := List.mem_range.mp hj
        exact Write.within_Ico (by simp only; omega) (by simp only [List.length_singleton]; omega)
      · cases hw
    · exact .inl (writeDesc_within (by omega) w hw)
    · exact .inl (writeDesc_within (by omega) w hw)
    · exact .inl (writeDesc_within (by omega) w hw)
    · exact .inr (.inl (publish_within hlt w hw))

end Blk

/-- The rings of the block device are laid out apart from each other, and any number of requests goes
round the avail ring without a write outside the driver's part of the queue and the request page. -/
theorem blk_rings_sound {k : ℕ} {dma : DmaAlloc} {b : Blk} (hlo : 2 ≤ k) (hhi : k ≤ 15)
    (h : blkInit (2 ^ k) dma = some b) :
    b.LaidOut ∧ ∀ (rs : List Request) (r : Request),
      b.Sound rs.length (blkRw (b.after rs) r).2.1 := by
  obtain ⟨hplaced, hn, hseq⟩ := Blk.blkInit_placed h
  have hfour : 2 ^ 2 ≤ 2 ^ k := Nat.pow_le_pow_right (by decide) hlo
  have hmax : 2 ^ k ≤ 2 ^ 15 := Nat.pow_le_pow_right (by decide) hhi
  refine ⟨hplaced.laidOut (by omega), fun rs r => ?_⟩
  rw [Blk.blkRw_writes, Blk.after_eq rs b (by omega), hseq, Nat.zero_add]
  exact hplaced.sound (by omega) (hn ▸ Nat.pow_dvd_pow 2 (by omega)) rs.length r

lemma megabyte_aligned (i : ℕ) : frameSize ∣ 0x600 * 2 ^ 20 + i * 2 ^ 20 := by
  have hdvd : frameSize ∣ 2 ^ 20 := by decide
  exact Nat.dvd_add (hdvd.mul_left 0x600) (hdvd.mul_left i)

lemma megabyte_end {i len : ℕ} (h : i < 4 ∧ len ≤ 2 ^ 20) :
    0x600 * 2 ^ 20 + i * 2 ^ 20 + len ≤ dmaRegionEnd := by
  simp only [dmaRegionEnd]
  omega

lemma megabyte_start (i : ℕ) : mmioRegionEnd ≤ 0x600 * 2 ^ 20 + i * 2 ^ 20 := by
  simp only [mmioRegionEnd]
  omega

/-- An allocator that has one MiB for each of four buffers. -/
def megabytes : DmaAlloc := fun i len =>
  if h : i < 4 ∧ len ≤ 2 ^ 20 then
    some ⟨0x600 * 2 ^ 20 + i * 2 ^ 20, 16 * 2 ^ 20 + i * 2 ^ 20, megabyte_aligned i, megabyte_start i,
      megabyte_end h⟩
  else none

theorem blk_rings_sound_256 : ∃ b, blkInit (2 ^ 8) megabytes = some b ∧ b.LaidOut ∧
    ∀ (rs : List Request) (r : Request), b.Sound rs.length (blkRw (b.after rs) r).2.1 := by
  obtain ⟨b, hb⟩ : ∃ b, blkInit (2 ^ 8) megabytes = some b := ⟨_, rfl⟩
  exact ⟨b, hb, blk_rings_sound (by decide) (by decide) hb⟩

/-! ## The network device -/

/-- What the callers of the driver do with its queues. -/
inductive Call where
  | rxArm
  | tx (frame : List UInt8)

def Call.isRxArm : Call → Bool
  | rxArm => true
  | tx _ => false

def Call.isTx : Call → Bool
  | rxArm => false
  | tx _ => true

/-- The call that hands the buffer number `posted` to a queue of size `n` writes its head to the entry
where the device looks for it, inside the ring, which ends before the used ring at `stop`, and counts
on. -/
structure InRing (avail stop n posted posted' : ℕ) (writes : List Write) : Prop where
  count : posted' = (posted + 1) % 2 ^ 16
  ring : avail + 4 + 2 * n ≤ stop
  entry : ∃ front head, writes = front ++ [head, ⟨avail + 2, leBytes 2 posted'⟩] ∧
    head.addr = avail + 4 + 2 * (posted % n) ∧
    head.Within (Set.Ico (avail + 4) (avail + 4 + 2 * n))

namespace Queues

variable {q : Queues} {nRx nTx : ℕ} {cs : List Call}

/-- The queues after another receive buffer was armed. -/
def armed (q : Queues) : Queues := { q with rxPosted := q.rxPosted + 1 }

/-- The queues after a transmission. -/
def transmitted (q : Queues) : Queues := { q with txPosted := q.txPosted + 1 }

/-- Every call is in order, and none panics. -/
def Safe (nRx nTx : ℕ) : Queues → List Call → Prop
  | _, [] => True
  | q, .rxArm :: cs => ∃ q' writes, q.rxArm = .ok (q', writes) ∧
      InRing q.rxAvail (q.rxRing + q.rxUsedOff) nRx q.rxPosted q'.rxPosted writes ∧ Safe nRx nTx q' cs
  | q, .tx frame :: cs => ∃ q' writes, q.tx frame = .ok (q', writes) ∧
      InRing q.txAvail (q.txRing + q.txUsedOff) nTx q.txPosted q'.txPosted writes ∧ Safe nRx nTx q' cs

/-- Publishing without a reduction is in order as long as the ring has not been used up. -/
lemma inRing_publish_iff {avail stop n posted : ℕ} (front : List Write) (hn : 0 < n)
    (hmax : n < 2 ^ 16) (hring : avail + 6 + 2 * n ≤ stop) (hle : posted ≤ n) :
    InRing avail stop n posted (posted + 1) (front ++ publish avail posted (posted + 1)) ↔
      posted < n := by
  constructor
  · rintro ⟨-, -, front', head, heq, haddr, -⟩
    have hlast := List.append_inj_right' heq rfl
    obtain ⟨rfl, -⟩ := List.cons.inj hlast
    by_contra hnot
    have hposted : posted = n := by omega
    subst hposted
    rw [Nat.mod_self] at haddr
    simp only at haddr
    omega
  · intro hlt
    refine ⟨(Nat.mod_eq_of_lt (by omega)).symm, by omega, front, _, rfl, ?_, ?_⟩
    · rw [Nat.mod_eq_of_lt hlt]
    · exact Write.within_Ico (by simp only; omega) (by simp only [length_leBytes]; omega)

/-- A call that returns, followed by the others. -/
lemma safe_cons {x : Checked (Queues × List Write)} {q' : Queues} {writes : List Write}
    {P : Queues → List Write → Prop} {S : Queues → Prop} (hx : x = .ok (q', writes)) :
    (∃ q' writes, x = .ok (q', writes) ∧ P q' writes ∧ S q') ↔ P q' writes ∧ S q' := by
  subst hx
  constructor
  · rintro ⟨q₁, writes₁, heq, h⟩
    obtain ⟨rfl, rfl⟩ := Prod.mk.inj (Except.ok.inj heq)
    exact h
  · exact fun h => ⟨q', writes, rfl, h⟩

lemma safe_rxArm (hn : 0 < nRx) (hmax : nRx ≤ 2 ^ 15)
    (hring : q.rxAvail + 6 + 2 * nRx ≤ q.rxRing + q.rxUsedOff) (hle : q.rxPosted ≤ nRx) :
    q.Safe nRx nTx (.rxArm :: cs) ↔
      q.rxPosted < nRx ∧ q.armed.Safe nRx nTx cs := by
  have harm : q.rxArm = .ok (q.armed,
      writeDesc q.rxRing 0 q.rxBufPhys netBuf descWrite 0 ++
        publish q.rxAvail q.rxPosted (q.rxPosted + 1)) := by
    rw [rxArm, add_of_lt (by omega)]
    rfl
  refine (safe_cons harm).trans ?_
  exact and_congr_left' (inRing_publish_iff _ hn (by omega) hring hle)

lemma safe_tx (hn : 0 < nTx) (hmax : nTx ≤ 2 ^ 15)
    (hring : q.txAvail + 6 + 2 * nTx ≤ q.txRing + q.txUsedOff) (hle : q.txPosted ≤ nTx)
    (frame : List UInt8) :
    q.Safe nRx nTx (.tx frame :: cs) ↔
      q.txPosted < nTx ∧ q.transmitted.Safe nRx nTx cs := by
  have htx : q.tx frame = .ok (q.transmitted,
      (List.range vnetHdrLen).map (fun i => ⟨q.txBufVa + i, [0]⟩) ++
        frame.zipIdx.map (fun b => ⟨q.txBufVa + vnetHdrLen + b.2, [b.1]⟩) ++
        writeDesc q.txRing 0 q.txBufPhys (vnetHdrLen + frame.length) 0 0 ++
        publish q.txAvail q.txPosted (q.txPosted + 1)) := by
    rw [tx, add_of_lt (by omega)]
    rfl
  refine (safe_cons htx).trans ?_
  exact and_congr_left' (inRing_publish_iff _ hn (by omega) hring hle)

/-- The rings end before the used rings. -/
structure RingsFit (nRx nTx : ℕ) (q : Queues) : Prop where
  rx : q.rxAvail + 6 + 2 * nRx ≤ q.rxRing + q.rxUsedOff
  tx : q.txAvail + 6 + 2 * nTx ≤ q.txRing + q.txUsedOff

/-- The ring of a queue suffices for as many calls as it has entries. -/
lemma safe_iff (hnRx : 0 < nRx) (hmaxRx : nRx ≤ 2 ^ 15) (hnTx : 0 < nTx) (hmaxTx : nTx ≤ 2 ^ 15)
    (cs : List Call) (q : Queues) (hfit : q.RingsFit nRx nTx) (hrx : q.rxPosted ≤ nRx)
    (htx : q.txPosted ≤ nTx) :
    q.Safe nRx nTx cs ↔
      q.rxPosted + cs.countP Call.isRxArm ≤ nRx ∧ q.txPosted + cs.countP Call.isTx ≤ nTx := by
  induction cs generalizing q with
  | nil => exact iff_of_true trivial ⟨hrx, htx⟩
  | cons c cs ih =>
    cases c with
    | rxArm =>
      have hcountRx : (Call.rxArm :: cs).countP Call.isRxArm = cs.countP Call.isRxArm + 1 :=
        List.countP_cons_of_pos rfl
      have hcountTx : (Call.rxArm :: cs).countP Call.isTx = cs.countP Call.isTx :=
        List.countP_cons_of_neg Bool.false_ne_true
      rw [safe_rxArm hnRx hmaxRx hfit.rx hrx, hcountRx, hcountTx]
      constructor
      · rintro ⟨hlt, hrest⟩
        obtain ⟨hRx, hTx⟩ := (ih q.armed ⟨hfit.rx, hfit.tx⟩ hlt htx).mp hrest
        have hRx : q.rxPosted + 1 + cs.countP Call.isRxArm ≤ nRx := hRx
        exact ⟨by omega, hTx⟩
      · rintro ⟨hRx, hTx⟩
        have hlt : q.rxPosted + 1 ≤ nRx := by omega
        refine ⟨hlt, (ih q.armed ⟨hfit.rx, hfit.tx⟩ hlt htx).mpr ⟨?_, hTx⟩⟩
        show q.rxPosted + 1 + cs.countP Call.isRxArm ≤ nRx
        omega
    | tx frame =>
      have hcountRx : (Call.tx frame :: cs).countP Call.isRxArm = cs.countP Call.isRxArm :=
        List.countP_cons_of_neg Bool.false_ne_true
      have hcountTx : (Call.tx frame :: cs).countP Call.isTx = cs.countP Call.isTx + 1 :=
        List.countP_cons_of_pos rfl
      rw [safe_tx hnTx hmaxTx hfit.tx htx frame, hcountRx, hcountTx]
      constructor
      · rintro ⟨hlt, hrest⟩
        obtain ⟨hRx, hTx⟩ := (ih q.transmitted ⟨hfit.rx, hfit.tx⟩ hrx hlt).mp hrest
        have hTx : q.txPosted + 1 + cs.countP Call.isTx ≤ nTx := hTx
        exact ⟨hRx, by omega⟩
      · rintro ⟨hRx, hTx⟩
        have hlt : q.txPosted + 1 ≤ nTx := by omega
        refine ⟨hlt, (ih q.transmitted ⟨hfit.rx, hfit.tx⟩ hrx hlt).mpr ⟨hRx, ?_⟩⟩
        show q.txPosted + 1 + cs.countP Call.isTx ≤ nTx
        omega

/-- Arming a buffer counts the same on the queues and on the card that is made of them. -/
lemma rxArm_counts {card : Net} (h : card.rxPosted = q.rxPosted) :
    (netRxArm card).map Net.rxPosted = q.rxArm.map fun r => r.1.rxPosted := by
  unfold netRxArm rxArm
  rw [h]
  cases add 16 q.rxPosted 1 <;> rfl

lemma tx_counts {card : Net} (h : card.txPosted = q.txPosted) (frame : List UInt8) :
    (netTx card frame).map (fun r => r.1.txPosted) = (q.tx frame).map fun r => r.1.txPosted := by
  unfold netTx tx
  rw [h]
  cases add 16 q.txPosted 1 <;> rfl

end Queues

lemma vqSetup_fits {n : ℕ} {dma : (len : ℕ) → Option (DmaBuf len)} {vq : ℕ × ℕ × ℕ}
    (h : vqSetup n dma = some vq) (hn : n < 2 ^ 16) : vq.2.2 + 6 + 2 * n ≤ vq.1 + vq.2.1 := by
  unfold vqSetup at h
  split at h
  · cases h
  · obtain ⟨q, -, rfl⟩ := Option.map_eq_some_iff.mp h
    have hle := (le_usedOffset hn).1
    dsimp only
    omega

lemma netInit_spec {nRx nTx : ℕ} {dma : DmaAlloc} {q : Queues} (h : netInit nRx nTx dma = some q)
    (hrx : nRx < 2 ^ 16) (htx : nTx < 2 ^ 16) :
    q.rxPosted = 0 ∧ q.txPosted = 0 ∧ q.RingsFit nRx nTx := by
  obtain ⟨rx, hvqRx, h⟩ := Option.bind_eq_some_iff.mp h
  obtain ⟨rxBuf, -, h⟩ := Option.bind_eq_some_iff.mp h
  obtain ⟨tx, hvqTx, h⟩ := Option.bind_eq_some_iff.mp h
  obtain ⟨txBuf, -, h⟩ := Option.bind_eq_some_iff.mp h
  obtain rfl := Option.some.inj h
  exact ⟨rfl, rfl, vqSetup_fits hvqRx hrx, vqSetup_fits hvqTx htx⟩


/-- The driver keeps to its rings exactly as long as it makes no more calls than they have entries. -/
theorem net_rings_iff {kRx kTx : ℕ} {dma : DmaAlloc} {q : Queues} (hkRx : kRx ≤ 15) (hkTx : kTx ≤ 15)
    (h : netInit (2 ^ kRx) (2 ^ kTx) dma = some q) (cs : List Call) :
    q.Safe (2 ^ kRx) (2 ^ kTx) cs ↔
      cs.countP Call.isRxArm ≤ 2 ^ kRx ∧ cs.countP Call.isTx ≤ 2 ^ kTx := by
  have hmaxRx : 2 ^ kRx ≤ 2 ^ 15 := Nat.pow_le_pow_right (by decide) hkRx
  have hmaxTx : 2 ^ kTx ≤ 2 ^ 15 := Nat.pow_le_pow_right (by decide) hkTx
  obtain ⟨hrx, htx, hfit⟩ := netInit_spec h (by omega) (by omega)
  have hleRx : q.rxPosted ≤ 2 ^ kRx := by rw [hrx]; exact Nat.zero_le _
  have hleTx : q.txPosted ≤ 2 ^ kTx := by rw [htx]; exact Nat.zero_le _
  rw [Queues.safe_iff (Nat.two_pow_pos _) hmaxRx (Nat.two_pow_pos _) hmaxTx cs q hfit hleRx hleTx, hrx,
    htx, Nat.zero_add, Nat.zero_add]

theorem net_rings_iff_256 : ∃ q, netInit (2 ^ 8) (2 ^ 8) megabytes = some q ∧
    q.Safe (2 ^ 8) (2 ^ 8) [.rxArm, .tx [0x08, 0x00], .rxArm] := by
  obtain ⟨q, hq⟩ : ∃ q, netInit (2 ^ 8) (2 ^ 8) megabytes = some q := ⟨_, rfl⟩
  exact ⟨q, hq, (net_rings_iff (by decide) (by decide) hq _).mpr ⟨by decide, by decide⟩⟩

/-- A card with receive queues of 256 entries, and 257 receive buffers armed one after the other. -/
theorem not_net_rings_257 : ∃ q, netInit (2 ^ 8) (2 ^ 8) megabytes = some q ∧
    ¬ q.Safe (2 ^ 8) (2 ^ 8) (List.replicate 257 .rxArm) := by
  obtain ⟨q, hq⟩ : ∃ q, netInit (2 ^ 8) (2 ^ 8) megabytes = some q := ⟨_, rfl⟩
  obtain ⟨hrx, htx, hfit⟩ := netInit_spec hq (by decide) (by decide)
  refine ⟨q, hq, fun hsafe => ?_⟩
  have hcount := ((Queues.safe_iff (by decide) (by decide) (by decide) (by decide) _ q hfit (by omega)
    (by omega)).mp hsafe).1
  have harm : Call.rxArm.isRxArm = true := rfl
  rw [List.countP_replicate, if_pos harm, hrx] at hcount
  omega

end Virtio
end Xernel
