import Xernel.Userland.Postings
import Xernel.Userland.VirtioTheorems

/-!
# Where the card driver writes

The driver publishes its buffers in the avail rings entry after entry, and never goes round. So the number
of buffers posted so far decides where it writes: from some number on past the end of what is mapped, which
is a page fault, and before that, on the way there, over its own transmit buffer. The first half says when
all writes of a request are in mapped memory, the second when the card reads the frames as they were sent.
-/

namespace Xernel
namespace Virtio

open Checked Host

variable {q : Queues} {area : Set ℕ} {n n' : Net} {avail posted more arms sends : ℕ} {frame : List UInt8}

namespace Queues

/-- The writes of a call of the driver, if it returns. -/
def writesOf (x : Checked (Queues × List Write)) : List Write :=
  match x with
  | .ok r => r.2
  | .error _ => []

/-- What `net_rx_arm` writes after it was called `posted` times. -/
def armWrites (q : Queues) (posted : ℕ) : List Write := writesOf { q with rxPosted := posted }.rxArm

/-- What `net_tx` writes for a frame after it was called `posted` times. -/
def txWrites (q : Queues) (posted : ℕ) (frame : List UInt8) : List Write :=
  writesOf ({ q with txPosted := posted }.tx frame)

/-- All that the driver writes while the card goes from `n` to `n'`. -/
def writes (q : Queues) (n n' : Net) : List Write :=
  (List.range' n.rxPosted (n'.rxPosted - n.rxPosted)).flatMap q.armWrites ++
    ((n'.sent.drop n.sent.length).zipIdx n.txPosted).flatMap fun f => q.txWrites f.2 f.1

end Queues

/-! ## Mapped memory -/

/-- The entries of an avail ring from number `posted` on, so many of them, lie in an area. -/
def EntriesIn (area : Set ℕ) (avail posted more : ℕ) : Prop :=
  Set.Ico (avail + 4 + 2 * posted) (avail + 4 + 2 * (posted + more)) ⊆ area

lemma entriesIn_zero (area : Set ℕ) (avail posted : ℕ) : EntriesIn area avail posted 0 := by
  rw [EntriesIn, Nat.add_zero posted, Set.Ico_self]
  exact Set.empty_subset area

lemma entriesIn_add {a b : ℕ} : EntriesIn area avail posted (a + b) ↔
    EntriesIn area avail posted a ∧ EntriesIn area avail (posted + a) b := by
  rw [EntriesIn, EntriesIn, EntriesIn, ← Nat.add_assoc, ← Set.union_subset_iff,
    Set.Ico_union_Ico_eq_Ico (by omega) (by omega)]

/-- The places to which the driver writes whatever it posts: descriptor 0 and the index of each queue, and
the transmit buffer. -/
structure Queues.FixedIn (q : Queues) (area : Set ℕ) : Prop where
  rxDesc : Set.Ico q.rxRing (q.rxRing + 16) ⊆ area
  rxIdx : Set.Ico (q.rxAvail + 2) (q.rxAvail + 4) ⊆ area
  txDesc : Set.Ico q.txRing (q.txRing + 16) ⊆ area
  txIdx : Set.Ico (q.txAvail + 2) (q.txAvail + 4) ⊆ area
  txBuf : Set.Ico q.txBufVa (q.txBufVa + netBuf) ⊆ area

/-- The buffers that `net_init` asks for, with the number of the call. -/
def netBuffers (nRx nTx : ℕ) : List (ℕ × ℕ) :=
  [(0, ringTotal nRx), (1, netBuf), (2, ringTotal nTx), (3, netBuf)]

/-- Descriptor 0 and the index lie in the buffer of the queue. -/
lemma vqSetup_fixedIn {size : ℕ} {dma : (len : ℕ) → Option (DmaBuf len)} {vq : ℕ × ℕ × ℕ}
    (h : vqSetup size dma = some vq) (hsize : size < 2 ^ 16)
    (hmap : ∀ buf, dma (ringTotal size) = some buf →
      Set.Ico buf.va (buf.va + ringTotal size) ⊆ area) :
    Set.Ico vq.1 (vq.1 + 16) ⊆ area ∧ Set.Ico (vq.2.2 + 2) (vq.2.2 + 4) ⊆ area := by
  obtain ⟨hzero, hbuf⟩ := Option.ite_none_left_eq_some.mp h
  obtain ⟨buf, hdma, rfl⟩ := Option.map_eq_some_iff.mp hbuf
  have hpos : 0 < size := Nat.pos_of_ne_zero hzero
  have hused := (le_usedOffset hsize).1
  have htotal : ringTotal size = usedOffset size + 6 + 8 * size := rfl
  -- 16 bytes of descriptor 0, and the index behind the table, are within the used offset
  have hin := hmap buf hdma
  dsimp only
  exact ⟨(Set.Ico_subset_Ico le_rfl (by omega)).trans hin,
    (Set.Ico_subset_Ico (by omega) (by omega)).trans hin⟩

/-- `net_init` puts the fixed places into its buffers, which `DMA_ALLOC` has mapped. -/
lemma netInit_fixedIn {nRx nTx : ℕ} {dma : DmaAlloc} (h : netInit nRx nTx dma = some q)
    (hrx : nRx < 2 ^ 16) (htx : nTx < 2 ^ 16)
    (hmap : ∀ r ∈ netBuffers nRx nTx, ∀ buf, dma r.1 r.2 = some buf →
      Set.Ico buf.va (buf.va + r.2) ⊆ area) : q.FixedIn area := by
  obtain ⟨rx, hvqRx, h⟩ := Option.bind_eq_some_iff.mp h
  obtain ⟨rxBuf, -, h⟩ := Option.bind_eq_some_iff.mp h
  obtain ⟨tx, hvqTx, h⟩ := Option.bind_eq_some_iff.mp h
  obtain ⟨txBuf, htxBuf, h⟩ := Option.bind_eq_some_iff.mp h
  obtain rfl := Option.some.inj h
  obtain ⟨hrxDesc, hrxIdx⟩ := vqSetup_fixedIn hvqRx hrx (hmap (0, ringTotal nRx) (by simp [netBuffers]))
  obtain ⟨htxDesc, htxIdx⟩ := vqSetup_fixedIn hvqTx htx (hmap (2, ringTotal nTx) (by simp [netBuffers]))
  exact ⟨hrxDesc, hrxIdx, htxDesc, htxIdx, hmap (3, netBuf) (by simp [netBuffers]) txBuf htxBuf⟩

lemma Write.Within.mono {w : Write} {a b : Set ℕ} (h : w.Within a) (hab : a ⊆ b) : w.Within b :=
  fun i hi => hab (h i hi)

lemma writeDesc_in {base addr len flags next : ℕ} (h : Set.Ico base (base + 16) ⊆ area) :
    ∀ w ∈ writeDesc base 0 addr len flags next, w.Within area := fun w hw =>
  (writeDesc_within (n := 1) Nat.one_pos w hw).mono h

/-- Publishing writes the index, and one entry. -/
lemma publish_in_iff (hidx : Set.Ico (avail + 2) (avail + 4) ⊆ area) (idx : ℕ) :
    (∀ w ∈ publish avail posted idx, w.Within area) ↔ EntriesIn area avail posted 1 := by
  have hindex : (⟨avail + 2, leBytes 2 idx⟩ : Write).Within area :=
    (Write.within_Ico le_rfl (by simp only [length_leBytes]; omega)).mono hidx
  have hentry : (⟨avail + 4 + 2 * posted, leBytes 2 0⟩ : Write).Within area ↔
      EntriesIn area avail posted 1 := by
    constructor
    · intro h a ha
      obtain ⟨hlo, hhi⟩ := Set.mem_Ico.mp ha
      have hmem := h (a - (avail + 4 + 2 * posted)) (by simp only [length_leBytes]; omega)
      rwa [show avail + 4 + 2 * posted + (a - (avail + 4 + 2 * posted)) = a by omega] at hmem
    · exact fun h => (Write.within_Ico le_rfl (by simp only [length_leBytes]; omega)).mono h
  simp only [publish, List.forall_mem_cons, List.not_mem_nil, false_implies, implies_true, and_true,
    hindex, hentry]

lemma armWrites_in_iff (hfix : q.FixedIn area) (hlt : posted + 1 < 2 ^ 16) :
    (∀ w ∈ q.armWrites posted, w.Within area) ↔ EntriesIn area q.rxAvail posted 1 := by
  have hwrites : q.armWrites posted = writeDesc q.rxRing 0 q.rxBufPhys netBuf descWrite 0 ++
      publish q.rxAvail posted (posted + 1) := by
    rw [Queues.armWrites, Queues.rxArm, add_of_lt hlt]
    rfl
  rw [hwrites, List.forall_mem_append, publish_in_iff hfix.rxIdx]
  exact and_iff_right (writeDesc_in hfix.rxDesc)

/-- The writes of a transmission: the header and the frame, the descriptor, and the publication. -/
lemma txWrites_eq (q : Queues) (frame : List UInt8) (hlt : posted + 1 < 2 ^ 16) :
    q.txWrites posted frame = (List.range vnetHdrLen).map (fun i => ⟨q.txBufVa + i, [0]⟩) ++
      frame.zipIdx.map (fun b => ⟨q.txBufVa + vnetHdrLen + b.2, [b.1]⟩) ++
      writeDesc q.txRing 0 q.txBufPhys (vnetHdrLen + frame.length) 0 0 ++
      publish q.txAvail posted (posted + 1) := by
  rw [Queues.txWrites, Queues.tx, add_of_lt hlt]
  rfl

lemma txWrites_in_iff (hfix : q.FixedIn area) (hlt : posted + 1 < 2 ^ 16)
    (hlen : frame.length ≤ maxFrame) :
    (∀ w ∈ q.txWrites posted frame, w.Within area) ↔ EntriesIn area q.txAvail posted 1 := by
  rw [txWrites_eq q frame hlt, List.forall_mem_append, publish_in_iff hfix.txIdx]
  refine and_iff_right ?_
  rw [List.forall_mem_append, List.forall_mem_append]
  simp only [maxFrame] at hlen
  refine ⟨⟨fun w hw => ?_, fun w hw => ?_⟩, writeDesc_in hfix.txDesc⟩
  · obtain ⟨i, hi, rfl⟩ := List.mem_map.mp hw
    have hi := List.mem_range.mp hi
    refine (Write.within_Ico ?_ ?_).mono hfix.txBuf <;>
      simp only [vnetHdrLen, netBuf, List.length_singleton] at hi ⊢ <;> omega
  · obtain ⟨⟨b, i⟩, hi, rfl⟩ := List.mem_map.mp hw
    have hi := List.snd_lt_of_mem_zipIdx hi
    refine (Write.within_Ico ?_ ?_).mono hfix.txBuf <;>
      simp only [vnetHdrLen, netBuf, List.length_singleton] at hi ⊢ <;> omega

/-- The writes of some armings. -/
lemma arms_in_iff (hfix : q.FixedIn area) (hfits : Fits posted more) :
    (∀ w ∈ (List.range' posted more).flatMap q.armWrites, w.Within area) ↔
      EntriesIn area q.rxAvail posted more := by
  induction more generalizing posted with
  | zero => exact iff_of_true (fun w hw => absurd hw List.not_mem_nil) (entriesIn_zero ..)
  | succ more ih =>
    have hlt := hfits (Nat.succ_pos _)
    rw [List.range'_succ, List.flatMap_cons, List.forall_mem_append, armWrites_in_iff hfix (by omega),
      ih fun _ => by omega, Nat.add_comm more 1, entriesIn_add]

/-- The writes of some transmissions. -/
lemma sends_in_iff (hfix : q.FixedIn area) {fs : List (List UInt8)} (hfits : Fits posted fs.length)
    (hlen : ∀ f ∈ fs, f.length ≤ maxFrame) :
    (∀ w ∈ (fs.zipIdx posted).flatMap fun f => q.txWrites f.2 f.1, w.Within area) ↔
      EntriesIn area q.txAvail posted fs.length := by
  induction fs generalizing posted with
  | nil => exact iff_of_true (fun w hw => absurd hw List.not_mem_nil) (entriesIn_zero ..)
  | cons f fs ih =>
    obtain ⟨hf, hfs⟩ := List.forall_mem_cons.mp hlen
    have hlt := hfits (Nat.succ_pos _)
    rw [List.length_cons] at hlt
    rw [List.zipIdx_cons, List.flatMap_cons, List.forall_mem_append, txWrites_in_iff hfix (by omega) hf,
      ih (fun _ => by omega) hfs, List.length_cons, Nat.add_comm fs.length 1, entriesIn_add]

/-- What is posted decides where the driver writes. -/
theorem writes_in_iff (hfix : q.FixedIn area) (h : n.Posts n' arms sends) :
    (∀ w ∈ q.writes n n', w.Within area) ↔
      EntriesIn area q.rxAvail n.rxPosted arms ∧ EntriesIn area q.txAvail n.txPosted sends := by
  obtain ⟨fs, hsent, hcount, hlen⟩ := h.frames
  have htx := h.txFits
  rw [← hcount] at htx
  rw [Queues.writes, List.forall_mem_append, h.rxPosted, Nat.add_sub_cancel_left, hsent, List.drop_left,
    arms_in_iff hfix h.rxFits, sends_in_iff hfix htx hlen, hcount]

/-! ## The transmit buffer -/

/-- Memory after a write. -/
def Write.apply (w : Write) (μ : ℕ → UInt8) : ℕ → UInt8 := fun a =>
  if w.addr ≤ a then w.bytes.getD (a - w.addr) (μ a) else μ a

/-- Memory after some writes. -/
def written (μ : ℕ → UInt8) (ws : List Write) : ℕ → UInt8 := ws.foldl (fun μ w => w.apply μ) μ

/-- What the card reads from the transmit buffer when it is told of a frame, behind the header. -/
def Queues.cardReads (q : Queues) (posted : ℕ) (μ : ℕ → UInt8) (frame : List UInt8) : List UInt8 :=
  (List.range frame.length).map fun i =>
    written μ (q.txWrites posted frame) (q.txBufVa + vnetHdrLen + i)

/-- The part of the transmit buffer that holds a frame. -/
def Queues.frameArea (q : Queues) : Set ℕ :=
  Set.Ico (q.txBufVa + vnetHdrLen) (q.txBufVa + vnetHdrLen + maxFrame)

/-- The first `count` entries of the transmit ring, the index and the descriptor are apart from the frame
in the buffer. -/
structure Queues.BufferApart (q : Queues) (count : ℕ) : Prop where
  desc : Disjoint (Set.Ico q.txRing (q.txRing + 16)) q.frameArea
  idx : Disjoint (Set.Ico (q.txAvail + 2) (q.txAvail + 4)) q.frameArea
  entries : Disjoint (Set.Ico (q.txAvail + 4) (q.txAvail + 4 + 2 * count)) q.frameArea

lemma Write.apply_of_notMem {w : Write} {μ : ℕ → UInt8} {a : ℕ}
    (h : ¬ (w.addr ≤ a ∧ a < w.addr + w.bytes.length)) : w.apply μ a = μ a := by
  rw [apply]
  split
  · rw [List.getD_eq_default _ _ (by omega)]
  · rfl

/-- Writes elsewhere leave a byte as it is. -/
lemma written_of_within {ws : List Write} {μ : ℕ → UInt8} {a : ℕ} (hws : ∀ w ∈ ws, w.Within area)
    (ha : a ∉ area) : written μ ws a = μ a := by
  induction ws generalizing μ with
  | nil => rfl
  | cons w ws ih =>
    obtain ⟨hw, hws⟩ := List.forall_mem_cons.mp hws
    have hrest : written (w.apply μ) ws a = w.apply μ a := ih hws
    refine hrest.trans (Write.apply_of_notMem fun hin => ha ?_)
    have hmem := hw (a - w.addr) (by omega)
    rwa [show w.addr + (a - w.addr) = a by omega] at hmem

lemma written_append (μ : ℕ → UInt8) (ws ws' : List Write) :
    written μ (ws ++ ws') = written (written μ ws) ws' := List.foldl_append

/-- Writing a list byte after byte. -/
lemma written_bytes (base : ℕ) : ∀ (bytes : List UInt8) (start : ℕ) (μ : ℕ → UInt8) (i : ℕ),
    i < bytes.length →
    written μ ((bytes.zipIdx start).map fun b => ⟨base + b.2, [b.1]⟩) (base + (start + i)) =
      bytes.getD i 0 := by
  intro bytes
  induction bytes with
  | nil => exact fun _ _ i hi => absurd hi (Nat.not_lt_zero i)
  | cons b bytes ih =>
    intro start μ i hi
    rw [List.zipIdx_cons, List.map_cons]
    cases i with
    | zero =>
      -- the bytes that follow go behind this one
      have hbehind : ∀ w ∈ (bytes.zipIdx (start + 1)).map fun b : UInt8 × ℕ =>
          (⟨base + b.2, [b.1]⟩ : Write), w.Within (Set.Ici (base + start + 1)) := by
        intro w hw j _
        obtain ⟨⟨b, k⟩, hk, rfl⟩ := List.mem_map.mp hw
        have hle := List.le_snd_of_mem_zipIdx hk
        rw [Set.mem_Ici]
        simp only at hle ⊢
        omega
      refine (written_of_within hbehind (by rw [Set.mem_Ici]; omega)).trans ?_
      simp [Write.apply]
    | succ i =>
      rw [List.length_cons] at hi
      have hrest := ih (start + 1) (Write.apply ⟨base + start, [b]⟩ μ) i (by omega)
      rw [show start + (i + 1) = start + 1 + i by omega, List.getD_cons_succ]
      exact hrest

/-- The card reads the frame that was sent. -/
lemma cardReads_eq {count : ℕ} (h : q.BufferApart count) (hcount : posted < count)
    (hlt : posted + 1 < 2 ^ 16) (hlen : frame.length ≤ maxFrame) (μ : ℕ → UInt8) :
    q.cardReads posted μ frame = frame := by
  refine List.ext_getElem (by simp [Queues.cardReads]) fun i hi hi' => ?_
  have harea : q.txBufVa + vnetHdrLen + i ∈ q.frameArea := by
    rw [Queues.frameArea, Set.mem_Ico]
    omega
  -- the descriptor, the index and the entry are written last, and elsewhere
  have hdesc : ∀ w ∈ writeDesc q.txRing 0 q.txBufPhys (vnetHdrLen + frame.length) 0 0,
      w.Within (Set.Ico q.txRing (q.txRing + 16)) := writeDesc_in subset_rfl
  have hpublish : ∀ w ∈ publish q.txAvail posted (posted + 1),
      w.Within (Set.Ico (q.txAvail + 2) (q.txAvail + 4 + 2 * count)) := by
    refine (publish_in_iff (Set.Ico_subset_Ico_right (by omega)) _).mpr ?_
    exact Set.Ico_subset_Ico (by omega) (by omega)
  have hnot : q.txBufVa + vnetHdrLen + i ∉ Set.Ico (q.txAvail + 2) (q.txAvail + 4 + 2 * count) := by
    rw [← Set.Ico_union_Ico_eq_Ico (b := q.txAvail + 4) (by omega) (by omega)]
    exact fun hmem => hmem.elim (fun hmem => h.idx.notMem_of_mem_left hmem harea)
      fun hmem => h.entries.notMem_of_mem_left hmem harea
  have hframe : written (written μ ((List.range vnetHdrLen).map fun i => ⟨q.txBufVa + i, [0]⟩))
      (frame.zipIdx.map fun b => ⟨q.txBufVa + vnetHdrLen + b.2, [b.1]⟩)
      (q.txBufVa + vnetHdrLen + (0 + i)) = frame.getD i 0 := written_bytes _ _ _ _ i hi'
  rw [Nat.zero_add, List.getD_eq_getElem _ _ hi'] at hframe
  simp only [Queues.cardReads, List.getElem_map, List.getElem_range]
  rw [txWrites_eq q frame hlt, written_append,
    written_of_within hpublish hnot, written_append,
    written_of_within hdesc fun hmem => h.desc.notMem_of_mem_left hmem harea, written_append, hframe]

/-! ## The root process -/

lemma bootWindow_fits {i len : ℕ} (h : i < 4 ∧ len ≤ 0x3000) :
    frameSize ∣ 0x6000_4000 + i / 2 * 0x4000 + i % 2 * 0x3000 ∧
      mmioRegionEnd ≤ 0x6000_4000 + i / 2 * 0x4000 + i % 2 * 0x3000 ∧
      0x6000_4000 + i / 2 * 0x4000 + i % 2 * 0x3000 + len ≤ dmaRegionEnd := by
  simp only [frameSize, mmioRegionEnd, dmaRegionEnd]
  omega

/-- The DMA window when the root process brings up the card: four pages belong to the disk, and a queue of
256 entries takes three. -/
def bootWindow : DmaAlloc := fun i len =>
  if h : i < 4 ∧ len ≤ 0x3000 then
    some { va := 0x6000_4000 + i / 2 * 0x4000 + i % 2 * 0x3000
           phys := 0x20_0000 + i / 2 * 0x4000 + i % 2 * 0x3000
           aligned := (bootWindow_fits h).1
           start_le := (bootWindow_fits h).2.1
           end_le := (bootWindow_fits h).2.2 }
  else none

/-- The queues of the card there. -/
def bootQueues : Queues where
  rxRing := 0x6000_4000
  rxUsedOff := 0x2000
  rxAvail := 0x6000_5000
  rxBufVa := 0x6000_7000
  rxBufPhys := 0x20_3000
  rxPosted := 0
  txRing := 0x6000_8000
  txUsedOff := 0x2000
  txAvail := 0x6000_9000
  txBufVa := 0x6000_b000
  txBufPhys := 0x20_7000
  txPosted := 0

/-- The pages of the window that are mapped: one more was allocated behind the transmit buffer. -/
def bootPages : Set ℕ := Set.Ico 0x6000_0000 0x6000_d000

lemma netInit_bootWindow : netInit (2 ^ 8) (2 ^ 8) bootWindow = some bootQueues := rfl

lemma bootQueues_fixedIn : bootQueues.FixedIn bootPages := by
  refine netInit_fixedIn netInit_bootWindow (by decide) (by decide) fun r hr buf hbuf => ?_
  have hends : ∀ r ∈ netBuffers (2 ^ 8) (2 ^ 8), ∀ buf, bootWindow r.1 r.2 = some buf →
      0x6000_0000 ≤ buf.va ∧ buf.va + r.2 ≤ 0x6000_d000 := by
    simp only [netBuffers, List.forall_mem_cons]
    refine ⟨?_, ?_, ?_, ?_, ?_⟩
    · rintro buf ⟨⟩; decide
    · rintro buf ⟨⟩; decide
    · rintro buf ⟨⟩; decide
    · rintro buf ⟨⟩; decide
    · simp
  obtain ⟨hlo, hhi⟩ := hends r hr buf hbuf
  exact Set.Ico_subset_Ico hlo hhi

lemma entriesIn_Ico {lo hi : ℕ} (hlo : lo ≤ avail + 4 + 2 * posted) :
    EntriesIn (Set.Ico lo hi) avail posted more ↔ more = 0 ∨ avail + 4 + 2 * (posted + more) ≤ hi := by
  constructor
  · intro h
    rcases Nat.eq_zero_or_pos more with hzero | hpos
    · exact .inl hzero
    · have hlast := h (Set.mem_Ico.mpr
        ⟨show avail + 4 + 2 * posted ≤ avail + 4 + 2 * (posted + more) - 1 by omega, by omega⟩)
      have := (Set.mem_Ico.mp hlast).2
      exact .inr (by omega)
  · rintro (rfl | hle)
    · exact entriesIn_zero ..
    · exact Set.Ico_subset_Ico hlo hle

/-- The driver faults with the 16383rd receive buffer and with the 8191st frame. -/
lemma bootQueues_entriesIn :
    (EntriesIn bootPages bootQueues.rxAvail posted more ↔ more = 0 ∨ posted + more ≤ 16382) ∧
      (EntriesIn bootPages bootQueues.txAvail posted more ↔ more = 0 ∨ posted + more ≤ 8190) := by
  constructor
  · rw [bootPages, entriesIn_Ico (by simp only [bootQueues]; omega)]
    simp only [bootQueues]
    omega
  · rw [bootPages, entriesIn_Ico (by simp only [bootQueues]; omega)]
    simp only [bootQueues]
    omega

/-- The first 4099 frames reach the card as they were sent. -/
lemma bootQueues_apart {count : ℕ} (hcount : count ≤ 4099) : bootQueues.BufferApart count := by
  constructor <;>
    (rw [Queues.frameArea, Set.Ico_disjoint_Ico]
     simp only [bootQueues, vnetHdrLen, maxFrame]
     omega)

end Virtio
end Xernel
