import Mathlib.Algebra.BigOperators.Intervals
import Mathlib.Algebra.BigOperators.Ring.Finset
import Mathlib.Algebra.Order.BigOperators.Group.Finset
import Mathlib.Data.Finset.Lattice.Fold
import Mathlib.Order.Lattice.Nat
import Xernel.Delivery
import Xernel.Lib.Growth
import Xernel.Spaces
import Xernel.Windows

/-!
# Demand on the kernel heap (`mm.rs`)

The kernel heap is 1 MiB for good. A process takes its kernel stack, the reserved log buffer, its
capability table and its record from it and never gives them back; a queued message takes an element of a
buffer that grows and never shrinks; so do the process table and the list of free frames. While it
runs, a step may take more: `elf::load` collects segments and pages, a buffer that grows is copied, and
`WRITE` decodes text that is not UTF-8 into a copy. Nothing checks what is left before any of this, so
the heap is sufficient as long as the counts stay within some quotas that fit it together.

What is live may lie scattered over the heap. So there is a second account, in which a buffer that was
outgrown is never used again. If it fits, the end of the heap that no object has reached is large enough for
what comes next, whatever holes there are before it.

Sizes are those of the types on a 64-bit machine, elements of a buffer as they lie in it.
-/

namespace Xernel

variable {plat : Platform} {k k' : Kernel} {out : Option ℕ} {e : Event} {ts : List KernelStep}
  {room : ℕ → ℕ}

/-- `KSTACK_WORDS`. -/
def kstackWords : ℕ := 4096

/-- `EARLY_HEAP_SIZE`. -/
def earlyHeapSize : ℕ := 1024 * 1024

/-! ## What is live -/

/-- What `create` allocates on the heap for the stack and the log buffer of a process. -/
def processHeap : ℕ := kstackWords * 8 + logBufCap

/-- `size_of::<Option<CapEntry>>()`. -/
def capEntrySize : ℕ := 24

/-- `size_of::<Process>()`: ten words, the state, and the headers of three buffers. -/
def processSize : ℕ := 176

/-- `size_of::<(u64, Option<CapEntry>)>()`. -/
def messageSize : ℕ := 32

/-- `size_of::<Region>()`. -/
def regionSize : ℕ := 16

/-- All that a process in the table has on the heap. -/
def processBytes : ℕ := processHeap + capSlots * capEntrySize + processSize

/-- What the sizes of the kernel objects depend on: the number of processes, and the most elements that
each queue and the list of free frames have held. -/
structure HeapUse where
  procs : ℕ
  queues : ℕ → ℕ
  free : ℕ

/-- What the kernel objects take of the heap, if a buffer of so many elements takes `room`. -/
def HeapUse.bytes (plat : Platform) (room : ℕ → ℕ) (u : HeapUse) : ℕ :=
  u.procs * processBytes + room u.procs * 8 +
    (∑ id ∈ Finset.range numEndpoints, room (u.queues id) * messageSize +
      (room u.free * 8 + room plat.regions.length * regionSize))

/-- The messages queued on all endpoints. -/
def Ipc.queued (c : Ipc) : ℕ := ∑ id ∈ Finset.range numEndpoints, (c.endpoints id).length

/-- The use of the heap at the end of a run. -/
def heapUse (ts : List KernelStep) (k : Kernel) : HeapUse where
  procs := k.sched.procs.length
  queues id := Run.peak (fun k => (k.ipc.endpoints id).length) ts k
  free := Run.peak (fun k => k.mm.frames.freeList.length) ts k

/-- What the kernel objects demand of the heap at the end of a run. -/
def heapDemand (plat : Platform) (ts : List KernelStep) (k : Kernel) : ℕ :=
  (heapUse ts k).bytes plat bufferRoom

/-- What they have asked for by then, with the buffers that were outgrown. -/
def heapSpent (plat : Platform) (ts : List KernelStep) (k : Kernel) : ℕ :=
  (heapUse ts k).bytes plat bufferSpent

/-! ## What a step takes -/

/-- What a step uses the heap for: `elf::load`, and the process if that gets so far; a message for a
queue; the decoded copy of a text; frames that may go back on the free list. -/
inductive HeapAction
  | load | process | message (id : ℕ) | text (len : ℕ) | frames (n : ℕ) | nothing

/-- What the step on `e` uses the heap for. -/
def Kernel.heapAction (plat : Platform) (k : Kernel) (e : Event) : HeapAction :=
  match k.activity e with
  | .call .spawn _ | .call .spawnEnv _ =>
    match (create plat k.mm k.sched.nextPid).1 with
    | .done _ => .process
    | _ => .load
  | .call .send args =>
    match k.currentEndpointId args.rdi.toNat with
    | some id =>
      if id < numEndpoints ∧
          (args.rdx.toNat = u64Max ∨ (k.currentCapGet args.rdx.toNat).isSome) then .message id
      else .nothing
    | none => .nothing
  | .call .write args =>
    match k.userSlice args.rsi.toNat args.rdx.toNat with
    | some buf => if (ByteArray.mk buf.toArray).validateUTF8 then .nothing else .text buf.length
    | none => .nothing
  | .call .frameAlloc args =>
    if args.rdi.toNat = 0 ∨ maxSharedPages < args.rdi.toNat then .nothing
    else .frames args.rdi.toNat
  | _ => .nothing

/-- `size_of::<Segment>()` of `elf.rs`. -/
def segmentSize : ℕ := 40

/-- The size of an inner node of a `BTreeMap<u64, PageInfo>`, which is larger than a leaf. -/
def pageNodeSize : ℕ := 376

/-- What `elf::load` asks for until it returns: the segments and the pages of the image. All buffers of the
segments together have twice the room of the last; every node of the map but the root holds five pages at
least. -/
def loadBytes (plat : Platform) : ℕ :=
  match Elf.plan plat.image with
  | .ok plan =>
    2 * bufferRoom plan.segments.length * segmentSize + (plan.pages.length / 5 + 1) * pageNodeSize
  | .error _ => 0

/-- What an action asks for, on top of what is there before it. The copy of a text starts at its length and
may double twice, up to three bytes for each; when it grows it has room for eight bytes at least. -/
def HeapAction.request (plat : Platform) (u : HeapUse) (k : Kernel) : HeapAction → ℕ
  | .load => loadBytes plat
  | .process => max (loadBytes plat) (processBytes + newRoom u.procs (k.sched.procs.length + 1) * 8)
  | .message id => newRoom (u.queues id) ((k.ipc.endpoints id).length + 1) * messageSize
  | .text len => 7 * max 4 len
  | .frames n => 2 * newRoom u.free (k.mm.frames.freeList.length + n) * 8
  | .nothing => 0

/-! ## Quotas -/

/-- Limits for the number of processes, the messages in each queue, the free list, and the texts that
are not UTF-8. -/
structure HeapQuotas extends HeapUse where
  text : ℕ

/-- What a single action can take within the quotas, on top of what is live. -/
def HeapQuotas.spare (plat : Platform) (q : HeapQuotas) : ℕ :=
  max (loadBytes plat) (max (bufferRoom q.procs * 8)
    (max ((Finset.range numEndpoints).sup fun id => bufferRoom (q.queues id) * messageSize)
      (max (7 * max 4 q.text) (2 * bufferRoom q.free * 8))))

/-- The quotas let the first process in, and together they fit the heap. -/
structure HeapQuotas.Fit (plat : Platform) (room : ℕ → ℕ) (q : HeapQuotas) : Prop where
  first : 1 ≤ q.procs
  fits : q.bytes plat room + q.spare plat ≤ earlyHeapSize

/-- The action goes past a quota: a process for a full table, a message for a full queue, a text too
long, frames for a full list. -/
def HeapAction.exceeds (q : HeapQuotas) (k : Kernel) : HeapAction → Bool
  | .process => decide (q.procs ≤ k.sched.procs.length)
  | .message id => decide (q.queues id ≤ (k.ipc.endpoints id).length)
  | .text len => decide (q.text < len)
  | .frames n => decide (q.free < k.mm.frames.freeList.length + n)
  | .load | .nothing => false

/-- What happens next goes past a quota. -/
def Kernel.exceeds (plat : Platform) (q : HeapQuotas) (k : Kernel) (e : Event) : Bool :=
  (k.heapAction plat e).exceeds q k

/-! ## Sizes -/

/-- Every count within that of `v`. -/
structure HeapUse.Within (u v : HeapUse) : Prop where
  procs : u.procs ≤ v.procs
  queues : ∀ id, u.queues id ≤ v.queues id
  free : u.free ≤ v.free

lemma HeapUse.Within.bytes_le {u v : HeapUse} (h : u.Within v) (hroom : Monotone room) :
    u.bytes plat room ≤ v.bytes plat room := by
  have hqueues : ∑ id ∈ Finset.range numEndpoints, room (u.queues id) * messageSize ≤
      ∑ id ∈ Finset.range numEndpoints, room (v.queues id) * messageSize :=
    Finset.sum_le_sum fun id _ => Nat.mul_le_mul_right _ (hroom (h.queues id))
  have hprocs : u.procs * processBytes ≤ v.procs * processBytes := Nat.mul_le_mul_right _ h.procs
  have htable := hroom h.procs
  have hfree := hroom h.free
  simp only [bytes]
  omega

lemma HeapUse.bytes_le_spent (u : HeapUse) : u.bytes plat bufferRoom ≤ u.bytes plat bufferSpent := by
  have hqueues : ∑ id ∈ Finset.range numEndpoints, bufferRoom (u.queues id) * messageSize ≤
      ∑ id ∈ Finset.range numEndpoints, bufferSpent (u.queues id) * messageSize :=
    Finset.sum_le_sum fun id _ => Nat.mul_le_mul_right _ (bufferRoom_le_spent _)
  have htable := bufferRoom_le_spent u.procs
  have hfree := bufferRoom_le_spent u.free
  have hregions := bufferRoom_le_spent plat.regions.length
  have hsize : bufferRoom plat.regions.length * regionSize ≤
      bufferSpent plat.regions.length * regionSize := Nat.mul_le_mul_right _ hregions
  simp only [bytes]
  omega

/-- What fits with the outgrown buffers fits without them. -/
lemma HeapQuotas.Fit.live {q : HeapQuotas} (hq : q.Fit plat bufferSpent) : q.Fit plat bufferRoom :=
  ⟨hq.first, (Nat.add_le_add_right q.bytes_le_spent _).trans hq.fits⟩

/-- The demand is at least the stacks and logs of all processes and a word for each message. -/
lemma heapDemand_ge (ts : List KernelStep) (k : Kernel) :
    k.sched.procs.length * processHeap + 8 * k.ipc.queued ≤ heapDemand plat ts k := by
  have hqueued : 8 * k.ipc.queued ≤ ∑ id ∈ Finset.range numEndpoints,
      bufferRoom ((heapUse ts k).queues id) * messageSize := by
    rw [Ipc.queued, Finset.mul_sum]
    refine Finset.sum_le_sum fun id _ => ?_
    have hlen : (k.ipc.endpoints id).length ≤ (heapUse ts k).queues id :=
      Run.le_peak fun k : Kernel => (k.ipc.endpoints id).length
    have hroom := le_bufferRoom ((heapUse ts k).queues id)
    simp only [messageSize]
    omega
  have hprocs : k.sched.procs.length * processHeap ≤ k.sched.procs.length * processBytes :=
    Nat.mul_le_mul_left _ (by decide)
  have hbytes : heapDemand plat ts k = k.sched.procs.length * processBytes +
      bufferRoom k.sched.procs.length * 8 + (∑ id ∈ Finset.range numEndpoints,
        bufferRoom ((heapUse ts k).queues id) * messageSize +
        (bufferRoom (heapUse ts k).free * 8 + bufferRoom plat.regions.length * regionSize)) := rfl
  omega

/-- What a step takes within the quotas fits the heap. -/
lemma HeapQuotas.Fit.request_le {q : HeapQuotas} {u : HeapUse} (hq : q.Fit plat room)
    (hroom : Monotone room) (hu : u.Within q.toHeapUse) (hprocs : u.procs = k.sched.procs.length)
    {act : HeapAction} (hact : act.exceeds q k = false)
    (hid : ∀ id, act = .message id → id < numEndpoints) :
    u.bytes plat room + act.request plat u k ≤ earlyHeapSize := by
  have hfit := hq.fits
  have hbytes : u.bytes plat room ≤ q.bytes plat room := hu.bytes_le hroom
  -- the spare room is a maximum over the actions: one bound for each
  obtain ⟨hload, hrest⟩ := max_le_iff.mp (le_refl (q.spare plat))
  obtain ⟨htable, hrest⟩ := max_le_iff.mp hrest
  obtain ⟨hqueues, hrest⟩ := max_le_iff.mp hrest
  obtain ⟨htext, hfree⟩ := max_le_iff.mp hrest
  cases act with
  | nothing => simp only [HeapAction.request]; omega
  | load => simp only [HeapAction.request]; omega
  | process =>
    have hlt : k.sched.procs.length < q.procs := by simpa [HeapAction.exceeds] using hact
    -- the table with the new process in it is within the quotas, and the old one may be live as well
    have hnew : HeapUse.Within { u with procs := u.procs + 1 } q.toHeapUse :=
      ⟨by rw [hprocs]; exact hlt, hu.queues, hu.free⟩
    have hle : HeapUse.bytes plat room { u with procs := u.procs + 1 } ≤ q.bytes plat room :=
      hnew.bytes_le hroom
    have hgrow : newRoom u.procs (u.procs + 1) ≤ bufferRoom q.procs :=
      (newRoom_le _ _).trans (bufferRoom_mono hnew.procs)
    have hold := hroom (Nat.le_add_right u.procs 1)
    simp only [HeapUse.bytes, Nat.add_mul, Nat.one_mul] at hle hbytes hfit ⊢
    simp only [HeapAction.request, ← hprocs]
    omega
  | message id =>
    have hlt : (k.ipc.endpoints id).length < q.queues id := by
      simpa [HeapAction.exceeds] using hact
    have hgrow := newRoom_le (u.queues id) ((k.ipc.endpoints id).length + 1)
    have hmono : bufferRoom ((k.ipc.endpoints id).length + 1) ≤ bufferRoom (q.queues id) :=
      bufferRoom_mono hlt
    have hsup : bufferRoom (q.queues id) * messageSize ≤
        (Finset.range numEndpoints).sup fun id => bufferRoom (q.queues id) * messageSize :=
      Finset.le_sup (f := fun id => bufferRoom (q.queues id) * messageSize)
        (Finset.mem_range.mpr (hid id rfl))
    have hmul := Nat.mul_le_mul_right messageSize (hgrow.trans hmono)
    simp only [HeapAction.request]
    omega
  | text len =>
    have hle : len ≤ q.text := by simpa [HeapAction.exceeds] using hact
    have hmax : max 4 len ≤ max 4 q.text := max_le_max_left 4 hle
    simp only [HeapAction.request]
    omega
  | frames n =>
    have hle : k.mm.frames.freeList.length + n ≤ q.free := by
      simpa [HeapAction.exceeds] using hact
    have hgrow := newRoom_le u.free (k.mm.frames.freeList.length + n)
    have hmono := bufferRoom_mono hle
    simp only [HeapAction.request]
    omega

/-! ## Growth in a step -/

/-- Replacing one queue, by its length. -/
lemma length_update_queue {f : ℕ → List Message} {id j : ℕ} {queue : List Message} :
    (Function.update f id queue j).length = if j = id then queue.length else (f j).length := by
  rw [Function.update_apply]
  split <;> rfl

/-- A queue grows only by a `SEND` to it. -/
lemma CoreStep.queue_le {a b : Core} {act : Activity} (h : CoreStep plat a b act out) (id : ℕ) :
    (b.ipc.endpoints id).length ≤ (a.ipc.endpoints id).length ∨
      (b.ipc.endpoints id).length = (a.ipc.endpoints id).length + 1 ∧ id < numEndpoints ∧
        out = some 0 ∧ ∃ args, act = .call .send args ∧
          a.sched.endpointAt args.rdi.toNat = some id := by
  -- a queue changes by what a call does to the endpoints: only a `SEND` appends
  cases h.ipc with
  | mute hact hc | blocked hk hkont hwait hc => exact .inl (by rw [hc])
  | @sent args id' hact hout hid hsend =>
    rw [Ipc.send] at hsend
    split at hsend
    next hlt =>
      rw [← Option.some.inj hsend]
      dsimp only
      rw [length_update_queue]
      split
      next heq =>
        subst heq
        exact .inr ⟨by simp, hlt, hout, args, hact, hid⟩
      next => exact .inl le_rfl
    next => cases hsend
  | signalled hact hout hid hsig =>
    rw [Ipc.signal] at hsig
    split at hsig
    · exact .inl (by rw [← Option.some.inj hsig])
    · cases hsig
  | @received id' dstSlot msg hact hrecv =>
    rw [Ipc.tryRecv] at hrecv
    split at hrecv
    next =>
      split at hrecv
      next => cases hrecv
      next rest hqueue =>
        obtain ⟨-, hipc⟩ := Prod.mk.inj (Option.some.inj hrecv)
        rw [← hipc]
        dsimp only
        rw [length_update_queue]
        split
        next heq =>
          subst heq
          exact .inl (by rw [hqueue]; simp)
        next => exact .inl le_rfl
    next => cases hrecv
  | taken hact htake =>
    rw [Ipc.pollTake] at htake
    split at htake
    · obtain ⟨-, hipc⟩ := Prod.mk.inj (Option.some.inj htake)
      exact .inl (by rw [← hipc])
    · cases htake

/-- The table grows only by what `create` made. -/
lemma CoreStep.length_created {a b : Core} {act : Activity} (h : CoreStep plat a b act out) :
    b.sched.procs.length = a.sched.procs.length ∨
      b.sched.procs.length = a.sched.procs.length + 1 ∧
        (∃ args, act = .call .spawn args ∨ act = .call .spawnEnv args) ∧
        ∃ p, Created plat a.mm a.sched.nextPid p := by
  rcases h.length with ⟨hl, -⟩ | ⟨hl, -, hact⟩
  · exact .inl hl
  · have hlt : a.sched.procs.length < b.sched.procs.length := by omega
    -- the last process of the longer table is new
    rcases h.proc (List.getElem?_eq_getElem hlt) with ⟨p, hp, -⟩ | ⟨-, hnew⟩
    · exact absurd (List.getElem?_eq_some_iff.mp hp).1 (Nat.lt_irrefl _)
    · exact .inr ⟨hl, hact, _, hnew⟩

lemma Kernel.heapAction_spawn {args : Args} {p : Process}
    (hact : k.activity e = .call .spawn args ∨ k.activity e = .call .spawnEnv args)
    (hp : Created plat k.mm k.sched.nextPid p) : k.heapAction plat e = .process := by
  obtain ⟨hp⟩ := hp
  rcases hact with hact | hact <;> simp only [heapAction, hact, hp]

/-- A `SEND` that succeeds had an endpoint to send to and what it wanted to attach. -/
lemma heapAction_send {args : Args} {id : ℕ} (hreach : Reachable (xernel plat) k)
    (hs : Xernel.step plat k e = some (k', some 0)) (hact : k.activity e = .call .send args)
    (hid : k.sched.endpointAt args.rdi.toNat = some id) (hlt : id < numEndpoints) :
    k.heapAction plat e = .message id := by
  obtain ⟨-, nr, hw, rfl, hd, heq⟩ := reachable_call hreach hs hact
  have hsnd := congrArg Prod.snd heq
  rw [(Kernel.syscallExit_core _).2, Kernel.dispatch, hd] at hsnd
  have hmax : ¬ some 0 = some u64Max := by decide
  have hid' : k.currentEndpointId args.rdi.toNat = some id := by
    rw [Kernel.currentEndpointId_eq, hid]
  have hid₁ : Kernel.currentEndpointId { k with cpu := k.cpu.swapgs, exec := .kernel }
      args.rdi.toNat = some id := hid'
  rw [Kernel.heapAction, hact]
  dsimp only [Kernel.sysSend] at hsnd ⊢
  rw [hid₁] at hsnd
  rw [hid']
  refine if_pos ⟨hlt, ?_⟩
  dsimp only at hsnd
  split at hsnd
  next hnone => exact .inl hnone
  next =>
    split at hsnd
    · exact absurd hsnd hmax
    next cap hcap => exact .inr (by rw [show k.currentCapGet args.rdx.toNat = some cap from hcap]; rfl)

/-! ## The free list -/

lemma PhysFrameAllocator.bump_freeList (n fuel : ℕ) (a : PhysFrameAllocator) :
    (bump n fuel a).2.freeList = a.freeList := by
  induction fuel generalizing a with
  | zero => rfl
  | succ fuel ih =>
    rw [bump]
    split
    · rfl
    · split
      · rfl
      · exact ih a.nextRegion

lemma PhysFrameAllocator.alloc_freeList_le (a : PhysFrameAllocator) :
    a.alloc.2.freeList.length ≤ a.freeList.length := by
  rw [alloc]
  split
  next pa rest hfree => rw [hfree]; exact Nat.le_succ _
  next => rw [bump_freeList]

lemma PhysFrameAllocator.allocContiguous_freeList (a : PhysFrameAllocator) (n : ℕ) :
    (a.allocContiguous n).2.freeList = a.freeList := by
  rw [allocContiguous]
  split
  · rfl
  · exact bump_freeList _ _ _

lemma Mm.frameAlloc_freeList {m m' : Mm} {got : Option ℕ} (ha : m.frameAlloc = (got, m')) :
    m'.frames.freeList.length ≤ m.frames.freeList.length := by
  obtain ⟨-, rfl⟩ := Prod.mk.inj ha
  exact m.frames.alloc_freeList_le

lemma Mm.frameAllocContiguous_freeList {m m' : Mm} {n : ℕ} {got : Option ℕ}
    (ha : m.frameAllocContiguous n = (got, m')) : m'.frames.freeList = m.frames.freeList := by
  obtain ⟨-, rfl⟩ := Prod.mk.inj ha
  exact m.frames.allocContiguous_freeList n

/-- Building memory up puts nothing on the free list. -/
lemma Mm.Builds.freeList_le {s : Scope} {m m' : Mm} {U V : Set ℕ} (h : Builds s m U m' V) :
    m'.frames.freeList.length ≤ m.frames.freeList.length := by
  induction h with
  | refl => exact le_rfl
  | bytes _ _ ih | leak _ _ ih | leaf _ _ _ _ _ ih => exact ih
  | alloc _ ha ih | space _ ha _ ih | table _ ha _ _ ih => exact (frameAlloc_freeList ha).trans ih
  | contiguous _ _ ha ih =>
    rw [frameAllocContiguous_freeList ha]
    exact ih

lemma freeRun_freeList (m : Mm) (phys n : ℕ) :
    (Kernel.freeRun m phys n).frames.freeList.length = m.frames.freeList.length + n := by
  induction n generalizing m phys with
  | zero => rfl
  | succ n ih =>
    have hpush : (m.frameFree phys).frames.freeList.length = m.frames.freeList.length + 1 := rfl
    rw [Kernel.freeRun, ih, hpush]
    omega

/-- The free list grows only by the run of a `FRAME_ALLOC` that fails. -/
lemma MmStep.freeList_le {a b : Core} {cr3 : ℕ} {bad : Bool} {act : Activity}
    (h : MmStep plat a b cr3 bad act out) :
    b.mm.frames.freeList.length ≤ a.mm.frames.freeList.length ∨
      ∃ args, act = .call .frameAlloc args ∧
        b.mm.frames.freeList.length ≤ a.mm.frames.freeList.length + args.rdi.toNat := by
  cases h with
  | built _ hb | created _ _ _ hb => exact .inl hb.freeList_le
  | noSpace _ ha => exact .inl (Mm.frameAlloc_freeList ha)
  | frameRun _ _ _ ha hb =>
    rw [← Mm.frameAllocContiguous_freeList ha]
    exact .inl hb.freeList_le
  -- the run was mapped or not, but all of its frames go back
  | unmapped hact _ _ ha hb hm | unwound hact _ _ _ ha hb hm =>
    refine .inr ⟨_, hact, ?_⟩
    have hle := hb.freeList_le
    rw [Mm.frameAllocContiguous_freeList ha] at hle
    rw [hm, freeRun_freeList]
    omega

/-- A `FRAME_ALLOC` of no pages, or of too many, does nothing. -/
lemma sysFrameAlloc_refused {pages capSlot outPtr : ℕ} (h : pages = 0 ∨ maxSharedPages < pages) :
    k.sysFrameAlloc pages capSlot outPtr = (k, some u64Max) := if_pos h

/-! ## Runs -/

/-- Every count stays within the quotas in a step that goes past none. -/
structure QuotaInv (q : HeapQuotas) (k : Kernel) : Prop where
  procs : k.sched.procs.length ≤ q.procs
  queues : ∀ id, (k.ipc.endpoints id).length ≤ q.queues id
  free : k.mm.frames.freeList.length ≤ q.free

lemma quotaInv_boot {q : HeapQuotas} (hq : q.Fit plat room) (h : boot plat = some k) : QuotaInv q k := by
  obtain ⟨m₀, m, p, hint, hp, rfl⟩ := boot_cases h
  refine ⟨hq.first, fun _ => Nat.zero_le _, ?_⟩
  have hnone : (initMm plat).frames.freeList.length = 0 := rfl
  have hle := (enableInterrupts_builds hint).freeList_le
  rcases create_builds plat m₀ 0 with ⟨m₁, -, heq⟩ | ⟨space, m₁, -, -, -, hb⟩
  · rw [hp] at heq; cases heq
  · have hcreate := (hb ⟨.univ, .univ, ∅⟩ ⟨trivial, trivial, .inl ⟨trivial, trivial⟩⟩).freeList_le
    rw [hp] at hcreate
    show m.frames.freeList.length ≤ q.free
    have hcreate : m.frames.freeList.length ≤ m₀.frames.freeList.length := hcreate
    omega

theorem QuotaInv.step {q : HeapQuotas} (h : QuotaInv q k) (hdisj : plat.RegionsDisjoint)
    (hreach : Reachable (xernel plat) k) (hgood : k.exceeds plat q e = false)
    (hs : Xernel.step plat k e = some (k', out)) : QuotaInv q k' := by
  have hcore := reachable_core hreach hs
  obtain ⟨ts, hrun⟩ := id hreach
  rw [Kernel.exceeds] at hgood
  refine ⟨?_, fun id => ?_, ?_⟩
  · have hprocs := h.procs
    rcases hcore.length_created with hl | ⟨hl, ⟨args, hact⟩, p, hp⟩
    · have hl : k'.sched.procs.length = k.sched.procs.length := hl
      omega
    · have hl : k'.sched.procs.length = k.sched.procs.length + 1 := hl
      rw [Kernel.heapAction_spawn hact hp] at hgood
      have hroom : k.sched.procs.length < q.procs := by simpa [HeapAction.exceeds] using hgood
      omega
  · have hqueue := h.queues id
    rcases hcore.queue_le id with hle | ⟨hl, hlt, rfl, args, hact, hid⟩
    · exact le_trans hle hqueue
    · have hl : (k'.ipc.endpoints id).length = (k.ipc.endpoints id).length + 1 := hl
      rw [heapAction_send hreach hs hact hid hlt] at hgood
      have hroom : (k.ipc.endpoints id).length < q.queues id := by
        simpa [HeapAction.exceeds] using hgood
      omega
  · have hfree := h.free
    rcases ((spaceInv_run hdisj hrun).mm hreach hs).freeList_le with hle | ⟨args, hact, hle⟩
    · exact le_trans hle hfree
    · have hact : k.activity e = .call .frameAlloc args := hact
      -- a refused call frees nothing, and any other is counted as an action
      by_cases hpages : args.rdi.toNat = 0 ∨ maxSharedPages < args.rdi.toNat
      · obtain ⟨nr, hw, r, hd, rfl, -, hexit, -⟩ := reachable_dispatch hreach hs hact
        rw [Kernel.dispatch, hd, sysFrameAlloc_refused hpages] at hexit
        have hmm : k'.mm = k.mm := congrArg Core.mm hexit
        rw [hmm]
        exact hfree
      · rw [Kernel.heapAction, hact] at hgood
        dsimp only at hgood
        rw [if_neg hpages] at hgood
        have hroom : k.mm.frames.freeList.length + args.rdi.toNat ≤ q.free := by
          simpa [HeapAction.exceeds] using hgood
        exact le_trans hle hroom

/-- The counts of a run whose steps go past no quota are within the quotas. -/
lemma heapUse_within {q : HeapQuotas} (hq : q.Fit plat room) (hdisj : plat.RegionsDisjoint)
    (h : Run (xernel plat) ts k) (hts : ∀ t ∈ ts, t.pre.exceeds plat q t.event = false) :
    (heapUse ts k).Within q.toHeapUse := by
  have hend : QuotaInv q k := h.invariant_of (I := QuotaInv q) (C := fun k e => k.exceeds plat q e = false)
    (fun _ hk => quotaInv_boot hq hk)
    (fun _ _ _ _ hreach hinv hgood hs => hinv.step hdisj hreach hgood hs) hts
  have hpre : ∀ t ∈ ts, QuotaInv q t.pre ∧ QuotaInv q t.post :=
    h.invariant_of_mem (I := QuotaInv q) (C := fun k e => k.exceeds plat q e = false)
      (fun _ hk => quotaInv_boot hq hk)
      (fun _ _ _ _ hreach hinv hgood hs => hinv.step hdisj hreach hgood hs) hts
  have hqueues : ∀ id, Run.peak (fun k : Kernel => (k.ipc.endpoints id).length) ts k ≤ q.queues id :=
    fun id => Run.peak_le_iff.mpr ⟨fun t ht => (hpre t ht).1.queues id, hend.queues id⟩
  have hfree : Run.peak (fun k : Kernel => k.mm.frames.freeList.length) ts k ≤ q.free :=
    Run.peak_le_iff.mpr ⟨fun t ht => (hpre t ht).1.free, hend.free⟩
  exact ⟨hend.procs, hqueues, hfree⟩

lemma Kernel.heapAction_message {id : ℕ} (h : k.heapAction plat e = .message id) :
    id < numEndpoints := by
  rw [heapAction] at h
  split at h
  · split at h <;> cases h
  · split at h <;> cases h
  · split at h
    · split at h
      next hid =>
        obtain rfl := HeapAction.message.inj h
        exact hid.1
      next => cases h
    · cases h
  · split at h
    · split at h <;> cases h
    · cases h
  · split at h <;> cases h
  · cases h

/-- A step finds the heap it takes, if neither it nor those before it go past a quota. -/
lemma heapRequest_le {q : HeapQuotas} (hq : q.Fit plat room) (hroom : Monotone room)
    (hdisj : plat.RegionsDisjoint) (h : Run (xernel plat) ts k)
    (hts : ∀ t ∈ ts, t.pre.exceeds plat q t.event = false) (he : k.exceeds plat q e = false) :
    (heapUse ts k).bytes plat room + (k.heapAction plat e).request plat (heapUse ts k) k ≤
      earlyHeapSize :=
  hq.request_le hroom (heapUse_within hq hdisj h hts) rfl he fun _ hid =>
    Kernel.heapAction_message hid

/-- In every run whose steps go past none of some quotas that fit the heap together, what the kernel
objects demand fits the heap, and so does what each step takes on top. -/
theorem heapDemand_bounded {q : HeapQuotas} (hq : q.Fit plat bufferRoom) (hdisj : plat.RegionsDisjoint)
    (h : Run (xernel plat) ts k) (hts : ∀ t ∈ ts, t.pre.exceeds plat q t.event = false) :
    heapDemand plat ts k ≤ earlyHeapSize ∧
      ∀ a t b, ts = a ++ t :: b → heapDemand plat a t.pre +
        (t.pre.heapAction plat t.event).request plat (heapUse a t.pre) t.pre ≤ earlyHeapSize := by
  refine ⟨?_, fun a t b heq => ?_⟩
  · have hle : heapDemand plat ts k ≤ q.bytes plat bufferRoom :=
      (heapUse_within hq hdisj h hts).bytes_le fun _ _ => bufferRoom_mono
    have hfit := hq.fits
    omega
  · obtain ⟨hrun, -, -⟩ := h.split heq
    exact heapRequest_le hq (fun _ _ => bufferRoom_mono) hdisj hrun (fun u hu => hts u (by simp [heq, hu]))
      (hts t (by simp [heq]))

/-- Room for ten processes, 64 messages in each queue, 64 free frames, and 2 KiB of text that is not
UTF-8. -/
def tenProcesses : HeapQuotas := { procs := 10, queues := fun _ => 64, free := 64, text := 2048 }

/-- They fit the heap even if no buffer that was outgrown is used again. -/
lemma tenProcesses_fit : tenProcesses.Fit smallPlatform bufferSpent := ⟨by decide, by decide +kernel⟩

/-- Two processes and a message in a queue, within the quotas for ten. -/
theorem heapDemand_bounded_send :
    ∃ ts k, Run (xernel smallPlatform) ts k ∧ heapDemand smallPlatform ts k = 200256 ∧
      heapDemand smallPlatform ts k ≤ earlyHeapSize := by
  let es : List Event := [.resume, .call .spawn 0 6, .call .send 3 7 (UInt64.ofNat u64Max)]
  have hrun : (trace smallPlatform es).isSome = true := by decide +kernel
  have hfacts : (trace smallPlatform es).map (fun r => (r.1.all fun t =>
      !t.pre.exceeds smallPlatform tenProcesses t.event, heapDemand smallPlatform r.1 r.2)) =
      some (true, 200256) := by decide +kernel
  obtain ⟨r, hr⟩ := Option.isSome_iff_exists.mp hrun
  rw [hr, Option.map_some, Option.some.injEq, Prod.mk.injEq] at hfacts
  refine ⟨r.1, r.2, trace_run hr, hfacts.2, (heapDemand_bounded tenProcesses_fit.live
    smallPlatform_regionsDisjoint (trace_run hr) fun t ht => ?_).1⟩
  simpa using List.all_eq_true.mp hfacts.1 t ht

/-- The first process makes ten `SPAWN` calls without asking for a handle: the stacks and logs of eleven
processes are more than the heap has. -/
theorem heapDemand_not_bounded :
    ¬ ∀ (plat : Platform) (ts : List KernelStep) (k : Kernel), Run (xernel plat) ts k →
      heapDemand plat ts k ≤ earlyHeapSize := by
  intro hall
  let es : List Event := .resume :: List.replicate 10 (.call .spawn 0 (UInt64.ofNat u64Max))
  have hfacts : (trace smallPlatform es).map (fun r => r.2.sched.procs.length) = some 11 := by
    decide +kernel
  obtain ⟨r, hr, hlen⟩ := Option.map_eq_some_iff.mp hfacts
  have hle := hall smallPlatform r.1 r.2 (trace_run hr)
  have hge : r.2.sched.procs.length * processHeap + 8 * r.2.ipc.queued ≤
      heapDemand smallPlatform r.1 r.2 := heapDemand_ge r.1 r.2
  have hsize : earlyHeapSize < 11 * processHeap := by decide
  rw [hlen] at hge
  omega

end Xernel
