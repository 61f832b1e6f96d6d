import Xernel.FrameCaps
import Xernel.FrameUse

/-!
# Memory isolation

Frames of RAM that a process can reach belong to it alone, unless a `Frame` capability names them.
The failure exit of `FRAME_ALLOC` breaks this: it frees a run without unmapping it. In every run
without such a step the frames are used as `FrameUse` says, and memory is isolated.
-/

namespace Xernel

open Mm (Builds)

variable {plat : Platform} {k k' : Kernel} {a b : Core} {cr3 : ℕ} {bad : Bool} {act : Activity}
  {out : Option ℕ} {f : ℕ}

/-! ## The machine -/

/-- What the firmware and the bootloader promise: usable memory does not overlap with itself, the PCI
window or the framebuffer, and the tables the kernel starts with are outside usable memory and map
nothing for ring 3. -/
structure Platform.WellFormed (plat : Platform) : Prop where
  regions : plat.RegionsDisjoint
  pci : ∀ r ∈ plat.regions, r.stop ≤ pciMmioBase ∨ pciMmioBase + pciMmioLen ≤ r.start
  framebuffer : ∀ f ∈ plat.framebufferFrames, ¬ IsRam plat.regions f
  bootSpace : ¬ IsRam plat.regions plat.bootSpace
  tables : ∀ level idx f, plat.kernelHalf.tables level idx = some f → ¬ IsRam plat.regions f
  leaves : ∀ page leaf, plat.kernelHalf.leaves page = some leaf → leaf.flags.userAccessible = false

/-- The small machine with any amount of memory below the PCI window. -/
lemma smallPlatform_wellFormed_upTo {stop : ℕ} (hstop : stop ≤ pciMmioBase) :
    ({ smallPlatform with regions := [⟨0x10_0000, stop⟩] } : Platform).WellFormed where
  regions := Platform.regionsDisjoint_of_pairwise (List.pairwise_singleton _ _)
  pci r hr := by
    obtain rfl := List.mem_singleton.mp hr
    exact .inl hstop
  framebuffer f hf := by cases hf
  bootSpace := by
    rintro ⟨r, hr, hlo, -⟩
    obtain rfl := List.mem_singleton.mp hr
    have hlo : 0x10_0000 ≤ 0x1000 := hlo
    omega
  tables level idx f hf := by cases hf
  leaves page leaf hleaf := by cases hleaf

lemma smallPlatform_wellFormed : smallPlatform.WellFormed :=
  have hstop : 0x20_0000 ≤ pciMmioBase := by decide
  smallPlatform_wellFormed_upTo hstop

/-! ## Shared frames -/

/-- The frames that `Frame` capabilities in slots name. -/
def Core.sharedFrames (a : Core) : Set ℕ :=
  {f | ∃ i slot phys pages, a.HasSlot i slot (.frame phys pages) ∧
    f ∈ blockRun frameSize phys pages}

/-- Where capabilities for memory come from: `Frame` capabilities on the way are copies of such in
slots, and `IoMem` capabilities are copies of the seeded one. -/
structure MemoryCaps (a : Core) : Prop where
  queued : ∀ id phys pages, a.Queued id (.frame phys pages) →
    ∃ i slot, a.HasSlot i slot (.frame phys pages)
  ioMem : ∀ cap, a.Holds cap → cap.capType = .ioMem → cap = .ioMem pciMmioBase pciMmioLen

/-- A `Frame` capability stays in its slot. -/
lemma CoreStep.frame_stays {i slot phys pages : ℕ} (h : CoreStep plat a b act out)
    (ha : a.HasSlot i slot (.frame phys pages)) : b.HasSlot i slot (.frame phys pages) := by
  obtain ⟨cap', hcap', hsame⟩ := h.occupied ha
  rwa [hsame.eq (by simp [CapEntry.frame])] at hcap'

theorem MemoryCaps.step (h : MemoryCaps a) (hs : CoreStep plat a b act out) : MemoryCaps b := by
  refine ⟨fun id phys pages hq => ?_, fun cap hcap htype => ?_⟩
  · have hstays : (∃ i slot, a.HasSlot i slot (.frame phys pages)) →
        ∃ i slot, b.HasSlot i slot (.frame phys pages) :=
      Exists.imp fun i => Exists.imp fun slot hslot => hs.frame_stays hslot
    -- what a `SEND` attaches stays in the slot of the sender
    rcases hs.queued hq with hold | ⟨args, -, -, -, -, hatt⟩
    · exact hstays (h.queued id phys pages hold)
    · exact hstays ⟨_, _, Core.hasSlot_cur (Scheduler.slot_of_attached hatt)⟩
  · rcases hs.holds hcap with ⟨cap₀, hcap₀, hsame⟩ | ⟨slot, hseed⟩ | ⟨rfl, -⟩ |
      ⟨phys, pages, later, rfl, -⟩
    · obtain rfl := hsame.eq_of_right (by simp [htype])
      exact h.ioMem cap hcap₀ htype
    · have hall : ∀ cap ∈ seededCaps, cap.capType = .ioMem →
          cap = .ioMem pciMmioBase pciMmioLen := by decide
      exact hall cap (seededSlot_mem hseed) htype
    · cases htype
    · cases htype

lemma memoryCaps_boot (h : boot plat = some k) : MemoryCaps k.core := by
  refine ⟨fun id phys pages hq => (boot_holds h (.inr ⟨id, hq⟩)).1, fun cap hcap htype => ?_⟩
  have hall : ∀ cap ∈ seededCaps, cap.capType = .ioMem →
      cap = .ioMem pciMmioBase pciMmioLen := by decide
  exact hall cap (boot_holds h hcap).2 htype

theorem memoryCaps_run {ts : List KernelStep} (h : Run (xernel plat) ts k) : MemoryCaps k.core :=
  h.invariant (I := fun k => MemoryCaps k.core) (fun _ hk => memoryCaps_boot hk)
    fun _ _ _ _ hreach hinv hs => hinv.step (reachable_core hreach hs)

/-- Shared frames stay shared, and a successful `FRAME_ALLOC` adds the run it allocated. -/
lemma CoreStep.sharedFrames_mono (h : CoreStep plat a b act out) :
    a.sharedFrames ⊆ b.sharedFrames := by
  rintro f ⟨i, slot, phys, pages, hslot, hf⟩
  exact ⟨i, slot, phys, pages, h.frame_stays hslot, hf⟩

lemma CoreStep.sharedFrames (h : CoreStep plat a b act out) (hcaps : MemoryCaps a)
    (hf : f ∈ b.sharedFrames) :
    f ∈ a.sharedFrames ∨ ∃ args phys later, act = .call .frameAlloc args ∧ out = some 0 ∧
      f ∈ blockRun frameSize phys args.rdi.toNat ∧
      b.mm.calls = a.mm.calls ++ .allocContiguous args.rdi.toNat (some phys) :: later := by
  obtain ⟨i, slot, phys, pages, hslot, hf⟩ := hf
  cases h.slot hslot with
  | kept h₀ hsame =>
    obtain rfl := hsame.eq_of_right (by simp [CapEntry.frame])
    exact .inl ⟨i, slot, phys, pages, h₀, hf⟩
  | seeded hi hseed =>
    exact absurd rfl (capType_seededCaps _ (seededSlot_mem hseed))
  | frame hi hact hout hslot hcap hcalls hkeep =>
    obtain ⟨-, rfl, rfl⟩ := CapEntry.mk.inj hcap
    exact .inr ⟨_, _, _, hact, hout, hf, hcalls⟩
  | handle hi hact hout hcap => cases hcap
  | received hi hact hrecv hmsg =>
    obtain ⟨j, slot', hheld⟩ := hcaps.queued _ phys pages (Core.queued_of_tryRecv hrecv hmsg)
    exact .inl ⟨j, slot', phys, pages, hheld, hf⟩
  | granted hact hout hslot hheld => exact .inl ⟨_, _, phys, pages, Core.hasSlot_cur hheld, hf⟩

/-- Shared frames were handed out in contiguous runs. -/
lemma sharedFrames_runFrames {ts : List KernelStep} (hdisj : plat.RegionsDisjoint)
    (h : Run (xernel plat) ts k) (hf : f ∈ k.core.sharedFrames) : f ∈ runFrames k.mm.calls := by
  obtain ⟨i, slot, phys, pages, hslot, hf⟩ := hf
  exact (framesHeld_run hdisj h _ (.inl ⟨i, slot, hslot⟩) rfl).mem_runFrames hf

/-- Any other step leaves the shared frames as they are. -/
lemma CoreStep.sharedFrames_eq (h : CoreStep plat a b act out) (hcaps : MemoryCaps a)
    (hact : ∀ args, act = .call .frameAlloc args → out ≠ some 0) :
    b.sharedFrames = a.sharedFrames := by
  refine Set.Subset.antisymm (fun f hf => ?_) h.sharedFrames_mono
  rcases h.sharedFrames hcaps hf with hold | ⟨args, phys, later, hcall, hout, -⟩
  · exact hold
  · exact absurd hout (hact args hcall)

/-! ## One step -/

/-- What a process may map besides its own frames is shared or outside RAM. -/
lemma FrameUse.mayMap {U : Set ℕ} (h : FrameUse plat.regions a.sharedFrames U a.mm)
    (hplat : plat.WellFormed) (hcaps : MemoryCaps a) (hf : a.sched.MayMap plat f) :
    pageDown f ∈ a.sharedFrames ∨ ¬ IsRam plat.regions (pageDown f) := by
  rcases hf with ⟨slot, phys, pages, hslot, hf⟩ | ⟨slot, cap, hslot, htype, hlo, hhi⟩ | hfb
  · have hshared : f ∈ a.sharedFrames := ⟨_, slot, phys, pages, Core.hasSlot_cur hslot, hf⟩
    rw [pageDown_of_dvd (h.run.isRam hplat.regions (h.shared f hshared)).2]
    exact .inl hshared
  · -- the one `IoMem` capability covers the PCI window, which has no RAM
    obtain rfl := hcaps.ioMem cap (.inl ⟨_, slot, Core.hasSlot_cur hslot⟩) htype
    refine .inr ?_
    rintro ⟨r, hr, hlo', hhi'⟩
    have hpci := hplat.pci r hr
    simp only [CapEntry.ioMem, pciMmioBase, pciMmioLen, pageDown, frameSize] at *
    omega
  · have hal : frameSize ∣ f := by
      unfold Platform.framebufferFrames at hfb
      cases hfb' : plat.framebuffer with
      | none => rw [hfb'] at hfb; cases hfb
      | some fb => rw [hfb'] at hfb; exact dvd_of_mem_blockRun (frameSize_dvd_pageDown _) hfb
    rw [pageDown_of_dvd hal]
    exact .inr (hplat.framebuffer f hfb)

/-- The run that `alloc_contiguous` hands out is reserved. -/
lemma FrameUse.contiguous {regions : List Region} {S : Set ℕ} {m m' : Mm} {n phys : ℕ}
    (h : FrameUse regions S ∅ m)
    (hdisj : (regions.map Region.rounded).Pairwise Region.Disjoint) (hn : n < 2 ^ 40)
    (ha : m.frameAllocContiguous n = (some phys, m')) :
    FrameUse regions S {f | f ∈ blockRun frameSize phys n} m' := by
  have hb : Builds ⟨∅, ∅, ∅⟩ m ∅ m' _ := Builds.refl.contiguous hn ha
  have hnone : ∀ f ∈ (∅ : Set ℕ), pageDown f ∈ S ∨ ¬ IsRam regions (pageDown f) :=
    fun _ hf => absurd hf (Set.notMem_empty _)
  exact (h.builds hdisj hb hnone).leak fun f hf => .inr ⟨phys, rfl, hf⟩

/-- Frames stay in their use in every step but a `FRAME_ALLOC` that frees what it has mapped. -/
theorem FrameUse.step (h : FrameUse plat.regions a.sharedFrames ∅ a.mm) (hplat : plat.WellFormed)
    (hcaps : MemoryCaps a) (hs : CoreStep plat a b act out)
    (hm : MmStep plat a b cr3 false act out) : FrameUse plat.regions b.sharedFrames ∅ b.mm := by
  have hdisj := hplat.regions
  have hnone : ∀ f ∈ (∅ : Set ℕ), pageDown f ∈ a.sharedFrames ∨
      ¬ IsRam plat.regions (pageDown f) := fun _ hf => absurd hf (Set.notMem_empty _)
  cases hm with
  | built hact hb =>
    rw [hs.sharedFrames_eq hcaps (by rintro args rfl; exact hact)]
    exact h.builds hdisj hb fun f hf => h.mayMap hplat hcaps hf
  | noSpace hact ha =>
    rw [hs.sharedFrames_eq hcaps (by rintro args rfl; rcases hact with h | h <;> cases h)]
    have hb : Builds ⟨∅, ∅, ∅⟩ a.mm ∅ b.mm _ := Builds.refl.alloc ha
    exact (h.builds hdisj hb hnone).leak (Set.empty_subset _)
  | created hact ha hlive hb =>
    rw [hs.sharedFrames_eq hcaps (by rintro args rfl; rcases hact with h | h <;> cases h)]
    exact h.builds hdisj hb hnone
  | @frameRun args phys m hact hout hn ha hb hcap =>
    have hrun := (h.contiguous hdisj hn ha).share
    have hshared : b.sharedFrames =
        a.sharedFrames ∪ {f | f ∈ blockRun frameSize phys args.rdi.toNat} := by
      refine Set.Subset.antisymm (fun f hf => ?_) (Set.union_subset hs.sharedFrames_mono fun f hf => ?_)
      · rcases hs.sharedFrames hcaps hf with hold | ⟨args', phys', later, hact', -, hf', hcalls⟩
        · exact .inl hold
        · -- the run of the new capability is the one that was allocated
          obtain rfl : args = args' := by
            rw [hact] at hact'
            exact (Activity.call.inj hact').2
          obtain ⟨l, hl, -⟩ := hb.calls
          rw [(frameAllocContiguous_calls ha).1, List.append_assoc, hcalls] at hl
          have hfirst := (List.cons.inj (List.append_cancel_left hl)).1
          obtain rfl := Option.some.inj (FrameCall.allocContiguous.inj hfirst).2
          exact .inr hf'
      · exact ⟨_, _, phys, _, Core.hasSlot_cur hcap, hf⟩
    rw [hshared]
    refine hrun.builds hdisj hb fun f hf => .inl ?_
    rw [pageDown_of_dvd (hrun.run.isRam hdisj (hrun.shared f (.inr hf))).2]
    exact .inr hf
  | unmapped hact hout hn ha hb hm =>
    rw [hs.sharedFrames_eq hcaps fun _ _ => hout, hm]
    exact ((h.contiguous hdisj hn ha).builds hdisj hb hnone).freeRun
  -- this is the step that the hypothesis excludes
  | unwound hact hout hn hbad => cases hbad

/-! ## Whole runs -/

/-- The tables that the kernel starts with hold no frame of RAM. -/
lemma frameUse_init (hplat : plat.WellFormed) : FrameUse plat.regions ∅ ∅ (initMm plat) := by
  have hmaps : ∀ x f, ¬ (initMm plat).pt.UserMaps x f := by
    rintro (_ | l4) f ⟨page, leaf, hleaf, huser, -⟩
    · rw [hplat.leaves page leaf hleaf] at huser
      cases huser
    · cases hleaf
  refine ⟨.new, fun _ hf => absurd hf (Set.notMem_empty _), fun _ hf => absurd hf (Set.notMem_empty _), ?_,
    fun x f hx => absurd hx (hmaps x f),
    fun x _ f hx => absurd hx (hmaps x f)⟩
  rintro f ⟨_ | l4, level, idx, hf⟩ hram
  · exact absurd hram (hplat.tables level idx f hf)
  · cases hf

lemma frameUse_boot (hplat : plat.WellFormed) (h : boot plat = some k) :
    FrameUse plat.regions k.core.sharedFrames ∅ k.mm := by
  have hnone : k.core.sharedFrames = ∅ := by
    refine Set.eq_empty_of_forall_notMem ?_
    rintro f ⟨i, slot, phys, pages, hslot, -⟩
    exact capType_seededCaps _ (boot_holds h (.inl ⟨i, slot, hslot⟩)).2 rfl
  rw [hnone]
  obtain ⟨m₀, m, p, hint, hp, rfl⟩ := boot_cases h
  have h₀ := (frameUse_init hplat).builds hplat.regions (enableInterrupts_builds hint)
    fun _ hf => absurd hf (Set.notMem_empty _)
  rcases create_builds plat m₀ 0 with ⟨m₁, -, heq⟩ | ⟨space, m₁, -, -, -, hb⟩
  · rw [hp] at heq; cases heq
  · have hcreate := hb ⟨.univ, .univ, ∅⟩ ⟨trivial, trivial, .inl ⟨trivial, trivial⟩⟩
    rw [hp] at hcreate
    exact h₀.builds hplat.regions hcreate fun _ hf => absurd hf (Set.notMem_empty _)

/-- Frames stay in their use in every run in which no `FRAME_ALLOC` frees what it has mapped. -/
theorem frameUse_run {ts : List KernelStep} (hplat : plat.WellFormed) (h : Run (xernel plat) ts k)
    (hts : ∀ t ∈ ts, t.pre.freesMapped t.event = false) :
    FrameUse plat.regions k.core.sharedFrames ∅ k.mm := by
  refine h.invariant_of (I := fun k => FrameUse plat.regions k.core.sharedFrames ∅ k.mm)
    (C := fun k e => k.freesMapped e = false) (fun _ hk => frameUse_boot hplat hk) ?_ hts
  intro k e k' o hreach hinv hgood hs
  obtain ⟨ts, hrun⟩ := id hreach
  have hmm := (spaceInv_run hplat.regions hrun).mm hreach hs
  rw [hgood] at hmm
  exact hinv.step hplat (memoryCaps_run hrun) (reachable_core hreach hs) hmm

/-- The upper half maps nothing for ring 3, unless the image asks for pages there; then the first
process remains the only one. -/
structure UpperInv (plat : Platform) (k : Kernel) : Prop where
  closed : Elf.Low plat.image → ∀ f, ¬ k.mm.pt.UserMaps none f
  single : ¬ Elf.Low plat.image → k.sched.procs.length = 1

lemma upperInv_boot (hplat : plat.WellFormed) (h : boot plat = some k) : UpperInv plat k := by
  obtain ⟨m₀, m, p, hint, hp, rfl⟩ := boot_cases h
  refine ⟨fun hlow f hf => ?_, fun _ => rfl⟩
  rcases create_builds plat m₀ 0 with ⟨m₁, -, heq⟩ | ⟨space, m₁, -, -, -, hb⟩
  · rw [hp] at heq; cases heq
  · have hcreate := hb (.ofSpace space ∅) ⟨rfl, rfl, .inr (hlow.upperFilled m₀)⟩
    rw [hp] at hcreate
    have hnone : none ∉ (Scope.ofSpace space ∅).userTrees := by simp [Scope.ofSpace]
    obtain ⟨page, leaf, hleaf, huser, -⟩ :=
      (enableInterrupts_builds hint).userMaps (Set.notMem_empty _) (hcreate.userMaps hnone hf)
    rw [hplat.leaves page leaf hleaf] at huser
    cases huser

lemma Created.low {m : Mm} {pid : ℕ} {p : Process} (h : Created plat m pid p)
    (hfilled : Elf.UpperFilled plat.image m) : Elf.Low plat.image := by
  obtain ⟨hp⟩ := h
  exact create_low hp hfilled

theorem upperInv_run {ts : List KernelStep} (hplat : plat.WellFormed)
    (h : Run (xernel plat) ts k) : UpperInv plat k := by
  refine h.invariant (I := UpperInv plat) (fun _ hk => upperInv_boot hplat hk) ?_
  intro k e k' o hreach hinv hs
  obtain ⟨ts, hrun⟩ := id hreach
  have hspace := spaceInv_run hplat.regions hrun
  have hcore := reachable_core hreach hs
  refine ⟨fun hlow f hf => ?_, fun hnot => ?_⟩
  · -- no step makes an entry in the upper half
    have hkernel : k'.mm.pt.kernel = k.mm.pt.kernel := (hspace.mm hreach hs).kernel_same
    obtain ⟨page, leaf, hleaf, huser⟩ := hf
    refine hinv.closed hlow f ⟨page, leaf, ?_, huser⟩
    rw [PageTables.half, ← hkernel]
    exact hleaf
  · have hone := hinv.single hnot
    rcases hcore.length with ⟨hlen, -⟩ | ⟨hlen, -, -⟩
    · exact hlen.trans hone
    · -- a second process would have been loaded over the pages of the first
      have hlt : k.core.sched.procs.length < k'.core.sched.procs.length := by omega
      rcases hcore.proc (List.getElem?_eq_getElem hlt) with ⟨q, hq, -⟩ | ⟨-, hnew⟩
      · have := (List.getElem?_eq_some_iff.mp hq).1
        omega
      · exact absurd (hnew.low hspace.filled) hnot

/-- Process `i` maps the frame for ring 3. -/
def Kernel.Maps (k : Kernel) (i f : ℕ) : Prop :=
  ∃ p page leaf, k.sched.procs[i]? = some p ∧ k.mm.pt.leaf p.space page = some leaf ∧
    leaf.flags.userAccessible = true ∧ leaf.phys = f

/-- Every frame of RAM that a process maps for ring 3 is allocated, that is not on the free list and
not ahead of the cursor; it holds no table of any address space; and if another process maps it as
well, a `Frame` capability names it. -/
def Kernel.Isolated (plat : Platform) (k : Kernel) : Prop :=
  ∀ i f, k.Maps i f → IsRam plat.regions f →
    (f ∈ handedOut k.mm.calls ∧ f ∉ k.mm.frames.freeList ∧ ¬ k.mm.frames.Ahead f) ∧
    (¬ k.mm.pt.IsTable f ∧ f ≠ plat.bootSpace) ∧
    ∀ j ≠ i, k.Maps j f → ∃ cap, k.core.Holds cap ∧ cap.capType = .frame ∧
      f ∈ blockRun frameSize cap.object cap.badge

/-- What a process maps is mapped in its lower half or in the shared upper half. -/
lemma Kernel.Maps.half {i : ℕ} (h : k.Maps i f) :
    ∃ p, k.sched.procs[i]? = some p ∧
      (k.mm.pt.UserMaps (some p.space) f ∨ k.mm.pt.UserMaps none f) := by
  obtain ⟨p, page, leaf, hp, hleaf, huser⟩ := h
  rw [PageTables.leaf_eq_half] at hleaf
  refine ⟨p, hp, ?_⟩
  unfold PageTables.home at hleaf
  split at hleaf
  · exact .inl ⟨page, leaf, hleaf, huser⟩
  · exact .inr ⟨page, leaf, hleaf, huser⟩

/-- Two processes that map the same frame map it in different halves. -/
lemma UpperInv.apart {i j : ℕ} (h : UpperInv plat k) (hspace : SpaceInv plat k) (hi : k.Maps i f)
    (hj : k.Maps j f) (hne : j ≠ i) :
    ∃ x y, k.mm.pt.UserMaps x f ∧ k.mm.pt.UserMaps y f ∧ x ≠ y := by
  obtain ⟨p, hp, hpf⟩ := hi.half
  obtain ⟨q, hq, hqf⟩ := hj.half
  -- either the upper half maps nothing for ring 3, or there is just one process
  by_cases hlow : Elf.Low plat.image
  · have hclosed := h.closed hlow f
    refine ⟨_, _, hpf.resolve_right hclosed, hqf.resolve_right hclosed, fun heq => hne ?_⟩
    exact hspace.distinct j i q p hq hp (Option.some.inj heq).symm
  · have hone := h.single hlow
    have hi := (List.getElem?_eq_some_iff.mp hp).1
    have hj := (List.getElem?_eq_some_iff.mp hq).1
    omega

/-- Memory is isolated in every state of a run in which no `FRAME_ALLOC` fails after it has mapped
part of its run. -/
theorem memory_isolation {ts : List KernelStep} (hplat : plat.WellFormed)
    (h : Run (xernel plat) ts k) (hts : ∀ t ∈ ts, t.pre.freesMapped t.event = false) :
    k.Isolated plat := by
  have huse := frameUse_run hplat h hts
  have ht := huse.run.tracks hplat.regions
  intro i f hi hram
  have hmapped : ∃ x, k.mm.pt.UserMaps x f := by
    obtain ⟨p, -, hf | hf⟩ := hi.half
    · exact ⟨_, hf⟩
    · exact ⟨_, hf⟩
  obtain ⟨x, hx⟩ := hmapped
  obtain ⟨hout, htable⟩ := huse.mapped x f hx hram
  refine ⟨⟨hout, ht.apart f hout, (ht.settled f (.inr hout)).2.2⟩, ⟨htable, ?_⟩, fun j hne hj => ?_⟩
  · rintro rfl
    exact hplat.bootSpace hram
  · obtain ⟨y, z, hy, hz, hyz⟩ :=
      (upperInv_run hplat h).apart (spaceInv_run hplat.regions h) hi hj hne
    obtain ⟨j, slot, phys, pages, hslot, hf⟩ := huse.alone y z f hy hz hram hyz
    exact ⟨_, .inl ⟨j, slot, hslot⟩, rfl, hf⟩

/-- Nothing but the mapping functions gets at a page table: a frame of RAM that holds a table stays
allocated, no process maps it for ring 3, and no contiguous run has it. -/
def Kernel.TablesApart (plat : Platform) (k : Kernel) : Prop :=
  ∀ f, k.mm.pt.IsTable f → IsRam plat.regions f →
    f ∈ handedOut k.mm.calls ∧ (∀ x, ¬ k.mm.pt.UserMaps x f) ∧ f ∉ runFrames k.mm.calls

/-- Page tables are out of reach in every state of a run in which no `FRAME_ALLOC` frees what it has
mapped. -/
theorem tablesApart_run {ts : List KernelStep} (hplat : plat.WellFormed)
    (h : Run (xernel plat) ts k) (hts : ∀ t ∈ ts, t.pre.freesMapped t.event = false) :
    k.TablesApart plat := by
  have huse := frameUse_run hplat h hts
  intro f htable hram
  obtain ⟨hout, -, hruns⟩ := huse.table f htable hram
  exact ⟨hout, fun x hx => (huse.mapped x f hx hram).2 htable, hruns⟩

/-- A parent shares a run of two frames with its child, which maps it, too. -/
theorem memory_isolation_shared :
    ∃ k, Reachable (xernel smallPlatform) k ∧ k.Maps 0 0x11_a000 ∧ k.Maps 1 0x11_a000 ∧
      0x11_a000 ∉ k.mm.frames.freeList ∧ ∃ cap, k.core.Holds cap ∧ cap.capType = .frame ∧
        0x11_a000 ∈ blockRun frameSize cap.object cap.badge := by
  let es : List Event := [.resume, .call .frameAlloc 2 6 0x80_8000, .call .spawn 0 7,
    .call .capGrant 7 6 6, .call .yield, .resume, .call .mapFrame 6 0x80_8000]
  have hfacts : (trace smallPlatform es).map (fun r => (r.1.all fun t => !t.pre.freesMapped t.event,
      (r.2.sched.procs[0]?).bind fun p => r.2.mm.pt.leaf p.space 0x7_0000,
      (r.2.sched.procs[1]?).bind fun p => r.2.mm.pt.leaf p.space 0x7_0002)) =
      some (true, some ⟨0x11_a000, { userAccessible := true, writable := true, noExecute := true }⟩,
        some ⟨0x11_a000, { userAccessible := true, writable := true, noExecute := true }⟩) := by
    decide +kernel
  obtain ⟨r, hr, heq⟩ := Option.map_eq_some_iff.mp hfacts
  simp only [Prod.mk.injEq, Option.bind_eq_some_iff] at heq
  obtain ⟨hgood, ⟨p, hp, hleaf⟩, q, hq, hleaf'⟩ := heq
  have hi : r.2.Maps 0 0x11_a000 := ⟨p, _, _, hp, hleaf, rfl, rfl⟩
  have hj : r.2.Maps 1 0x11_a000 := ⟨q, _, _, hq, hleaf', rfl, rfl⟩
  have hisolated := memory_isolation smallPlatform_wellFormed (trace_run hr) fun t ht => by
    simpa using List.all_eq_true.mp hgood t ht
  have hram : IsRam smallPlatform.regions 0x11_a000 :=
    ⟨_, List.mem_singleton.mpr rfl, by decide, by decide⟩
  obtain ⟨⟨-, hfree, -⟩, -, hshared⟩ := hisolated 0 0x11_a000 hi hram
  exact ⟨r.2, ⟨r.1, trace_run hr⟩, hi, hj, hfree, hshared 1 (by decide) hj⟩

/-- A `FRAME_ALLOC` for a slot in use: its run is back on the free list and still mapped. -/
theorem memory_not_isolated :
    ¬ ∀ (plat : Platform) (ts : List KernelStep) (k : Kernel), plat.WellFormed →
      Run (xernel plat) ts k → k.Isolated plat := by
  intro hall
  let es : List Event := [.resume, .call .frameAlloc 1 0 0x80_8000]
  have hfacts : (trace smallPlatform es).map (fun r => (r.2.mm.frames.freeList,
      (r.2.sched.procs[0]?).bind fun p => r.2.mm.pt.leaf p.space 0x7_0000)) =
      some ([0x11_a000],
        some ⟨0x11_a000, { userAccessible := true, writable := true, noExecute := true }⟩) := by
    decide +kernel
  obtain ⟨r, hr, heq⟩ := Option.map_eq_some_iff.mp hfacts
  simp only [Prod.mk.injEq, Option.bind_eq_some_iff] at heq
  obtain ⟨hfree, p, hp, hleaf⟩ := heq
  have hi : r.2.Maps 0 0x11_a000 := ⟨p, _, _, hp, hleaf, rfl, rfl⟩
  have hram : IsRam smallPlatform.regions 0x11_a000 :=
    ⟨_, List.mem_singleton.mpr rfl, by decide, by decide⟩
  have hisolated := hall smallPlatform r.1 r.2 smallPlatform_wellFormed (trace_run hr)
  exact (hisolated 0 0x11_a000 hi hram).1.2.1 (by rw [hfree]; exact List.mem_singleton.mpr rfl)

end Xernel
