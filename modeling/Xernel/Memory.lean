import Xernel.Coherence

/-!
# What a step does to memory

`MmStep` is the counterpart of `CoreStep` for frames and page tables. A step builds up the space of
the running process or that of a new one; `FRAME_ALLOC` moreover allocates a run of frames for a
capability, and its failure exit frees that run again, whether or not some of it is mapped by then.
-/

namespace Xernel

open Mm (Builds)

variable {plat : Platform} {k k' : Kernel} {a b : Core} {cr3 : ℕ} {bad : Bool} {act : Activity}
  {out : Option ℕ} {args : Args} {hw : Hw}

/-! ## The list of effects -/

/-- The pages of the framebuffer. -/
def Platform.framebufferFrames (plat : Platform) : List ℕ :=
  plat.framebuffer.elim [] fun fb =>
    blockRun frameSize (pageDown fb.phys)
      (pagesFor (fb.phys - pageDown fb.phys + fb.height * fb.pitch))

/-- The frames that the running process may map though it does not allocate them: those its `Frame`
capabilities name, those its `IoMem` capabilities cover, and the framebuffer. -/
def Scheduler.MayMap (plat : Platform) (s : Scheduler) (f : ℕ) : Prop :=
  (∃ slot phys pages, s.cur.caps.slot slot = some (.frame phys pages) ∧
    f ∈ blockRun frameSize phys pages) ∨
  (∃ slot cap, s.cur.caps.slot slot = some cap ∧ cap.capType = .ioMem ∧
    cap.object ≤ f ∧ f + frameSize ≤ cap.object + cap.badge) ∨
  f ∈ plat.framebufferFrames

/-- The scope of one address space, with the frames that may be mapped there. -/
def Scope.ofSpace (space : ℕ) (given : Set ℕ) : Scope :=
  { trees := {some space}, userTrees := {some space}, given }

/-- `map_shared` gets to map the first page of a run. -/
def Kernel.mapsFirst (k : Kernel) (phys pages : ℕ) : Bool :=
  decide (k.win.nextSharedVa + pages * frameSize ≤ sharedRegionEnd) &&
    (k.mm.mapUser k.cpu.cr3 k.win.nextSharedVa phys true false).1 == .done

/-- A `FRAME_ALLOC` with these arguments maps the first page of its run and fails later on. -/
def Kernel.unwindsMapped (k : Kernel) (pages capSlot outPtr : ℕ) : Bool :=
  if pages = 0 ∨ maxSharedPages < pages then false
  else
    match k.currentChargeUntyped (pages * frameSize) with
    | none => false
    | some k =>
      match k.mm.frameAllocContiguous pages with
      | (none, _) => false
      | (some phys, mm) =>
        let k := { k with mm := mm.zero phys (pages * frameSize) }
        match k.mapShared phys pages with
        | (.done _, k) =>
          !k.userSliceMut outPtr 8 || (k.currentCapInstall capSlot (.frame phys pages)).isNone
        | _ => k.mapsFirst phys pages

/-- Neither a spawn nor a successful `FRAME_ALLOC`. -/
def Activity.Plain : Activity → Option ℕ → Prop
  | .call .frameAlloc _, out => out ≠ some 0
  | .call .spawn _, _ | .call .spawnEnv _, _ => False
  | _, _ => True

/-- The effects of one step on memory, with the address space `cr3` active. `bad` is whether the step is
a `FRAME_ALLOC` that fails after it has mapped part of its run. -/
inductive MmStep (plat : Platform) (a b : Core) (cr3 : ℕ) (bad : Bool) (act : Activity)
    (out : Option ℕ) : Prop
  | built (hact : act.Plain out)
      (h : Builds (.ofSpace cr3 {f | a.sched.MayMap plat f}) a.mm ∅ b.mm ∅)
  | noSpace {args : Args} (hact : act = .call .spawn args ∨ act = .call .spawnEnv args)
      (ha : a.mm.frameAlloc = (none, b.mm))
  | created {args : Args} {space : ℕ} {m : Mm}
      (hact : act = .call .spawn args ∨ act = .call .spawnEnv args)
      (ha : a.mm.frameAlloc = (some space, m))
      (hlive : space ∈ handedOut b.mm.calls)
      (h : Builds (.ofSpace space ∅) a.mm ∅ b.mm ∅)
  | frameRun {args : Args} {phys : ℕ} {m : Mm} (hact : act = .call .frameAlloc args)
      (hout : out = some 0) (hpages : args.rdi.toNat < 2 ^ 40)
      (ha : a.mm.frameAllocContiguous args.rdi.toNat = (some phys, m))
      (h : Builds (.ofSpace cr3 {f | f ∈ blockRun frameSize phys args.rdi.toNat}) m ∅ b.mm ∅)
      (hcap : b.sched.cur.caps.slot args.rsi.toNat = some (.frame phys args.rdi.toNat))
  | unmapped {args : Args} {phys : ℕ} {m m' : Mm} (hact : act = .call .frameAlloc args)
      (hout : out ≠ some 0) (hpages : args.rdi.toNat < 2 ^ 40)
      (ha : a.mm.frameAllocContiguous args.rdi.toNat = (some phys, m))
      (h : Builds (.ofSpace cr3 ∅) m {f | f ∈ blockRun frameSize phys args.rdi.toNat} m'
        {f | f ∈ blockRun frameSize phys args.rdi.toNat})
      (hm : b.mm = Kernel.freeRun m' phys args.rdi.toNat)
  | unwound {args : Args} {phys : ℕ} {m m' : Mm} (hact : act = .call .frameAlloc args)
      (hout : out ≠ some 0) (hpages : args.rdi.toNat < 2 ^ 40) (hbad : bad = true)
      (ha : a.mm.frameAllocContiguous args.rdi.toNat = (some phys, m))
      (h : Builds (.ofSpace cr3 {f | f ∈ blockRun frameSize phys args.rdi.toNat}) m ∅ m' ∅)
      (hm : b.mm = Kernel.freeRun m' phys args.rdi.toNat)

namespace MmStep

/-- Memory stayed as it was. -/
lemma of_eq (hact : act.Plain out) (hm : b.mm = a.mm) :
    MmStep plat a b cr3 bad act out :=
  .built hact (by rw [hm]; exact .refl)

/-- Only bytes were written. -/
lemma of_bytes (hact : act.Plain out) {mem : ℕ → UInt8}
    (hm : b.mm = { a.mm with mem }) : MmStep plat a b cr3 bad act out :=
  .built hact (by rw [hm]; exact Builds.refl.bytes mem)

end MmStep

namespace Kernel

/-- Writing to a user buffer changes bytes only. -/
lemma copyOut_mm (k : Kernel) (ptr : ℕ) (bytes : List UInt8) :
    ∃ mem, (k.copyOut ptr bytes).mm = { k.mm with mem } :=
  Mm.writeUser_eq k.mm k.cpu.cr3 ptr bytes

/-- It changes no table. -/
lemma copyOut_builds {s : Scope} {m : Mm} {U V : Set ℕ} {ptr : ℕ} {bytes : List UInt8}
    (h : Builds s m U k.mm V) : Builds s m U (k.copyOut ptr bytes).mm V := by
  obtain ⟨mem, hmem⟩ := copyOut_mm k ptr bytes
  rw [hmem]
  exact h.bytes mem

/-- A handler that writes its results to the caller. -/
lemma copyOut_mmStep {k₀ : Kernel} {ptr : ℕ} {bytes : List UInt8}
    (hact : act.Plain out) (hm : k₀.mm = k.mm) :
    MmStep plat k.core (k₀.copyOut ptr bytes).core k.cpu.cr3 bad act out := by
  obtain ⟨mem, hmem⟩ := copyOut_mm k₀ ptr bytes
  rw [hm] at hmem
  exact .of_bytes hact hmem

/-! ## Device windows -/

/-- The framebuffer is mapped in the space of the caller. -/
lemma sysFbInfo_mm {ptr : ℕ} :
    MmStep plat k.core (k.sysFbInfo plat ptr).1.core k.cpu.cr3 bad (.call .fbInfo args)
      (k.sysFbInfo plat ptr).2 := by
  rw [sysFbInfo]
  split
  next => exact .of_eq trivial rfl
  next fb hfb =>
    have hva : fbUserVa < 2 ^ 64 - 2 ^ 47 := by decide
    have hgiven : ∀ f ∈ blockRun frameSize (pageDown fb.phys)
        (pagesFor (fb.phys - pageDown fb.phys + fb.height * fb.pitch)), k.sched.MayMap plat f :=
      fun f hf => .inr (.inr (by rw [Platform.framebufferFrames, hfb]; exact hf))
    have hrun : Builds (.ofSpace k.cpu.cr3 {f | k.sched.MayMap plat f}) k.mm ∅ _ ∅ :=
      mapRun_mapUserDevice rfl rfl hva hgiven
    dsimp only
    split
    next heq => rw [heq] at hrun; exact .built trivial hrun
    next heq => rw [heq] at hrun; exact .built trivial hrun
    next mm heq =>
      rw [heq] at hrun
      split
      · exact .built trivial (copyOut_builds (k := { k with mm }) hrun)
      · exact .built trivial hrun

/-- So is device memory. -/
lemma sysIomap_mm {phys len : ℕ} :
    MmStep plat k.core (k.sysIomap phys len).1.core k.cpu.cr3 bad (.call .iomap args)
      (k.sysIomap phys len).2 := by
  rw [sysIomap]
  split
  · exact .of_eq trivial rfl
  dsimp only
  split
  · exact .of_eq trivial rfl
  next hauth =>
    split
    · exact .of_eq trivial rfl
    next hroom =>
      have hva : k.win.nextMmioVa < 2 ^ 64 - 2 ^ 47 := by
        simp only [mmioRegionEnd] at hroom
        omega
      have hgiven : ∀ f ∈ blockRun frameSize (pageDown phys) (pagesFor (phys - pageDown phys + len)),
          k.sched.MayMap plat f := by
        intro f hf
        obtain ⟨slot, cap, hcap, hmmio⟩ :=
          CNode.authorizesMmio_eq_true (by simpa using hauth)
        obtain ⟨hlo, hhi⟩ := blockRun_bounds hf
        unfold CapEntry.authorizesMmio at hmmio
        split at hmmio
        · cases hmmio
        next htype =>
          split at hmmio
          · simp only [Bool.and_eq_true, decide_eq_true_eq] at hmmio
            exact .inr (.inl ⟨slot, cap, hcap, not_not.mp htype, by omega, by omega⟩)
          · cases hmmio
      have hrun : Builds (.ofSpace k.cpu.cr3 {f | k.sched.MayMap plat f}) k.mm ∅ _ ∅ :=
        mapRun_mapUserDevice rfl rfl hva hgiven
      split <;> (next heq => rw [heq] at hrun; exact .built trivial hrun)

/-! ## Heap and DMA memory -/

/-- So is the heap. -/
lemma orMax_sbrk_mm {delta : ℤ} (hcr3 : k.cpu.cr3 = k.sched.cur.space) :
    MmStep plat k.core (orMax (k.sbrk delta)).1.core k.cpu.cr3 bad (.call .sbrk args)
      (orMax (k.sbrk delta)).2 := by
  rw [sbrk]
  dsimp only
  split
  · exact .of_eq trivial rfl
  split
  · exact .of_eq trivial rfl
  split
  · exact .of_eq trivial rfl
  generalize hnew : (if delta > 0 then _ else _ : ℕ) = new
  split
  · exact .of_eq trivial rfl
  next hbounds =>
    split
    next hpos =>
      rw [if_pos hpos] at hnew
      have hva : pageUp k.sched.cur.heapBreak < 2 ^ 64 - 2 ^ 47 := by
        simp only [heapMax, pageUp, pageDown, frameSize] at hbounds ⊢
        omega
      generalize (pageUp new - pageUp k.sched.cur.heapBreak) / frameSize = n
      have hrun : Builds (.ofSpace k.cpu.cr3 {f | k.sched.MayMap plat f}) k.mm ∅
          (allocMapPages k.sched.cur.space n (pageUp k.sched.cur.heapBreak) k.mm).2 ∅ :=
        allocMapPages_builds n hva (by rw [← hcr3]; rfl) (by rw [← hcr3]; rfl)
      split <;> (next heq => rw [heq] at hrun; exact .built trivial hrun)
    next => exact .of_eq trivial rfl

/-- So is a DMA buffer, and its frames are new. -/
lemma dmaAllocCharged_mm {given : Set ℕ} {pages outPtr : ℕ} (hpages : pages < 2 ^ 40) :
    Builds (.ofSpace k.cpu.cr3 given) k.mm ∅ (k.dmaAllocCharged pages outPtr).2.mm ∅ := by
  rw [dmaAllocCharged]
  split
  next mm ha => exact (Builds.refl.contiguous hpages ha).leak (Set.empty_subset _)
  next phys mm ha =>
    have halloc : Builds (.ofSpace k.cpu.cr3 given) k.mm ∅
        (mm.zero phys (pages * frameSize)) {f | f ∈ blockRun frameSize phys pages} :=
      ((Builds.refl.contiguous hpages ha).bytes _).leak fun f hf => .inr ⟨phys, rfl, hf⟩
    dsimp only
    split
    · exact halloc.leak (Set.empty_subset _)
    next hroom =>
      have hva : k.win.nextDmaVa < 2 ^ 64 - 2 ^ 47 := by
        simp only [dmaRegionEnd] at hroom
        omega
      have hrun := halloc.trans (mapRun_mapUser_own rfl rfl hva)
      split
      next heq => rw [heq] at hrun; exact hrun
      next heq => rw [heq] at hrun; exact hrun
      next mm' heq =>
        rw [heq] at hrun
        split
        · exact copyOut_builds hrun
        · exact hrun

/-- The charge and the refund leave memory alone. -/
lemma sysDmaAlloc_mm {len outPtr : ℕ} :
    MmStep plat k.core (k.sysDmaAlloc len outPtr).1.core k.cpu.cr3 bad (.call .dmaAlloc args)
      (k.sysDmaAlloc len outPtr).2 := by
  rw [sysDmaAlloc]
  split
  · exact .of_eq trivial rfl
  next hlen =>
    have hpages : pagesFor len < 2 ^ 40 := by
      simp only [pagesFor, frameSize]
      omega
    dsimp only
    split
    next => exact .of_eq trivial rfl
    next k₁ hcharge =>
      obtain ⟨caps, hcaps, rfl⟩ := currentChargeUntyped_eq_some hcharge
      generalize hk₁ : ({ k with sched := k.sched.setCaps caps } : Kernel) = k₁
      have hrun : Builds (.ofSpace k.cpu.cr3 {f | k.sched.MayMap plat f}) k.mm ∅
          (k₁.dmaAllocCharged (pagesFor len) outPtr).2.mm ∅ := by
        rw [← hk₁]
        exact dmaAllocCharged_mm (k := { k with sched := k.sched.setCaps caps }) hpages
      split <;> (next heq => rw [heq] at hrun; exact .built trivial hrun)

/-! ## Shared frames -/

/-- The window for shared frames ends below the upper half, so that mapping there does not panic. -/
lemma mapShared_ne_panic {phys pages : ℕ} : (k.mapShared phys pages).1 ≠ .panic := by
  rw [mapShared]
  dsimp only
  split
  · simp
  next hroom =>
    have hne : (mapRun (fun m va phys => m.mapUser k.cpu.cr3 va phys true false) pages
        k.win.nextSharedVa phys k.mm).1 ≠ .panic := by
      refine mapRun_ne_panic (fun _ _ _ hva => Mm.mapWithFlags_ne_panic hva) ?_
      simp only [sharedRegionEnd] at hroom
      omega
    split
    next heq => rw [heq] at hne; exact absurd rfl hne
    next => simp
    next => simp

/-- If `map_shared` fails at once, it has mapped nothing. -/
lemma mapShared_failed {s : Scope} {U : Set ℕ} {k₁ : Kernel} {phys pages : ℕ}
    (hs : some k.cpu.cr3 ∈ s.trees)
    (h : k.mapShared phys pages = (.failed, k₁))
    (hfirst : k.mapsFirst phys pages = false) :
    Builds s k.mm U k₁.mm U := by
  rw [mapShared] at h
  dsimp only at h
  split at h
  · obtain rfl := (Prod.mk.inj h).2
    exact .refl
  next hroom =>
    have hne : (k.mm.mapUser k.cpu.cr3 k.win.nextSharedVa phys true false).1 ≠ .done := by
      simpa [mapsFirst, Nat.not_lt.mp hroom] using hfirst
    have hva : k.win.nextSharedVa < 2 ^ 64 - 2 ^ 47 := by
      simp only [sharedRegionEnd] at hroom
      omega
    have hmap : Builds s k.mm U (k.mm.mapUser k.cpu.cr3 k.win.nextSharedVa phys true false).2 U :=
      Mm.mapWithFlags_failed hva hs hne
    cases pages with
    | zero => cases h
    | succ n =>
      rw [mapRun] at h
      generalize k.mm.mapUser k.cpu.cr3 k.win.nextSharedVa phys true false = r at h hne hmap
      obtain ⟨_ | _ | _, m⟩ := r
      · exact absurd rfl hne
      · obtain rfl := (Prod.mk.inj h).2
        exact hmap
      · cases h

/-- What `sys_frame_alloc` does to memory: its exits after the allocation are told apart by whether
the run was mapped by then, at least in part. -/
lemma sysFrameAlloc_mm :
    MmStep plat k.core (k.sysFrameAlloc args.rdi.toNat args.rsi.toNat args.rdx.toNat).1.core
      k.cpu.cr3 (k.unwindsMapped args.rdi.toNat args.rsi.toNat args.rdx.toNat) (.call .frameAlloc args)
      (k.sysFrameAlloc args.rdi.toNat args.rsi.toNat args.rdx.toNat).2 := by
  have hmax : some u64Max ≠ some 0 := by simp [u64Max]
  have hval := unwindsMapped.eq_1 k args.rdi.toNat args.rsi.toNat args.rdx.toNat
  rw [sysFrameAlloc]
  split
  · exact .of_eq hmax rfl
  next hpages =>
    have hlt : args.rdi.toNat < 2 ^ 40 := by
      simp only [maxSharedPages] at hpages
      omega
    rw [if_neg hpages] at hval
    dsimp only
    split
    next => exact .of_eq hmax rfl
    next k₀ hcharge =>
      rw [hcharge] at hval
      obtain ⟨caps, hcaps, rfl⟩ := currentChargeUntyped_eq_some hcharge
      dsimp only at hval ⊢
      split
      next mm ha =>
        exact .built hmax ((Builds.refl.contiguous hlt ha).leak (Set.empty_subset _))
      next phys mm ha =>
        rw [ha] at hval
        dsimp only at hval
        generalize hk₁ : ({ k with
          sched := k.sched.setCaps caps
          mm := mm.zero phys (args.rdi.toNat * frameSize) } : Kernel) = k₁ at hval ⊢
        obtain ⟨hcr3, hmm⟩ : k₁.cpu.cr3 = k.cpu.cr3 ∧
            k₁.mm = mm.zero phys (args.rdi.toNat * frameSize) := by rw [← hk₁]; exact ⟨rfl, rfl⟩
        -- the run gets mapped, at least in part
        have hmapped : Builds (.ofSpace k.cpu.cr3 {f | f ∈ blockRun frameSize phys args.rdi.toNat})
            mm ∅ (k₁.mapShared phys args.rdi.toNat).2.mm ∅ := by
          have hzero : Builds (.ofSpace k.cpu.cr3 {f | f ∈ blockRun frameSize phys args.rdi.toNat})
              mm ∅ k₁.mm ∅ := by rw [hmm]; exact Builds.refl.bytes _
          exact hzero.trans (mapShared_builds (by rw [hcr3]; rfl) (by rw [hcr3]; rfl)
            fun f hf => hf)
        split
        next k₂ heq => exact absurd (by rw [heq]) (mapShared_ne_panic (k := k₁))
        next k₂ heq =>
          rw [heq] at hmapped hval
          cases hbad : k.unwindsMapped args.rdi.toNat args.rsi.toNat args.rdx.toNat with
          | true => exact .unwound rfl hmax hlt rfl ha hmapped rfl
          | false =>
            have hzero : Builds (.ofSpace k.cpu.cr3 ∅) mm
                {f | f ∈ blockRun frameSize phys args.rdi.toNat} k₁.mm
                {f | f ∈ blockRun frameSize phys args.rdi.toNat} := by
              rw [hmm]; exact Builds.refl.bytes _
            have hkept := hzero.trans
              (mapShared_failed (by rw [hcr3]; rfl) heq (hval.symm.trans hbad))
            exact .unmapped rfl hmax hlt ha hkept rfl
        next va k₂ heq =>
          rw [heq] at hmapped hval
          dsimp only at hval
          split
          next hslice =>
            rw [hslice] at hval
            have hbytes : Builds _ mm ∅ (k₂.copyOut args.rdx.toNat (leBytes 8 va)).mm ∅ :=
              copyOut_builds hmapped
            split
            next hins =>
              have hnone : k₂.currentCapInstall args.rsi.toNat (.frame phys args.rdi.toNat) =
                  none := by
                rw [currentCapInstall] at hins ⊢
                split at hins
                next hins' =>
                  have hins'' : k₂.sched.cur.caps.insert args.rsi.toNat
                      (.frame phys args.rdi.toNat) = _ := hins'
                  rw [hins'']
                next => cases hins
              exact .unwound rfl hmax hlt (by simpa [hnone] using hval) ha hbytes rfl
            next k₃ hins =>
              obtain ⟨caps', hins', rfl⟩ := currentCapInstall_eq_some hins
              refine .frameRun rfl rfl hlt ha hbytes ?_
              show (Scheduler.setCaps _ caps').cur.caps.slot _ = _
              rw [Scheduler.setCaps, Scheduler.cur_modifyCur]
              exact (CNode.slot_insert hins').trans (if_pos rfl)
          next hslice =>
            exact .unwound rfl hmax hlt (by simpa [Bool.eq_false_iff.mpr hslice] using hval) ha
              hmapped rfl

/-- The run to be mapped is that of a Frame capability of the caller. -/
lemma currentFrameCap_eq_some {slot phys pages : ℕ} (h : k.currentFrameCap slot = some (phys, pages)) :
    k.sched.cur.caps.slot slot = some (.frame phys pages) := by
  obtain ⟨cap, hcap, hif⟩ := Option.bind_eq_some_iff.mp h
  rw [currentCapGet_eq] at hcap
  split at hif
  next htype =>
    obtain ⟨rfl, rfl⟩ := Prod.mk.inj (Option.some.inj hif)
    rw [hcap, CapEntry.frame, ← htype]
  next => cases hif

/-- The frames of a capability are mapped in the space of its holder. -/
lemma sysMapFrame_mm {capSlot outPtr : ℕ} :
    MmStep plat k.core (k.sysMapFrame capSlot outPtr).1.core k.cpu.cr3 bad (.call .mapFrame args)
      (k.sysMapFrame capSlot outPtr).2 := by
  rw [sysMapFrame]
  split
  next => exact .of_eq trivial rfl
  next phys pages hcap =>
    have hmap : Builds (.ofSpace k.cpu.cr3 {f | k.sched.MayMap plat f}) k.mm ∅
        (k.mapShared phys pages).2.mm ∅ :=
      mapShared_builds rfl rfl fun f hf =>
        .inl ⟨capSlot, phys, pages, currentFrameCap_eq_some hcap, hf⟩
    split
    next heq => rw [heq] at hmap; exact .built trivial hmap
    next heq => rw [heq] at hmap; exact .built trivial hmap
    next va k₁ heq =>
      rw [heq] at hmap
      split
      · exact .built trivial (copyOut_builds (k := k₁) hmap)
      · exact .built trivial hmap

/-! ## Spawning -/

lemma orMax_mm (r : Attempt ℕ × Kernel) : (orMax r).1.mm = r.2.mm := by
  obtain ⟨_ | _ | _, k⟩ := r <;> rfl

/-- Adding a process leaves memory to `create`. -/
lemma addProcess_mm (k : Kernel) (p : Process) (capSlot : ℕ) :
    (k.addProcess p capSlot).2.mm = k.mm := by
  rw [addProcess, installProcessCap]
  split
  · rfl
  next heq =>
    split at heq
    · obtain rfl := Option.some.inj heq; rfl
    · split at heq
      · cases heq
      · obtain rfl := Option.some.inj heq; rfl

/-- All that `SPAWN` does to memory is in `create`. -/
lemma spawn_mm (k : Kernel) (capSlot : ℕ) :
    (k.spawn plat capSlot).2.mm = (create plat k.mm k.sched.nextPid).2 := by
  rw [spawn]
  split
  next heq => rw [heq]
  next heq => rw [heq]
  next heq => rw [heq]; exact addProcess_mm ..

/-- `spawn` only builds up the space of the new process. -/
lemma orMax_spawn_mm {capSlot : ℕ} {sys : Sys} (hsys : sys = .spawn ∨ sys = .spawnEnv)
    (hup : Elf.UpperFilled plat.image k.mm) :
    MmStep plat k.core (orMax (k.spawn plat capSlot)).1.core k.cpu.cr3 bad (.call sys args)
      (orMax (k.spawn plat capSlot)).2 := by
  have hact : Activity.call sys args = .call .spawn args ∨
      Activity.call sys args = .call .spawnEnv args := by
    rcases hsys with rfl | rfl
    · exact .inl rfl
    · exact .inr rfl
  have hmm : (orMax (k.spawn plat capSlot)).1.core.mm = (create plat k.mm k.sched.nextPid).2 :=
    (orMax_mm _).trans (spawn_mm k capSlot)
  rcases create_builds plat k.mm k.sched.nextPid with ⟨m, ha, heq⟩ | ⟨space, m, ha, -, hlive, hb⟩
  · refine .noSpace hact ?_
    rw [hmm, heq]
    exact ha
  · refine .created hact ha (by rw [hmm]; exact hlive) ?_
    rw [hmm]
    exact hb _ ⟨rfl, rfl, .inr hup⟩

/-- `spawn_env` only builds up the space of the new process. -/
lemma orMax_spawnEnv_mm {envpPtr envpLen capSlot : ℕ} (hup : Elf.UpperFilled plat.image k.mm) :
    MmStep plat k.core (orMax (k.spawnEnv plat envpPtr envpLen capSlot)).1.core k.cpu.cr3 bad
      (.call .spawnEnv args) (orMax (k.spawnEnv plat envpPtr envpLen capSlot)).2 := by
  have hmm : (orMax (k.spawnEnv plat envpPtr envpLen capSlot)).1.core.mm = _ :=
    orMax_mm (k.spawnEnv plat envpPtr envpLen capSlot)
  rw [spawnEnv] at hmm ⊢
  split
  · exact orMax_spawn_mm (.inr rfl) hup
  next hargs =>
    rw [if_neg hargs] at hmm
    rcases create_builds plat k.mm k.sched.nextPid with
      ⟨m, ha, heq⟩ | ⟨space, m, ha, hspace, hlive, hb⟩
    · rw [heq]
      exact .noSpace (.inr rfl) ha
    · have hcreate : Builds (.ofSpace space ∅) k.mm ∅ (create plat k.mm k.sched.nextPid).2 ∅ :=
        hb _ ⟨rfl, rfl, .inr hup⟩
      -- what follows `create` builds up the new space further
      have hfinal : ∀ {mm : Mm}, Builds (.ofSpace space ∅) (create plat k.mm k.sched.nextPid).2 ∅ mm ∅ →
          space ∈ handedOut mm.calls ∧ Builds (.ofSpace space ∅) k.mm ∅ mm ∅ :=
        fun h => ⟨h.handedOut hlive, hcreate.trans h⟩
      suffices hrest : Builds (.ofSpace space ∅) (create plat k.mm k.sched.nextPid).2 ∅ _ ∅ from
        .created (.inr rfl) ha (by rw [hmm]; exact (hfinal hrest).1)
          (by rw [hmm]; exact (hfinal hrest).2)
      split
      next heq => rw [heq]; exact .refl
      next heq => rw [heq]; exact .refl
      next p mm heq =>
        split
        · rw [heq]; exact .refl
        split
        · rw [heq]; exact .refl
        dsimp only
        obtain rfl := hspace p mm heq
        have htree : some p.space ∈ (Scope.ofSpace p.space ∅).trees := rfl
        have huser : some p.space ∈ (Scope.ofSpace p.space ∅).userTrees := rfl
        have henv := copyEnv_builds k.cpu.cr3 envpPtr envpLen htree huser (pagesFor envpLen) 0 mm
          (by decide)
        rw [heq]
        split
        next heq' => rw [heq'] at henv; exact henv
        next heq' => rw [heq'] at henv; exact henv
        next heq' => rw [heq'] at henv; rw [addProcess_mm]; exact henv

/-! ## Calls that write at most bytes -/

/-- No frame is given back when a process ends. -/
lemma exitInner_mm (k : Kernel) (code : ℕ) : (k.exitInner code).mm = k.mm := by
  rw [exitInner]
  split <;> rfl

lemma blockOn_mm (k : Kernel) (reason : BlockReason) (kont : Kont) :
    (k.blockOn reason kont).mm = k.mm := by
  rw [blockOn]
  split <;> rfl

lemma yieldNow_mm {kont : Kont} (h : k.yieldNow kont = some k') : k'.mm = k.mm := by
  obtain ⟨i, -, rfl⟩ := yieldNow_eq_some h
  rfl

lemma readKeys_mm {ptr len : ℕ} (hno : ∀ out, act.Plain out) :
    MmStep plat k.core (k.readKeys ptr len).2.core k.cpu.cr3 bad act out :=
  copyOut_mmStep (hno _) rfl

/-- A read fills a buffer. -/
lemma readLoop_mm {ptr len : ℕ} (hno : ∀ out, act.Plain out) :
    MmStep plat k.core (k.readLoop ptr len).1.core k.cpu.cr3 bad act (k.readLoop ptr len).2 := by
  rw [readLoop]
  split
  next => exact .of_eq (hno _) rfl
  next n k₁ heq =>
    obtain rfl : (k.readKeys ptr len).2 = k₁ := by rw [heq]
    exact readKeys_mm hno

/-- A receive writes to a buffer. -/
lemma recvLoop_mm {id outPtr dstSlot : ℕ} (hno : ∀ out, act.Plain out) :
    MmStep plat k.core (k.recvLoop id outPtr dstSlot).1.core k.cpu.cr3 bad act
      (k.recvLoop id outPtr dstSlot).2 := by
  have hwrite : ∀ {k₀ : Kernel} {msg : Message}, k₀.mm = k.mm → MmStep plat k.core
      (if k₀.userSliceMut outPtr 8 then (k₀.copyOut outPtr (leBytes 8 msg.1), some 0)
        else (k₀, some u64Max)).1.core k.cpu.cr3 bad act
      (if k₀.userSliceMut outPtr 8 then (k₀.copyOut outPtr (leBytes 8 msg.1), some 0)
        else (k₀, some u64Max)).2 := by
    intro k₀ msg hm
    split
    · exact copyOut_mmStep (hno _) hm
    · exact .of_eq (hno _) hm
  rw [recvLoop]
  split
  next msg ipc heq =>
    rw [deliverMessage]
    dsimp only
    split
    · exact hwrite rfl
    · split
      · exact hwrite rfl
      · split
        · exact .of_eq (hno _) rfl
        next k₁ hins =>
          obtain ⟨caps, -, rfl⟩ := currentCapInstall_eq_some hins
          exact hwrite rfl
  next => exact .of_eq (hno _) (blockOn_mm ..)

/-- Taking a word leaves memory alone. -/
lemma waitLoop_mm {id : ℕ} (hno : ∀ out, act.Plain out) :
    MmStep plat k.core (k.waitLoop id).1.core k.cpu.cr3 bad act (k.waitLoop id).2 := by
  rw [waitLoop]
  split
  · exact .of_eq (hno _) rfl
  · exact .of_eq (hno _) (blockOn_mm ..)

/-- So does waiting for a process. -/
lemma waitPidLoop_mm {pid : ℕ} (hno : ∀ out, act.Plain out) :
    MmStep plat k.core (k.waitPidLoop pid).1.core k.cpu.cr3 bad act (k.waitPidLoop pid).2 := by
  rw [waitPidLoop]
  dsimp only
  split
  · exact .of_eq (hno _) rfl
  split
  · exact .of_eq (hno _) rfl
  split
  · exact .of_eq (hno _) rfl
  split
  next hy => exact .of_eq (hno _) (yieldNow_mm hy)
  next => exact .of_eq (hno _) rfl

/-! ## Dispatch -/

/-- What happens next is a `FRAME_ALLOC` that maps part of its run and then fails. -/
def freesMapped (k : Kernel) (e : Event) : Bool :=
  match k.activity e with
  | .call .frameAlloc args =>
    { k with cpu := k.cpu.swapgs, exec := .kernel }.unwindsMapped args.rdi.toNat args.rsi.toNat
      args.rdx.toNat
  | _ => false

/-- A log is copied to a buffer. -/
lemma sysLogRead_mm {slot outPtr max : ℕ} :
    MmStep plat k.core (k.sysLogRead slot outPtr max).1.core k.cpu.cr3 bad (.call .logRead args)
      (k.sysLogRead slot outPtr max).2 := by
  rw [sysLogRead]
  split
  · exact .of_eq trivial rfl
  dsimp only
  split
  · refine copyOut_mmStep trivial ?_
    rw [logRead]
    split <;> rfl
  · exact .of_eq trivial rfl

/-- Queues are kernel objects: a send leaves memory alone. -/
lemma sysSend_mm (k : Kernel) (epSlot word capSlot : ℕ) :
    (k.sysSend epSlot word capSlot).1.mm = k.mm := by
  rw [sysSend]
  split
  · rfl
  · dsimp only
    split
    · split <;> rfl
    · split
      · rfl
      · split <;> rfl

/-- No frame is given back when a process is killed. -/
lemma sysKill_mm (k : Kernel) (slot signal : ℕ) : (k.sysKill slot signal).1.mm = k.mm := by
  rw [sysKill]
  split
  · rfl
  · simp only [kill]
    split
    · rfl
    · split
      · split <;> rfl
      · rfl

lemma sysCapGrant_mm (k : Kernel) (procSlot srcSlot dstSlot : ℕ) :
    (k.sysCapGrant procSlot srcSlot dstSlot).1.mm = k.mm := by
  rw [sysCapGrant]
  split
  · rfl
  split
  · rfl
  split
  · rfl
  next hgrant =>
    rw [grantTo] at hgrant
    split at hgrant
    · split at hgrant
      · cases hgrant
      · obtain rfl := Option.some.inj hgrant
        rfl
    · cases hgrant

/-- Every system call stays within the list of effects on memory. -/
theorem dispatch_mm (hcr3 : k.cpu.cr3 = k.sched.cur.space) (hup : Elf.UpperFilled plat.image k.mm)
    (nr : UInt64) (args : Args) (hw : Hw)
    (hbad : ∀ args', k.activity (.syscall nr args hw) = .call .frameAlloc args' →
      bad = k.unwindsMapped args'.rdi.toNat args'.rsi.toNat args'.rdx.toNat) :
    MmStep plat k.core (k.dispatch plat nr args hw).1.core k.cpu.cr3 bad
      (k.activity (.syscall nr args hw)) (k.dispatch plat nr args hw).2 := by
  rw [activity] at hbad
  rw [dispatch, activity]
  generalize Sys.decode nr = decoded at hbad ⊢
  cases decoded with
  | none => exact .of_eq trivial rfl
  | some sys =>
    cases sys with
    | read =>
      show MmStep _ _ (k.sysRead _ _).1.core _ _ _ (k.sysRead _ _).2
      rw [sysRead]
      split
      · exact readLoop_mm (fun _ => trivial)
      · exact .of_eq trivial rfl
    | readNb =>
      show MmStep _ _ (k.sysReadNb _ _).1.core _ _ _ (k.sysReadNb _ _).2
      rw [sysReadNb]
      split
      · exact readKeys_mm (fun _ => trivial)
      · exact .of_eq trivial rfl
    | sbrk => exact orMax_sbrk_mm hcr3
    | fbInfo => exact sysFbInfo_mm
    | iomap => exact sysIomap_mm
    | dmaAlloc => exact sysDmaAlloc_mm
    | frameAlloc =>
      rw [hbad args rfl]
      exact sysFrameAlloc_mm
    | mapFrame => exact sysMapFrame_mm
    | spawn => exact orMax_spawn_mm (.inl rfl) hup
    | spawnEnv => exact orMax_spawnEnv_mm hup
    | capIdentify =>
      show MmStep _ _ (k.sysCapIdentify _ _).1.core _ _ _ (k.sysCapIdentify _ _).2
      rw [sysCapIdentify]
      split
      · exact .of_eq trivial rfl
      · split
        · exact copyOut_mmStep trivial rfl
        · exact .of_eq trivial rfl
    | getenvp =>
      show MmStep _ _ (k.sysGetenvp _).1.core _ _ _ (k.sysGetenvp _).2
      rw [sysGetenvp]
      split
      · exact copyOut_mmStep trivial rfl
      · exact .of_eq trivial rfl
    | recv =>
      show MmStep _ _ (k.sysRecv _ _ _).1.core _ _ _ (k.sysRecv _ _ _).2
      rw [sysRecv]
      split
      · exact .of_eq trivial rfl
      · exact recvLoop_mm (fun _ => trivial)
    | wait =>
      show MmStep _ _ (k.sysWait _).1.core _ _ _ (k.sysWait _).2
      rw [sysWait]
      split
      · exact .of_eq trivial rfl
      · exact waitLoop_mm (fun _ => trivial)
    | waitPid =>
      show MmStep _ _ (k.sysWaitPid _).1.core _ _ _ (k.sysWaitPid _).2
      rw [sysWaitPid]
      split
      · exact .of_eq trivial rfl
      · rw [waitPid]
        split
        · exact .of_eq trivial rfl
        · exact waitPidLoop_mm (fun _ => trivial)
    | logRead => exact sysLogRead_mm
    -- the rest leaves memory alone
    | exit => exact .of_eq trivial (exitInner_mm ..)
    | send => exact .of_eq trivial (sysSend_mm ..)
    | kill => exact .of_eq trivial (sysKill_mm ..)
    | capGrant => exact .of_eq trivial (sysCapGrant_mm ..)
    | write =>
      refine .of_eq trivial ?_
      show (k.sysWrite _ _ _).1.mm = k.mm
      rw [sysWrite]
      split
      · rfl
      · split <;> rfl
    | yield =>
      refine .of_eq trivial ?_
      dsimp only [core]
      split
      next hy => exact yieldNow_mm hy
      next => rfl
    | portIn =>
      refine .of_eq trivial ?_
      show (k.sysPortIn _ _ _).1.mm = k.mm
      rw [sysPortIn]
      split <;> rfl
    | portOut =>
      refine .of_eq trivial ?_
      show (k.sysPortOut _ _ _).1.mm = k.mm
      rw [sysPortOut]
      split <;> rfl
    | signal =>
      refine .of_eq trivial ?_
      show (k.sysSignal _ _).1.mm = k.mm
      rw [sysSignal]
      split
      · rfl
      · split <;> rfl
    | getStatus =>
      refine .of_eq trivial ?_
      show (k.sysGetStatus _).1.mm = k.mm
      rw [sysGetStatus]
      split <;> rfl
    | debug | getTicks | sysinfo | getpid | pciRead => exact .of_eq trivial rfl

end Kernel

/-! ## Steps -/

/-- Every step that gets past the entry stub, on the space of the running process, stays within the
list of effects on memory. -/
theorem step_mm {e : Event} (h : step plat k e = some (k', out))
    (hgs : k.exec = .user → k.cpu.kernelGsBase = .percpu) (hcr3 : k.cpu.cr3 = k.sched.cur.space)
    (hup : Elf.UpperFilled plat.image k.mm) :
    MmStep plat k.core k'.core k.cpu.cr3 (k.freesMapped e) (k.activity e) out := by
  generalize hr : (k', out) = r at h
  obtain ⟨rfl, rfl⟩ : k' = r.1 ∧ out = r.2 := by rw [← hr]; exact ⟨rfl, rfl⟩
  clear hr
  cases step_cases h with
  | @syscall nr args hw hexec =>
    rw [Kernel.syscallEntry, if_pos (show k.cpu.swapgs.gsBase = .percpu from hgs hexec)]
    obtain ⟨hcore, hout⟩ := Kernel.syscallExit_core
      (({ k with cpu := k.cpu.swapgs, exec := .kernel } : Kernel).dispatch plat nr args hw)
    rw [hcore, hout]
    refine Kernel.dispatch_mm (k := { k with cpu := k.cpu.swapgs, exec := .kernel }) hcr3 hup nr
      args hw fun args' hact => ?_
    have hact' : k.activity (.syscall nr args hw) = .call .frameAlloc args' := hact
    rw [Kernel.freesMapped, hact']
  | timer hexec =>
    refine .of_eq trivial ?_
    show k.timerIsr.mm = k.mm
    rw [Kernel.timerIsr]
    dsimp only
    split
    next hy =>
      have hmm := Kernel.yieldNow_mm hy
      exact hmm
    next => rfl
  | fault hexec => exact .of_eq trivial (Kernel.exitInner_mm ..)
  | keyboard hexec => exact .of_eq trivial rfl
  | @store va b hexec =>
    show MmStep _ _ (k.userStore va b).core _ _ _ _
    rw [Kernel.userStore]
    split
    · obtain ⟨mem, hmem⟩ := Mm.writeByte_eq k.mm k.cpu.cr3 va b
      exact .of_bytes trivial hmem
    · exact .of_eq trivial (Kernel.exitInner_mm ..)
  | dma hexec hw =>
    obtain ⟨mem, rfl⟩ := Kernel.deviceWrite_mem hw
    exact .of_bytes trivial rfl
  | idleTick hexec => exact .of_eq trivial rfl
  | @resume p hexec hp =>
    have hact : k.activity .resume = .resumed p.kont := by rw [Kernel.activity, hp]; rfl
    -- the way out of a call is the same for all of them
    have hexit : ∀ r : Kernel × Option ℕ, MmStep plat k.core r.1.core k.cpu.cr3
        (k.freesMapped .resume) (.resumed p.kont) r.2 → MmStep plat k.core
        (Kernel.syscallExit r).1.core k.cpu.cr3 (k.freesMapped .resume) (.resumed p.kont)
        (Kernel.syscallExit r).2 := by
      intro r hr
      obtain ⟨hcore, hout⟩ := Kernel.syscallExit_core r
      rw [hcore, hout]
      exact hr
    rw [hact]
    cases hk : p.kont with
    | trampoline => exact .of_eq trivial rfl
    | timer => exact .of_eq trivial rfl
    | yield => exact .of_eq trivial rfl
    | recv id outPtr dstSlot =>
      rw [hk] at hexit
      exact hexit _ (Kernel.recvLoop_mm (k := { k with exec := .kernel }) (fun _ => trivial))
    | wait id =>
      rw [hk] at hexit
      exact hexit _ (Kernel.waitLoop_mm (k := { k with exec := .kernel }) (fun _ => trivial))
    | waitPid pid =>
      rw [hk] at hexit
      exact hexit _ (Kernel.waitPidLoop_mm (k := { k with exec := .kernel }) (fun _ => trivial))
    | read ptr len =>
      rw [hk] at hexit
      exact hexit _ (Kernel.readLoop_mm (k := { k with exec := .kernel }) (fun _ => trivial))

end Xernel
