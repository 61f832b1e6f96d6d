import Xernel.Break
import Xernel.Dma
import Xernel.Flags
import Xernel.Heap
import Xernel.Isolation
import Xernel.Spawn

/-!
# Kernel panics

Once the kernel has booted, what ring-3 code does can make it panic in two ways. One is a `SPAWN_ENV` with
an environment that is readable and does not fit below the upper half, on a machine with enough memory to
map all pages up to there; the other is to set `NT` and give the processor away to a thread that the timer
preempted. The image was loaded once, so it loads again; the windows and the heap end below the upper half;
and the entry stub finds `PERCPU` behind `gs`. That is as long as the kernel heap lasts, which `heapSpent`
is about: an allocation that fails aborts the kernel.
-/

namespace Xernel

/-! ## The frames there are -/

namespace PhysFrameAllocator

variable {a : PhysFrameAllocator} {n : ℕ}

/-- Rooms that are left behind are lost. -/
lemma sum_takeRoom_le (n : ℕ) (rooms : List ℕ) :
    (takeRoom n rooms).sum + (if rooms.dropWhile (· < n) = [] then 0 else n) ≤ rooms.sum := by
  induction rooms with
  | nil => exact le_rfl
  | cons m rest ih =>
    by_cases hlt : m < n
    · rw [takeRoom_of_lt hlt, List.dropWhile_cons_of_pos (by simpa using hlt), List.sum_cons]
      omega
    · have hle : n ≤ m := Nat.le_of_not_lt hlt
      rw [takeRoom_of_le hle, List.dropWhile_cons_of_neg (by simpa using hle), List.sum_cons,
        List.sum_cons, if_neg (by simp)]
      omega

lemma allocContiguous_le (a : PhysFrameAllocator) (n : ℕ) :
    (a.allocContiguous n).2.totalFrames = a.totalFrames ∧
      (a.allocContiguous n).2.inUse + (a.allocContiguous n).2.available ≤ a.inUse + a.available := by
  unfold allocContiguous
  by_cases hn : n = 0
  · rw [if_pos hn]
    exact ⟨rfl, le_rfl⟩
  rw [if_neg hn]
  obtain ⟨htake, hnone, hfree, hin⟩ := @bump_rooms n (by omega) _ a le_rfl
  have hsum := sum_takeRoom_le n a.rooms
  refine ⟨(bump_static n _ a).2, ?_⟩
  unfold available
  rw [htake, hfree, hin]
  cases hgot : (bump n (a.regions.length - a.regionIdx) a).1 with
  | none =>
    rw [if_pos (hnone.mp hgot)] at hsum
    dsimp only [Option.elim_none]
    omega
  | some base =>
    have hne : a.rooms.dropWhile (· < n) ≠ [] := fun hnil => by
      rw [hnone.mpr hnil] at hgot
      cases hgot
    rw [if_neg hne] at hsum
    dsimp only [Option.elim_some]
    omega

end PhysFrameAllocator

open PhysFrameAllocator in
/-- Never more frames than there are in all. -/
lemma AllocatorRun.inUse_add_available {regions : List Region} {a : PhysFrameAllocator}
    {calls : List FrameCall} (h : AllocatorRun regions a calls)
    (hdisj : (regions.map Region.rounded).Pairwise Region.Disjoint) :
    a.inUse + a.available ≤ (PhysFrameAllocator.new regions).totalFrames := by
  suffices hall : a.inUse + a.available ≤ a.totalFrames ∧
      a.totalFrames = (PhysFrameAllocator.new regions).totalFrames by
    rw [← hall.2]
    exact hall.1
  induction h with
  | new => exact ⟨(accounted_new regions).all.le, rfl⟩
  | @alloc a a' calls got _ ha ih =>
    obtain rfl : a.alloc.2 = a' := by rw [ha]
    obtain ⟨hiff, hnone, hsome⟩ := a.alloc_spec
    rw [a.alloc_static]
    refine ⟨?_, ih.2⟩
    by_cases hgot : a.alloc.1 = none
    · obtain ⟨havail, hin⟩ := hnone hgot
      omega
    · obtain ⟨havail, hin⟩ := hsome hgot
      omega
  | @allocContiguous a a' calls n got _ _ ha ih =>
    obtain rfl : (a.allocContiguous n).2 = a' := by rw [ha]
    obtain ⟨htotal, hle⟩ := a.allocContiguous_le n
    rw [htotal]
    exact ⟨hle.trans ih.1, ih.2⟩
  | @free a calls pa hrun hpa ih =>
    have hpos := List.length_pos_of_mem hpa
    have huse := (hrun.tracks hdisj).inUse
    refine ⟨?_, ih.2⟩
    have hle := ih.1
    show a.inUse - 1 + ((pa :: a.freeList).length + a.rooms.sum) ≤ a.totalFrames
    unfold available at hle
    rw [List.length_cons]
    omega

/-- The frames of the machine. -/
def Platform.totalFrames (plat : Platform) : ℕ := (PhysFrameAllocator.new plat.regions).totalFrames

/-- The window of the framebuffer ends below the upper half. -/
def Platform.FramebufferFits (plat : Platform) : Prop :=
  fbUserVa + plat.framebufferFrames.length * frameSize ≤ 2 ^ 47

variable {plat : Platform} {k k' : Kernel} {out : Option ℕ} {q : Elf.Plan}

/-- A page below the upper half has an address that the mapper accepts. -/
lemma Mm.mapUserDevice_ne_panic {m : Mm} {l4 virt phys : ℕ} (hvirt : virt < 2 ^ 47) :
    (m.mapUserDevice l4 virt phys).1 ≠ .panic := by
  rw [mapUserDevice]
  split
  next => simp
  next => exact mapWithFlags_ne_panic hvirt

namespace Kernel

/-! ## Handlers -/

/-- A handler that comes back to its caller, or leaves the kernel alive. -/
def Survives (r : Kernel × Option ℕ) : Prop := r.2 = none → r.1.exec ≠ .panicked

namespace Survives

lemma returned (k : Kernel) (v : ℕ) : Survives (k, some v) := fun hout => by cases hout

lemma blockOn (k : Kernel) (reason : BlockReason) (kont : Kont) :
    Survives (k.blockOn reason kont, none) := by
  intro _
  rw [Kernel.blockOn]
  dsimp only
  split <;> simp [resumeProcess]

lemma yieldNow {kont : Kont} (h : k.yieldNow kont = some k') : Survives (k', none) := by
  obtain ⟨i, -, rfl⟩ := yieldNow_eq_some h
  simp [Survives, resumeProcess]

lemma exitInner (k : Kernel) (code : ℕ) : Survives (k.exitInner code, none) := by
  intro _
  rw [Kernel.exitInner]
  dsimp only
  split <;> simp [resumeProcess]

lemma readLoop (k : Kernel) (ptr len : ℕ) : Survives (k.readLoop ptr len) := by
  rw [Kernel.readLoop]
  split
  · simp [Survives]
  · exact .returned _ _

lemma waitPidLoop (k : Kernel) (pid : ℕ) : Survives (k.waitPidLoop pid) := by
  rw [Kernel.waitPidLoop]
  dsimp only
  split
  · exact .returned _ _
  split
  · exact .returned _ _
  split
  · exact .returned _ _
  split
  next hy => exact .yieldNow hy
  next => simp [Survives]

lemma recvLoop (k : Kernel) (id outPtr dstSlot : ℕ) : Survives (k.recvLoop id outPtr dstSlot) := by
  rw [Kernel.recvLoop]
  split
  · rw [deliverMessage]
    dsimp only
    repeat' split
    all_goals exact .returned _ _
  · exact .blockOn _ _ _

lemma waitLoop (k : Kernel) (id : ℕ) : Survives (k.waitLoop id) := by
  rw [Kernel.waitLoop]
  split
  · exact .returned _ _
  · exact .blockOn _ _ _

lemma orMax {r : Attempt ℕ × Kernel} (h : r.1 ≠ .panic) : Survives (orMax r) := by
  obtain ⟨o, k⟩ := r
  cases o with
  | panic => exact absurd rfl h
  | failed => exact .returned _ _
  | done => exact .returned _ _

/-! ### Calls that map pages -/

lemma sysFbInfo (hfb : plat.FramebufferFits) (k : Kernel) (ptr : ℕ) :
    Survives (k.sysFbInfo plat ptr) := by
  rw [Kernel.sysFbInfo]
  split
  · exact .returned _ _
  next fb hsome =>
    have hlen : plat.framebufferFrames.length =
        pagesFor (fb.phys - pageDown fb.phys + fb.height * fb.pitch) := by
      rw [Platform.framebufferFrames, hsome, Option.elim_some, length_blockRun]
    unfold Platform.FramebufferFits at hfb
    rw [hlen] at hfb
    have hne : (mapRun (fun m va phys => m.mapUserDevice k.cpu.cr3 va phys)
        (pagesFor (fb.phys - pageDown fb.phys + fb.height * fb.pitch)) fbUserVa (pageDown fb.phys)
        k.mm).1 ≠ .panic := mapRun_ne_panic (fun _ _ _ hva => Mm.mapUserDevice_ne_panic hva) hfb
    dsimp only
    split
    next heq => rw [heq] at hne; exact absurd rfl hne
    next => exact .returned _ _
    next =>
      split
      · exact .returned _ _
      · exact .returned _ _

lemma sysIomap (k : Kernel) (phys len : ℕ) : Survives (k.sysIomap phys len) := by
  rw [Kernel.sysIomap]
  split
  · exact .returned _ _
  dsimp only
  split
  · exact .returned _ _
  split
  · exact .returned _ _
  next hroom =>
    have hend : mmioRegionEnd ≤ 2 ^ 47 := by decide
    have hne : (mapRun (fun m va phys => m.mapUserDevice k.cpu.cr3 va phys)
        (pagesFor (phys - pageDown phys + len)) k.win.nextMmioVa (pageDown phys) k.mm).1 ≠ .panic :=
      mapRun_ne_panic (fun _ _ _ hva => Mm.mapUserDevice_ne_panic hva) (by omega)
    split
    next heq => rw [heq] at hne; exact absurd rfl hne
    next => exact .returned _ _
    next => exact .returned _ _

lemma sysDmaAlloc (k : Kernel) (len outPtr : ℕ) : Survives (k.sysDmaAlloc len outPtr) := by
  have hcharged : ∀ (k : Kernel) (pages : ℕ), (k.dmaAllocCharged pages outPtr).1 ≠ .panic := by
    intro k pages
    rw [dmaAllocCharged]
    split
    · simp
    next phys mm _ =>
      dsimp only
      split
      · simp
      next hroom =>
        have hend : dmaRegionEnd ≤ 2 ^ 47 := by decide
        have hva : k.win.nextDmaVa + pages * frameSize ≤ 2 ^ 47 := by omega
        have hne := mapRun_mapUser_ne_panic k.cpu.cr3 phys (mm.zero phys (pages * frameSize)) hva
        split
        next heq => rw [heq] at hne; exact absurd rfl hne
        next => simp
        next => split <;> simp
  rw [Kernel.sysDmaAlloc]
  split
  · exact .returned _ _
  dsimp only
  split
  · exact .returned _ _
  next k₁ _ =>
    have hne := hcharged k₁ (pagesFor len)
    split
    next heq => rw [heq] at hne; exact absurd rfl hne
    next => exact .returned _ _
    next => exact .returned _ _

lemma sysFrameAlloc (k : Kernel) (pages capSlot outPtr : ℕ) :
    Survives (k.sysFrameAlloc pages capSlot outPtr) := by
  rw [Kernel.sysFrameAlloc]
  split
  · exact .returned _ _
  dsimp only
  split
  · exact .returned _ _
  split
  · exact .returned _ _
  split
  next heq => exact absurd (by rw [heq]) mapShared_ne_panic
  next => exact .returned _ _
  next =>
    split
    · split <;> exact .returned _ _
    · exact .returned _ _

lemma sysMapFrame (k : Kernel) (capSlot outPtr : ℕ) : Survives (k.sysMapFrame capSlot outPtr) := by
  rw [Kernel.sysMapFrame]
  split
  · exact .returned _ _
  split
  next heq => exact absurd (by rw [heq]) mapShared_ne_panic
  next => exact .returned _ _
  next => split <;> exact .returned _ _

/-- The heap ends below the upper half. -/
lemma sbrk (k : Kernel) (delta : ℤ) : Survives (Kernel.orMax (k.sbrk delta)) := by
  refine .orMax ?_
  rw [Kernel.sbrk]
  dsimp only
  split
  · simp
  split
  · simp
  split
  · simp
  by_cases hpos : delta > 0
  · simp only [if_pos hpos]
    split
    · simp
    next hrange =>
      have hroom : pageUp k.sched.cur.heapBreak + (pageUp (k.sched.cur.heapBreak + delta.toNat) -
          pageUp k.sched.cur.heapBreak) / frameSize * frameSize ≤ 2 ^ 47 := by
        simp only [pageUp, pageDown, frameSize, heapMax] at hrange ⊢
        omega
      have hne : (allocMapPages k.sched.cur.space ((pageUp (k.sched.cur.heapBreak + delta.toNat) -
          pageUp k.sched.cur.heapBreak) / frameSize) (pageUp k.sched.cur.heapBreak) k.mm).1 ≠
          .panic := mapRun_ne_panic (fun _ _ _ hva => Mm.allocMapUser_ne_panic hva) hroom
      split
      next heq => rw [heq] at hne; exact absurd rfl hne
      next => simp
      next => simp
  · simp only [if_neg hpos]
    split <;> simp

/-- The image was loaded before. -/
lemma spawn (hstarts : plat.Starts q) (hfilled : Elf.UpperFilled plat.image k.mm) (capSlot : ℕ) :
    Survives (Kernel.orMax (k.spawn plat capSlot)) := by
  refine .orMax ?_
  rcases spawn_outcome hstarts hfilled capSlot with ⟨hdone, -⟩ | ⟨hfailed, -⟩
  · rw [hdone]
    simp
  · rw [hfailed]
    simp

/-- Every system call but `SPAWN_ENV`. -/
lemma dispatch (hfb : plat.FramebufferFits) (hstarts : plat.Starts q)
    (hfilled : Elf.UpperFilled plat.image k.mm) {nr : UInt64} {args : Args} {hw : Hw}
    (h : Sys.decode nr ≠ some .spawnEnv) : Survives (k.dispatch plat nr args hw) := by
  rw [Kernel.dispatch]
  cases hd : Sys.decode nr with
  | none => exact .returned _ _
  | some sys =>
    cases sys with
    | spawnEnv => exact absurd hd h
    | exit => exact .exitInner _ _
    | sbrk => exact .sbrk _ _
    | spawn => exact .spawn hstarts hfilled _
    | fbInfo => exact .sysFbInfo hfb _ _
    | iomap => exact .sysIomap _ _ _
    | dmaAlloc => exact .sysDmaAlloc _ _ _
    | frameAlloc => exact .sysFrameAlloc _ _ _ _
    | mapFrame => exact .sysMapFrame _ _ _
    | yield =>
      dsimp only
      split
      next hy => exact .yieldNow hy
      next => exact .returned _ _
    | read =>
      dsimp only [sysRead]
      split
      · exact .readLoop _ _ _
      · exact .returned _ _
    | recv =>
      dsimp only [sysRecv]
      split
      · exact .returned _ _
      · exact .recvLoop _ _ _ _
    | wait =>
      dsimp only [sysWait]
      split
      · exact .returned _ _
      · exact .waitLoop _ _
    | waitPid =>
      dsimp only [sysWaitPid, waitPid]
      split
      · exact .returned _ _
      split
      · exact .returned _ _
      · exact .waitPidLoop _ _
    | _ =>
      -- the others come back with a value on every path
      dsimp only [sysWrite, sysReadNb, sysPortIn, sysPortOut, sysCapIdentify, sysSend, sysSignal,
        sysGetStatus, sysGetenvp, sysLogRead, sysKill, sysCapGrant]
      repeat' split
      all_goals exact .returned _ _

lemma syscallExit {r : Kernel × Option ℕ} (h : Survives r) :
    (Kernel.syscallExit r).1.exec ≠ .panicked := by
  obtain ⟨k₁, v⟩ := r
  cases v with
  | none => exact h rfl
  | some v => simp [Kernel.syscallExit, returnToUser]

/-- A thread that is resumed runs on from the loop in which it waited. -/
lemma resumeAt (k : Kernel) (kont : Kont) : (k.resumeAt kont).1.exec ≠ .panicked := by
  cases kont with
  | trampoline => simp [Kernel.resumeAt, enterUser]
  | timer => simp [Kernel.resumeAt, returnToUser]
  | yield => exact syscallExit (.returned _ _)
  | recv id outPtr dstSlot => exact syscallExit (.recvLoop _ _ _ _)
  | wait id => exact syscallExit (.waitLoop _ _)
  | waitPid pid => exact syscallExit (.waitPidLoop _ _)
  | read ptr len => exact syscallExit (.readLoop _ _ _)

lemma timerIsr (k : Kernel) : k.timerIsr.exec ≠ .panicked := by
  rw [Kernel.timerIsr]
  dsimp only
  split
  next hy => exact Survives.yieldNow hy rfl
  next => simp [returnToUser]

end Survives

/-! ## The environment -/

/-- The environment can be read and does not fit below the upper half, and there are frames for the child,
for all pages from `HEAP_START` to the upper half, and for one more. -/
def EnvOverruns (plat : Platform) (k : Kernel) (args : Args) : Prop :=
  ¬ (args.rdx.toNat = 0 ∨ args.rsi.toNat = 0) ∧ k.EnvReadable args.rsi.toNat args.rdx.toNat ∧
    ¬ EnvFits args.rdx.toNat ∧ ChildFits plat k.mm pagesAbove 1

lemma spawnEnv_panics_iff (hstarts : plat.Starts q) (hdisj : plat.RegionsDisjoint)
    (hspace : SpaceInv plat k) (hlive : k.cpu.cr3 ∈ handedOut k.mm.calls) (args : Args) :
    (syscallExit (orMax (k.spawnEnv plat args.rsi.toNat args.rdx.toNat args.r10.toNat))).1.exec =
      .panicked ↔ k.EnvOverruns plat args := by
  unfold EnvOverruns
  by_cases hargs : args.rdx.toNat = 0 ∨ args.rsi.toNat = 0
  · rw [spawnEnv, if_pos hargs]
    refine iff_of_false (Survives.syscallExit (.spawn hstarts hspace.filled _)) fun h => h.1 hargs
  have hsurvives : (k.spawnEnv plat args.rsi.toNat args.rdx.toNat args.r10.toNat).1 ≠ .panic →
      (syscallExit (orMax (k.spawnEnv plat args.rsi.toNat args.rdx.toNat args.r10.toNat))).1.exec ≠
        .panicked := fun hne => (Survives.orMax hne).syscallExit
  rcases spawnEnv_outcome hstarts hspace.filled hdisj hspace.run hlive hargs args.r10.toNat with
    ⟨hdone, hall⟩ | ⟨hpanic, hall⟩ | ⟨hfailed, -, hnot⟩
  · refine iff_of_false (hsurvives (by rw [hdone]; simp)) fun h => h.2.2.1 hall.2.1
  · refine iff_of_true ?_ ⟨hargs, hall⟩
    generalize k.spawnEnv plat args.rsi.toNat args.rdx.toNat args.r10.toNat = r at hpanic
    obtain ⟨o, k₁⟩ := r
    obtain rfl : o = .panic := hpanic
    rfl
  · exact iff_of_false (hsurvives (by rw [hfailed]; simp)) fun h => hnot h.2

/-- With no more frames than pages from `HEAP_START` to the upper half, there are too few. -/
lemma EnvOverruns.lt_totalFrames {args : Args} (h : k.EnvOverruns plat args)
    (hrun : AllocatorRun plat.regions k.mm.frames k.mm.calls) (hdisj : plat.RegionsDisjoint) :
    lowerHalfPages - heapStart / frameSize < plat.totalFrames := by
  have hframes := h.2.2.2.frames
  have hcard : pagesAbove.card ≤ (plat.childPages ∪ pagesAbove).card :=
    Finset.card_le_card Finset.subset_union_right
  have htotal : k.mm.frames.inUse + k.mm.frames.available ≤ plat.totalFrames :=
    hrun.inUse_add_available hdisj
  rw [pagesAbove, Nat.card_Ico] at hcard
  rw [spaceFrames] at hframes
  rw [pagesAbove] at hframes
  omega

end Kernel

/-- A step from a reachable state panics exactly if it is such a `SPAWN_ENV`. -/
lemma step_panics_iff {e : Event} (hdisj : plat.RegionsDisjoint) (hfb : plat.FramebufferFits)
    (hreach : Reachable (xernel plat) k) (hs : Xernel.step plat k e = some (k', out)) :
    k'.exec = .panicked ↔ ∃ args, k.activity e = .call .spawnEnv args ∧ k.EnvOverruns plat args := by
  obtain ⟨ts, hrun⟩ := id hreach
  obtain ⟨q, hstarts⟩ := starts_run hdisj hrun
  have hspace := spaceInv_run hdisj hrun
  have hlive : k.cpu.cr3 ∈ handedOut k.mm.calls := by
    rw [(reachable_onThread hreach hs).cr3]
    exact hspace.live _ _ (Scheduler.getElem?_current _)
  -- from ring 3 the entry stub always finds `PERCPU`
  have hgs : k.exec = .user → k.cpu.kernelGsBase = .percpu :=
    fun hexec => ((coherent_run hrun).user hexec).2
  have hother : k'.exec ≠ .panicked → (∀ args, k.activity e ≠ .call .spawnEnv args) →
      (k'.exec = .panicked ↔
        ∃ args, k.activity e = .call .spawnEnv args ∧ k.EnvOverruns plat args) := by
    intro hne hact
    refine iff_of_false hne ?_
    rintro ⟨args, hargs, -⟩
    exact hact args hargs
  have hk' : k' = (k', out).1 := rfl
  rw [hk'] at hother ⊢
  generalize (k', out) = r at hs hother
  cases step_cases hs with
  | @syscall nr args hw hexec =>
    have hentry : k.syscallEntry plat nr args hw =
        Kernel.syscallExit (k.entered.dispatch plat nr args hw) := if_pos (hgs hexec)
    by_cases hd : Sys.decode nr = some .spawnEnv
    · have hact : k.activity (.syscall nr args hw) = .call .spawnEnv args := by
        rw [Kernel.activity, hd]
        rfl
      have hspace' : SpaceInv plat k.entered :=
        ⟨hspace.run, hspace.filled, hspace.live, hspace.distinct⟩
      have hiff := Kernel.spawnEnv_panics_iff hstarts hdisj hspace' hlive args
      rw [hentry, Kernel.dispatch, hd]
      refine hiff.trans ?_
      constructor
      · intro h
        exact ⟨args, hact, h⟩
      · rintro ⟨args', hact', h⟩
        rw [hact] at hact'
        cases hact'
        exact h
    · refine hother ?_ fun args' hact => ?_
      · rw [hentry]
        exact (Kernel.Survives.dispatch (k := k.entered) hfb hstarts hspace.filled hd).syscallExit
      · cases hsys : Sys.decode nr with
        | none =>
          rw [Kernel.activity, hsys] at hact
          cases hact
        | some sys =>
          rw [Kernel.activity, hsys] at hact
          cases hact
          exact hd hsys
  | timer hexec => exact hother (Kernel.Survives.timerIsr k) fun args hact => by cases hact
  | fault hexec => exact hother (Kernel.Survives.exitInner _ _ rfl) fun args hact => by cases hact
  | keyboard hexec =>
    refine hother ?_ fun args hact => by cases hact
    show k.exec ≠ .panicked
    rcases hexec with hexec | hexec <;> simp [hexec]
  | store hexec =>
    refine hother ?_ fun args hact => by cases hact
    rw [Kernel.userStore]
    split
    · show k.exec ≠ .panicked
      simp [hexec]
    · exact Kernel.Survives.exitInner _ _ rfl
  | dma hexec hw =>
    obtain ⟨mem, rfl⟩ := Kernel.deviceWrite_mem hw
    refine hother ?_ fun args hact => by cases hact
    show k.exec ≠ .panicked
    rcases hexec with hexec | hexec | hexec <;> simp [hexec]
  | idleTick hexec =>
    refine hother ?_ fun args hact => by cases hact
    show k.exec ≠ .panicked
    simp [hexec]
  | resume hexec hp =>
    refine hother (Kernel.Survives.resumeAt _ _) fun args hact => ?_
    rw [Kernel.activity, hp] at hact
    cases hact

/-- On a machine with no more frames than the lower half has pages above `HEAP_START`, no step panics. -/
lemma exec_ne_panicked_of_few {ts : List KernelStep} (hdisj : plat.RegionsDisjoint)
    (hfb : plat.FramebufferFits) (hfew : plat.totalFrames ≤ lowerHalfPages - heapStart / frameSize)
    (h : Run (xernel plat) ts k) : k.exec ≠ .panicked := by
  refine h.invariant (I := fun k => k.exec ≠ .panicked) (fun k hboot => ?_) ?_
  · obtain ⟨m₀, m, p, -, -, rfl⟩ := boot_cases hboot
    simp [Kernel.resumeProcess]
  · intro k e k' out hreach _ hs hpanic
    obtain ⟨args, -, hover⟩ := (step_panics_iff hdisj hfb hreach hs).mp hpanic
    obtain ⟨ts', hpre⟩ := hreach
    have hlt := hover.lt_totalFrames (spaceInv_run hdisj hpre).run hdisj
    omega

/-- The timer preempts the first process, and a child that it spawned yields to it. -/
def yieldEvents (nt : Bool) : List FlaggedEvent :=
  [⟨.resume, false⟩, ⟨.call .spawnEnv 0 0x80_0000 5000 20, false⟩, ⟨.timer, false⟩, ⟨.resume, false⟩,
    ⟨.call .yield, nt⟩, ⟨.resume, false⟩]

end Xernel
