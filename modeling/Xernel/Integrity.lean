import Xernel.Table
import Xernel.Writes

/-!
# Integrity of private memory

A step of one process does not change the bytes that another one maps for itself. `Touches` says where
a step writes: in free frames, which nobody maps, and in pages of the running process, which share a
frame of RAM with others only through a `Frame` capability. A thread that waits for a key writes to a
buffer that was checked when it began to wait; `ReadsOk` says that the check still holds.
-/

namespace Xernel

open TransitionSystem (path_of_replay)

variable {plat : Platform} {k k' : Kernel} {a b : Core} {cr3 l page : ℕ} {bad : Bool}
  {act : Activity} {out : Option ℕ} {args : Args} {e : Event}

/-! ## Mappings stay -/

/-- Every step keeps the leaf entries of the spaces in use. -/
lemma MmStep.leaf_kept {leaf : Leaf} (h : MmStep plat a b cr3 bad act out)
    (hdisj : plat.RegionsDisjoint) (hr : AllocatorRun plat.regions a.mm.frames a.mm.calls)
    (hl : l ∈ Xernel.handedOut a.mm.calls) (hleaf : a.mm.pt.leaf l page = some leaf) :
    b.mm.pt.leaf l page = some leaf := by
  -- the allocation of a run comes before the tables change
  have hrun : ∀ {n phys : ℕ} {s : Scope} {m m' : Mm} {U V : Set ℕ}, n < 2 ^ 40 →
      a.mm.frameAllocContiguous n = (some phys, m) → Mm.Builds s m U m' V →
      m'.pt.leaf l page = some leaf := by
    intro n phys s m m' U V hn ha hb
    have halloc : Mm.Builds ⟨∅, ∅, ∅⟩ a.mm ∅ m _ := Mm.Builds.refl.contiguous hn ha
    exact hb.leaf_kept hdisj (halloc.run hr) (halloc.handedOut hl)
      (halloc.leaf_kept hdisj hr hl hleaf)
  cases h with
  | built _ hb => exact hb.leaf_kept hdisj hr hl hleaf
  | noSpace _ ha => rw [Mm.frameAlloc_leaf ha]; exact hleaf
  | created _ _ _ hb => exact hb.leaf_kept hdisj hr hl hleaf
  | frameRun _ _ hn ha hb => exact hrun hn ha hb
  | unmapped _ _ hn ha hb hm | unwound _ _ hn _ ha hb hm =>
    rw [hm, freeRun_pt]
    exact hrun hn ha hb

/-- What a process may access stays accessible to it. -/
lemma Kernel.userPageOk_step {i va : ℕ} {p : Process} {writable : Bool}
    (hdisj : plat.RegionsDisjoint) (hreach : Reachable (xernel plat) k)
    (hs : Xernel.step plat k e = some (k', out)) (hp : k.sched.procs[i]? = some p)
    (hok : k.mm.userPageOk p.space writable va = true) :
    k'.mm.userPageOk p.space writable va = true ∧
      k'.mm.physOf p.space va = k.mm.physOf p.space va := by
  obtain ⟨ts, hrun⟩ := id hreach
  have hspace := spaceInv_run hdisj hrun
  obtain ⟨leaf, hleaf, huser, hw⟩ := Mm.userPageOk_iff.mp hok
  have hkept : k'.mm.pt.leaf p.space (va / frameSize) = some leaf :=
    (hspace.mm hreach hs).leaf_kept hdisj hspace.run (hspace.live i p hp) hleaf
  refine ⟨Mm.userPageOk_iff.mpr ⟨leaf, hkept, huser, hw⟩, ?_⟩
  rw [Mm.physOf, Mm.physOf, hkept, hleaf]

/-! ## Reads that wait -/

/-- The buffers of the threads that wait inside a `READ` are writable for their processes. -/
def ReadsOk (k : Kernel) : Prop :=
  ∀ (i : ℕ) (p : Process) (ptr len : ℕ), k.sched.procs[i]? = some p → p.kont = .read ptr len →
    ∀ j < len, k.mm.userPageOk p.space true (ptr + j) = true

/-- `READ` parks its caller only at a buffer that it has checked. -/
lemma Kernel.sysRead_park (k : Kernel) (ptr len : ℕ) :
    ((k.sysRead ptr len).1.sched = k.sched ∨ k.userSliceMut ptr len = true ∧
      (k.sysRead ptr len).1.sched = k.sched.park (.read ptr len)) := by
  rw [sysRead]
  split
  next hok =>
    rw [readLoop]
    split
    next => exact .inr ⟨hok, rfl⟩
    next n k₁ hk =>
      refine .inl ?_
      rw [readKeys] at hk
      obtain ⟨-, rfl⟩ := Prod.mk.inj hk
      rfl
  next => exact .inl rfl

lemma read_call (hreach : Reachable (xernel plat) k) (hs : Xernel.step plat k e = some (k', out))
    (hact : k.activity e = .call .read args) :
    k'.sched = k.sched ∨ k.userSliceMut args.rsi.toNat args.rdx.toNat = true ∧
      k'.sched = k.sched.park (.read args.rsi.toNat args.rdx.toNat) := by
  obtain ⟨nr, hw, r, hd, rfl, -, hexit, -⟩ := reachable_dispatch hreach hs hact
  rw [Kernel.dispatch, hd] at hexit
  rw [show k'.sched = _ from congrArg Core.sched hexit]
  exact Kernel.sysRead_park { k with cpu := k.cpu.swapgs, exec := .kernel } _ _

/-- After a step a thread that waits inside a `READ` waited there before, or it was the caller of a
`READ` with a checked buffer. -/
lemma reads_step {i ptr len : ℕ} {p' : Process} (hreach : Reachable (xernel plat) k)
    (hs : Xernel.step plat k e = some (k', out)) (hp' : k'.sched.procs[i]? = some p')
    (hkont : p'.kont = .read ptr len) :
    ∃ p, k.sched.procs[i]? = some p ∧ p'.space = p.space ∧
      (p.kont = .read ptr len ∨
        k.cpu.cr3 = p.space ∧ k.userSliceMut ptr len = true) := by
  have hcore := reachable_core hreach hs
  have hon := reachable_onThread hreach hs
  have hcur := Scheduler.getElem?_current k.sched
  rcases hcore.proc hp' with ⟨p, hp, hstep⟩ | ⟨-, hnew⟩
  · refine ⟨p, hp, hstep.identity.space, ?_⟩
    by_cases hread : ∃ args, k.activity e = .call .read args
    · obtain ⟨args, hact⟩ := hread
      rcases read_call hreach hs hact with hsame | ⟨hok, hpark⟩
      · rw [hsame] at hp'
        obtain rfl : p = p' := Option.some.inj (hp.symm.trans hp')
        exact .inl hkont
      · rw [hpark, Scheduler.park, Scheduler.modifyCur, Scheduler.getElem?_modify] at hp'
        split at hp'
        next hi =>
          subst hi
          obtain rfl : k.sched.cur = p := Option.some.inj (hcur.symm.trans hp)
          rw [hcur] at hp'
          obtain rfl := Option.some.inj hp'
          obtain ⟨rfl, rfl⟩ := Kont.read.inj hkont
          exact .inr ⟨hon.cr3, hok⟩
        next =>
          obtain rfl : p = p' := Option.some.inj (hp.symm.trans hp')
          exact .inl hkont
    · -- any other step parks a thread inside a `READ` only if it resumed there
      have hparks : ∀ {kont : Kont}, i = k.sched.current → Parks k.sched (k.activity e) kont →
          kont = .read ptr len → p.kont = .read ptr len := by
        rintro kont rfl hk rfl
        generalize hact : k.activity e = act at hk hread
        cases hk with
        | again =>
          obtain ⟨q, hq, hqk⟩ := activity_resumed hact
          rw [hon.thread] at hq
          obtain rfl : q = p := Option.some.inj (hq.symm.trans hp)
          exact hqk
        | read => exact absurd ⟨_, rfl⟩ hread
      refine .inl ?_
      cases hstep with
      | same | woken | logTaken | killed | granted => exact hkont
      | own hi hown =>
        cases hown with
        | logged | setBreak | caps | finished => exact hkont
        | parked hk | blocked hk | unblocked hk => exact hparks hi hk hkont
  · rw [hnew.spec.2.1] at hkont
    cases hkont

theorem readsOk_run {ts : List KernelStep} (hdisj : plat.RegionsDisjoint)
    (h : Run (xernel plat) ts k) : ReadsOk k := by
  refine h.invariant (I := ReadsOk) (fun k hk => ?_) ?_
  · intro i p ptr len hp hkont
    obtain ⟨m₀, m, q, -, hq, rfl⟩ := boot_cases hk
    rcases i with _ | i
    · obtain rfl : q = p := Option.some.inj hp
      have hnew : Created plat m₀ 0 q := .mk hq
      rw [hnew.spec.2.1] at hkont
      cases hkont
    · have hnone : ([q] : List Process)[i + 1]? = some p := hp
      simp at hnone
  · intro k e k' o hreach hinv hs i p' ptr len hp' hkont j hj
    obtain ⟨p, hp, hspace, hold⟩ := reads_step hreach hs hp' hkont
    have hok : k.mm.userPageOk p.space true (ptr + j) = true := by
      rcases hold with hold | ⟨hcr3, hok⟩
      · exact hinv i p ptr len hp hold j hj
      · rw [← hcr3]
        exact Kernel.userSliceMut_ok hok hj
    rw [hspace]
    exact (Kernel.userPageOk_step hdisj hreach hs hp hok).1

/-! ## What a step writes -/

/-- Leaving the kernel does not write. -/
lemma Kernel.syscallExit_mm (r : Kernel × Option ℕ) : (syscallExit r).1.mm = r.1.mm :=
  congrArg Core.mm (syscallExit_core r).1

lemma Kernel.userFault_mm (k : Kernel) : k.userFault.mm = k.mm := by
  rw [userFault, exitInner_mm]

/-- The processor writes only to free frames and where the running process could write itself. -/
lemma processor_touches (hdisj : plat.RegionsDisjoint) (hreach : Reachable (xernel plat) k)
    (hs : Xernel.step plat k e = some (k', out)) (hdma : ∀ phys b, e ≠ .dma phys b) :
    Mm.Touches k.cpu.cr3 k.mm k'.mm := by
  obtain ⟨ts, hrun⟩ := id hreach
  have hon := reachable_onThread hreach hs
  have hspace := spaceInv_run hdisj hrun
  have hlive : k.cpu.cr3 ∈ handedOut k.mm.calls := by
    rw [hon.cr3]
    exact hspace.live _ _ (Scheduler.getElem?_current k.sched)
  generalize hr : (k', out) = r at hs
  obtain rfl : k' = r.1 := by rw [← hr]
  clear hr
  cases step_cases hs with
  | @syscall nr args hw hexec =>
    have hgs := (coherent_run hrun).swapgs hexec
    rw [Kernel.syscallEntry]
    dsimp only
    rw [if_pos hgs.1, Kernel.syscallExit_mm]
    exact Kernel.dispatch_touches (k := { k with cpu := k.cpu.swapgs, exec := .kernel }) hdisj
      hspace.run hlive hon.cr3 plat nr args hw
  | timer hexec =>
    refine .of_mem ?_
    rw [Kernel.timerIsr]
    dsimp only
    split
    next hy => rw [Kernel.yieldNow_mm hy]; rfl
    next => rfl
  | fault hexec => exact .of_mem (by rw [Kernel.userFault_mm])
  | keyboard hexec => exact .of_mem rfl
  | @store va b hexec =>
    show Mm.Touches _ _ (k.userStore va b).mm
    rw [Kernel.userStore]
    split
    next hok =>
      have huser : k.mm.Writes plat.regions k.cpu.cr3 (k.mm.writeUser k.cpu.cr3 va [b]) := by
        refine .user hspace.run fun i hi => ?_
        obtain rfl : i = 0 := by simpa using hi
        exact hok
      exact huser.bytes
    next => exact .of_mem (by rw [Kernel.userFault_mm])
  | dma hexec hw => exact absurd rfl (hdma _ _)
  | idleTick hexec => exact .of_mem rfl
  | @resume p hexec hp =>
    cases hk : p.kont with
    | trampoline | timer | yield => exact .of_mem rfl
    | recv id outPtr dstSlot =>
      rw [Kernel.resumeAt, Kernel.syscallExit_mm]
      exact Kernel.recvLoop_touches (k := { k with exec := .kernel }) hspace.run
    | wait id =>
      rw [Kernel.resumeAt, Kernel.syscallExit_mm]
      refine .of_mem ?_
      rw [Kernel.waitLoop]
      split
      · rfl
      · rw [Kernel.blockOn_mm]
    | waitPid pid =>
      rw [Kernel.resumeAt, Kernel.syscallExit_mm]
      exact .of_mem (by rw [Kernel.waitPidLoop_same_mm])
    | read ptr len =>
      rw [Kernel.resumeAt, Kernel.syscallExit_mm]
      refine Kernel.readLoop_touches (k := { k with exec := .kernel }) hspace.run fun i hi => ?_
      rw [hon.thread] at hp
      obtain rfl : p = k.sched.cur :=
        Option.some.inj (hp.symm.trans (Scheduler.getElem?_current k.sched))
      rw [show ({ k with exec := .kernel } : Kernel).cpu.cr3 = k.sched.cur.space from hon.cr3]
      exact readsOk_run hdisj hrun _ _ ptr len (Scheduler.getElem?_current k.sched) hk i hi

/-- A device writes to contiguous runs. -/
lemma device_touches {phys a : ℕ} {b : UInt8}
    (hs : Xernel.step plat k (.dma phys b) = some (k', out)) (hne : k'.mm.mem a ≠ k.mm.mem a) :
    pageDown a ∈ runFrames k.mm.calls := by
  generalize hr : (k', out) = r at hs
  obtain rfl : k' = r.1 := by rw [← hr]
  clear hr
  cases step_cases hs with
  | dma hexec hw =>
    obtain ⟨hrun, rfl⟩ := Kernel.deviceWrite_eq_some hw
    by_cases heq : a = phys
    · rw [heq]
      exact hrun
    · exact absurd (Function.update_of_ne heq _ _) hne

/-- Every step writes only to free frames, where the running process could write itself, and to
contiguous runs. -/
theorem step_touches (hdisj : plat.RegionsDisjoint) (hreach : Reachable (xernel plat) k)
    (hs : Xernel.step plat k e = some (k', out)) {a : ℕ} (hne : k'.mm.mem a ≠ k.mm.mem a) :
    k.mm.frames.Free (pageDown a) ∨ k'.mm.Writable k.cpu.cr3 a ∨
      pageDown a ∈ runFrames k.mm.calls := by
  by_cases hdma : ∃ phys b, e = .dma phys b
  · obtain ⟨phys, b, rfl⟩ := hdma
    exact .inr (.inr (device_touches hs hne))
  · refine (processor_touches hdisj hreach hs (fun phys b h => hdma ⟨phys, b, h⟩) a hne).imp_right .inl

/-! ## Private memory -/

/-- Process `i` may access the byte at physical address `a`, through its address `va`. -/
def Kernel.Sees (k : Kernel) (i va a : ℕ) : Prop :=
  ∃ p, k.sched.procs[i]? = some p ∧ k.mm.userPageOk p.space false va = true ∧
    k.mm.physOf p.space va = some a

namespace Kernel.Sees

variable {i j va va' addr : ℕ}

/-- What a process can access stays where it is. -/
lemma step (h : k.Sees i va addr) (hdisj : plat.RegionsDisjoint) (hreach : Reachable (xernel plat) k)
    (hs : Xernel.step plat k e = some (k', out)) : k'.Sees i va addr := by
  obtain ⟨p, hp, hok, hphys⟩ := h
  obtain ⟨p', hp', hstep⟩ := (reachable_core hreach hs).stays hp
  obtain ⟨hok', hphys'⟩ := userPageOk_step hdisj hreach hs hp hok
  rw [← hstep.identity.space] at hok' hphys hphys'
  exact ⟨p', hp', hok', hphys'.trans hphys⟩

/-- With a second process around, it maps the frame in its own half. -/
lemma maps (h : k.Sees i va addr) (hplat : plat.WellFormed) {ts : List KernelStep}
    (hrun : Run (xernel plat) ts k) (hlen : k.sched.procs.length ≠ 1) :
    ∃ p, k.sched.procs[i]? = some p ∧ k.mm.pt.UserMaps (some p.space) (pageDown addr) := by
  obtain ⟨p, hp, hok, hphys⟩ := h
  have hupper := upperInv_run hplat hrun
  have hlow : Elf.Low plat.image := by
    by_contra hnot
    exact hlen (hupper.single hnot)
  obtain ⟨leaf, hleaf, huser, -⟩ := Mm.userPageOk_iff.mp hok
  rw [Mm.physOf, hleaf, Option.map_some, Option.some.injEq] at hphys
  have hhalf := hleaf
  rw [PageTables.leaf_eq_half, PageTables.home] at hhalf
  split at hhalf
  next hpage =>
    refine ⟨p, hp, va / frameSize, leaf, hhalf, huser, ?_⟩
    rw [PageTables.half] at hhalf
    obtain ⟨c, hc⟩ := aligned_run hplat.regions hrun _ _ _ hhalf
    rw [← hphys, hc]
    simp only [pageDown, frameSize]
    omega
  next => exact absurd ⟨_, leaf, hhalf, huser, rfl⟩ (hupper.closed hlow leaf.phys)

end Kernel.Sees

/-- A step of another process, or of a device, leaves a byte of RAM as it is, unless the frame was handed
out in a contiguous run. -/
lemma private_step {ts : List KernelStep} {i va addr : ℕ} (hplat : plat.WellFormed)
    (hrun : Run (xernel plat) ts k) (hgood : ∀ t ∈ ts, t.pre.freesMapped t.event = false)
    (hs : Xernel.step plat k e = some (k', out)) (hbad : k.freesMapped e = false)
    (hi : k.sched.current ≠ i) (hsees : k.Sees i va addr) (hram : IsRam plat.regions (pageDown addr))
    (hsingle : pageDown addr ∉ runFrames k'.mm.calls) :
    k'.mm.mem addr = k.mm.mem addr := by
  have hreach : Reachable (xernel plat) k := ⟨ts, hrun⟩
  have hon := reachable_onThread hreach hs
  have hrun' := hrun.next hs
  have hsees' := hsees.step hplat.regions hreach hs
  have hlen : k.sched.procs.length ≠ 1 := by
    obtain ⟨p, hp, -⟩ := hsees
    have hlt := (List.getElem?_eq_some_iff.mp hp).1
    have := k.sched.current_lt
    omega
  by_contra hne
  rcases step_touches hplat.regions hreach hs hne with hfree | ⟨va', hok, hphys⟩ | hdma
  · -- a frame that is mapped is in use, so it is not free
    have huse := frameUse_run hplat hrun hgood
    obtain ⟨p, -, hmaps⟩ := hsees.maps hplat hrun hlen
    exact (huse.run.tracks hplat.regions).not_live hfree (huse.mapped _ _ hmaps hram).1
  · -- the running process maps the frame as well, so it is shared
    have huse' := frameUse_run hplat hrun' fun t ht => by
      rcases List.mem_append.mp ht with ht | ht
      · exact hgood t ht
      · rw [List.mem_singleton.mp ht]
        exact hbad
    have hlen' : k'.sched.procs.length ≠ 1 := by
      have hle := (reachable_core hreach hs).length_le
      have hpos := k.sched.current_lt
      have : k.sched.procs.length ≤ k'.sched.procs.length := hle
      omega
    obtain ⟨q, hq, hstep⟩ := (reachable_core hreach hs).stays (Scheduler.getElem?_current k.sched)
    have hother : k'.Sees k.sched.current va' addr := by
      obtain ⟨leaf, hleaf, huser, -⟩ := Mm.userPageOk_iff.mp hok
      have hcr3 : k.cpu.cr3 = q.space := hon.cr3.trans hstep.identity.space.symm
      rw [hcr3] at hleaf hphys
      exact ⟨q, hq, Mm.userPageOk_iff.mpr ⟨leaf, hleaf, huser, by simp⟩, hphys⟩
    obtain ⟨p, hp, hmaps⟩ := hsees'.maps hplat hrun' hlen'
    obtain ⟨q', hq', hmaps'⟩ := hother.maps hplat hrun' hlen'
    have hshared := huse'.alone _ _ _ hmaps hmaps' hram fun heq => hi <|
      (spaceInv_run hplat.regions hrun').distinct _ _ _ _ hq' hp (Option.some.inj heq).symm
    exact hsingle (sharedFrames_runFrames hplat.regions hrun' hshared)
  · -- a device writes to the runs of the state before, which stay
    have hspace := spaceInv_run hplat.regions hrun
    exact hsingle ((hspace.mm hreach hs).runFrames hplat.regions hspace.run hdma)

end Xernel
