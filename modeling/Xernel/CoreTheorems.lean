import Xernel.Core
import Xernel.ProcessTheorems
import Xernel.SpaceTheorems

/-!
# The list of effects is complete

One lemma per system call says which `CoreStep` it takes and how it leaves the processor;
`step_core` and `step_flow` collect them for a whole step of the system.
-/

namespace Xernel

/-- A handler that ran from `k` to `r` for `act` stayed within the list of effects. -/
structure Handled (plat : Platform) (k : Kernel) (act : Activity) (r : Kernel × Option ℕ) :
    Prop where
  core : CoreStep plat k.core r.1.core act r.2
  flow : Flow k r

variable {plat : Platform} {k k' : Kernel} {act : Activity} {args : Args} {hw : Hw}

namespace Scheduler

/-- Replacing the capability table adds no process. -/
@[simp] lemma length_setCaps (s : Scheduler) (caps : CNode) :
    (s.setCaps caps).procs.length = s.procs.length := length_modifyCur ..

@[simp] lemma length_park (s : Scheduler) (kont : Kont) :
    (s.park kont).procs.length = s.procs.length := length_modifyCur ..

@[simp] lemma length_setState (s : Scheduler) (state : State) :
    (s.setState state).procs.length = s.procs.length := length_modifyCur ..

/-- The entry of a process that has ended stays. -/
@[simp] lemma length_finish (s : Scheduler) (code : ℕ) :
    (s.finish code).procs.length = s.procs.length := length_modifyCur ..

/-- Two changes of the running process are one. -/
lemma modifyCur_modifyCur (s : Scheduler) (f g : Process → Process) :
    (s.modifyCur f).modifyCur g = s.modifyCur fun p => g (f p) := by
  simp only [modifyCur, modify, List.modify_modify_eq, Function.comp_def]

/-- Writing back the table that is there changes nothing. -/
lemma setCaps_cur (s : Scheduler) : s.setCaps s.cur.caps = s := by
  have hprocs : (s.setCaps s.cur.caps).procs = s.procs := by
    refine List.ext_getElem? fun j => ?_
    show (s.modify s.current _).procs[j]? = _
    rw [getElem?_modify]
    split
    next heq => rw [← heq, getElem?_current]; rfl
    next => rfl
  obtain ⟨procs, current, nextPid, hlt⟩ := s
  simp only [setCaps, modifyCur, modify] at hprocs ⊢
  simp only [hprocs]

end Scheduler

namespace Handled

/-- Nothing but memory, devices or windows changed, and the handler returned. -/
lemma quiet {v : ℕ} (hact : act.Mute k.sched (some v)) (hout : act.handsOut (some v) = 0)
    (hs : k'.sched = k.sched) (hc : k'.ipc = k.ipc) (hcpu : k'.cpu = k.cpu)
    (hexec : k'.exec = k.exec) : Handled plat k act (k', some v) :=
  ⟨.quiet hact hout hs hc, .returned hcpu hexec (by rw [hs])⟩

/-- A call that is refused at once changes nothing at all. -/
lemma failed (hact : act.Mute k.sched (some u64Max)) (hout : act.handsOut (some u64Max) = 0) :
    Handled plat k act (k, some u64Max) :=
  quiet hact hout rfl rfl rfl rfl

/-- A panic stops the machine, whatever was changed in memory before. -/
lemma panicked (hact : act.Mute k.sched none) (hout : act.handsOut none = 0)
    (hs : k'.sched = k.sched) (hc : k'.ipc = k.ipc) : Handled plat k act (k'.panic, none) :=
  ⟨.quiet hact hout hs hc, .stopped (.inr rfl)⟩

end Handled

/-! ## Capabilities of the running process -/

namespace Kernel

/-- A capability is looked up in the table of the running process. -/
lemma currentCapGet_eq (k : Kernel) (slot : ℕ) :
    k.currentCapGet slot = k.sched.cur.caps.slot slot := by
  unfold currentCapGet CNode.get CNode.slot
  rcases k.sched.cur.caps.slots[slot]? with _ | _ | cap <;> rfl

/-- Endpoints are found by capability only. -/
lemma currentEndpointId_eq (k : Kernel) (slot : ℕ) :
    k.currentEndpointId slot = k.sched.endpointAt slot := by
  rw [currentEndpointId, currentCapGet_eq, Scheduler.endpointAt]

/-- So are notifications. -/
lemma currentNotificationId_eq (k : Kernel) (slot : ℕ) :
    k.currentNotificationId slot = k.sched.notificationAt slot := by
  rw [currentNotificationId, currentCapGet_eq, Scheduler.notificationAt]

/-- So are processes. -/
lemma names_of_currentProcessPid {slot pid : ℕ} (h : k.currentProcessPid slot = some pid) :
    k.sched.Names slot pid := by
  obtain ⟨cap, hcap, hpid⟩ := Option.bind_eq_some_iff.mp h
  exact ⟨cap, currentCapGet_eq k slot ▸ hcap, hpid⟩

/-- `current_cap_install` fills an empty slot of the running process. -/
lemma currentCapInstall_eq_some {slot : ℕ} {cap : CapEntry}
    (h : k.currentCapInstall slot cap = some k') :
    ∃ caps, k.sched.cur.caps.insert slot cap = .ok caps ∧
      k' = { k with sched := k.sched.setCaps caps } := by
  rw [currentCapInstall] at h
  split at h
  · cases h
  next caps hins => exact ⟨caps, hins, (Option.some.inj h).symm⟩

/-- A charge is taken from the running process. -/
lemma currentChargeUntyped_eq_some {amount : ℕ} (h : k.currentChargeUntyped amount = some k') :
    ∃ caps, k.sched.cur.caps.chargeUntyped amount = some caps ∧
      k' = { k with sched := k.sched.setCaps caps } := by
  obtain ⟨caps, hcaps, rfl⟩ := Option.map_eq_some_iff.mp h
  exact ⟨caps, hcaps, rfl⟩

/-- A refund after a charge goes to the table that was charged. -/
lemma currentRefundUntyped_sched {caps : CNode} {s : Scheduler} (amount : ℕ)
    (h : k.sched = s.setCaps caps) :
    (k.currentRefundUntyped amount).sched = s.setCaps (caps.refundUntyped amount) := by
  rw [currentRefundUntyped, modifyCur, h]
  exact Scheduler.modifyCur_modifyCur ..

/-! ## Leaving the caller -/

/-- A yield succeeds if somebody else is picked. -/
lemma yieldNow_eq_some {kont : Kont} (h : k.yieldNow kont = some k') :
    ∃ i, (k.park kont).sched.pickNext = some i ∧ k' = (k.park kont).resumeProcess i := by
  rw [yieldNow] at h
  split at h
  · cases h
  next i hi =>
    split at h
    · cases h
    · exact ⟨i, hi, (Option.some.inj h).symm⟩

/-- The caller stays ready, with the point to go on from. -/
lemma yieldNow_handled {kont : Kont} (hk : Parks k.sched act kont) (hkont : kont.reason = none)
    (h : k.yieldNow kont = some k') : Handled plat k act (k', none) := by
  obtain ⟨i, hi, rfl⟩ := yieldNow_eq_some h
  exact ⟨.yielded hk hkont rfl ⟨i, hi, rfl⟩ rfl, .switched rfl hi⟩

/-- Spinning or idling at `kont`. -/
lemma park_handled {kont : Kont} {exec : Exec} (hk : Parks k.sched act kont)
    (hkont : kont.reason = none) (hexec : exec = .kernel ∨ exec = .idle)
    (hread : exec = .idle → ∃ ptr len, kont = .read ptr len) :
    Handled plat k act ({ k.park kont with exec }, none) := by
  have hcur : (k.park kont).sched.cur = { k.sched.cur with kont } := Scheduler.cur_modifyCur ..
  refine ⟨.parked hk hkont rfl rfl rfl, .stayed rfl hexec rfl (fun hready => ?_) fun hidle => ?_⟩
  · show (k.park kont).sched.cur.state = .ready
    rw [hcur]
    exact hready
  · obtain ⟨ptr, len, rfl⟩ := hread hidle
    refine ⟨ptr, len, ?_⟩
    show (k.park (.read ptr len)).sched.cur.kont = _
    rw [hcur]

/-- The caller blocks; if nobody is ready, it goes on idle. -/
lemma blockOn_handled {reason : BlockReason} {kont : Kont} (hk : Parks k.sched act kont)
    (hkont : kont.reason = some reason) (hwait : k.ipc.Empty reason) :
    Handled plat k act (k.blockOn reason kont, none) := by
  rw [blockOn]
  split
  next =>
    refine ⟨.blocked hk hkont rfl hwait (.inr rfl) rfl,
      .stayed rfl (.inl rfl) rfl (fun _ => ?_) (fun hidle => by cases hidle)⟩
    show (Scheduler.modifyCur _ _).cur.state = .ready
    rw [Scheduler.cur_modifyCur]
  next i hi =>
    exact ⟨.blocked hk hkont rfl hwait (.inl ⟨i, hi, rfl⟩) rfl, .switched rfl hi⟩

/-- The caller ends, and somebody else runs if anybody is ready. -/
lemma exitInner_handled (code : ℕ) (hact : act = .other ∨ ∃ args, act = .call .exit args) :
    Handled plat k act (k.exitInner code, none) := by
  rw [exitInner]
  split
  next => exact ⟨.exited code hact rfl (.inr rfl) rfl, .stopped (.inl rfl)⟩
  next i hi => exact ⟨.exited code hact rfl (.inl ⟨i, hi, rfl⟩) rfl, .switched rfl hi⟩

/-! ## System calls that only read or write memory and devices -/

/-- A `READ` without keys parks the caller and idles; otherwise only its buffer changes. -/
lemma readLoop_handled {ptr len : ℕ} (hk : Parks k.sched act (.read ptr len))
    (hact : ∀ v, act.Mute k.sched (some v) ∧ act.handsOut (some v) = 0) :
    Handled plat k act (k.readLoop ptr len) := by
  rw [readLoop]
  split
  next => exact park_handled hk rfl (.inr rfl) fun _ => ⟨ptr, len, rfl⟩
  next n k' heq =>
    obtain rfl : (k.readKeys ptr len).2 = k' := by rw [heq]
    exact .quiet (hact _).1 (hact _).2 rfl rfl rfl rfl

lemma sysRead_handled {ptr len : ℕ} :
    Handled plat k (.call .read args) (k.sysRead ptr len) := by
  rw [sysRead]
  split
  · exact readLoop_handled .read fun _ => ⟨trivial, rfl⟩
  · exact .failed trivial rfl

/-- Without blocking, the keyboard buffer and the caller's change. -/
lemma sysReadNb_handled {ptr len : ℕ} :
    Handled plat k (.call .readNb args) (k.sysReadNb ptr len) := by
  rw [sysReadNb]
  split
  · exact .quiet trivial rfl rfl rfl rfl rfl
  · exact .failed trivial rfl

/-- A `WRITE` to 1 or 2 goes to the caller's own log. -/
lemma sysWrite_handled {fd ptr len : ℕ} :
    Handled plat k (.call .write args) (k.sysWrite fd ptr len) := by
  rw [sysWrite]
  split
  next => exact .failed trivial rfl
  next buf _ =>
    split
    · exact ⟨.logged buf rfl rfl rfl, .returned rfl rfl rfl⟩
    · exact .quiet trivial rfl rfl rfl rfl rfl

/-- The framebuffer is mapped, which no process, capability or message sees. -/
lemma sysFbInfo_handled {ptr : ℕ} :
    Handled plat k (.call .fbInfo args) (k.sysFbInfo plat ptr) := by
  rw [sysFbInfo]
  split
  next => exact .failed trivial rfl
  next =>
    dsimp only
    split
    next => exact .panicked trivial rfl rfl rfl
    next => exact .quiet trivial rfl rfl rfl rfl rfl
    next => split <;> exact .quiet trivial rfl rfl rfl rfl rfl

/-- So is device memory, and a window moves. -/
lemma sysIomap_handled {phys len : ℕ} :
    Handled plat k (.call .iomap args) (k.sysIomap phys len) := by
  rw [sysIomap]
  split
  · exact .failed trivial rfl
  dsimp only
  split
  · exact .failed trivial rfl
  split
  · exact .failed trivial rfl
  split
  next => exact .panicked trivial rfl rfl rfl
  next => exact .quiet trivial rfl rfl rfl rfl rfl
  next => exact .quiet trivial rfl rfl rfl rfl rfl

/-- A port access only appears in the list of accesses. -/
lemma sysPortIn_handled {port size : ℕ} :
    Handled plat k (.call .portIn args) (k.sysPortIn port size hw) := by
  rw [sysPortIn]
  split
  · exact .quiet trivial rfl rfl rfl rfl rfl
  · exact .failed trivial rfl

lemma sysPortOut_handled {port size value : ℕ} :
    Handled plat k (.call .portOut args) (k.sysPortOut port size value) := by
  rw [sysPortOut]
  split
  · exact .quiet trivial rfl rfl rfl rfl rfl
  · exact .failed trivial rfl

/-- The description of a capability goes to the caller's buffer. -/
lemma sysCapIdentify_handled {slot outPtr : ℕ} :
    Handled plat k (.call .capIdentify args) (k.sysCapIdentify slot outPtr) := by
  rw [sysCapIdentify]
  split
  next => exact .failed trivial rfl
  next =>
    split
    · exact .quiet trivial rfl rfl rfl rfl rfl
    · exact .failed trivial rfl

lemma sysGetenvp_handled {outPtr : ℕ} :
    Handled plat k (.call .getenvp args) (k.sysGetenvp outPtr) := by
  rw [sysGetenvp]
  split
  · exact .quiet trivial rfl rfl rfl rfl rfl
  · exact .failed trivial rfl

/-- `SBRK` moves the break of the caller once the pages are mapped. -/
lemma orMax_sbrk_handled {delta : ℤ} :
    Handled plat k (.call .sbrk args) (orMax (k.sbrk delta)) := by
  rw [sbrk]
  dsimp only
  split
  · exact .quiet trivial rfl rfl rfl rfl rfl
  split
  · exact .failed trivial rfl
  split
  · exact .failed trivial rfl
  split
  · split
    · exact .failed trivial rfl
    split
    next => exact .panicked trivial rfl rfl rfl
    next => exact .quiet trivial rfl rfl rfl rfl rfl
    next => exact ⟨.setBreak rfl rfl rfl, .returned rfl rfl rfl⟩
  · split
    · exact .failed trivial rfl
    · exact ⟨.setBreak rfl rfl rfl, .returned rfl rfl rfl⟩

/-! ## System calls that allocate memory -/

/-- The allocation half of `sys_dma_alloc` leaves processes, messages and the processor alone. -/
lemma dmaAllocCharged_same (k : Kernel) (pages outPtr : ℕ) :
    (k.dmaAllocCharged pages outPtr).2.sched = k.sched ∧
    (k.dmaAllocCharged pages outPtr).2.ipc = k.ipc ∧
    (k.dmaAllocCharged pages outPtr).2.cpu = k.cpu ∧
    (k.dmaAllocCharged pages outPtr).2.exec = k.exec := by
  rw [dmaAllocCharged]
  split
  next => exact ⟨rfl, rfl, rfl, rfl⟩
  next =>
    dsimp only
    split
    · exact ⟨rfl, rfl, rfl, rfl⟩
    split
    next => exact ⟨rfl, rfl, rfl, rfl⟩
    next => exact ⟨rfl, rfl, rfl, rfl⟩
    next => split <;> exact ⟨rfl, rfl, rfl, rfl⟩

/-- The caller is charged for a DMA buffer, and gets a refund if the call fails. -/
lemma sysDmaAlloc_handled {outPtr : ℕ} :
    Handled plat k (.call .dmaAlloc args) (k.sysDmaAlloc args.rdi.toNat outPtr) := by
  rw [sysDmaAlloc]
  split
  · exact .failed trivial rfl
  dsimp only
  split
  next => exact .failed trivial rfl
  next k₁ hcharge =>
    obtain ⟨caps, hcaps, rfl⟩ := currentChargeUntyped_eq_some hcharge
    obtain ⟨hs, hc, hcpu, hexec⟩ := dmaAllocCharged_same
      { k with sched := k.sched.setCaps caps } (pagesFor args.rdi.toNat) outPtr
    split
    next k₂ heq =>
      rw [heq] at hs hc
      exact ⟨.charged (.inl rfl) (Nat.zero_le _) hcaps hs hc, .stopped (.inr rfl)⟩
    next k₂ heq =>
      rw [heq] at hs hc hcpu hexec
      have hs' := currentRefundUntyped_sched (pagesFor args.rdi.toNat * frameSize) hs
      refine ⟨.refunded (.inl rfl) rfl hcaps hs' hc, .returned hcpu hexec ?_⟩
      have hcur := congrArg Scheduler.current hs'
      exact hcur
    next k₂ heq =>
      rw [heq] at hs hc hcpu hexec
      exact ⟨.charged (.inl rfl) le_rfl hcaps hs hc, .returned hcpu hexec (by rw [hs]; rfl)⟩

/-- `map_shared` leaves processes, messages and the processor alone. -/
lemma mapShared_same (k : Kernel) (phys pages : ℕ) :
    (k.mapShared phys pages).2.sched = k.sched ∧ (k.mapShared phys pages).2.ipc = k.ipc ∧
    (k.mapShared phys pages).2.cpu = k.cpu ∧ (k.mapShared phys pages).2.exec = k.exec := by
  rw [mapShared]
  dsimp only
  split
  · exact ⟨rfl, rfl, rfl, rfl⟩
  · split <;> exact ⟨rfl, rfl, rfl, rfl⟩

/-- `map_shared` builds up the running space with the frames of the run. -/
lemma mapShared_builds {s : Scope} {phys pages : ℕ} (hs : some k.cpu.cr3 ∈ s.trees)
    (hu : some k.cpu.cr3 ∈ s.userTrees) (hgiven : ∀ f ∈ blockRun frameSize phys pages, f ∈ s.given) :
    Mm.Builds s k.mm ∅ (k.mapShared phys pages).2.mm ∅ := by
  rw [mapShared]
  dsimp only
  split
  · exact .refl
  next hroom =>
    have hva : k.win.nextSharedVa < 2 ^ 64 - 2 ^ 47 := by
      simp only [sharedRegionEnd] at hroom
      omega
    have hrun : Mm.Builds s k.mm ∅ _ ∅ := mapRun_mapUser_given hs hu hva hgiven
    split <;> (next heq => rw [heq] at hrun; exact hrun)

/-- The failure exit of `FRAME_ALLOC` gives the charge back. -/
lemma frameAllocUnwind_handled {caps : CNode} {phys : Option ℕ} {pages : ℕ}
    (hact : act = .call .frameAlloc args)
    (hcaps : k.sched.cur.caps.chargeUntyped (pages * frameSize) = some caps)
    (hs : k'.sched = k.sched.setCaps caps) (hc : k'.ipc = k.ipc) (hcpu : k'.cpu = k.cpu)
    (hexec : k'.exec = k.exec) : Handled plat k act (k'.frameAllocUnwind phys pages) := by
  have hs' := currentRefundUntyped_sched (pages * frameSize) hs
  refine ⟨.refunded (.inr hact) rfl hcaps hs' hc, .returned hcpu hexec ?_⟩
  have hcur := congrArg Scheduler.current hs'
  exact hcur

/-- The caller is charged for a run of frames and gets the capability for it, or a refund. -/
lemma sysFrameAlloc_handled {outPtr : ℕ} :
    Handled plat k (.call .frameAlloc args)
      (k.sysFrameAlloc args.rdi.toNat args.rsi.toNat outPtr) := by
  rw [sysFrameAlloc]
  split
  · exact .failed trivial rfl
  dsimp only
  split
  next => exact .failed trivial rfl
  next k₁ hcharge =>
    obtain ⟨caps, hcaps, rfl⟩ := currentChargeUntyped_eq_some hcharge
    split
    next => exact frameAllocUnwind_handled rfl hcaps rfl rfl rfl rfl
    next phys mm halloc =>
      generalize hk₁ : ({ k with
        sched := k.sched.setCaps caps
        mm := mm.zero phys (args.rdi.toNat * frameSize) } : Kernel) = k₁
      obtain ⟨hs, hc, hcpu, hexec⟩ := mapShared_same k₁ phys args.rdi.toNat
      -- `map_shared` only adds to the call log, and frees nothing
      have hbuilds : Mm.Builds ⟨.univ, .univ, .univ⟩ k₁.mm ∅
          (k₁.mapShared phys args.rdi.toNat).2.mm ∅ :=
        mapShared_builds trivial trivial fun _ _ => trivial
      obtain ⟨later, hlater, hkeep⟩ := hbuilds.calls
      subst hk₁
      split
      next k₂ heq =>
        rw [heq] at hs hc
        exact ⟨.charged (.inr rfl) (Nat.zero_le _) hcaps hs hc, .stopped (.inr rfl)⟩
      next k₂ heq =>
        rw [heq] at hs hc hcpu hexec
        exact frameAllocUnwind_handled rfl hcaps hs hc hcpu hexec
      next va k₂ heq =>
        rw [heq] at hs hc hcpu hexec hlater
        split
        · split
          next => exact frameAllocUnwind_handled rfl hcaps hs hc hcpu hexec
          next k₃ hins =>
            obtain ⟨caps', hins', rfl⟩ := currentCapInstall_eq_some hins
            -- the capability goes into the table that was charged
            have hcur : k₂.sched.cur.caps = caps := by
              rw [hs]; exact congrArg Process.caps (Scheduler.cur_modifyCur ..)
            have hs' : k₂.sched.setCaps caps' = k.sched.setCaps caps' := by
              rw [hs]; exact Scheduler.modifyCur_modifyCur ..
            have hcalls : mm.calls =
                k.mm.calls ++ [.allocContiguous args.rdi.toNat (some phys)] := by
              obtain ⟨hgot, rfl⟩ := Prod.mk.inj halloc
              simp only [← hgot]
            refine ⟨.frameInstalled rfl rfl hcaps (hcur ▸ hins') hs' hc ?_ hkeep,
              .returned hcpu hexec ?_⟩
            · obtain ⟨mem, hmem⟩ := Mm.writeUser_eq k₂.mm k₂.cpu.cr3 outPtr (leBytes 8 va)
              have hmm : (k₂.copyOut outPtr (leBytes 8 va)).mm.calls = k₂.mm.calls := by
                rw [copyOut, hmem]
              refine hmm.trans (hlater.trans ?_)
              show mm.calls ++ later = _
              rw [hcalls, List.append_assoc]
              rfl
            · have hcur := congrArg Scheduler.current hs'
              exact hcur
        · exact frameAllocUnwind_handled rfl hcaps hs hc hcpu hexec

/-- Mapping a Frame capability changes no table of capabilities. -/
lemma sysMapFrame_handled {capSlot outPtr : ℕ} :
    Handled plat k (.call .mapFrame args) (k.sysMapFrame capSlot outPtr) := by
  rw [sysMapFrame]
  split
  next => exact .failed trivial rfl
  next phys pages _ =>
    obtain ⟨hs, hc, hcpu, hexec⟩ := mapShared_same k phys pages
    split
    next k₁ heq => rw [heq] at hs hc; exact .panicked trivial rfl hs hc
    next k₁ heq => rw [heq] at hs hc hcpu hexec; exact .quiet trivial rfl hs hc hcpu hexec
    next va k₁ heq =>
      rw [heq] at hs hc hcpu hexec
      split <;> exact .quiet trivial rfl hs hc hcpu hexec

/-! ## Spawning -/

/-- A child is added with the next pid, and with the handle in the caller's slot, if it is to have one
there and the slot is free. -/
lemma addProcess_handled {mm mm' : Mm} {p : Process} {capSlot : ℕ} {sys : Sys}
    (hsys : sys = .spawn ∨ sys = .spawnEnv) (hmm : k.mm = mm)
    (hp : Created plat mm k.sched.nextPid p) :
    Handled plat k (.call sys args) (orMax (addProcess { k with mm := mm' } p capSlot)) := by
  subst hmm
  have hact : Activity.call sys args = .call .spawn args ∨
      Activity.call sys args = .call .spawnEnv args := by
    rcases hsys with rfl | rfl
    · exact .inl rfl
    · exact .inr rfl
  have hquiet : ∀ out, (Activity.call sys args).Mute k.sched out ∧
      (Activity.call sys args).handsOut out = 0 := by
    rcases hsys with rfl | rfl <;> exact fun _ => ⟨trivial, rfl⟩
  rw [addProcess, installProcessCap]
  dsimp only
  split
  next heq =>
    -- the handle could not be installed: the child is dropped
    exact .quiet (hquiet _).1 (hquiet _).2 rfl rfl rfl rfl
  next k₁ heq =>
    split at heq
    · obtain rfl := Option.some.inj heq
      refine ⟨.spawned hact rfl hp (.inl rfl) ?_ rfl, .returned rfl rfl rfl⟩
      show k.sched.push p = (k.sched.setCaps k.sched.cur.caps).push p
      rw [Scheduler.setCaps_cur]
    · split at heq
      · cases heq
      next caps hins =>
        obtain rfl := Option.some.inj heq
        exact ⟨.spawned hact rfl hp (.inr ⟨capSlot, hins⟩) rfl rfl, .returned rfl rfl rfl⟩

/-- `SPAWN` adds what `create` makes, or nothing. -/
lemma orMax_spawn_handled {capSlot : ℕ} {sys : Sys} (hsys : sys = .spawn ∨ sys = .spawnEnv) :
    Handled plat k (.call sys args) (orMax (k.spawn plat capSlot)) := by
  have hquiet : ∀ out, (Activity.call sys args).Mute k.sched out ∧
      (Activity.call sys args).handsOut out = 0 := by
    rcases hsys with rfl | rfl <;> exact fun _ => ⟨trivial, rfl⟩
  rw [spawn]
  split
  next => exact .panicked (hquiet _).1 (hquiet _).2 rfl rfl
  next => exact .quiet (hquiet _).1 (hquiet _).2 rfl rfl rfl rfl
  next p mm heq => exact addProcess_handled hsys rfl (.mk heq)

/-- `SPAWN_ENV` adds the same process with an environment. -/
lemma orMax_spawnEnv_handled {envpPtr envpLen capSlot : ℕ} :
    Handled plat k (.call .spawnEnv args) (orMax (k.spawnEnv plat envpPtr envpLen capSlot)) := by
  rw [spawnEnv]
  split
  · exact orMax_spawn_handled (.inr rfl)
  split
  next => exact .panicked trivial rfl rfl rfl
  next => exact .quiet trivial rfl rfl rfl rfl rfl
  next p mm heq =>
    split
    · exact .quiet trivial rfl rfl rfl rfl rfl
    split
    · exact .quiet trivial rfl rfl rfl rfl rfl
    dsimp only
    split
    next => exact .panicked trivial rfl rfl rfl
    next => exact .quiet trivial rfl rfl rfl rfl rfl
    next => exact addProcess_handled (.inr rfl) rfl (.mk heq)

/-! ## Endpoints and notifications -/

/-- A message is queued at the endpoint, and those who wait there are woken. -/
lemma sysSend_handled :
    Handled plat k (.call .send args)
      (k.sysSend args.rdi.toNat args.rsi.toNat args.rdx.toNat) := by
  have hmax : some u64Max ≠ some 0 := by decide
  rw [sysSend, currentEndpointId_eq, currentCapGet_eq]
  split
  next => exact .failed hmax rfl
  next id hid =>
    dsimp only
    split
    next hslot =>
      have hcap : k.sched.attached args.rdx.toNat = none := if_pos hslot
      split
      next => exact .failed hmax rfl
      next ipc hsend => exact ⟨.sent rfl rfl hid (hcap ▸ hsend) rfl, .returned rfl rfl rfl⟩
    next hslot =>
      split
      next => exact .failed hmax rfl
      next cap hcap =>
        have hcap' : k.sched.attached args.rdx.toNat = some cap := (if_neg hslot).trans hcap
        split
        next => exact .failed hmax rfl
        next ipc hsend => exact ⟨.sent rfl rfl hid (hcap' ▸ hsend) rfl, .returned rfl rfl rfl⟩

/-- The first message is dequeued, with its capability if the slot is free, or the caller blocks. -/
lemma recvLoop_handled {id outPtr dstSlot : ℕ} (hact : Receives k.sched id dstSlot act)
    (hk : Parks k.sched act (.recv id outPtr dstSlot)) :
    Handled plat k act (k.recvLoop id outPtr dstSlot) := by
  rw [recvLoop]
  split
  next msg ipc hrecv =>
    -- the message is gone from the queue whatever happens to its capability
    have hkept : ∀ {mm : Mm} {v : ℕ}, Handled plat k act ({ k with mm, ipc }, some v) :=
      ⟨.received hact hrecv (.inl rfl) (Scheduler.setCaps_cur _).symm, .returned rfl rfl rfl⟩
    rw [deliverMessage]
    dsimp only
    split
    next => split <;> exact hkept
    next cap hmsg =>
      split
      · split <;> exact hkept
      split
      next => exact hkept
      next k₁ hins =>
        obtain ⟨caps, hins', rfl⟩ := currentCapInstall_eq_some hins
        split <;> exact ⟨.received hact hrecv (.inr ⟨cap, hmsg, hins'⟩) rfl, .returned rfl rfl rfl⟩
  next hrecv => exact blockOn_handled hk rfl hrecv

/-- The first round of `RECV` is that of the endpoint in the caller's slot. -/
lemma sysRecv_handled {outPtr : ℕ} :
    Handled plat k (.call .recv args)
      (k.sysRecv args.rdi.toNat outPtr args.rdx.toNat) := by
  rw [sysRecv, currentEndpointId_eq]
  split
  next hid => exact .failed hid rfl
  next id hid => exact recvLoop_handled (.call hid rfl) (.recv hid)

/-- The bits are added to the notification, and those who wait there are woken. -/
lemma sysSignal_handled :
    Handled plat k (.call .signal args) (k.sysSignal args.rdi.toNat args.rsi.toNat) := by
  have hmax : some u64Max ≠ some 0 := by decide
  rw [sysSignal, currentNotificationId_eq]
  split
  next => exact .failed hmax rfl
  next id hid =>
    split
    next => exact .failed hmax rfl
    next ipc hsig => exact ⟨.signalled rfl rfl hid hsig rfl, .returned rfl rfl rfl⟩

/-- The word is taken, or the caller blocks. -/
lemma waitLoop_handled {id : ℕ}
    (hact : (∃ args, act = .call .wait args ∧ k.sched.notificationAt args.rdi.toNat = some id) ∨
      act = .resumed (.wait id))
    (hk : Parks k.sched act (.wait id)) : Handled plat k act (k.waitLoop id) := by
  rw [waitLoop]
  split
  next bits ipc htake => exact ⟨.taken hact rfl htake rfl, .returned rfl rfl rfl⟩
  next htake => exact blockOn_handled hk rfl htake

lemma sysWait_handled : Handled plat k (.call .wait args) (k.sysWait args.rdi.toNat) := by
  rw [sysWait, currentNotificationId_eq]
  split
  next hid => exact .quiet hid rfl rfl rfl rfl rfl
  next id hid => exact waitLoop_handled (.inl ⟨args, rfl, hid⟩) (.wait hid)

/-! ## Other processes -/

lemma sysGetStatus_handled {slot : ℕ} :
    Handled plat k (.call .getStatus args) (k.sysGetStatus slot) := by
  rw [sysGetStatus]
  split
  next => exact .failed trivial rfl
  next => exact .quiet trivial rfl rfl rfl rfl rfl

/-- What is read is taken out of the log of the process that the capability names. -/
lemma sysLogRead_handled {outPtr max : ℕ} :
    Handled plat k (.call .logRead args) (k.sysLogRead args.rdi.toNat outPtr max) := by
  rw [sysLogRead]
  split
  next => exact .failed trivial rfl
  next pid hpid =>
    dsimp only
    split
    · rw [logRead]
      split
      next i p hi hp =>
        exact ⟨.logTaken rfl (names_of_currentProcessPid hpid) hi rfl rfl, .returned rfl rfl rfl⟩
      next => exact .quiet trivial rfl rfl rfl rfl rfl
    · exact .failed trivial rfl

/-- The process that the capability names ends, unless it is pid 0 or has ended already. -/
lemma sysKill_handled :
    Handled plat k (.call .kill args) (k.sysKill args.rdi.toNat args.rsi.toNat) := by
  rw [sysKill]
  split
  next => exact .failed trivial rfl
  next pid hpid =>
    rw [kill]
    split
    · exact .failed trivial rfl
    next hne =>
      split
      next i p hi hp =>
        split
        · exact .failed trivial rfl
        next halive =>
          refine ⟨.killed rfl (names_of_currentProcessPid hpid) hne hi (fun q hq => ?_) rfl rfl,
            .returned rfl rfl rfl⟩
          obtain ⟨p', hp', -, hfind⟩ := Scheduler.find_eq_of_indexOf hi
          obtain rfl : p' = p := Option.some.inj (hfind.symm.trans hp)
          obtain rfl : p' = q := Option.some.inj (hp'.symm.trans hq)
          exact halive
      next => exact .failed trivial rfl

/-- As long as the other process has not ended, the caller yields, or idles if nobody else is ready. -/
lemma waitPidLoop_handled {pid : ℕ} (hk : Parks k.sched act (.waitPid pid))
    (hact : ∀ v, act.Mute k.sched (some v) ∧ act.handsOut (some v) = 0) :
    Handled plat k act (k.waitPidLoop pid) := by
  rw [waitPidLoop]
  dsimp only
  split
  · exact .failed (hact _).1 (hact _).2
  split
  next => exact .failed (hact _).1 (hact _).2
  next p _ =>
    split
    · exact .quiet (hact _).1 (hact _).2 rfl rfl rfl rfl
    split
    next k₁ hy => exact yieldNow_handled hk rfl hy
    next => exact park_handled hk rfl (.inl rfl) (by simp)

/-- `WAITPID` of a process other than pid 0 starts that loop. -/
lemma sysWaitPid_handled :
    Handled plat k (.call .waitPid args) (k.sysWaitPid args.rdi.toNat) := by
  rw [sysWaitPid]
  split
  next => exact .failed trivial rfl
  next pid hpid =>
    rw [waitPid]
    split
    · exact .failed trivial rfl
    next hne =>
      exact waitPidLoop_handled (.waitPid (names_of_currentProcessPid hpid) hne) fun _ => ⟨trivial, rfl⟩

/-- A copy of the capability goes to an empty slot of the process that the other one names. -/
lemma sysCapGrant_handled :
    Handled plat k (.call .capGrant args)
      (k.sysCapGrant args.rdi.toNat args.rsi.toNat args.rdx.toNat) := by
  rw [sysCapGrant]
  split
  next => exact .failed trivial rfl
  next pid hpid =>
    split
    next => exact .failed trivial rfl
    next cap hcap =>
      split
      next => exact .failed trivial rfl
      next k₁ hgrant =>
        rw [grantTo] at hgrant
        split at hgrant
        next i p hi hp =>
          split at hgrant
          · cases hgrant
          next caps hins =>
            obtain rfl := Option.some.inj hgrant
            obtain ⟨p', hp', -, hfind⟩ := Scheduler.find_eq_of_indexOf hi
            obtain rfl : p' = p := Option.some.inj (hfind.symm.trans hp)
            exact ⟨.granted rfl rfl (names_of_currentProcessPid hpid)
              (currentCapGet_eq k _ ▸ hcap) hi ⟨p', hp', hins⟩ rfl rfl, .returned rfl rfl rfl⟩
        next => cases hgrant

/-! ## Dispatch -/

/-- Every system call stays within the list of effects. -/
theorem dispatch_handled (plat : Platform) (k : Kernel) (nr : UInt64) (args : Args) (hw : Hw) :
    Handled plat k (k.activity (.syscall nr args hw)) (k.dispatch plat nr args hw) := by
  rw [dispatch, activity]
  cases Sys.decode nr with
  | none => exact .failed trivial rfl
  | some sys =>
    cases sys with
    | write => exact sysWrite_handled
    | exit => exact exitInner_handled _ (.inr ⟨args, rfl⟩)
    | read => exact sysRead_handled
    | readNb => exact sysReadNb_handled
    | sbrk => exact orMax_sbrk_handled
    | fbInfo => exact sysFbInfo_handled
    | yield =>
      dsimp only [Option.elim]
      split
      next k₁ hy => exact yieldNow_handled .yield rfl hy
      next => exact .quiet trivial rfl rfl rfl rfl rfl
    | iomap => exact sysIomap_handled
    | dmaAlloc => exact sysDmaAlloc_handled
    | portIn => exact sysPortIn_handled
    | portOut => exact sysPortOut_handled
    | capIdentify => exact sysCapIdentify_handled
    | send => exact sysSend_handled
    | recv => exact sysRecv_handled
    | spawn => exact orMax_spawn_handled (.inl rfl)
    | signal => exact sysSignal_handled
    | wait => exact sysWait_handled
    | frameAlloc => exact sysFrameAlloc_handled
    | mapFrame => exact sysMapFrame_handled
    | spawnEnv => exact orMax_spawnEnv_handled
    | getStatus => exact sysGetStatus_handled
    | getenvp => exact sysGetenvp_handled
    | logRead => exact sysLogRead_handled
    | kill => exact sysKill_handled
    | waitPid => exact sysWaitPid_handled
    | capGrant => exact sysCapGrant_handled
    | debug | getTicks | sysinfo | getpid | pciRead => exact .quiet trivial rfl rfl rfl rfl rfl

/-- The way back to ring 3 changes neither the core nor the result. -/
lemma syscallExit_core (r : Kernel × Option ℕ) :
    (syscallExit r).1.core = r.1.core ∧ (syscallExit r).2 = r.2 := by
  obtain ⟨k, _ | v⟩ := r <;> exact ⟨rfl, rfl⟩

/-- Resuming a thread is its first run, the return from an interrupt, or the end of a handler that
stays within the list of effects. -/
lemma resumeAt_cases (plat : Platform) (k : Kernel) (kont : Kont) :
    (kont = .trampoline ∧ k.resumeAt kont = (k.enterUser, none)) ∨
    (kont = .timer ∧ k.resumeAt kont = (k.returnToUser, none)) ∨
    kont ≠ .trampoline ∧ ∃ r, Handled plat k (.resumed kont) r ∧ k.resumeAt kont = syscallExit r := by
  cases kont with
  | trampoline => exact .inl ⟨rfl, rfl⟩
  | timer => exact .inr (.inl ⟨rfl, rfl⟩)
  | yield => exact .inr (.inr ⟨by simp, _, .quiet rfl rfl rfl rfl rfl rfl, rfl⟩)
  | recv id outPtr dstSlot => exact .inr (.inr ⟨by simp, _, recvLoop_handled .resumed .again, rfl⟩)
  | wait id => exact .inr (.inr ⟨by simp, _, waitLoop_handled (.inr rfl) .again, rfl⟩)
  | waitPid pid => exact .inr (.inr ⟨by simp, _, waitPidLoop_handled .again fun _ => ⟨rfl, rfl⟩, rfl⟩)
  | read ptr len => exact .inr (.inr ⟨by simp, _, readLoop_handled .again fun _ => ⟨rfl, rfl⟩, rfl⟩)

end Kernel

/-! ## Steps -/

/-- A device changes nothing but a byte of a contiguous run. -/
lemma Kernel.deviceWrite_eq_some {phys : ℕ} {b : UInt8} (h : k.deviceWrite phys b = some k') :
    pageDown phys ∈ runFrames k.mm.calls ∧
      k' = { k with mm := { k.mm with mem := Function.update k.mm.mem phys b } } := by
  rw [deviceWrite] at h
  split at h
  next hrun => exact ⟨hrun, (Option.some.inj h).symm⟩
  next => cases h

/-- A device changes the bytes of memory only. -/
lemma Kernel.deviceWrite_mem {phys : ℕ} {b : UInt8} (h : k.deviceWrite phys b = some k') :
    ∃ mem, k' = { k with mm := { k.mm with mem } } := ⟨_, (deviceWrite_eq_some h).2⟩

/-- The enabled events and what handles each. -/
inductive StepCase (plat : Platform) (k : Kernel) : Event → Kernel × Option ℕ → Prop
  | syscall {nr : UInt64} {args : Args} {hw : Hw} (hexec : k.exec = .user) :
      StepCase plat k (.syscall nr args hw) (k.syscallEntry plat nr args hw)
  | timer (hexec : k.exec = .user) : StepCase plat k .timer (k.timerIsr, none)
  | fault (hexec : k.exec = .user) : StepCase plat k .fault (k.userFault, none)
  | keyboard {scancode : UInt8} (hexec : k.exec = .user ∨ k.exec = .idle) :
      StepCase plat k (.keyboard scancode) (k.keyboardIrq scancode, none)
  | store {va : ℕ} {b : UInt8} (hexec : k.exec = .user) :
      StepCase plat k (.store va b) (k.userStore va b, none)
  | dma {phys : ℕ} {b : UInt8} {k' : Kernel}
      (hexec : k.exec = .user ∨ k.exec = .idle ∨ k.exec = .kernel)
      (hw : k.deviceWrite phys b = some k') : StepCase plat k (.dma phys b) (k', none)
  | idleTick (hexec : k.exec = .idle) : StepCase plat k .timer (k.tick, none)
  | resume {p : Process} (hexec : k.exec = .kernel ∨ k.exec = .idle)
      (hp : k.sched.procs[k.cpu.thread]? = some p) :
      StepCase plat k .resume ({ k with exec := .kernel }.resumeAt p.kont)

/-- Which events are enabled, and what handles each. -/
lemma step_cases {e : Event} {r : Kernel × Option ℕ} (h : step plat k e = some r) :
    StepCase plat k e r := by
  rw [step.eq_def] at h
  split at h
  next hexec => obtain rfl := Option.some.inj h; exact .syscall hexec
  next hexec => obtain rfl := Option.some.inj h; exact .timer hexec
  next hexec => obtain rfl := Option.some.inj h; exact .fault hexec
  next hexec => obtain rfl := Option.some.inj h; exact .keyboard (.inl hexec)
  next hexec => obtain rfl := Option.some.inj h; exact .store hexec
  next hexec =>
    obtain ⟨k', hw, rfl⟩ := Option.map_eq_some_iff.mp h
    exact .dma (.inl hexec) hw
  next hexec =>
    obtain ⟨k', hw, rfl⟩ := Option.map_eq_some_iff.mp h
    exact .dma (.inr (.inl hexec)) hw
  next hexec =>
    obtain ⟨k', hw, rfl⟩ := Option.map_eq_some_iff.mp h
    exact .dma (.inr (.inr hexec)) hw
  next hexec => obtain rfl := Option.some.inj h; exact .idleTick hexec
  next hexec => obtain rfl := Option.some.inj h; exact .keyboard (.inr hexec)
  next hexec =>
    obtain ⟨p, hp, rfl⟩ := Option.map_eq_some_iff.mp h
    exact .resume (.inr hexec) hp
  next hexec =>
    obtain ⟨p, hp, rfl⟩ := Option.map_eq_some_iff.mp h
    exact .resume (.inl hexec) hp
  next => cases h

/-- A step that makes a system call: the dispatcher ran between the two `swapgs`. -/
lemma step_call {e : Event} {out : Option ℕ} {sys : Sys} (h : step plat k e = some (k', out))
    (hgs : k.exec = .user → k.cpu.kernelGsBase = .percpu)
    (hact : k.activity e = .call sys args) :
    k.exec = .user ∧ ∃ nr hw, e = .syscall nr args hw ∧ Sys.decode nr = some sys ∧
      (k', out) = Kernel.syscallExit (Kernel.dispatch plat
        { k with cpu := k.cpu.swapgs, exec := .kernel } nr args hw) := by
  generalize (k', out) = r at h ⊢
  cases step_cases h with
  | @syscall nr args' hw hexec =>
    cases hd : Sys.decode nr with
    | none => rw [Kernel.activity, hd] at hact; cases hact
    | some sys' =>
      rw [Kernel.activity, hd] at hact
      cases hact
      refine ⟨hexec, nr, hw, rfl, hd, ?_⟩
      rw [Kernel.syscallEntry]
      exact if_pos (hgs hexec)
  | resume hexec hp => rw [Kernel.activity, hp] at hact; cases hact
  | _ => cases hact

/-- A fault in ring 3 ends the process. -/
lemma userFault_core (k : Kernel) : CoreStep plat k.core k.userFault.core .other none :=
  (Kernel.exitInner_handled (k := { k with cpu := k.cpu.gsForceKernel, exec := .kernel })
    exitFault (.inl rfl)).core

/-- Every step of the system that gets past the entry stub stays within the list of effects. -/
theorem step_core {e : Event} {out : Option ℕ} (h : step plat k e = some (k', out))
    (hgs : k.exec = .user → k.cpu.kernelGsBase = .percpu) :
    CoreStep plat k.core k'.core (k.activity e) out := by
  generalize hr : (k', out) = r at h
  obtain ⟨rfl, rfl⟩ : k' = r.1 ∧ out = r.2 := by rw [← hr]; exact ⟨rfl, rfl⟩
  clear hr
  cases step_cases h with
  | @syscall nr args hw hexec =>
    -- past `swapgs` the call is dispatched; leaving the kernel changes nothing here
    rw [Kernel.syscallEntry, if_pos (show k.cpu.swapgs.gsBase = .percpu from hgs hexec)]
    obtain ⟨hcore, hout⟩ := Kernel.syscallExit_core
      (({ k with cpu := k.cpu.swapgs, exec := .kernel } : Kernel).dispatch plat nr args hw)
    rw [hcore, hout]
    exact (Kernel.dispatch_handled plat { k with cpu := k.cpu.swapgs, exec := .kernel } nr
      args hw).core
  | timer hexec =>
    rw [Kernel.timerIsr]
    dsimp only
    split
    next k₁ hy =>
      have hy' : Handled plat _ .other (k₁, none) := Kernel.yieldNow_handled .timer rfl hy
      exact hy'.core
    next => exact .quiet trivial rfl rfl rfl
  | fault hexec => exact userFault_core k
  | keyboard hexec => exact .quiet trivial rfl rfl rfl
  | @store va b hexec =>
    rw [Kernel.userStore]
    split
    · exact .quiet trivial rfl rfl rfl
    · exact userFault_core k
  | dma hexec hw =>
    obtain ⟨mem, rfl⟩ := Kernel.deviceWrite_mem hw
    exact .quiet trivial rfl rfl rfl
  | idleTick hexec => exact .quiet trivial rfl rfl rfl
  | @resume p hexec hp =>
    have hact : k.activity .resume = .resumed p.kont := by rw [Kernel.activity, hp]; rfl
    rw [hact]
    -- a process that was preempted goes on; one that slept in a call looks again
    rcases Kernel.resumeAt_cases plat { k with exec := .kernel } p.kont with
      ⟨hk, heq⟩ | ⟨hk, heq⟩ | ⟨-, r, hr, heq⟩
    · rw [heq, hk]; exact .quiet rfl rfl rfl rfl
    · rw [heq, hk]; exact .quiet rfl rfl rfl rfl
    · obtain ⟨hcore, hout⟩ := Kernel.syscallExit_core r
      rw [heq, hcore, hout]
      exact hr.core

/-! ## Messages and notifications in a step -/

/-- Parking without a reason to wait sends, takes and hands out nothing. -/
lemma Parks.mute {s : Scheduler} {kont : Kont} {out : Option ℕ} (h : Parks s act kont)
    (hkont : kont.reason = none) : act.Mute s out := by
  cases h with
  | again => exact hkont
  | recv hid => cases hkont
  | wait hid => cases hkont
  | yield | timer | read | waitPid => trivial

/-- What a step does to endpoints and notifications. -/
theorem CoreStep.ipc {a b : Core} {out : Option ℕ} (h : CoreStep plat a b act out) :
    IpcStep a b act out := by
  cases h with
  | quiet hact hout hs hc => exact .mute hact hc
  | logged data hact hs hc => subst hact; exact .mute trivial hc
  | setBreak hact hs hc => subst hact; exact .mute trivial hc
  | charged hact hout h hs hc => rcases hact with rfl | rfl <;> exact .mute trivial hc
  | refunded hact hout h hs hc => rcases hact with rfl | rfl <;> exact .mute trivial hc
  | frameInstalled hact hout h hins hs hc => subst hact; exact .mute trivial hc
  | spawned hact hout hp hins hs hc => rcases hact with rfl | rfl <;> exact .mute trivial hc
  | sent hact hout hid hsend hs => exact .sent hact hout hid hsend
  | signalled hact hout hid hsig hs => exact .signalled hact hout hid hsig
  | received hact hrecv hins hs => exact .received hact hrecv
  | taken hact hout htake hs => exact .taken hact htake
  | parked hk hkont hout hs hc => exact .mute (hk.mute hkont) hc
  | yielded hk hkont hout hs hc => exact .mute (hk.mute hkont) hc
  | blocked hk hkont hout hwait hs hc => exact .blocked hk hkont hwait hc
  | exited code hact hout hs hc => rcases hact with rfl | ⟨args, rfl⟩ <;> exact .mute trivial hc
  | logTaken hact hpid hi hs hc => subst hact; exact .mute trivial hc
  | killed hact hpid hne hi halive hs hc => subst hact; exact .mute trivial hc
  | granted hact hout hpid hcap hi hins hs hc => subst hact; exact .mute trivial hc

/-! ## One process in a step -/

namespace CoreStep

variable {a b : Core} {out : Option ℕ} {i : ℕ} {p p' : Process}

/-- Where an update of the running process left process `i`. -/
lemma procStep_modifyCur {f : Process → Process}
    (hp' : (a.sched.modifyCur f).procs[i]? = some p')
    (hf : OwnStep a b act out a.sched.cur (f a.sched.cur)) :
    ∃ p, a.sched.procs[i]? = some p ∧ ProcStep a b act out i p p' := by
  rw [Scheduler.modifyCur, Scheduler.getElem?_modify] at hp'
  split at hp'
  next hi =>
    subst hi
    rw [Scheduler.getElem?_current] at hp'
    obtain rfl : f a.sched.cur = p' := Option.some.inj hp'
    exact ⟨a.sched.cur, Scheduler.getElem?_current _, .own rfl hf⟩
  next => exact ⟨p', hp', .same⟩

/-- Where an update of the process found by its PID left process `i`. -/
lemma procStep_modify {f : Process → Process} {pid j : ℕ} (hj : a.sched.indexOf pid = some j)
    (hp' : (a.sched.modify j f).procs[i]? = some p')
    (hf : ∀ p, a.sched.procs[j]? = some p → p.pid = pid → ProcStep a b act out j p (f p)) :
    ∃ p, a.sched.procs[i]? = some p ∧ ProcStep a b act out i p p' := by
  obtain ⟨q, hq, hpid, -⟩ := Scheduler.find_eq_of_indexOf hj
  rw [Scheduler.getElem?_modify] at hp'
  split at hp'
  next hi =>
    subst hi
    rw [hq] at hp'
    obtain rfl : f q = p' := Option.some.inj hp'
    exact ⟨q, hq, hf q hq hpid⟩
  next => exact ⟨p', hp', .same⟩

/-- A waiter that is woken becomes ready and changes in no other way. -/
lemma procStep_wake {r : BlockReason} (hp' : (a.sched.wake r).procs[i]? = some p') :
    ∃ p, a.sched.procs[i]? = some p ∧ ProcStep a b act out i p p' := by
  rw [Scheduler.getElem?_wake] at hp'
  obtain ⟨p, hp, rfl⟩ := Option.map_eq_some_iff.mp hp'
  refine ⟨p, hp, ?_⟩
  split
  next h => exact .woken h
  next => exact .same

/-- Every process after a step was there before and took one of the listed changes, or it is the
one that was spawned. -/
theorem proc (h : CoreStep plat a b act out) (hp' : b.sched.procs[i]? = some p') :
    (∃ p, a.sched.procs[i]? = some p ∧ ProcStep a b act out i p p') ∨
      (i = a.sched.procs.length ∧ Created plat a.mm a.sched.nextPid p') := by
  cases h with
  | quiet hact hout hs => rw [hs] at hp'; exact .inl ⟨p', hp', .same⟩
  | logged data hact hs => rw [hs] at hp'; exact .inl (procStep_modifyCur hp' (.logged data))
  | setBreak hact hs => rw [hs] at hp'; exact .inl (procStep_modifyCur hp' (.setBreak _))
  | charged hact hout h hs =>
    rw [hs] at hp'
    exact .inl (procStep_modifyCur hp' (.caps (.budget (CNode.chargeUntyped_same h))))
  | refunded hact hout h hs =>
    rw [hs] at hp'
    exact .inl (procStep_modifyCur hp' (.caps (.budget
      ((CNode.chargeUntyped_same h).trans (CNode.refundUntyped_same _ _)))))
  | frameInstalled hact hres h hins hs hc hcalls hkeep =>
    rw [hs] at hp'
    exact .inl (procStep_modifyCur hp'
      (.caps (.frame hact hres (CNode.chargeUntyped_same h) hins hcalls hkeep)))
  | @spawned args q caps hact hout hp hins hs hc =>
    rw [hs, Scheduler.getElem?_push] at hp'
    split at hp'
    next hi =>
      obtain rfl := Option.some.inj hp'
      exact .inr ⟨hi.trans (Scheduler.length_modifyCur ..), hp⟩
    next =>
      -- the parent gets the handle of the child, if it asked for one
      refine .inl (procStep_modifyCur hp' (.caps ?_))
      rcases hins with rfl | ⟨slot, hins⟩
      · exact .budget (.refl _)
      · exact .handle hact hout hins (by rw [hs]; rfl)
  | sent hact hout hid hsend hs => rw [hs] at hp'; exact .inl (procStep_wake hp')
  | signalled hact hout hid hsig hs => rw [hs] at hp'; exact .inl (procStep_wake hp')
  | received hact hrecv hins hs =>
    rw [hs] at hp'
    refine .inl (procStep_modifyCur hp' (.caps ?_))
    rcases hins with rfl | ⟨cap, hmsg, hins⟩
    · exact .budget (.refl _)
    · exact .received hact hrecv hmsg hins
  | taken hact hout htake hs => rw [hs] at hp'; exact .inl ⟨p', hp', .same⟩
  | parked hk hkont hout hs => rw [hs] at hp'; exact .inl (procStep_modifyCur hp' (.parked hk))
  | yielded hk hkont hout hs =>
    obtain ⟨j, -, hs⟩ := hs
    rw [hs] at hp'
    exact .inl (procStep_modifyCur hp' (.parked hk))
  | blocked hk hkont hout hwait hs hc =>
    rcases hs with ⟨j, -, hs⟩ | hs
    · rw [hs] at hp'
      -- parking and blocking change one and the same process
      rw [Scheduler.setCurrent_procs, Scheduler.setState, Scheduler.park,
        Scheduler.modifyCur_modifyCur] at hp'
      exact .inl (procStep_modifyCur hp' (.blocked hk hout hwait hc))
    · rw [hs] at hp'
      rw [Scheduler.setState, Scheduler.setState, Scheduler.park, Scheduler.modifyCur_modifyCur,
        Scheduler.modifyCur_modifyCur] at hp'
      exact .inl (procStep_modifyCur hp' (.unblocked hk))
  | exited code hact hout hs hc =>
    have hfin : (a.sched.finish code).procs[i]? = some p' := by
      rcases hs with ⟨j, -, hs⟩ | hs <;> rw [hs] at hp' <;> exact hp'
    exact .inl (procStep_modifyCur hfin (.finished code hout))
  | logTaken hact hpid hi hs =>
    rw [hs] at hp'
    exact .inl (procStep_modify hi hp' fun p _ hp => .logTaken hact (hp ▸ hpid))
  | killed hact hpid hne hi halive hs =>
    rw [hs] at hp'
    exact .inl (procStep_modify hi hp' fun p hp hpp => .killed hact (hpp ▸ hpid) (hpp ▸ hne) (halive p hp))
  | granted hact hres hpid hcap hi hins hs =>
    rw [hs] at hp'
    refine .inl (procStep_modify hi hp' fun p hp hpp => ?_)
    obtain ⟨q, hq, hins⟩ := hins
    obtain rfl : q = p := Option.some.inj (hq.symm.trans hp)
    exact .granted hact hres (hpp ▸ hpid) hcap hins

/-- A step adds at most one process, together with its PID. -/
theorem length (h : CoreStep plat a b act out) :
    (b.sched.procs.length = a.sched.procs.length ∧ b.sched.nextPid = a.sched.nextPid) ∨
      (b.sched.procs.length = a.sched.procs.length + 1 ∧ b.sched.nextPid = a.sched.nextPid + 1 ∧
        ∃ args, act = .call .spawn args ∨ act = .call .spawnEnv args) := by
  cases h with
  | spawned hact hout hp hins hs =>
    rw [hs]
    exact .inr ⟨by simp, rfl, _, hact⟩
  | yielded hk hkont hout hs =>
    obtain ⟨j, -, hs⟩ := hs
    rw [hs]
    exact .inl ⟨Scheduler.length_modifyCur .., rfl⟩
  | blocked hk hkont hout hwait hs =>
    rcases hs with ⟨j, -, hs⟩ | hs <;> rw [hs] <;>
      exact .inl ⟨by simp, rfl⟩
  | exited code hact hout hs =>
    rcases hs with ⟨j, -, hs⟩ | hs <;> rw [hs] <;>
      exact .inl ⟨by simp, rfl⟩
  | sent hact hout hid hsend hs => rw [hs]; exact .inl ⟨Scheduler.length_wake .., rfl⟩
  | signalled hact hout hid hsig hs => rw [hs]; exact .inl ⟨Scheduler.length_wake .., rfl⟩
  | logTaken hact hpid hi hs | killed hact hpid hne hi halive hs
  | granted hact hres hpid hcap hi hins hs => rw [hs]; exact .inl ⟨Scheduler.length_modify .., rfl⟩
  | quiet hact hout hs | taken hact hout htake hs => rw [hs]; exact .inl ⟨rfl, rfl⟩
  | logged data hact hs | setBreak hact hs | charged hact hout h hs | refunded hact hout h hs
  | frameInstalled hact hout h hins hs | received hact hrecv hins hs | parked hk hkont hout hs =>
    rw [hs]; exact .inl ⟨Scheduler.length_modifyCur .., rfl⟩

/-- No entry of the process table ever goes away. -/
lemma length_le (h : CoreStep plat a b act out) :
    a.sched.procs.length ≤ b.sched.procs.length := by
  rcases h.length with h | h <;> omega

/-- Processes stay in the table, at their index. -/
theorem stays (h : CoreStep plat a b act out) (hp : a.sched.procs[i]? = some p) :
    ∃ p', b.sched.procs[i]? = some p' ∧ ProcStep a b act out i p p' := by
  have hi : i < a.sched.procs.length := (List.getElem?_eq_some_iff.mp hp).1
  have hi' : i < b.sched.procs.length := Nat.lt_of_lt_of_le hi h.length_le
  have hp' := List.getElem?_eq_getElem hi'
  rcases h.proc hp' with ⟨q, hq, hstep⟩ | ⟨heq, -⟩
  · obtain rfl : q = p := Option.some.inj (hq.symm.trans hp)
    exact ⟨_, hp', hstep⟩
  · omega

/-- A field that has nothing to do with capabilities and scheduling is kept for every process that was
there before, unless it is the log or the break and the step is one of the calls that move these. -/
theorem field {β : Type*} {φ : Process → β} (h : CoreStep plat a b act out)
    (hφ : ∀ (p : Process) (caps : CNode) (kont : Kont) (state : State) (exitCode : ℕ),
      φ { p with caps, kont, state, exitCode } = φ p)
    (hlog : (∀ (p : Process) (logBuf : List UInt8), φ { p with logBuf } = φ p) ∨
      ∀ args, act ≠ .call .write args ∧ act ≠ .call .logRead args)
    (hbreak : (∀ (p : Process) (heapBreak : ℕ), φ { p with heapBreak } = φ p) ∨
      ∀ args, act ≠ .call .sbrk args) :
    ∃ l, b.sched.procs.map φ = a.sched.procs.map φ ++ l := by
  have hsame : b.sched.procs.map φ = a.sched.procs.map φ →
      ∃ l, b.sched.procs.map φ = a.sched.procs.map φ ++ l :=
    fun h => ⟨[], by rw [h, List.append_nil]⟩
  have hcaps : ∀ (p : Process) (caps : CNode), φ { p with caps } = φ p :=
    fun p caps => hφ p caps p.kont p.state p.exitCode
  have hkont : ∀ (p : Process) (kont : Kont), φ { p with kont } = φ p :=
    fun p kont => hφ p p.caps kont p.state p.exitCode
  have hstate : ∀ (p : Process) (state : State), φ { p with state } = φ p :=
    fun p state => hφ p p.caps p.kont state p.exitCode
  have hended : ∀ (p : Process) (state : State) (exitCode : ℕ),
      φ { p with state, exitCode } = φ p :=
    fun p state exitCode => hφ p p.caps p.kont state exitCode
  have hpark : ∀ (s : Scheduler) (kont : Kont), (s.park kont).procs.map φ = s.procs.map φ :=
    fun s kont => s.map_modifyCur fun p => hkont p kont
  have hset : ∀ (s : Scheduler) (st : State), (s.setState st).procs.map φ = s.procs.map φ :=
    fun s st => s.map_modifyCur fun p => hstate p st
  have hfinish : ∀ (s : Scheduler) (code : ℕ), (s.finish code).procs.map φ = s.procs.map φ :=
    fun s code => s.map_modifyCur fun p => hended p .done code
  have hswitch : ∀ {s s' : Scheduler}, s.Switched s' → s'.procs.map φ = s.procs.map φ := by
    rintro s s' ⟨i, -, rfl⟩
    rfl
  cases h with
  | quiet _ _ hs | taken _ _ _ hs => exact hsame (by rw [hs])
  | @logged args data hwrite hs =>
    rcases hlog with hlog | hlog
    · exact hsame (by rw [hs]; exact Scheduler.map_modifyCur _ fun p => hlog p _)
    · exact absurd hwrite (hlog args).1
  | @setBreak args _ hsbrk hs =>
    rcases hbreak with hbreak | hbreak
    · exact hsame (by rw [hs]; exact Scheduler.map_modifyCur _ fun p => hbreak p _)
    · exact absurd hsbrk (hbreak args)
  | charged _ _ _ hs | refunded _ _ _ hs | frameInstalled _ _ _ _ hs | received _ _ _ hs =>
    exact hsame (by rw [hs]; exact Scheduler.map_modifyCur _ fun p => hcaps p _)
  | spawned _ _ _ _ hs =>
    have hpar : ∀ caps, (a.sched.setCaps caps).procs.map φ = a.sched.procs.map φ :=
      fun caps => a.sched.map_modifyCur fun p => hcaps p caps
    rw [hs, Scheduler.map_push, hpar]
    exact ⟨_, rfl⟩
  | sent _ _ _ _ hs | signalled _ _ _ _ hs =>
    exact hsame (by rw [hs]; exact Scheduler.map_wake _ _ fun p => hstate p _)
  | parked _ _ _ hs => exact hsame (by rw [hs, hpark])
  | yielded _ _ _ hs => exact hsame (by rw [hswitch hs, hpark])
  | blocked _ _ _ _ hs =>
    rcases hs with hs | hs
    · exact hsame (by rw [hswitch hs, hset, hpark])
    · exact hsame (by rw [hs, hset, hset, hpark])
  | exited code _ _ hs =>
    rcases hs with hs | hs
    · exact hsame (by rw [hswitch hs, hfinish])
    · exact hsame (by rw [hs, hfinish])
  | @logTaken args _ _ _ hread _ _ hs =>
    rcases hlog with hlog | hlog
    · exact hsame (by rw [hs]; exact Scheduler.map_modify _ _ fun p => hlog p _)
    · exact absurd hread (hlog args).2
  | killed _ _ _ _ _ hs =>
    exact hsame (by rw [hs]; exact Scheduler.map_modify _ _ fun p => hended p _ _)
  | granted _ _ _ _ _ _ hs =>
    exact hsame (by rw [hs]; exact Scheduler.map_modify _ _ fun p => hcaps p _)

/-- Such a field of one process. -/
lemma field_getElem? {β : Type*} {φ : Process → β}
    (h : ∃ l, b.sched.procs.map φ = a.sched.procs.map φ ++ l) (hp : a.sched.procs[i]? = some p)
    (hp' : b.sched.procs[i]? = some p') : φ p' = φ p := by
  obtain ⟨l, hl⟩ := h
  have hi : i < (a.sched.procs.map φ).length := by
    rw [List.length_map]
    exact (List.getElem?_eq_some_iff.mp hp).1
  have hget : (b.sched.procs.map φ)[i]? = (a.sched.procs.map φ)[i]? := by
    rw [hl, List.getElem?_append_left hi]
  rw [List.getElem?_map, List.getElem?_map, hp, hp'] at hget
  exact Option.some.inj hget

end CoreStep

/-! ## What never changes about a process -/

/-- The same process: what it is created with and keeps for good. -/
structure Process.Same (p p' : Process) : Prop where
  pid : p'.pid = p.pid
  space : p'.space = p.space
  entry : p'.entry = p.entry
  userStackTop : p'.userStackTop = p.userStackTop
  kstackTop : p'.kstackTop = p.kstackTop
  envpUser : p'.envpUser = p.envpUser
  envpLen : p'.envpLen = p.envpLen

lemma Process.Same.refl (p : Process) : p.Same p := ⟨rfl, rfl, rfl, rfl, rfl, rfl, rfl⟩

/-- What a process is made of stays the same over several steps. -/
lemma Process.Same.trans {p p' p'' : Process} (h : p.Same p') (h' : p'.Same p'') : p.Same p'' :=
  ⟨h'.pid.trans h.pid, h'.space.trans h.space, h'.entry.trans h.entry,
    h'.userStackTop.trans h.userStackTop, h'.kstackTop.trans h.kstackTop,
    h'.envpUser.trans h.envpUser, h'.envpLen.trans h.envpLen⟩

/-- No step changes what a process is made of: its pid, its address space and its stacks. -/
lemma ProcStep.identity {a b : Core} {out : Option ℕ} {i : ℕ} {p p' : Process}
    (h : ProcStep a b act out i p p') : p.Same p' := by
  cases h with
  | own hi h => cases h <;> exact ⟨rfl, rfl, rfl, rfl, rfl, rfl, rfl⟩
  | _ => exact ⟨rfl, rfl, rfl, rfl, rfl, rfl, rfl⟩

/-- `create` makes the record of a new process. -/
lemma Created.eq_newProcess {m : Mm} {pid : ℕ} {p : Process} (h : Created plat m pid p) :
    ∃ space entry envpUser envpLen heapBreak,
      p = { newProcess plat pid space entry with envpUser, envpLen, heapBreak } := by
  obtain ⟨h⟩ := h
  rw [create] at h
  split at h
  · cases h
  split at h
  · cases h
  · cases h
  split at h
  · cases h
  · cases h
  · obtain ⟨h, -⟩ := Prod.mk.inj h
    cases h
    exact ⟨_, _, _, _, _, rfl⟩

/-- What `create` puts into a new record. -/
lemma Created.spec {m : Mm} {pid : ℕ} {p : Process} (h : Created plat m pid p) :
    p.pid = pid ∧ p.kont = .trampoline ∧ p.state = .ready ∧ p.caps = seedCaps pid ∧
      p.kstackTop = align16 (plat.kstackEnd pid) := by
  obtain ⟨space, entry, envpUser, envpLen, heapBreak, rfl⟩ := h.eq_newProcess
  exact ⟨rfl, rfl, rfl, rfl, rfl⟩

/-! ## Boot -/

/-- What `boot` leaves behind. -/
lemma boot_cases {k : Kernel} (h : boot plat = some k) :
    ∃ m₀ m p, enableInterrupts plat (initMm plat) = some m₀ ∧ create plat m₀ 0 = (.done p, m) ∧
      k = (firstKernel plat m p).resumeProcess ⟨0, firstKernel_length plat m p⟩ := by
  rw [boot] at h
  split at h
  · cases h
  next m₀ hm₀ =>
    split at h
    next p m hp => exact ⟨m₀, m, p, hm₀, hp, (Option.some.inj h).symm⟩
    next => cases h

/-- Right after boot there is one process, made by `create`, and no message. -/
lemma boot_core {k : Kernel} (h : boot plat = some k) :
    ∃ m p, Created plat m 0 p ∧ k.core.sched.procs = [p] ∧ k.core.sched.current = 0 ∧
      k.core.sched.nextPid = 1 ∧ (∀ id, k.core.ipc.endpoints id = []) ∧
      ∀ id, k.core.ipc.notifications id = 0 := by
  obtain ⟨m₀, m, p, -, hp, rfl⟩ := boot_cases h
  exact ⟨m₀, p, .mk hp, rfl, rfl, rfl, fun _ => rfl, fun _ => rfl⟩

end Xernel
