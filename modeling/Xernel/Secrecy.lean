import Xernel.Blind
import Xernel.Integrity
import Xernel.Sharing

/-!
# Secrets

What the kernel does for the other processes does not depend on the private memory of a process that is
not running: on other bytes there, a run gives the same results and leads to the same state, again up to
bytes that are private. `Kernel.Blind` says this of a handler; of all calls only `WRITE` and `SPAWN_ENV`
read memory, and only where the caller could read it itself.
-/

namespace Xernel

open Mm (Builds)
open TransitionSystem (path_of_replay)

variable {β : Type} {plat : Platform} {regions : List Region} {k k' : Kernel} {μ μ' : ℕ → UInt8}
  {e : Event} {out : Option ℕ}

namespace Kernel

/-- The same kernel with other bytes in memory. -/
def withMem (k : Kernel) (μ : ℕ → UInt8) : Kernel := { k with mm := k.mm.withMem μ }

/-- Two results of a handler, on `k` and on `k` with the bytes `μ`. -/
def Blind (k : Kernel) (μ : ℕ → UInt8) (r r' : Kernel × β) : Prop :=
  ∃ μ', r' = (r.1.withMem μ', r.2) ∧ k.mm.Agrees μ r.1.mm μ'

namespace Blind

variable {r r' : Kernel × β}

/-- Memory is neither read nor written. -/
lemma same (hmm : r.1.mm = k.mm) (heq : r' = (r.1.withMem μ, r.2)) : Blind k μ r r' :=
  ⟨μ, heq, by rw [hmm]; exact .refl _ μ⟩

/-- A result that is given back at once. -/
lemma refl (k : Kernel) (μ : ℕ → UInt8) (x : β) : Blind k μ (k, x) (k.withMem μ, x) := same rfl rfl

/-- A handler that goes on from a state that agrees. -/
lemma of_agrees {l : Kernel} {ν : ℕ → UInt8} (hag : k.mm.Agrees μ l.mm ν) (h : Blind l ν r r') :
    Blind k μ r r' := by
  obtain ⟨ν', heq, hag'⟩ := h
  exact ⟨ν', heq, hag.trans hag'⟩

/-- For functions that return the kernel last. -/
lemma attempt {r r' : β × Kernel} (h : Blind k μ r.swap r'.swap) :
    ∃ μ', r' = (r.1, r.2.withMem μ') ∧ k.mm.Agrees μ r.2.mm μ' := by
  obtain ⟨μ', heq, hag⟩ := h
  exact ⟨μ', Prod.ext (Prod.mk.inj heq).2 (Prod.mk.inj heq).1, hag⟩

end Blind

section WithMem

variable (k μ)

@[simp] lemma withMem_sched : (k.withMem μ).sched = k.sched := rfl
@[simp] lemma withMem_ipc : (k.withMem μ).ipc = k.ipc := rfl
@[simp] lemma withMem_win : (k.withMem μ).win = k.win := rfl
@[simp] lemma withMem_dev : (k.withMem μ).dev = k.dev := rfl
@[simp] lemma withMem_cpu : (k.withMem μ).cpu = k.cpu := rfl
@[simp] lemma withMem_exec : (k.withMem μ).exec = k.exec := rfl
@[simp] lemma withMem_mm : (k.withMem μ).mm = k.mm.withMem μ := rfl

/-- Whether a buffer may be written is a matter of the page tables. -/
@[simp] lemma userSliceMut_withMem (ptr len : ℕ) :
    (k.withMem μ).userSliceMut ptr len = k.userSliceMut ptr len := rfl

/-- Capabilities are looked up in the process table, not in memory. -/
@[simp] lemma currentCapGet_withMem (slot : ℕ) :
    (k.withMem μ).currentCapGet slot = k.currentCapGet slot := rfl

@[simp] lemma currentEndpointId_withMem (slot : ℕ) :
    (k.withMem μ).currentEndpointId slot = k.currentEndpointId slot := rfl

@[simp] lemma currentNotificationId_withMem (slot : ℕ) :
    (k.withMem μ).currentNotificationId slot = k.currentNotificationId slot := rfl

@[simp] lemma currentFrameCap_withMem (slot : ℕ) :
    (k.withMem μ).currentFrameCap slot = k.currentFrameCap slot := rfl

@[simp] lemma currentProcessPid_withMem (slot : ℕ) :
    (k.withMem μ).currentProcessPid slot = k.currentProcessPid slot := rfl

/-! ## Functions that leave memory alone -/

/-- Blocking neither reads nor writes memory. -/
lemma blockOn_withMem (reason : BlockReason) (kont : Kont) :
    (k.withMem μ).blockOn reason kont = (k.blockOn reason kont).withMem μ := by
  rw [blockOn, blockOn]
  dsimp only
  cases hp : ((k.park kont).modifyCur fun p => { p with state := .blocked reason }).sched.pickNext with
  | none =>
    have hp' : (((k.withMem μ).park kont).modifyCur
        fun p => { p with state := .blocked reason }).sched.pickNext = none := hp
    rw [hp']
    rfl
  | some i =>
    have hp' : (((k.withMem μ).park kont).modifyCur
        fun p => { p with state := .blocked reason }).sched.pickNext = some i := hp
    rw [hp']
    rfl

/-- Neither does yielding. -/
lemma yieldNow_withMem (kont : Kont) :
    (k.withMem μ).yieldNow kont = (k.yieldNow kont).map fun k => k.withMem μ := by
  rw [yieldNow, yieldNow]
  cases hp : (k.park kont).sched.pickNext with
  | none =>
    have hp' : ((k.withMem μ).park kont).sched.pickNext = none := hp
    rw [hp']
    rfl
  | some i =>
    have hp' : ((k.withMem μ).park kont).sched.pickNext = some i := hp
    rw [hp']
    show (if (i : ℕ) = k.sched.current then _ else _) =
      Option.map _ (if (i : ℕ) = k.sched.current then _ else _)
    split <;> rfl

/-- Nor does the end of a process. -/
lemma exitInner_withMem (code : ℕ) :
    (k.withMem μ).exitInner code = (k.exitInner code).withMem μ := by
  rw [exitInner, exitInner]
  cases hp : (k.modifyCur fun p => { p with exitCode := code, state := .done }).sched.pickNext with
  | none =>
    have hp' : ((k.withMem μ).modifyCur
        fun p => { p with exitCode := code, state := .done }).sched.pickNext = none := hp
    rw [hp']
    rfl
  | some i =>
    have hp' : ((k.withMem μ).modifyCur
        fun p => { p with exitCode := code, state := .done }).sched.pickNext = some i := hp
    rw [hp']
    rfl

/-- Capability tables are not in the memory that processes map. -/
lemma currentCapInstall_withMem (slot : ℕ) (cap : CapEntry) :
    (k.withMem μ).currentCapInstall slot cap =
      (k.currentCapInstall slot cap).map fun k => k.withMem μ := by
  rw [currentCapInstall, currentCapInstall, withMem_sched]
  cases k.sched.cur.caps.insert slot cap <;> rfl

/-- Nor are budgets. -/
lemma currentChargeUntyped_withMem (amount : ℕ) :
    (k.withMem μ).currentChargeUntyped amount =
      (k.currentChargeUntyped amount).map fun k => k.withMem μ := by
  rw [currentChargeUntyped, currentChargeUntyped, withMem_sched]
  cases k.sched.cur.caps.chargeUntyped amount <;> rfl

/-- Nor is the process table. -/
lemma addProcess_withMem (p : Process) (capSlot : ℕ) :
    (k.withMem μ).addProcess p capSlot =
      ((k.addProcess p capSlot).1, (k.addProcess p capSlot).2.withMem μ) := by
  have hinstall : (k.withMem μ).installProcessCap k.sched.nextPid capSlot =
      (k.installProcessCap k.sched.nextPid capSlot).map fun k => k.withMem μ := by
    rw [installProcessCap, installProcessCap, withMem_sched]
    split
    · rfl
    · cases k.sched.cur.caps.insert capSlot (.process k.sched.nextPid) <;> rfl
  rw [addProcess, addProcess, withMem_sched, hinstall]
  cases k.installProcessCap k.sched.nextPid capSlot <;> rfl

/-- Waiting for a process looks at its state only. -/
lemma waitPidLoop_withMem (pid : ℕ) :
    (k.withMem μ).waitPidLoop pid = ((k.waitPidLoop pid).1.withMem μ, (k.waitPidLoop pid).2) := by
  simp only [waitPidLoop, withMem_sched, yieldNow_withMem]
  split
  · rfl
  split
  · rfl
  split
  · rfl
  · cases k.yieldNow (.waitPid pid) <;> rfl

/-- The word of a notification is a kernel object. -/
lemma waitLoop_withMem (id : ℕ) :
    (k.withMem μ).waitLoop id = ((k.waitLoop id).1.withMem μ, (k.waitLoop id).2) := by
  simp only [waitLoop, withMem_ipc, blockOn_withMem]
  split <;> rfl

/-- A message is a word from a register and a capability from the table. -/
lemma sysSend_withMem (epSlot word capSlot : ℕ) :
    (k.withMem μ).sysSend epSlot word capSlot =
      ((k.sysSend epSlot word capSlot).1.withMem μ, (k.sysSend epSlot word capSlot).2) := by
  simp only [sysSend, currentEndpointId_withMem, withMem_ipc, currentCapGet_withMem]
  split
  · rfl
  split
  · split <;> rfl
  split
  · rfl
  · split <;> rfl

/-- So are the bits of a signal. -/
lemma sysSignal_withMem (slot bits : ℕ) :
    (k.withMem μ).sysSignal slot bits =
      ((k.sysSignal slot bits).1.withMem μ, (k.sysSignal slot bits).2) := by
  simp only [sysSignal, currentNotificationId_withMem, withMem_ipc]
  split
  · rfl
  · split <;> rfl

/-- Killing changes the state of a process. -/
lemma sysKill_withMem (slot signal : ℕ) :
    (k.withMem μ).sysKill slot signal =
      ((k.sysKill slot signal).1.withMem μ, (k.sysKill slot signal).2) := by
  have hkill : ∀ pid, (k.withMem μ).kill pid signal =
      ((k.kill pid signal).1, (k.kill pid signal).2.withMem μ) := by
    intro pid
    simp only [kill, withMem_sched]
    split
    · rfl
    split
    · split <;> rfl
    · rfl
  simp only [sysKill, currentProcessPid_withMem, hkill]
  split <;> rfl

/-- A grant copies from table to table. -/
lemma sysCapGrant_withMem (procSlot srcSlot dstSlot : ℕ) :
    (k.withMem μ).sysCapGrant procSlot srcSlot dstSlot =
      ((k.sysCapGrant procSlot srcSlot dstSlot).1.withMem μ,
        (k.sysCapGrant procSlot srcSlot dstSlot).2) := by
  have hgrant : ∀ pid cap, (k.withMem μ).grantTo pid cap dstSlot =
      (k.grantTo pid cap dstSlot).map fun k => k.withMem μ := by
    intro pid cap
    simp only [grantTo, withMem_sched]
    split
    · split <;> rfl
    · rfl
  simp only [sysCapGrant, currentProcessPid_withMem, currentCapGet_withMem, hgrant]
  split
  · rfl
  split
  · rfl
  next pid _ _ cap _ => cases k.grantTo pid cap dstSlot <;> rfl

/-- Logs are kept by the kernel. -/
lemma logRead_withMem (pid max : ℕ) :
    (k.withMem μ).logRead pid max = ((k.logRead pid max).1, (k.logRead pid max).2.withMem μ) := by
  simp only [logRead, withMem_sched]
  split <;> rfl

end WithMem

/-! ## Writing results -/

/-- Writing to a user buffer makes both memories agree there. -/
lemma copyOut_blind (k : Kernel) (μ : ℕ → UInt8) (ptr : ℕ) (bytes : List UInt8) (x : β) :
    Blind k μ (k.copyOut ptr bytes, x) ((k.withMem μ).copyOut ptr bytes, x) := by
  obtain ⟨μ', heq, hag⟩ := k.mm.writeUser_agrees μ k.cpu.cr3 ptr bytes
  refine ⟨μ', ?_, hag⟩
  rw [copyOut, withMem_mm, withMem_cpu, heq]
  rfl

/-- A result is written if the buffer is in order. -/
lemma copyOutIf_blind (k : Kernel) (μ : ℕ → UInt8) (ptr len : ℕ) (bytes : List UInt8) (x y : β) :
    Blind k μ (if k.userSliceMut ptr len then (k.copyOut ptr bytes, x) else (k, y))
      (if (k.withMem μ).userSliceMut ptr len then ((k.withMem μ).copyOut ptr bytes, x)
        else (k.withMem μ, y)) := by
  rw [userSliceMut_withMem]
  split
  · exact copyOut_blind k μ ptr bytes x
  · exact .refl k μ y

/-- What was typed comes from the keyboard buffer. -/
lemma readKeys_blind (k : Kernel) (μ : ℕ → UInt8) (ptr len : ℕ) :
    Blind k μ ((k.readKeys ptr len).2, (k.readKeys ptr len).1)
      (((k.withMem μ).readKeys ptr len).2, ((k.withMem μ).readKeys ptr len).1) :=
  copyOut_blind { k with dev := { k.dev with keyboard := (k.dev.keyboard.drain len).2 } } μ ptr
    (k.dev.keyboard.drain len).1 (k.dev.keyboard.drain len).1.length

/-- So it does in a blocking read. -/
lemma readLoop_blind (k : Kernel) (μ : ℕ → UInt8) (ptr len : ℕ) :
    Blind k μ (k.readLoop ptr len) ((k.withMem μ).readLoop ptr len) := by
  obtain ⟨μ', heq, hag⟩ := readKeys_blind k μ ptr len
  obtain ⟨hk, hn⟩ := Prod.mk.inj heq
  rw [readLoop, readLoop]
  rw [← Prod.mk.eta (p := k.readKeys ptr len), ← Prod.mk.eta (p := (k.withMem μ).readKeys ptr len),
    hk, hn]
  cases (k.readKeys ptr len).1 with
  | zero => exact .same rfl rfl
  | succ n => exact ⟨μ', rfl, hag⟩

/-- The word of a message is written to the receiver's buffer. -/
lemma deliverMessage_blind (k : Kernel) (μ : ℕ → UInt8) (msg : Message) (outPtr dstSlot : ℕ) :
    Blind k μ (k.deliverMessage msg outPtr dstSlot)
      ((k.withMem μ).deliverMessage msg outPtr dstSlot) := by
  rw [deliverMessage, deliverMessage]
  dsimp only
  split
  · exact copyOutIf_blind k μ ..
  split
  · exact copyOutIf_blind k μ ..
  next cap _ _ =>
    rw [currentCapInstall_withMem]
    cases hins : k.currentCapInstall dstSlot cap with
    | none => exact .refl k μ _
    | some k₁ =>
      obtain ⟨caps, -, rfl⟩ := currentCapInstall_eq_some hins
      exact copyOutIf_blind { k with sched := k.sched.setCaps caps } μ ..

/-- Nothing is written when a word is taken. -/
lemma waitLoop_blind (k : Kernel) (μ : ℕ → UInt8) (id : ℕ) :
    Blind k μ (k.waitLoop id) ((k.withMem μ).waitLoop id) := by
  refine .same ?_ (waitLoop_withMem ..)
  rw [waitLoop]
  split
  · rfl
  · exact blockOn_mm ..

/-- A receive writes the word and nothing else. -/
lemma recvLoop_blind (k : Kernel) (μ : ℕ → UInt8) (id outPtr dstSlot : ℕ) :
    Blind k μ (k.recvLoop id outPtr dstSlot) ((k.withMem μ).recvLoop id outPtr dstSlot) := by
  rw [recvLoop, recvLoop, withMem_ipc]
  split
  next msg ipc _ => exact deliverMessage_blind { k with ipc } μ msg outPtr dstSlot
  next => exact .same (blockOn_mm ..) (by rw [blockOn_withMem])

/-- A log is written to the reader's buffer. -/
lemma sysLogRead_blind (k : Kernel) (μ : ℕ → UInt8) (slot outPtr max : ℕ) :
    Blind k μ (k.sysLogRead slot outPtr max) ((k.withMem μ).sysLogRead slot outPtr max) := by
  rw [sysLogRead, sysLogRead, currentProcessPid_withMem]
  split
  · exact .refl k μ _
  next pid _ =>
    dsimp only
    rw [userSliceMut_withMem, logRead_withMem]
    split
    · refine .of_agrees (l := (k.logRead pid (min max 65536)).2) (ν := μ) ?_
        (copyOut_blind _ μ outPtr _ _)
      have hmm : (k.logRead pid (min max 65536)).2.mm = k.mm := by
        rw [logRead]
        split <;> rfl
      rw [hmm]
      exact .refl _ μ
    · exact .refl k μ _

/-! ## Mapping -/

section Calls

variable (hr : AllocatorRun regions k.mm.frames k.mm.calls)

include hr

/-- The frames of the framebuffer agree. -/
lemma sysFbInfo_blind
    (hgiven : ∀ f ∈ plat.framebufferFrames, k.mm.SameAt μ (pageDown f) frameSize) (ptr : ℕ) :
    Blind k μ (k.sysFbInfo plat ptr) ((k.withMem μ).sysFbInfo plat ptr) := by
  rw [sysFbInfo, sysFbInfo]
  cases hfb : plat.framebuffer with
  | none => exact .refl k μ _
  | some fb =>
    dsimp only
    have hframes : ∀ i < pagesFor (fb.phys - pageDown fb.phys + fb.height * fb.pitch),
        k.mm.SameAt μ (pageDown (pageDown fb.phys + i * frameSize)) frameSize := by
      intro i hi
      refine hgiven _ ?_
      rw [Platform.framebufferFrames, hfb, Option.elim_some]
      exact mem_blockRun.mpr ⟨i, hi, rfl⟩
    obtain ⟨-, μ₁, heq, hag⟩ := mapRun_mapUserDevice_blind hr hframes k.cpu.cr3 fbUserVa
    rw [withMem_mm, withMem_cpu, heq]
    generalize mapRun _ _ _ _ k.mm = res at hag
    obtain ⟨o, mm⟩ := res
    cases o with
    | panic => exact ⟨μ₁, rfl, hag⟩
    | failed => exact ⟨μ₁, rfl, hag⟩
    | done => exact .of_agrees (l := { k with mm }) hag (copyOutIf_blind { k with mm } μ₁ ..)

/-- The frames that the capability covers agree. -/
lemma sysIomap_blind
    (hgiven : ∀ f, k.sched.MayMap plat f → k.mm.SameAt μ (pageDown f) frameSize) (phys len : ℕ) :
    Blind k μ (k.sysIomap phys len) ((k.withMem μ).sysIomap phys len) := by
  rw [sysIomap, sysIomap]
  split
  · exact .refl k μ _
  dsimp only
  rw [withMem_sched]
  split
  · exact .refl k μ _
  next hauth =>
    rw [withMem_win]
    split
    · exact .refl k μ _
    · have hframes : ∀ i < pagesFor (phys - pageDown phys + len),
          k.mm.SameAt μ (pageDown (pageDown phys + i * frameSize)) frameSize := by
        intro i hi
        obtain ⟨slot, cap, hcap, hmmio⟩ := CNode.authorizesMmio_eq_true (by simpa using hauth)
        refine hgiven _ (.inr (.inl ⟨slot, cap, hcap, ?_⟩))
        unfold CapEntry.authorizesMmio at hmmio
        split at hmmio
        · cases hmmio
        next htype =>
          split at hmmio
          · simp only [Bool.and_eq_true, decide_eq_true_eq] at hmmio
            have hpage : (i + 1) * frameSize ≤ pagesFor (phys - pageDown phys + len) * frameSize :=
              Nat.mul_le_mul_right _ hi
            rw [Nat.succ_mul] at hpage
            exact ⟨not_not.mp htype, by omega, by omega⟩
          · cases hmmio
      obtain ⟨-, μ₁, heq, hag⟩ := mapRun_mapUserDevice_blind hr hframes k.cpu.cr3 k.win.nextMmioVa
      rw [withMem_mm, withMem_cpu, heq]
      generalize mapRun _ _ _ _ k.mm = res at hag
      obtain ⟨o, mm⟩ := res
      cases o with
      | panic => exact ⟨μ₁, rfl, hag⟩
      | failed => exact ⟨μ₁, rfl, hag⟩
      | done => exact ⟨μ₁, rfl, hag⟩

/-- A run whose bytes agree is mapped into the shared window. -/
lemma mapShared_blind {phys pages : ℕ}
    (hrun : ∀ i < pages, k.mm.SameAt μ (pageDown (phys + i * frameSize)) frameSize) :
    Blind k μ (k.mapShared phys pages).swap ((k.withMem μ).mapShared phys pages).swap := by
  rw [mapShared, mapShared]
  dsimp only
  rw [withMem_win]
  split
  · exact ⟨μ, rfl, .refl _ μ⟩
  · obtain ⟨-, μ₁, heq, hag⟩ := mapRun_mapUser_blind hr hrun k.cpu.cr3 k.win.nextSharedVa
    rw [withMem_mm, withMem_cpu, heq]
    generalize mapRun _ _ _ _ k.mm = res at hag
    obtain ⟨o, mm⟩ := res
    cases o with
    | panic => exact ⟨μ₁, rfl, hag⟩
    | failed => exact ⟨μ₁, rfl, hag⟩
    | done => exact ⟨μ₁, rfl, hag⟩

/-- What a Frame capability maps for its holder is not private. -/
lemma sysMapFrame_blind
    (hgiven : ∀ f, k.sched.MayMap plat f → k.mm.SameAt μ (pageDown f) frameSize)
    (capSlot outPtr : ℕ) :
    Blind k μ (k.sysMapFrame capSlot outPtr) ((k.withMem μ).sysMapFrame capSlot outPtr) := by
  rw [sysMapFrame, sysMapFrame, currentFrameCap_withMem]
  cases hcap : k.currentFrameCap capSlot with
  | none => exact .refl k μ _
  | some run =>
    obtain ⟨phys, pages⟩ := run
    have hframes : ∀ i < pages, k.mm.SameAt μ (pageDown (phys + i * frameSize)) frameSize :=
      fun i hi => hgiven _
        (.inl ⟨capSlot, phys, pages, currentFrameCap_eq_some hcap, mem_blockRun.mpr ⟨i, hi, rfl⟩⟩)
    obtain ⟨μ₁, heq, hag⟩ := (mapShared_blind hr hframes).attempt
    dsimp only
    rw [heq]
    generalize k.mapShared phys pages = res at hag
    obtain ⟨o, k₁⟩ := res
    cases o with
    | panic => exact ⟨μ₁, rfl, hag⟩
    | failed => exact ⟨μ₁, rfl, hag⟩
    | done va => exact .of_agrees hag (copyOutIf_blind k₁ μ₁ ..)

variable (hdisj : (regions.map Region.rounded).Pairwise Region.Disjoint)

/-! ## New memory -/

omit hr in
/-- Giving a run back changes no bytes. -/
lemma frameAllocUnwind_blind (k : Kernel) (μ : ℕ → UInt8) (phys : Option ℕ) (pages : ℕ) :
    Blind k μ (k.frameAllocUnwind phys pages) ((k.withMem μ).frameAllocUnwind phys pages) := by
  cases phys with
  | none => exact .same rfl rfl
  | some phys =>
    have hfree : ∀ (n : ℕ) (m : Mm) (phys : ℕ),
        freeRun (m.withMem μ) phys n = (freeRun m phys n).withMem μ := by
      intro n
      induction n with
      | zero => exact fun _ _ => rfl
      | succ n ih => exact fun m phys => ih (m.frameFree phys) (phys + frameSize)
    refine ⟨μ, ?_, .of_pt (freeRun_pt ..) (freeRun_calls ..) (by simp) fun a ha => ?_⟩
    · rw [frameAllocUnwind, frameAllocUnwind, Option.elim_some, Option.elim_some, withMem_mm, hfree]
      rfl
    · show μ a = (freeRun k.mm phys pages).mem a
      rw [freeRun_mem]
      exact ha

include hdisj

/-- Fresh pages of the heap are zero in both. -/
lemma orMax_sbrk_blind (μ : ℕ → UInt8) (delta : ℤ) :
    Blind k μ (orMax (k.sbrk delta)) (orMax ((k.withMem μ).sbrk delta)) := by
  rw [sbrk, sbrk]
  dsimp only
  rw [withMem_sched]
  split
  · exact .refl k μ _
  split
  · exact .refl k μ _
  split
  · exact .refl k μ _
  generalize (if delta > 0 then _ else _ : ℕ) = new
  split
  · exact .refl k μ _
  split
  · obtain ⟨-, μ₁, heq, hag⟩ := allocMapPages_blind hdisj hr μ k.sched.cur.space
      ((pageUp new - pageUp k.sched.cur.heapBreak) / frameSize) (pageUp k.sched.cur.heapBreak)
    rw [withMem_mm, heq]
    generalize allocMapPages _ _ _ k.mm = res at hag
    obtain ⟨o, mm⟩ := res
    cases o with
    | panic => exact ⟨μ₁, rfl, hag⟩
    | failed => exact ⟨μ₁, rfl, hag⟩
    | done => exact ⟨μ₁, rfl, hag⟩
  · exact .same rfl rfl

/-- So is a DMA buffer. -/
lemma dmaAllocCharged_blind (μ : ℕ → UInt8) {pages : ℕ} (hpages : pages < 2 ^ 40) (outPtr : ℕ) :
    Blind k μ (k.dmaAllocCharged pages outPtr).swap
      ((k.withMem μ).dmaAllocCharged pages outPtr).swap := by
  have halloc : (k.mm.withMem μ).frameAllocContiguous pages =
      ((k.mm.frameAllocContiguous pages).1, (k.mm.frameAllocContiguous pages).2.withMem μ) := rfl
  rw [dmaAllocCharged, dmaAllocCharged, withMem_mm, halloc]
  cases ha : k.mm.frameAllocContiguous pages with
  | mk got mm =>
    cases got with
    | none =>
      obtain ⟨hgot, rfl⟩ := Prod.mk.inj ha
      refine ⟨μ, rfl, .of_pt rfl rfl ?_ fun _ h => h⟩
      rw [hgot]
      simp
    | some phys =>
      obtain ⟨μ₁, heq₁, hag₁, hrun₁, hpage⟩ := Mm.zeroedRun_agrees hdisj hr hpages ha μ
      dsimp only
      rw [heq₁, withMem_win]
      split
      · exact ⟨μ₁, rfl, hag₁⟩
      · obtain ⟨-, μ₂, heq₂, hag₂⟩ := mapRun_mapUser_blind (m := mm.zero phys (pages * frameSize))
          hrun₁ hpage k.cpu.cr3 k.win.nextDmaVa
        rw [withMem_cpu, heq₂]
        generalize mapRun _ _ _ _ (mm.zero _ _) = res at hag₂
        obtain ⟨o, mm'⟩ := res
        have hag := hag₁.trans hag₂
        cases o with
        | panic => exact ⟨μ₂, rfl, hag⟩
        | failed => exact ⟨μ₂, rfl, hag⟩
        | done =>
          dsimp only
          rw [apply_ite Prod.swap, apply_ite Prod.swap]
          exact .of_agrees hag (copyOutIf_blind { k with mm := mm', win := _ } μ₂ ..)

/-- The charge before it does not depend on memory. -/
lemma sysDmaAlloc_blind (μ : ℕ → UInt8) (len outPtr : ℕ) :
    Blind k μ (k.sysDmaAlloc len outPtr) ((k.withMem μ).sysDmaAlloc len outPtr) := by
  rw [sysDmaAlloc, sysDmaAlloc]
  split
  · exact .refl k μ _
  next hlen =>
    have hpages : pagesFor len < 2 ^ 40 := by
      simp only [pagesFor, frameSize]
      omega
    dsimp only
    rw [currentChargeUntyped_withMem]
    cases hcharge : k.currentChargeUntyped (pagesFor len * frameSize) with
    | none => exact .refl k μ _
    | some k₁ =>
      obtain ⟨caps, -, rfl⟩ := currentChargeUntyped_eq_some hcharge
      obtain ⟨μ₁, heq, hag⟩ := (dmaAllocCharged_blind
        (k := { k with sched := k.sched.setCaps caps }) hr hdisj μ hpages outPtr).attempt
      rw [Option.map_some]
      dsimp only
      rw [heq]
      generalize dmaAllocCharged _ _ _ = res at hag
      obtain ⟨o, k₂⟩ := res
      cases o with
      | panic => exact ⟨μ₁, rfl, hag⟩
      | failed => exact ⟨μ₁, rfl, hag⟩
      | done => exact ⟨μ₁, rfl, hag⟩

/-- A run of frames is zero when it is shared, and nothing is read when it is given back. -/
lemma sysFrameAlloc_blind (μ : ℕ → UInt8) (pages capSlot outPtr : ℕ) :
    Blind k μ (k.sysFrameAlloc pages capSlot outPtr)
      ((k.withMem μ).sysFrameAlloc pages capSlot outPtr) := by
  rw [sysFrameAlloc, sysFrameAlloc]
  split
  · exact .refl k μ _
  next hpages =>
    have hlt : pages < 2 ^ 40 := by
      simp only [maxSharedPages] at hpages
      omega
    dsimp only
    rw [currentChargeUntyped_withMem]
    cases hcharge : k.currentChargeUntyped (pages * frameSize) with
    | none => exact .refl k μ _
    | some k₀ =>
      obtain ⟨caps, -, rfl⟩ := currentChargeUntyped_eq_some hcharge
      have halloc : (k.mm.withMem μ).frameAllocContiguous pages =
          ((k.mm.frameAllocContiguous pages).1, (k.mm.frameAllocContiguous pages).2.withMem μ) := rfl
      rw [Option.map_some]
      dsimp only
      rw [withMem_mm, halloc]
      cases ha : k.mm.frameAllocContiguous pages with
      | mk got mm =>
        cases got with
        | none =>
          obtain ⟨hgot, hmm⟩ := Prod.mk.inj ha
          refine .of_agrees (l := { k with sched := k.sched.setCaps caps, mm }) (ν := μ) ?_
            (frameAllocUnwind_blind _ μ none pages)
          rw [← hmm]
          refine .of_pt rfl rfl ?_ fun _ h => h
          rw [hgot]
          simp
        | some phys =>
          obtain ⟨μ₁, heq₁, hag₁, hrun₁, hpage⟩ := Mm.zeroedRun_agrees hdisj hr hlt ha μ
          obtain ⟨μ₂, heq₂, hag₂⟩ := (mapShared_blind
            (k := { k with sched := k.sched.setCaps caps, mm := mm.zero phys (pages * frameSize) })
            hrun₁ hpage).attempt
          have hk₁ : ({ (({ k with sched := k.sched.setCaps caps } : Kernel).withMem μ) with
              mm := (mm.withMem μ).zero phys (pages * frameSize) } : Kernel) =
              { k with sched := k.sched.setCaps caps,
                       mm := mm.zero phys (pages * frameSize) }.withMem μ₁ := by rw [heq₁]; rfl
          dsimp only
          rw [hk₁, heq₂]
          have hag := hag₁.trans hag₂
          generalize mapShared _ _ _ = res at hag
          obtain ⟨o, k₂⟩ := res
          cases o with
          | panic => exact ⟨μ₂, rfl, hag⟩
          | failed => exact .of_agrees hag (frameAllocUnwind_blind k₂ μ₂ (some phys) pages)
          | done va =>
            dsimp only
            rw [userSliceMut_withMem]
            split
            · obtain ⟨μ₃, heq₃, hag₃⟩ := copyOut_blind k₂ μ₂ outPtr (leBytes 8 va) ()
              rw [(Prod.mk.inj heq₃).1, currentCapInstall_withMem]
              have hag' := hag.trans hag₃
              cases hins : (k₂.copyOut outPtr (leBytes 8 va)).currentCapInstall capSlot
                  (.frame phys pages) with
              | none => exact .of_agrees hag' (frameAllocUnwind_blind _ μ₃ (some phys) pages)
              | some k₃ =>
                obtain ⟨caps', -, rfl⟩ := currentCapInstall_eq_some hins
                exact ⟨μ₃, rfl, hag'⟩
            · exact .of_agrees hag (frameAllocUnwind_blind k₂ μ₂ (some phys) pages)

/-! ## Creating processes -/

omit hr hdisj in
/-- The error value is the same in both. -/
lemma orMax_blind {r r' : Attempt ℕ × Kernel} (h : Blind k μ r.swap r'.swap) :
    Blind k μ (orMax r) (orMax r') := by
  obtain ⟨μ', rfl, hag⟩ := h.attempt
  obtain ⟨o, k'⟩ := r
  cases o with
  | panic => exact ⟨μ', rfl, hag⟩
  | failed => exact ⟨μ', rfl, hag⟩
  | done v => exact ⟨μ', rfl, hag⟩

omit hr hdisj in
/-- The new process is the same record. -/
lemma addProcess_blind (k : Kernel) (μ : ℕ → UInt8) (p : Process) (capSlot : ℕ) :
    Blind k μ (k.addProcess p capSlot).swap ((k.withMem μ).addProcess p capSlot).swap :=
  .same (addProcess_mm ..) (by rw [addProcess_withMem]; rfl)

/-- A child is loaded from the image of the kernel. -/
lemma spawn_blind (plat : Platform) (μ : ℕ → UInt8) (capSlot : ℕ) :
    Blind k μ (k.spawn plat capSlot).swap ((k.withMem μ).spawn plat capSlot).swap := by
  obtain ⟨-, μ₁, heq, hag⟩ := create_blind hdisj plat hr μ k.sched.nextPid
  rw [spawn, spawn, withMem_mm, withMem_sched, heq]
  generalize create plat k.mm k.sched.nextPid = res at hag
  obtain ⟨o, mm⟩ := res
  cases o with
  | panic => exact ⟨μ₁, rfl, hag⟩
  | failed => exact ⟨μ₁, rfl, hag⟩
  | done p => exact .of_agrees (l := { k with mm }) hag (addProcess_blind { k with mm } μ₁ p capSlot)

/-- What the caller can read agrees, and so does the environment that is copied from there. -/
lemma spawnEnv_blind (plat : Platform)
    (hread : k.mm.ReadsSame μ k.cpu.cr3 (k.mm.Readable k.cpu.cr3)) (envpPtr envpLen capSlot : ℕ) :
    Blind k μ (k.spawnEnv plat envpPtr envpLen capSlot).swap
      ((k.withMem μ).spawnEnv plat envpPtr envpLen capSlot).swap := by
  rw [spawnEnv, spawnEnv]
  split
  · exact spawn_blind hr hdisj plat μ capSlot
  next henv =>
    obtain ⟨hr₁, μ₁, heq, hag⟩ := create_blind hdisj plat hr μ k.sched.nextPid
    rw [withMem_mm, withMem_sched, heq]
    generalize create plat k.mm k.sched.nextPid = res at hr₁ hag
    obtain ⟨o, mm⟩ := res
    cases o with
    | panic => exact ⟨μ₁, rfl, hag⟩
    | failed => exact ⟨μ₁, rfl, hag⟩
    | done p =>
      have hok : (mm.withMem μ₁).userRangeOk k.cpu.cr3 envpPtr envpLen false =
          mm.userRangeOk k.cpu.cr3 envpPtr envpLen false := rfl
      dsimp only
      split
      · exact ⟨μ₁, rfl, hag⟩
      rw [withMem_cpu, hok]
      split
      · exact ⟨μ₁, rfl, hag⟩
      next hrange =>
        have hS : ∀ j < envpLen, envpPtr + j ∈ mm.Readable k.cpu.cr3 := by
          have hchecked := (not_or.mp hrange).2
          exact ((Mm.userRangeOk_iff (by omega)).mp (by simpa using hchecked)).2
        obtain ⟨-, μ₂, heq₂, hag₂⟩ := copyEnv_blind hdisj k.cpu.cr3 p.space envpPtr envpLen hS
          (pagesFor envpLen) 0 mm μ₁ hr₁ (hread.readable hag)
        rw [heq₂]
        have hag := hag.trans hag₂
        generalize copyEnv _ _ _ _ _ _ mm = res at hag
        obtain ⟨o, mm'⟩ := res
        cases o with
        | panic => exact ⟨μ₂, rfl, hag⟩
        | failed => exact ⟨μ₂, rfl, hag⟩
        | done =>
          exact .of_agrees (l := { k with mm := mm' }) hag
            (addProcess_blind { k with mm := mm' } μ₂ _ capSlot)

omit hr hdisj in
/-- What is written to the log agrees. -/
lemma sysWrite_blind (hread : k.mm.ReadsSame μ k.cpu.cr3 (k.mm.Readable k.cpu.cr3))
    (fd ptr len : ℕ) : Blind k μ (k.sysWrite fd ptr len) ((k.withMem μ).sysWrite fd ptr len) := by
  have hslice : (k.withMem μ).userSlice ptr len = k.userSlice ptr len := by
    have hok : (k.withMem μ).userBufferOk ptr len false = k.userBufferOk ptr len false := rfl
    rw [userSlice, userSlice, hok]
    split
    · rfl
    split
    next hlen hbuf =>
      rw [withMem_mm, withMem_cpu, hread.readUser fun i hi => ?_]
      exact Mm.userPageOk_iff.mpr ((userBufferOk_iff hlen).mp hbuf |>.2.2.2 _ (by omega) (by omega))
    · rfl
  rw [sysWrite, sysWrite, hslice]
  split
  · exact .refl k μ _
  · split <;> exact .same rfl rfl

/-! ## All system calls -/

/-- Every system call does the same on other bytes, if those agree where the caller may look and where it
may map. -/
theorem dispatch_blind
    (hgiven : ∀ f, k.sched.MayMap plat f → k.mm.SameAt μ (pageDown f) frameSize)
    (hread : k.mm.ReadsSame μ k.cpu.cr3 (k.mm.Readable k.cpu.cr3))
    (nr : UInt64) (args : Args) (hw : Hw) :
    Blind k μ (k.dispatch plat nr args hw) ((k.withMem μ).dispatch plat nr args hw) := by
  rw [dispatch, dispatch]
  generalize Sys.decode nr = decoded
  cases decoded with
  | none => exact .refl k μ _
  | some sys =>
    cases sys with
    | write => exact sysWrite_blind hread ..
    | spawnEnv => exact orMax_blind (spawnEnv_blind hr hdisj plat hread ..)
    | spawn => exact orMax_blind (spawn_blind hr hdisj plat μ _)
    | sbrk => exact orMax_sbrk_blind hr hdisj μ _
    | fbInfo => exact sysFbInfo_blind hr (fun f hf => hgiven f (.inr (.inr hf))) _
    | iomap => exact sysIomap_blind hr hgiven ..
    | mapFrame => exact sysMapFrame_blind hr hgiven ..
    | dmaAlloc => exact sysDmaAlloc_blind hr hdisj μ ..
    | frameAlloc => exact sysFrameAlloc_blind hr hdisj μ ..
    | logRead => exact sysLogRead_blind k μ ..
    | read =>
      show Blind k μ (k.sysRead _ _) ((k.withMem μ).sysRead _ _)
      rw [sysRead, sysRead, userSliceMut_withMem]
      split
      · exact readLoop_blind k μ ..
      · exact .refl k μ _
    | readNb =>
      show Blind k μ (k.sysReadNb _ _) ((k.withMem μ).sysReadNb _ _)
      rw [sysReadNb, sysReadNb, userSliceMut_withMem]
      split
      · obtain ⟨μ', heq, hag⟩ := readKeys_blind k μ args.rsi.toNat args.rdx.toNat
        obtain ⟨hk, hn⟩ := Prod.mk.inj heq
        exact ⟨μ', by rw [hk, hn], hag⟩
      · exact .refl k μ _
    | capIdentify =>
      show Blind k μ (k.sysCapIdentify _ _) ((k.withMem μ).sysCapIdentify _ _)
      rw [sysCapIdentify, sysCapIdentify, currentCapGet_withMem]
      split
      · exact .refl k μ _
      · exact copyOutIf_blind k μ ..
    | getenvp => exact copyOutIf_blind k μ ..
    | recv =>
      show Blind k μ (k.sysRecv _ _ _) ((k.withMem μ).sysRecv _ _ _)
      rw [sysRecv, sysRecv, currentEndpointId_withMem]
      split
      · exact .refl k μ _
      · exact recvLoop_blind k μ ..
    -- the rest leaves memory alone
    | exit => exact .same (exitInner_mm ..) (by rw [exitInner_withMem])
    | send => exact .same (sysSend_mm ..) (sysSend_withMem ..)
    | signal =>
      refine .same ?_ (sysSignal_withMem ..)
      show (k.sysSignal _ _).1.mm = k.mm
      rw [sysSignal]
      split
      · rfl
      · split <;> rfl
    | kill => exact .same (sysKill_mm ..) (sysKill_withMem ..)
    | capGrant => exact .same (sysCapGrant_mm ..) (sysCapGrant_withMem ..)
    | wait =>
      show Blind k μ (k.sysWait _) ((k.withMem μ).sysWait _)
      rw [sysWait, sysWait, currentNotificationId_withMem]
      split
      · exact .refl k μ _
      · exact waitLoop_blind k μ _
    | waitPid =>
      show Blind k μ (k.sysWaitPid _) ((k.withMem μ).sysWaitPid _)
      rw [sysWaitPid, sysWaitPid, currentProcessPid_withMem]
      split
      · exact .refl k μ _
      rw [waitPid, waitPid]
      split
      · exact .refl k μ _
      · exact .same (waitPidLoop_same_mm ..) (waitPidLoop_withMem ..)
    | yield =>
      dsimp only
      rw [yieldNow_withMem]
      cases hy : k.yieldNow .yield with
      | none => exact .refl k μ _
      | some k₁ => exact .same (yieldNow_mm hy) rfl
    | portIn =>
      show Blind k μ (k.sysPortIn _ _ _) ((k.withMem μ).sysPortIn _ _ _)
      rw [sysPortIn, sysPortIn, withMem_sched]
      split <;> exact .same rfl rfl
    | portOut =>
      show Blind k μ (k.sysPortOut _ _ _) ((k.withMem μ).sysPortOut _ _ _)
      rw [sysPortOut, sysPortOut, withMem_sched]
      split <;> exact .same rfl rfl
    | getStatus =>
      show Blind k μ (k.sysGetStatus _) ((k.withMem μ).sysGetStatus _)
      rw [sysGetStatus, sysGetStatus, currentProcessPid_withMem]
      split <;> exact .same rfl rfl
    | debug | getTicks | sysinfo | getpid | pciRead => exact .same rfl rfl

end Calls

/-- The way back to ring 3. -/
lemma Blind.syscallExit {r r' : Kernel × Option ℕ} (h : Blind k μ r r') :
    Blind k μ (syscallExit r) (syscallExit r') := by
  obtain ⟨μ', rfl, hag⟩ := h
  obtain ⟨k', o⟩ := r
  cases o with
  | none => exact ⟨μ', rfl, hag⟩
  | some v => exact ⟨μ', rfl, hag⟩

/-- A fault ends the process, whatever it has in memory. -/
lemma userFault_blind (k : Kernel) (μ : ℕ → UInt8) :
    Blind k μ (k.userFault, (none : Option ℕ)) ((k.withMem μ).userFault, none) :=
  .same k.userFault_mm (congrArg (·, none)
    (exitInner_withMem { k with cpu := k.cpu.gsForceKernel, exec := .kernel } μ exitFault))

/-- The clock does not depend on memory. -/
lemma timerIsr_blind (k : Kernel) (μ : ℕ → UInt8) :
    Blind k μ (k.timerIsr, (none : Option ℕ)) ((k.withMem μ).timerIsr, none) := by
  refine .same ?_ (congrArg (·, none) ?_)
  · show k.timerIsr.mm = k.mm
    rw [timerIsr]
    dsimp only
    split
    next hy => rw [yieldNow_mm hy]; rfl
    next => rfl
  · set k₁ : Kernel := { k.tick with cpu := k.cpu.swapgs, exec := .kernel } with hk₁
    have hyield : (k₁.withMem μ).yieldNow .timer = (k₁.yieldNow .timer).map (·.withMem μ) :=
      yieldNow_withMem ..
    rw [timerIsr, timerIsr, ← hk₁]
    rw [show { (k.withMem μ).tick with cpu := (k.withMem μ).cpu.swapgs, exec := .kernel } =
      k₁.withMem μ from rfl, hyield]
    cases k₁.yieldNow .timer <;> rfl

end Kernel

/-- Every step does the same on other bytes, if those agree where the running process may look and where
it may map. -/
theorem step_blind (hdisj : plat.RegionsDisjoint) (hreach : Reachable (xernel plat) k)
    (hs : Xernel.step plat k e = some (k', out))
    (hgiven : ∀ f, k.sched.MayMap plat f → k.mm.SameAt μ (pageDown f) frameSize)
    (hread : k.mm.ReadsSame μ k.cpu.cr3 (k.mm.Readable k.cpu.cr3)) :
    ∃ μ', Xernel.step plat (k.withMem μ) e = some (k'.withMem μ', out) ∧ k.mm.Agrees μ k'.mm μ' := by
  obtain ⟨ts, hrun⟩ := id hreach
  have hr := (spaceInv_run hdisj hrun).run
  suffices h : ∃ r', Xernel.step plat (k.withMem μ) e = some r' ∧ Kernel.Blind k μ (k', out) r' by
    obtain ⟨r', hr', μ', rfl, hag⟩ := h
    exact ⟨μ', hr', hag⟩
  generalize (k', out) = r at hs
  cases step_cases hs with
  | @syscall nr args hw hexec =>
    have hgs := (coherent_run hrun).swapgs hexec
    refine ⟨_, by rw [Xernel.step.eq_def, Kernel.withMem_exec, hexec], ?_⟩
    rw [Kernel.syscallEntry, if_pos hgs.1, Kernel.syscallEntry]
    dsimp only
    rw [Kernel.withMem_cpu, if_pos hgs.1]
    exact .syscallExit (Kernel.dispatch_blind (k := { k with cpu := k.cpu.swapgs, exec := .kernel })
      hr hdisj hgiven hread nr args hw)
  | timer hexec =>
    refine ⟨_, by rw [Xernel.step.eq_def, Kernel.withMem_exec, hexec], ?_⟩
    exact Kernel.timerIsr_blind k μ
  | fault hexec =>
    refine ⟨_, by rw [Xernel.step.eq_def, Kernel.withMem_exec, hexec], ?_⟩
    exact Kernel.userFault_blind k μ
  | keyboard hexec =>
    refine ⟨((k.withMem μ).keyboardIrq _, none), ?_, .same rfl rfl⟩
    rcases hexec with hexec | hexec <;> rw [Xernel.step.eq_def, Kernel.withMem_exec, hexec]
  | @store va b hexec =>
    refine ⟨_, by rw [Xernel.step.eq_def, Kernel.withMem_exec, hexec], ?_⟩
    show Kernel.Blind k μ (k.userStore va b, none) ((k.withMem μ).userStore va b, none)
    have hok : (k.withMem μ).mm.userPageOk (k.withMem μ).cpu.cr3 true va =
        k.mm.userPageOk k.cpu.cr3 true va := rfl
    rw [Kernel.userStore, Kernel.userStore, hok]
    split
    · exact Kernel.copyOut_blind k μ va [b] none
    · exact Kernel.userFault_blind k μ
  | @dma phys b l hexec hw =>
    -- a device writes the same byte to both
    obtain ⟨hf, rfl⟩ := Kernel.deviceWrite_eq_some hw
    have hw' : (k.withMem μ).deviceWrite phys b =
        some { k.withMem μ with mm := (k.mm.withMem μ).setByte phys b } := if_pos hf
    refine ⟨({ k.withMem μ with mm := (k.mm.withMem μ).setByte phys b }, none), ?_,
      Function.update μ phys b, rfl, .of_bytes fun a ha => ?_⟩
    · rcases hexec with hexec | hexec | hexec <;>
        (rw [Xernel.step.eq_def, Kernel.withMem_exec, hexec]; exact congrArg (Option.map _) hw')
    · simp only [Function.update_apply, ha]
  | idleTick hexec =>
    refine ⟨((k.withMem μ).tick, none), ?_, .same rfl rfl⟩
    rw [Xernel.step.eq_def, Kernel.withMem_exec, hexec]
  | @resume p hexec hp =>
    refine ⟨({ k with exec := .kernel }.withMem μ).resumeAt p.kont, ?_, ?_⟩
    · rcases hexec with hexec | hexec <;>
        (rw [Xernel.step.eq_def, Kernel.withMem_exec, hexec]; exact congrArg (Option.map _) hp)
    · cases p.kont with
      | trampoline | timer | yield => exact .same rfl rfl
      | recv id outPtr dstSlot =>
        exact .syscallExit (Kernel.recvLoop_blind { k with exec := .kernel } μ ..)
      | wait id => exact .syscallExit (Kernel.waitLoop_blind { k with exec := .kernel } μ id)
      | waitPid pid =>
        exact .syscallExit (.same (Kernel.waitPidLoop_same_mm ..)
          (Kernel.waitPidLoop_withMem { k with exec := .kernel } μ pid))
      | read ptr len => exact .syscallExit (Kernel.readLoop_blind { k with exec := .kernel } μ ptr len)

/-! ## Unused spaces -/

/-- The tree of a frame that is not in use after the step stays as it was. -/
lemma MmStep.unused_same {a b : Core} {cr3 l : ℕ} {bad : Bool} {act : Activity}
    (h : MmStep plat a b cr3 bad act out) (hl : l ∉ Xernel.handedOut b.mm.calls)
    (hne : l ≠ cr3) :
    b.mm.pt.user l = a.mm.pt.user l := by
  have hsame : ∀ {space : ℕ} {given : Set ℕ} {m m' : Mm} {U V : Set ℕ}, l ≠ space →
      Builds (.ofSpace space given) m U m' V → m'.pt.user l = m.pt.user l :=
    fun hne hb => hb.same (x := some l) fun hmem => hne (Option.some.inj hmem)
  cases h with
  | built hact hb => exact hsame hne hb
  | noSpace hact ha => rw [Builds.frameAlloc_pt ha]
  | created hact ha hlive hb =>
    refine hsame ?_ hb
    rintro rfl
    exact hl hlive
  | frameRun hact hout hn ha hb hcap => rw [hsame hne hb, (frameAllocContiguous_calls ha).2]
  | unmapped hact hout hn ha hb hm | unwound hact hout hn hbad ha hb hm =>
    rw [hm, freeRun_pt, hsame hne hb, (frameAllocContiguous_calls ha).2]

/-- A frame that is not in use is the root of no tables. -/
def UnusedEmpty (k : Kernel) : Prop :=
  ∀ l ∉ handedOut k.mm.calls, ∀ page, (k.mm.pt.user l).leaves page = none

/-- At boot there is the space of the first process only. -/
lemma unusedEmpty_boot (h : boot plat = some k) : UnusedEmpty k := by
  obtain ⟨m₀, m, p, hint, hp, rfl⟩ := boot_cases h
  intro l hl page
  rcases create_builds plat m₀ 0 with ⟨m₁, -, heq⟩ | ⟨space, m₁, -, -, hlive, hb⟩
  · rw [hp] at heq; cases heq
  · have hcreate := hb ⟨{none, some space}, Set.univ, ∅⟩ ⟨by simp, trivial, .inl ⟨by simp, trivial⟩⟩
    rw [hp] at hcreate hlive
    have hne : some l ∉ ({none, some space} : Set (Option ℕ)) := by
      rintro (hl' | hl')
      · cases hl'
      · exact hl (by rw [Option.some.inj hl']; exact hlive)
    have hsame := (hcreate.same hne).trans ((enableInterrupts_builds hint).same (by simp))
    show (m.pt.half (some l)).leaves page = none
    rw [hsame]
    rfl

/-- Only a frame that was taken becomes the root of tables. -/
theorem unusedEmpty_run {ts : List KernelStep} (hdisj : plat.RegionsDisjoint)
    (h : Run (xernel plat) ts k) : UnusedEmpty k := by
  refine h.invariant (I := UnusedEmpty) (fun _ hk => unusedEmpty_boot hk) ?_
  intro k e k' o hreach hinv hs l hl page
  obtain ⟨ts, hrun⟩ := id hreach
  have hspace := spaceInv_run hdisj hrun
  have hmm := hspace.mm hreach hs
  have hold : l ∉ handedOut k.mm.calls := fun hmem => hl (hmm.handedOut hdisj hspace.run hmem)
  have hcr3 : l ≠ k.cpu.cr3 := by
    rintro rfl
    rw [(reachable_onThread hreach hs).cr3] at hold
    exact hold (hspace.live _ _ (Scheduler.getElem?_current k.sched))
  have hsame : k'.mm.pt.user l = k.mm.pt.user l := hmm.unused_same hl hcr3
  rw [hsame]
  exact hinv l hold page

/-- The space of a new process maps nothing for ring 3 before the step that creates it. -/
lemma new_space_unmapped {ts : List KernelStep} {j page : ℕ} {p' : Process} {leaf : Leaf}
    (hplat : plat.WellFormed) (hrun : Run (xernel plat) ts k)
    (hs : Xernel.step plat k e = some (k', out)) (hp' : k'.sched.procs[j]? = some p')
    (hj : j = k.sched.procs.length) (hnew : Created plat k.mm k.sched.nextPid p')
    (huser : leaf.flags.userAccessible = true) : k.mm.pt.leaf p'.space page ≠ some leaf := by
  have hreach : Reachable (xernel plat) k := ⟨ts, hrun⟩
  have hspace := spaceInv_run hplat.regions hrun
  have hlt : j < k'.sched.procs.length := (List.getElem?_eq_some_iff.mp hp').1
  have hpos := k.sched.length_pos
  rw [PageTables.leaf_eq_half, PageTables.home]
  split
  · -- the lower half of a fresh space
    rcases (reachable_core hreach hs).length with ⟨hlen, -⟩ | ⟨-, -, args, hact⟩
    · have hsame : k'.sched.procs.length = k.sched.procs.length := hlen
      omega
    · have hfresh := ((hspace.mm hreach hs).new_space hplat.regions hspace.run hact hnew).1
      rw [PageTables.half, unusedEmpty_run hplat.regions hrun _ hfresh]
      simp
  · -- the upper half has no pages for ring 3 once there are two processes
    have hlow : Elf.Low plat.image := by
      by_contra hnot
      have := (upperInv_run hplat (hrun.next hs)).single hnot
      omega
    exact fun hleaf => (upperInv_run hplat hrun).closed hlow leaf.phys ⟨page, leaf, hleaf, huser, rfl⟩

/-! ## Private memory -/

/-- The byte of RAM at `a` is private to process `i`: it maps the page, no other process can read it, and
the frame was not handed out in a contiguous run, so that no `Frame` capability names it and no device is
pointed at it. -/
structure Kernel.Private (plat : Platform) (k : Kernel) (i a : ℕ) : Prop where
  ram : IsRam plat.regions (pageDown a)
  single : pageDown a ∉ runFrames k.mm.calls
  seen : ∃ va, k.Sees i va a
  alone : ∀ j va, k.Sees j va a → j = i

/-- The bytes `μ` differ from memory in the private bytes of process `i` only. -/
def Kernel.Alike (plat : Platform) (i : ℕ) (k : Kernel) (μ : ℕ → UInt8) : Prop :=
  ∀ a, ¬ k.Private plat i a → μ a = k.mm.mem a

namespace Kernel.Alike

variable {i : ℕ} {ts : List KernelStep}

/-- What the running process may map agrees. -/
lemma mayMap (h : Alike plat i k μ) (hplat : plat.WellFormed) (hrun : Run (xernel plat) ts k) {f : ℕ}
    (hf : k.sched.MayMap plat f) : k.mm.SameAt μ (pageDown f) frameSize := by
  intro off hoff
  have hpage : pageDown (pageDown f + off) = pageDown f := by
    simp only [pageDown, frameSize] at hoff ⊢
    omega
  refine h _ fun hpriv => ?_
  rcases (memoryCaps_run hrun).mayMap hplat hf with ⟨slot, phys, pages, hslot, hin⟩ | hram
  · have hheld := framesHeld_run hplat.regions hrun _ (.inl ⟨_, slot, Core.hasSlot_cur hslot⟩) rfl
    have hal := ((spaceInv_run hplat.regions hrun).run.isRam hplat.regions (hheld.mem_handedOut hin)).2
    refine hpriv.single ?_
    rw [hpage, pageDown_of_dvd hal]
    exact hheld.mem_runFrames hin
  · exact hram (by rw [← hpage]; exact hpriv.ram)

/-- What the running process can read agrees, if it is another one. -/
lemma reads (h : Alike plat i k μ) (hcr3 : k.cpu.cr3 = k.sched.cur.space) (hi : k.sched.current ≠ i) :
    k.mm.ReadsSame μ k.cpu.cr3 (k.mm.Readable k.cpu.cr3) := by
  intro va hva a hphys
  rw [hcr3] at hva hphys
  exact h a fun hpriv => hi (hpriv.alone _ va ⟨_, Scheduler.getElem?_current k.sched, hva, hphys⟩)

/-- A step keeps the difference within what is private then. -/
lemma agrees (h : Alike plat i k μ) (hplat : plat.WellFormed) (hrun : Run (xernel plat) ts k)
    (hs : Xernel.step plat k e = some (k', out)) (hag : k.mm.Agrees μ k'.mm μ') :
    Alike plat i k' μ' := by
  have hreach : Reachable (xernel plat) k := ⟨ts, hrun⟩
  have hcore := reachable_core hreach hs
  intro a hnot
  by_cases hpriv : k.Private plat i a
  · obtain ⟨va, hsees⟩ := hpriv.seen
    by_cases hsingle : pageDown a ∈ runFrames k'.mm.calls
    · -- the bytes of a new run were zeroed
      obtain ⟨l, hl, hruns⟩ := hag.runs
      rw [hl] at hsingle
      obtain ⟨n, base, hcall, hin⟩ := runFrames_new hsingle hpriv.single
      obtain ⟨hlo, hhi⟩ := blockRun_bounds hin
      have hle := pageDown_le a
      have hoff : a < pageDown a + frameSize := by
        simp only [pageDown, frameSize]
        omega
      have hsame := hruns n base hcall (a - base) (by omega)
      rwa [show base + (a - base) = a by omega] at hsame
    · -- process `i` still maps the byte, so another process can read it now
      have hother : ∃ j va, k'.Sees j va a ∧ j ≠ i := by
        by_contra hall
        refine hnot ⟨hpriv.ram, hsingle, ⟨va, hsees.step hplat.regions hreach hs⟩, fun j va hj => ?_⟩
        by_contra hne
        exact hall ⟨j, va, hj, hne⟩
      obtain ⟨j, va, ⟨p', hp', hok, hphys⟩, hne⟩ := hother
      obtain ⟨leaf, hleaf, huser, -⟩ := Mm.userPageOk_iff.mp hok
      rw [Mm.physOf, hleaf, Option.map_some, Option.some.injEq] at hphys
      subst hphys
      rcases hag.pages _ _ _ hleaf with hold | hnew
      · refine absurd (hpriv.alone j va ?_) hne
        rcases hcore.proc hp' with ⟨p, hp, hstep⟩ | ⟨hj, hnew⟩
        · rw [hstep.identity.space] at hold
          refine ⟨p, hp, Mm.userPageOk_iff.mpr ⟨leaf, hold, huser, by simp⟩, ?_⟩
          rw [Mm.physOf, hold, Option.map_some]
        · exact absurd hold (new_space_unmapped hplat hrun hs hp' hj hnew huser)
      · exact hnew _ (Nat.mod_lt va frameSize_pos)
  · exact hag.bytes a (h a hpriv)

end Kernel.Alike

/-- Where no run freed frames that are mapped, what a process can access is private to it, unless the
frame was handed out in a contiguous run. -/
lemma Kernel.Sees.isPrivate {ts : List KernelStep} {i va a : ℕ} (h : k.Sees i va a)
    (hplat : plat.WellFormed) (hrun : Run (xernel plat) ts k)
    (hgood : ∀ t ∈ ts, t.pre.freesMapped t.event = false) (hram : IsRam plat.regions (pageDown a))
    (hsingle : pageDown a ∉ runFrames k.mm.calls) : k.Private plat i a := by
  refine ⟨hram, hsingle, ⟨va, h⟩, fun j va' h' => ?_⟩
  by_cases hlen : k.sched.procs.length = 1
  · obtain ⟨p, hp, -⟩ := h
    obtain ⟨q, hq, -⟩ := h'
    have hi := (List.getElem?_eq_some_iff.mp hp).1
    have hj := (List.getElem?_eq_some_iff.mp hq).1
    omega
  · obtain ⟨p, hp, hmaps⟩ := h.maps hplat hrun hlen
    obtain ⟨q, hq, hmaps'⟩ := h'.maps hplat hrun hlen
    by_contra hne
    have hshared := (frameUse_run hplat hrun hgood).alone _ _ _ hmaps' hmaps hram fun heq => hne <|
      (spaceInv_run hplat.regions hrun).distinct _ _ _ _ hq hp (Option.some.inj heq)
    exact hsingle (sharedFrames_runFrames hplat.regions hrun hshared)

end Xernel
