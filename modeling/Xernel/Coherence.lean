import Xernel.CoreTheorems

/-!
# Context-switch coherence

Whatever path a process left the kernel by and whatever path the next one resumes on, the processor
state fits the process that runs: `Coherent` is kept by every step. Inside a handler the GS pair is
in its kernel state (`InKernel`), except before the first run of a process, which sets both bases.
-/

namespace Xernel

variable {plat : Platform} {k k' : Kernel} {act : Activity} {out : Option ℕ}

lemma align16_align16 (x : ℕ) : align16 (align16 x) = align16 x := by
  simp only [align16]
  omega

/-- The scheduler, the address space and the kernel stack are those of the running thread. -/
structure OnThread (k : Kernel) : Prop where
  thread : k.cpu.thread = k.sched.current
  cr3 : k.cpu.cr3 = k.sched.cur.space
  kernelRsp : k.cpu.kernelRsp = k.sched.cur.kstackTop

/-- Every kernel stack top is 16-byte aligned. -/
def StacksAligned (k : Kernel) : Prop :=
  ∀ (i : ℕ) (p : Process), k.sched.procs[i]? = some p → align16 p.kstackTop = p.kstackTop

/-- The GS pair as a handler finds it and as the closing `swapgs` expects it. -/
def Cpu.KernelGs (c : Cpu) : Prop := c.gsBase = .percpu ∧ c.kernelGsBase = .user

/-- The processor state fits what the processor is doing. -/
structure Coherent (k : Kernel) : Prop where
  aligned : StacksAligned k
  running : k.exec ≠ .halted → k.exec ≠ .panicked → OnThread k
  user : k.exec = .user → k.cpu.gsBase = .user ∧ k.cpu.kernelGsBase = .percpu
  kernel : k.exec = .kernel ∨ k.exec = .idle →
    k.sched.cur.kont = .trampoline ∧ k.exec = .kernel ∨ k.cpu.KernelGs
  idle : k.exec = .idle → ∃ ptr len, k.sched.cur.kont = .read ptr len

/-- A stopped machine is coherent as long as its stacks are. -/
lemma Coherent.of_stopped (hst : StacksAligned k) (h : k.exec = .halted ∨ k.exec = .panicked) :
    Coherent k := by
  refine ⟨hst, fun h₁ h₂ => ?_, fun h' => ?_, fun h' => ?_, fun h' => ?_⟩
  · rcases h with h | h
    · exact absurd h h₁
    · exact absurd h h₂
  all_goals rcases h with h | h <;> simp [h] at h'

/-- Ring-3 code of the running thread, with the GS pair in its user state. -/
lemma Coherent.of_user (hst : StacksAligned k) (hon : OnThread k) (hexec : k.exec = .user)
    (hgs : k.cpu.gsBase = .user ∧ k.cpu.kernelGsBase = .percpu) : Coherent k := by
  refine ⟨hst, fun _ _ => hon, fun _ => hgs, fun h => ?_, fun h => ?_⟩
  · rcases h with h | h <;> rw [hexec] at h <;> cases h
  · rw [hexec] at h; cases h

/-! ## Handlers -/

/-- Stack tops never change, and new ones are aligned. -/
lemma StacksAligned.step (h : StacksAligned k)
    (hs : CoreStep plat k.core k'.core act out) : StacksAligned k' := by
  intro i p hp
  rcases hs.proc hp with ⟨q, hq, hstep⟩ | ⟨-, hnew⟩
  · rw [hstep.identity.kstackTop]
    exact h i q hq
  · rw [hnew.spec.2.2.2.2]
    exact align16_align16 _

/-- If the scheduler did not move, the running process is still the same one. -/
lemma CoreStep.cur_same (hs : CoreStep plat k.core k'.core act out)
    (hcur : k'.sched.current = k.sched.current) : k.sched.cur.Same k'.sched.cur := by
  obtain ⟨p', hp', hstep⟩ := hs.stays (Scheduler.getElem?_current k.sched)
  have hcur' : k'.sched.cur = p' := by
    rw [Scheduler.cur_eq_iff, hcur]; exact hp'
  rw [hcur']
  exact hstep.identity

/-- A handler that did not leave its process is still on that process. -/
lemma OnThread.step (h : OnThread k) (hs : CoreStep plat k.core k'.core act out)
    (hcpu : k'.cpu = k.cpu) (hcur : k'.sched.current = k.sched.current) : OnThread k' := by
  have hsame := hs.cur_same hcur
  refine ⟨?_, ?_, ?_⟩
  · rw [hcpu, hcur]; exact h.thread
  · rw [hcpu, hsame.space]; exact h.cr3
  · rw [hcpu, hsame.kstackTop]; exact h.kernelRsp

/-- Whatever a handler does, its process runs on in ring 3 or another thread takes over, both in
the state they expect. -/
lemma Handled.coherent {r : Kernel × Option ℕ} (h : Handled plat k act r) (hst : StacksAligned k)
    (hon : OnThread k) (hgs : k.cpu.KernelGs) : Coherent (Kernel.syscallExit r).1 := by
  obtain ⟨hcore, hflow⟩ := h
  have hst' : StacksAligned r.1 := hst.step hcore
  cases hflow with
  | @returned k' v hcpu hexec hcur =>
    have hon' : OnThread k' := hon.step hcore hcpu hcur
    refine .of_user hst' ⟨hon'.thread, hon'.cr3, hon'.kernelRsp⟩ rfl ?_
    show k'.cpu.kernelGsBase = .user ∧ k'.cpu.gsBase = .percpu
    rw [hcpu]
    exact ⟨hgs.2, hgs.1⟩
  | @switched k' i hcpu hi =>
    -- `activate` loads exactly what `OnThread` asks for
    refine ⟨hst', fun _ _ => ⟨rfl, rfl, ?_⟩, ?_, fun _ => .inr ?_, ?_⟩
    · exact hst' i _ (List.getElem?_eq_getElem i.isLt)
    · intro h; cases h
    · show k'.cpu.gsBase = .percpu ∧ k'.cpu.kernelGsBase = .user
      rw [hcpu]
      exact hgs
    · intro h; cases h
  | @stayed k' hcpu hexec hcur hready hread =>
    have hon' : OnThread k' := hon.step hcore hcpu hcur
    refine ⟨hst', fun _ _ => hon', ?_, fun _ => .inr ?_, hread⟩
    · intro h
      rcases hexec with h' | h' <;> rw [show k'.exec = _ from h] at h' <;> cases h'
    · rw [show (Kernel.syscallExit (k', none)).1 = k' from rfl, hcpu]
      exact hgs
  | stopped hexec => exact .of_stopped hst' hexec

/-! ## Steps -/

/-- Entering the kernel from ring 3 with a `swapgs` brings the GS pair into its kernel state. -/
lemma Coherent.swapgs (h : Coherent k) (hexec : k.exec = .user) : k.cpu.swapgs.KernelGs :=
  ⟨(h.user hexec).2, (h.user hexec).1⟩

/-- Changes outside the scheduler and the processor keep a state coherent. -/
lemma Coherent.of_eq (h : Coherent k) (hs : k'.sched = k.sched) (hcpu : k'.cpu = k.cpu)
    (hexec : k'.exec = k.exec) : Coherent k' := by
  obtain ⟨mm, sched, ipc, win, dev, cpu, exec⟩ := k
  obtain ⟨mm', sched', ipc', win', dev', cpu', exec'⟩ := k'
  obtain rfl : sched' = sched := hs
  obtain rfl : cpu' = cpu := hcpu
  obtain rfl : exec' = exec := hexec
  exact ⟨h.aligned, fun h₁ h₂ => ⟨(h.running h₁ h₂).thread, (h.running h₁ h₂).cr3,
    (h.running h₁ h₂).kernelRsp⟩, h.user, h.kernel, h.idle⟩

lemma Coherent.userFault (plat : Platform) (h : Coherent k) (hexec : k.exec = .user) :
    Coherent k.userFault := by
  have hon := h.running (by rw [hexec]; simp) (by rw [hexec]; simp)
  have hhandled : Handled plat { k with cpu := k.cpu.gsForceKernel, exec := .kernel } .other
      (k.userFault, none) := Kernel.exitInner_handled exitFault (.inl rfl)
  exact hhandled.coherent h.aligned ⟨hon.thread, hon.cr3, hon.kernelRsp⟩ ⟨rfl, rfl⟩

/-- Every step keeps the processor state coherent. -/
theorem Coherent.step {e : Event} (h : Coherent k) (hs : Xernel.step plat k e = some (k', out)) :
    Coherent k' := by
  have hon : k.exec = .user → OnThread k := fun hexec =>
    h.running (by rw [hexec]; simp) (by rw [hexec]; simp)
  generalize hr : (k', out) = r at hs
  obtain rfl : k' = r.1 := by rw [← hr]
  clear hr
  cases step_cases hs with
  | @syscall nr args hw hexec =>
    have hgs := h.swapgs hexec
    have hon' := hon hexec
    rw [Kernel.syscallEntry]
    dsimp only
    rw [if_pos hgs.1]
    exact (Kernel.dispatch_handled plat { k with cpu := k.cpu.swapgs, exec := .kernel } nr args
      hw).coherent h.aligned ⟨hon'.thread, hon'.cr3, hon'.kernelRsp⟩ hgs
  | timer hexec =>
    have hgs := h.swapgs hexec
    have hon' := hon hexec
    rw [Kernel.timerIsr]
    dsimp only
    split
    next k₁ hy =>
      have hhandled : Handled plat { k.tick with cpu := k.cpu.swapgs, exec := .kernel } .other
          (k₁, none) := Kernel.yieldNow_handled .timer rfl hy
      exact hhandled.coherent h.aligned ⟨hon'.thread, hon'.cr3, hon'.kernelRsp⟩ hgs
    next =>
      -- nobody else is ready: the second `swapgs` undoes the first
      exact h.of_eq rfl rfl hexec.symm
  | fault hexec => exact h.userFault plat hexec
  | keyboard hexec => exact h.of_eq rfl rfl rfl
  | @store va b hexec =>
    show Coherent (k.userStore va b)
    rw [Kernel.userStore]
    split
    · exact h.of_eq rfl rfl rfl
    · exact h.userFault plat hexec
  | dma hexec hw =>
    obtain ⟨mem, rfl⟩ := Kernel.deviceWrite_mem hw
    exact h.of_eq rfl rfl rfl
  | idleTick hexec => exact h.of_eq rfl rfl rfl
  | @resume p hexec hp =>
    have hon' : OnThread k := by
      apply h.running <;> rcases hexec with h' | h' <;> rw [h'] <;> simp
    have hcur : k.sched.cur = p := by
      rw [Scheduler.cur_eq_iff, ← hon'.thread]; exact hp
    have hon₁ : OnThread { k with exec := .kernel } :=
      ⟨hon'.thread, hon'.cr3, hon'.kernelRsp⟩
    -- only a first run finds the GS pair in another state than a handler leaves it in
    have hgs : p.kont ≠ .trampoline → k.cpu.KernelGs := by
      intro hne
      rcases h.kernel hexec with ⟨ht, -⟩ | hgs
      · rw [hcur] at ht; exact absurd ht hne
      · exact hgs
    rcases Kernel.resumeAt_cases plat { k with exec := .kernel } p.kont with
      ⟨-, heq⟩ | ⟨hk, heq⟩ | ⟨hne, r, hr, heq⟩
    · rw [heq]
      exact .of_user h.aligned ⟨hon'.thread, hon'.cr3, hon'.kernelRsp⟩ rfl ⟨rfl, rfl⟩
    · rw [heq]
      have hgs' := hgs (by simp [hk])
      exact .of_user h.aligned ⟨hon'.thread, hon'.cr3, hon'.kernelRsp⟩ rfl ⟨hgs'.2, hgs'.1⟩
    · rw [heq]
      exact hr.coherent h.aligned hon₁ (hgs hne)

lemma coherent_boot (h : boot plat = some k) : Coherent k := by
  obtain ⟨m₀, m, p, -, hp, rfl⟩ := boot_cases h
  have hnew : Created plat m₀ 0 p := .mk hp
  obtain ⟨-, hkont, -, -, htop⟩ := hnew.spec
  have hst : StacksAligned ((firstKernel plat m p).resumeProcess ⟨0, firstKernel_length plat m p⟩) := by
    intro i q hq
    rcases i with _ | i
    · obtain rfl : p = q := Option.some.inj hq
      rw [htop]
      exact align16_align16 _
    · have hnone : ([p] : List Process)[i + 1]? = some q := hq
      simp at hnone
  refine ⟨hst, fun _ _ => ⟨rfl, rfl, ?_⟩, fun hexec => ?_, fun _ => .inl ⟨hkont, rfl⟩,
    fun hexec => ?_⟩
  · show align16 p.kstackTop = p.kstackTop
    rw [htop, align16_align16]
  · cases hexec
  · cases hexec

theorem coherent_run {ts : List KernelStep}
    (h : Run (xernel plat) ts k) : Coherent k :=
  h.invariant (I := Coherent) (fun _ hk => coherent_boot hk) fun _ _ _ _ _ hinv hs => hinv.step hs

/-- From a reachable state every step stays within the list of effects: the entry stub does not
fault. -/
theorem reachable_core {e : Event} (h : Reachable (xernel plat) k)
    (hs : Xernel.step plat k e = some (k', out)) :
    CoreStep plat k.core k'.core (k.activity e) out := by
  obtain ⟨ts, hrun⟩ := h
  exact step_core hs fun hexec => ((coherent_run hrun).user hexec).2

/-- Whenever something happens, the processor is on the thread of the running process. -/
theorem reachable_onThread {e : Event} (h : Reachable (xernel plat) k)
    (hs : Xernel.step plat k e = some (k', out)) : OnThread k := by
  obtain ⟨ts, hrun⟩ := h
  refine (coherent_run hrun).running ?_ ?_ <;> intro hexec <;> simp [Xernel.step, hexec] at hs

/-- From a reachable state every system call reaches the dispatcher. -/
theorem reachable_call {e : Event} {sys : Sys} {args : Args} (h : Reachable (xernel plat) k)
    (hs : Xernel.step plat k e = some (k', out)) (hact : k.activity e = .call sys args) :
    k.exec = .user ∧ ∃ nr hw, e = .syscall nr args hw ∧ Sys.decode nr = some sys ∧
      (k', out) = Kernel.syscallExit (Kernel.dispatch plat
        { k with cpu := k.cpu.swapgs, exec := .kernel } nr args hw) := by
  obtain ⟨ts, hrun⟩ := h
  exact Xernel.step_call hs (fun hexec => ((coherent_run hrun).user hexec).2) hact

/-- Whenever ring-3 code of a process executes, the scheduler, the address space, the kernel stack
of the entry stub and both GS bases are those of that process; and whenever the entry stub accesses
`PERCPU` through `gs`, after its `swapgs`, `GS.base` is `&PERCPU`. -/
theorem contextSwitch_coherent {ts : List KernelStep}
    (h : Run (xernel plat) ts k) :
    (k.exec = .user → ∃ p, k.sched.procs[k.cpu.thread]? = some p ∧
      k.sched.current = k.cpu.thread ∧ k.cpu.cr3 = p.space ∧ k.cpu.kernelRsp = p.kstackTop ∧
      k.cpu.gsBase = .user ∧ k.cpu.kernelGsBase = .percpu) ∧
    (∀ t ∈ ts, ∀ nr args hw, t.event = .syscall nr args hw →
      t.pre.cpu.swapgs.gsBase = .percpu ∧
      (t.post, t.out) = Kernel.syscallExit (Kernel.dispatch plat
        { t.pre with cpu := t.pre.cpu.swapgs, exec := .kernel } nr args hw)) := by
  refine ⟨fun hexec => ?_, fun t ht nr args hw he => ?_⟩
  · have hinv := coherent_run h
    have hon := hinv.running (by simp [hexec]) (by simp [hexec])
    refine ⟨k.sched.cur, ?_, hon.thread.symm, hon.cr3, hon.kernelRsp, hinv.user hexec⟩
    rw [hon.thread]
    exact Scheduler.getElem?_current _
  · obtain ⟨⟨ts', hrun⟩, hstep⟩ := h.mem_step ht
    rw [he] at hstep
    generalize (t.post, t.out) = r at hstep ⊢
    cases step_cases hstep with
    | syscall hexec =>
      have hgs := (coherent_run hrun).swapgs hexec
      refine ⟨hgs.1, ?_⟩
      rw [Kernel.syscallEntry]
      exact if_pos hgs.1

/-- The past crash: a process waits inside a `RECV`, another one faults, and the first returns to
ring 3 through the closing `swapgs` of its system call and makes another call. -/
theorem contextSwitch_coherent_fault :
    ∃ k, Reachable (xernel smallPlatform) k ∧ k.exec = .user ∧ k.sched.current = 0 ∧
      k.cpu.gsBase = .user ∧ k.cpu.kernelGsBase = .percpu := by
  let es : List Event := [.resume, .call .spawn 0 6, .call .recv 3 0x80_8000 0xffff_ffff_ffff_ffff,
    .resume, .call .send 3 7 0xffff_ffff_ffff_ffff, .fault, .resume, .call .getpid]
  have hrun : (trace smallPlatform es).isSome = true := by decide +kernel
  have hfacts : (trace smallPlatform es).map (fun r => (r.2.exec, r.2.sched.current)) =
      some (.user, 0) := by decide +kernel
  obtain ⟨r, hr⟩ := Option.isSome_iff_exists.mp hrun
  rw [hr, Option.map_some, Option.some.injEq, Prod.mk.injEq] at hfacts
  obtain ⟨p, -, -, -, -, hgs⟩ := (contextSwitch_coherent (trace_run hr)).1 hfacts.1
  exact ⟨r.2, ⟨r.1, trace_run hr⟩, hfacts.1, hfacts.2, hgs⟩

end Xernel
