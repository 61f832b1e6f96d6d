import Xernel.Table
import Xernel.Delivery

/-!
# Termination

A process that has ended stays ended, with its exit code, and does nothing any more, as long as
nobody kills itself through a `Process` capability that names the caller: `kill` marks such a caller
as done but returns to it.
-/

namespace Xernel

variable {plat : Platform} {k k' : Kernel} {act : Activity} {out : Option ℕ}

/-! ## The running process is ready -/

/-- What happens next is a `KILL` through a capability that names the caller. -/
def Kernel.killsItself (k : Kernel) (e : Event) : Bool :=
  match k.activity e with
  | .call .kill args => k.currentProcessPid args.rdi.toNat == some k.sched.cur.pid
  | _ => false

lemma Kernel.currentProcessPid_eq_some {slot pid : ℕ} :
    k.currentProcessPid slot = some pid ↔ k.sched.Names slot pid := by
  rw [currentProcessPid, currentCapGet_eq, Option.bind_eq_some_iff, Scheduler.Names]

lemma Kernel.killsItself_eq_true {e : Event} {args : Args}
    (hact : k.activity e = .call .kill args)
    (hn : k.sched.Names args.rdi.toNat k.sched.cur.pid) : k.killsItself e = true := by
  rw [killsItself, hact]
  simpa using currentProcessPid_eq_some.mpr hn

/-- As long as the machine runs, the running process is ready. -/
def CurReady (k : Kernel) : Prop :=
  k.exec ≠ .halted → k.exec ≠ .panicked → k.sched.cur.state = .ready

/-- A step that returns to its process leaves it ready, unless it killed it. -/
lemma CoreStep.cur_ready {v : ℕ} (hs : CoreStep plat k.core k'.core act (some v))
    (hcur : k'.sched.current = k.sched.current) (hready : k.sched.cur.state = .ready)
    (hkill : ∀ args, act = .call .kill args → ¬ k.sched.Names args.rdi.toNat k.sched.cur.pid) :
    k'.sched.cur.state = .ready := by
  obtain ⟨p', hp', hstep⟩ := hs.stays (Scheduler.getElem?_current k.sched)
  have hcur' : k'.sched.cur = p' := by
    rw [Scheduler.cur_eq_iff, hcur]; exact hp'
  rw [hcur']
  cases hstep with
  | own hi hown =>
    cases hown with
    | blocked hk hout => cases hout
    | unblocked hk => rfl
    | finished code hout => cases hout
    | _ => exact hready
  | woken h => rfl
  | killed hact hpid hne halive => exact absurd hpid (hkill _ hact)
  | _ => exact hready

/-- A handler leaves the machine stopped or on a ready process, unless the caller killed itself. -/
lemma Handled.cur_ready {r : Kernel × Option ℕ} (h : Handled plat k act r)
    (hready : k.sched.cur.state = .ready)
    (hkill : ∀ args, act = .call .kill args → ¬ k.sched.Names args.rdi.toNat k.sched.cur.pid) :
    CurReady (Kernel.syscallExit r).1 := by
  obtain ⟨hcore, hflow⟩ := h
  cases hflow with
  | returned hcpu hexec hcur => exact fun _ _ => hcore.cur_ready hcur hready hkill
  | switched hcpu hi =>
    have hi' := Scheduler.pickNext_ready hi
    exact fun _ _ => hi'
  | stayed hcpu hexec hcur hst hread => exact fun _ _ => hst hready
  | stopped hexec =>
    intro h₁ h₂
    rcases hexec with h | h
    · exact absurd h h₁
    · exact absurd h h₂

/-- While the machine can take a step the running process is ready. -/
lemma CurReady.of_step {e : Event} {r : Kernel × Option ℕ} (h : CurReady k)
    (hs : Xernel.step plat k e = some r) : k.sched.cur.state = .ready := by
  apply h <;> intro hexec <;> simp [Xernel.step, hexec] at hs

lemma curReady_userFault (plat : Platform) (h : k.sched.cur.state = .ready) :
    CurReady k.userFault := by
  have hhandled : Handled plat { k with cpu := k.cpu.gsForceKernel, exec := .kernel } .other
      (k.userFault, none) := Kernel.exitInner_handled exitFault (.inl rfl)
  exact hhandled.cur_ready h (by simp)

/-- Every step but a `KILL` of the caller leaves the running process ready. -/
theorem CurReady.step {e : Event} (h : CurReady k) (hreach : Reachable (xernel plat) k)
    (hkill : k.killsItself e = false) (hs : Xernel.step plat k e = some (k', out)) : CurReady k' := by
  have hready := h.of_step hs
  generalize hr : (k', out) = r at hs
  obtain rfl : k' = r.1 := by rw [← hr]
  clear hr
  cases step_cases hs with
  | @syscall nr args hw hexec =>
    obtain ⟨ts, hrun⟩ := hreach
    rw [Kernel.syscallEntry, if_pos ((coherent_run hrun).swapgs hexec).1]
    refine (Kernel.dispatch_handled plat { k with cpu := k.cpu.swapgs, exec := .kernel } nr args
      hw).cur_ready hready fun args' hact hn => ?_
    -- the one way to a process that runs without being ready
    have htrue : k.killsItself (.syscall nr args hw) = true :=
      Kernel.killsItself_eq_true hact hn
    rw [htrue] at hkill
    cases hkill
  | timer hexec =>
    rw [Kernel.timerIsr]
    dsimp only
    split
    next k₁ hy =>
      have hhandled : Handled plat { k.tick with cpu := k.cpu.swapgs, exec := .kernel } .other
          (k₁, none) := Kernel.yieldNow_handled .timer rfl hy
      exact hhandled.cur_ready hready (by simp)
    next => exact fun _ _ => hready
  | fault hexec => exact curReady_userFault plat hready
  | keyboard hexec => exact fun _ _ => hready
  | @store va b hexec =>
    show CurReady (k.userStore va b)
    rw [Kernel.userStore]
    split
    · exact fun _ _ => hready
    · exact curReady_userFault plat hready
  | dma hexec hw =>
    obtain ⟨mem, rfl⟩ := Kernel.deviceWrite_mem hw
    exact fun _ _ => hready
  | idleTick hexec => exact fun _ _ => hready
  | @resume p hexec hp =>
    rcases Kernel.resumeAt_cases plat { k with exec := .kernel } p.kont with
      ⟨-, heq⟩ | ⟨-, heq⟩ | ⟨-, r, hr, heq⟩
    · rw [heq]; exact fun _ _ => hready
    · rw [heq]; exact fun _ _ => hready
    · rw [heq]; exact hr.cur_ready hready (by simp)

lemma curReady_boot (h : boot plat = some k) : CurReady k := by
  obtain ⟨m₀, m, p, -, hp, rfl⟩ := boot_cases h
  have hnew : Created plat m₀ 0 p := .mk hp
  exact fun _ _ => hnew.spec.2.2.1

/-- The scheduler stays where it is or moves to a ready process. -/
lemma CoreStep.current_or_ready {a b : Core} (h : CoreStep plat a b act out) :
    b.sched.current = a.sched.current ∨ b.sched.cur.state = .ready := by
  have hswitch : ∀ {s s' : Scheduler}, s.Switched s' → s'.cur.state = .ready := by
    rintro s s' ⟨i, hi, rfl⟩
    have hi' := Scheduler.pickNext_ready hi
    exact hi'
  cases h with
  | yielded hk hkont hout hs => exact .inr (hswitch hs)
  | blocked hk hkont hout hwait hs =>
    rcases hs with hs | hs
    · exact .inr (hswitch hs)
    · exact .inl (by rw [hs]; rfl)
  | exited code hact hout hs =>
    rcases hs with hs | hs
    · exact .inr (hswitch hs)
    · exact .inl (by rw [hs]; rfl)
  | quiet _ _ hs | logged _ _ hs | setBreak _ hs | charged _ _ _ hs | refunded _ _ _ hs
  | frameInstalled _ _ _ _ hs | spawned _ _ _ _ hs | sent _ _ _ _ hs | signalled _ _ _ _ hs
  | received _ _ _ hs | taken _ _ _ hs | parked _ _ _ hs | logTaken _ _ _ hs
  | killed _ _ _ _ _ hs | granted _ _ _ _ _ _ hs =>
    have hcur := congrArg Scheduler.current hs
    exact .inl hcur

/-! ## Ended processes -/

/-- Process `i` has ended with exit code `code`. -/
def Kernel.Ended (k : Kernel) (i code : ℕ) : Prop :=
  ∃ p, k.sched.procs[i]? = some p ∧ p.state = .done ∧ p.exitCode = code

/-- Only the running process could undo its own end. -/
lemma CoreStep.ended {i code : ℕ} (hs : CoreStep plat k.core k'.core act out)
    (h : k.Ended i code) (hne : k.sched.current ≠ i) : k'.Ended i code := by
  obtain ⟨p, hp, hst, hcode⟩ := h
  obtain ⟨p', hp', hstep⟩ := hs.stays hp
  refine ⟨p', hp', ?_⟩
  cases hstep with
  | own hi hown => exact absurd hi.symm hne
  | woken h => rw [hst] at h; cases h
  | killed hact hpid hne halive => exact absurd hst halive
  | _ => exact ⟨hst, hcode⟩

lemma Kernel.Ended.current_ne {i code : ℕ} (h : k.Ended i code)
    (hready : k.sched.cur.state = .ready) : k.sched.current ≠ i := by
  obtain ⟨p, hp, hst, -⟩ := h
  rintro rfl
  rw [Scheduler.getElem?_current] at hp
  obtain rfl := Option.some.inj hp
  rw [hready] at hst
  cases hst

/-! ## Observing the end -/

/-- What happens next asks for the status of process `pid`. -/
def Kernel.AsksStatus (k : Kernel) (e : Event) (pid : ℕ) : Prop :=
  ∃ args, k.activity e = .call .getStatus args ∧ k.sched.Names args.rdi.toNat pid

/-- What happens next is a round of waiting for the end of process `pid`. -/
def Kernel.WaitsForPid (k : Kernel) (e : Event) (pid : ℕ) : Prop :=
  (∃ args, k.activity e = .call .waitPid args ∧ k.sched.Names args.rdi.toNat pid) ∨
    k.activity e = .resumed (.waitPid pid)

/-- A round of `wait_pid` for a process that has ended returns its exit code. -/
lemma Kernel.Ended.waitPidLoop {pid code : ℕ} (h : k.Ended pid code) (hinv : TableInv k.core)
    (hne : k.sched.current ≠ pid) : k.waitPidLoop pid = (k, some code) := by
  obtain ⟨p, hp, hst, hcode⟩ := h
  obtain ⟨q, hq, -, hfind⟩ := hinv.find (List.getElem?_eq_some_iff.mp hp).1
  obtain rfl : q = p := Option.some.inj (hq.symm.trans hp)
  have hcur : ¬ k.sched.cur.pid = pid := fun heq => hne (hinv.cur_pid.symm.trans heq)
  simp only [Kernel.waitPidLoop, if_neg hcur, show k.sched.find pid = some q from hfind, hst,
    if_true, hcode]

/-- What a step that waits for process `pid` returns is what a round of the loop of `wait_pid`
returns. -/
lemma Kernel.WaitsForPid.out_eq {e : Event} {pid : ℕ} (hw : k.WaitsForPid e pid)
    (hinv : TableInv k.core) (hreach : Reachable (xernel plat) k)
    (hs : Xernel.step plat k e = some (k', out)) :
    ∃ k₁ : Kernel, k₁.core = k.core ∧ out = (k₁.waitPidLoop pid).2 := by
  rcases hw with ⟨args, hact, hn⟩ | hact
  · obtain ⟨-, nr, hw, rfl, hd, heq⟩ := reachable_call hreach hs hact
    have hpos : pid ≠ 0 := by have := (hinv.names hn).1; omega
    refine ⟨{ k with cpu := k.cpu.swapgs, exec := .kernel }, rfl, ?_⟩
    generalize hk₁ : ({ k with cpu := k.cpu.swapgs, exec := .kernel } : Kernel) = k₁ at heq
    have hsched : k₁.sched = k.sched := by rw [← hk₁]
    have hpid := Kernel.currentProcessPid_eq_some (k := k₁).mpr (hsched ▸ hn)
    have hsnd := congrArg Prod.snd heq
    rw [(Kernel.syscallExit_core _).2, Kernel.dispatch, hd] at hsnd
    simpa only [Kernel.sysWaitPid, hpid, Kernel.waitPid, if_neg hpos] using hsnd
  · obtain ⟨p, hp, hkont⟩ := activity_resumed hact
    refine ⟨{ k with exec := .kernel }, rfl, ?_⟩
    generalize hr : (k', out) = r at hs
    obtain rfl : out = r.2 := by rw [← hr]
    clear hr
    cases step_cases hs with
    | @resume q hexec hq =>
      obtain rfl : p = q := Option.some.inj (hp.symm.trans hq)
      rw [hkont]
      exact (Kernel.syscallExit_core _).2
    | syscall => cases hd : Sys.decode _ <;> rw [Kernel.activity, hd] at hact <;> cases hact
    | _ => cases hact

lemma Kernel.Ended.waitPid_out {e : Event} {pid code : ℕ} (h : k.Ended pid code)
    (hinv : TableInv k.core) (hreach : Reachable (xernel plat) k) (hne : k.sched.current ≠ pid)
    (hw : k.WaitsForPid e pid) (hs : Xernel.step plat k e = some (k', out)) :
    out = some code := by
  obtain ⟨k₁, hcore, rfl⟩ := hw.out_eq hinv hreach hs
  have hsched : k₁.sched = k.sched := congrArg Core.sched hcore
  have h₁ : k₁.Ended pid code := by rw [Kernel.Ended, hsched]; exact h
  rw [h₁.waitPidLoop (hcore ▸ hinv) (hsched ▸ hne)]

lemma Kernel.Ended.getStatus_out {e : Event} {pid code : ℕ} (h : k.Ended pid code)
    (hinv : TableInv k.core) (hreach : Reachable (xernel plat) k) (ha : k.AsksStatus e pid)
    (hs : Xernel.step plat k e = some (k', out)) : out = some 1 := by
  obtain ⟨args, hact, hn⟩ := ha
  obtain ⟨-, nr, hw, rfl, hd, heq⟩ := reachable_call hreach hs hact
  obtain ⟨p, hp, hst, -⟩ := h
  obtain ⟨q, hq, -, hfind⟩ := hinv.find (List.getElem?_eq_some_iff.mp hp).1
  obtain rfl : q = p := Option.some.inj (hq.symm.trans hp)
  generalize hk₁ : ({ k with cpu := k.cpu.swapgs, exec := .kernel } : Kernel) = k₁ at heq
  have hsched : k₁.sched = k.sched := by rw [← hk₁]
  have hpid := Kernel.currentProcessPid_eq_some (k := k₁).mpr (hsched ▸ hn)
  have hfind₁ : k₁.sched.find pid = some q := by rw [hsched]; exact hfind
  have hsnd := congrArg Prod.snd heq
  rw [(Kernel.syscallExit_core _).2, Kernel.dispatch, hd] at hsnd
  refine hsnd.trans ?_
  simp only [Kernel.sysGetStatus, hpid, Kernel.getStatus, hfind₁, hst, if_true]

/-! ## Finality -/

/-- Once a process has ended, in step `m`, every later step leaves it ended with the same exit code,
is not taken by it, does not select it, and reports that end and exit code to whoever asks. -/
def TerminationIsFinal (ts : List KernelStep) : Prop :=
  ∀ (m n : ℕ) (t u : KernelStep), m < n → ts[m]? = some t → ts[n]? = some u →
    ∀ i code, t.post.Ended i code →
      u.post.Ended i code ∧ u.pre.cpu.thread ≠ i ∧ u.pre.sched.current ≠ i ∧
      u.post.sched.current ≠ i ∧ (u.pre.WaitsForPid u.event i → u.out = some code) ∧
      (u.pre.AsksStatus u.event i → u.out = some 1)

/-- In every run in which no process kills itself through a `Process` capability that names it,
termination is final. -/
theorem termination_final {ts : List KernelStep} (h : Run (xernel plat) ts k)
    (hkill : ∀ t ∈ ts, t.pre.killsItself t.event = false) : TerminationIsFinal ts := by
  have hready : ∀ v ∈ ts, v.pre.sched.cur.state = .ready := by
    intro v hv
    have hpre := (h.invariant_of_mem (I := CurReady) (C := fun k e => k.killsItself e = false)
      (fun _ hk => curReady_boot hk) (fun _ _ _ _ hreach hinv hC hs => hinv.step hreach hC hs)
      hkill v hv).1
    exact hpre.of_step (h.mem_step hv).2
  intro m n t u hmn ht hu i code hended
  have hmem : u ∈ ts := List.mem_of_getElem? hu
  obtain ⟨hreach, hstep⟩ := h.mem_step hmem
  obtain ⟨hpre, hpost⟩ := h.preserved_between (P := fun k => k.Ended i code) hmn ht hu
    (fun v hv hs hr hv' => (reachable_core hr hs).ended hv' (hv'.current_ne (hready v hv))) hended
  have hne : u.pre.sched.current ≠ i := hpre.current_ne (hready u hmem)
  have hthread : u.pre.cpu.thread = u.pre.sched.current := (reachable_onThread hreach hstep).thread
  obtain ⟨ts', hrun⟩ := hreach
  have hinv := tableInv_run hrun
  refine ⟨hpost, hthread ▸ hne, hne, fun heq => ?_,
    fun hw => hpre.waitPid_out hinv ⟨ts', hrun⟩ hne hw hstep,
    fun ha => hpre.getStatus_out hinv ⟨ts', hrun⟩ ha hstep⟩
  rcases (reachable_core ⟨ts', hrun⟩ hstep).current_or_ready with hsame | hrdy
  · exact hne (hsame.symm.trans heq)
  · exact hpost.current_ne hrdy heq

/-- A parent kills its child with signal 9 and waits for it. -/
theorem termination_final_kill :
    ∃ ts k, Run (xernel smallPlatform) ts k ∧ TerminationIsFinal ts ∧
      (ts.getLast?.bind fun u => u.out) = some 9 := by
  let es : List Event := [.resume, .call .spawn 0 6, .call .kill 6 9, .call .yield,
    .call .waitPid 6]
  have hrun : (trace smallPlatform es).isSome = true := by decide +kernel
  have hfacts : (trace smallPlatform es).map (fun r => (r.1.all fun t =>
      !t.pre.killsItself t.event, r.1.getLast?.bind fun u => u.out)) = some (true, some 9) := by
    decide +kernel
  obtain ⟨r, hr⟩ := Option.isSome_iff_exists.mp hrun
  rw [hr, Option.map_some, Option.some.injEq, Prod.mk.injEq] at hfacts
  refine ⟨r.1, r.2, trace_run hr, termination_final (trace_run hr) fun t ht => ?_, hfacts.2⟩
  simpa using List.all_eq_true.mp hfacts.1 t ht

/-- A child is granted a capability for itself, kills itself with signal 9, runs on and exits with
code 5. -/
theorem termination_not_final :
    ¬ ∀ (plat : Platform) (ts : List KernelStep) (k : Kernel), Run (xernel plat) ts k →
      TerminationIsFinal ts := by
  intro hall
  let es : List Event := [.resume, .call .spawn 0 6, .call .capGrant 6 6 7, .call .yield, .resume,
    .call .kill 7 9, .call .exit 5]
  have hrun : (trace smallPlatform es).isSome = true := by decide +kernel
  have hfacts : (trace smallPlatform es).map (fun r => ((r.1[5]?).map fun t =>
        (t.post.sched.procs[1]?).map fun p => (p.state, p.exitCode),
      (r.1[6]?).map fun u => u.pre.cpu.thread)) =
      some (some (some (.done, 9)), some 1) := by decide +kernel
  obtain ⟨r, hr⟩ := Option.isSome_iff_exists.mp hrun
  rw [hr, Option.map_some, Option.some.injEq, Prod.mk.injEq] at hfacts
  obtain ⟨t, ht, htp⟩ := Option.map_eq_some_iff.mp hfacts.1
  obtain ⟨u, hu, huth⟩ := Option.map_eq_some_iff.mp hfacts.2
  obtain ⟨p, hp, hpst⟩ := Option.map_eq_some_iff.mp htp
  obtain ⟨hst, hcode⟩ := Prod.mk.inj hpst
  exact (hall _ _ _ (trace_run hr) 5 6 t u (by omega) ht hu 1 9 ⟨p, hp, hst, hcode⟩).2.1 huth

end Xernel
