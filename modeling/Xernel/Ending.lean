import Xernel.Finality
import Xernel.RoundRobin

/-!
# The end of a process and of the system

`exit_inner` is the only way the machine halts, and it runs for an `EXIT` and for a CPU exception of
ring-3 code. The system halts with every process ended exactly if the last process to end leaves
nobody blocked.
-/

namespace Xernel

variable {plat : Platform} {k k' : Kernel} {out : Option ℕ}

/-! ## Who runs `exit_inner` -/

namespace Kernel

/-- What happens next is a CPU exception of ring-3 code: an exception the hardware raises, or a store
to a page that is not mapped for it. -/
def faults (k : Kernel) : Event → Bool
  | .fault => true
  | .store va _ => !k.mm.userPageOk k.cpu.cr3 true va
  | _ => false

/-- The code with which what happens next ends the running process, by `fault_exit` or `exit`. -/
def exitsWith (k : Kernel) (e : Event) : Option ℕ :=
  if k.faults e then some exitFault
  else
    match k.activity e with
    | .call .exit args => some args.rdi.toNat
    | _ => none

/-- A handler that did not run `exit_inner`: if it does not come back to its caller, the machine is
not halted. -/
def NotFinished (r : Kernel × Option ℕ) : Prop := r.2 = none → r.1.exec ≠ .halted

namespace NotFinished

/-- A call that returns ends nobody. -/
lemma returned (k : Kernel) (v : ℕ) : NotFinished (k, some v) := by simp [NotFinished]

lemma panicked (k : Kernel) : NotFinished (k.panic, none) := by simp [NotFinished, panic]

/-- A process that blocks has not ended. -/
lemma blockOn (k : Kernel) (reason : BlockReason) (kont : Kont) :
    NotFinished (k.blockOn reason kont, none) := by
  intro _
  rw [Kernel.blockOn]
  dsimp only
  split <;> simp [resumeProcess]

/-- Nor has one that yields. -/
lemma yieldNow {kont : Kont} (h : k.yieldNow kont = some k') : NotFinished (k', none) := by
  obtain ⟨i, -, rfl⟩ := yieldNow_eq_some h
  simp [NotFinished, resumeProcess]

/-- Nor one that waits for a key. -/
lemma readLoop (k : Kernel) (ptr len : ℕ) : NotFinished (k.readLoop ptr len) := by
  rw [Kernel.readLoop]
  split
  · simp [NotFinished]
  · exact .returned _ _

/-- Nor one that waits for another process. -/
lemma waitPidLoop (k : Kernel) (pid : ℕ) : NotFinished (k.waitPidLoop pid) := by
  rw [Kernel.waitPidLoop]
  dsimp only
  split
  · exact .returned _ _
  split
  · exact .returned _ _
  split
  · exact .returned _ _
  split
  next hy => exact .yieldNow hy
  next => simp [NotFinished]

/-- Nor one that waits for a message. -/
lemma recvLoop (k : Kernel) (id outPtr dstSlot : ℕ) :
    NotFinished (k.recvLoop id outPtr dstSlot) := by
  rw [Kernel.recvLoop]
  split
  · -- a dequeued message is handed over, or the call fails: it comes back either way
    rw [deliverMessage]
    dsimp only
    repeat' split
    all_goals exact .returned _ _
  · exact .blockOn _ _ _

lemma waitLoop (k : Kernel) (id : ℕ) : NotFinished (k.waitLoop id) := by
  rw [Kernel.waitLoop]
  split
  · exact .returned _ _
  · exact .blockOn _ _ _

lemma orMax (r : Attempt ℕ × Kernel) : NotFinished (orMax r) := by
  rw [Kernel.orMax.eq_def]
  split
  · exact .panicked _
  · exact .returned _ _
  · exact .returned _ _

/-- Of all calls only `EXIT` ends the caller. -/
lemma dispatch {nr : UInt64} {args : Args} {hw : Hw} (h : Sys.decode nr ≠ some .exit) :
    NotFinished (k.dispatch plat nr args hw) := by
  rw [Kernel.dispatch]
  cases hd : Sys.decode nr with
  | none => exact .returned _ _
  | some sys =>
    cases sys with
    | exit => exact absurd hd h
    | sbrk | spawn | spawnEnv => exact .orMax _
    | yield =>
      dsimp only
      split
      next hy => exact .yieldNow hy
      next => exact .returned _ _
    | read =>
      dsimp only [sysRead]
      split
      · exact .readLoop _ _ _
      · exact .returned _ _
    | recv =>
      dsimp only [sysRecv]
      split
      · exact .returned _ _
      · exact .recvLoop _ _ _ _
    | wait =>
      dsimp only [sysWait]
      split
      · exact .returned _ _
      · exact .waitLoop _ _
    | waitPid =>
      dsimp only [sysWaitPid, waitPid]
      split
      · exact .returned _ _
      split
      · exact .returned _ _
      · exact .waitPidLoop _ _
    | _ =>
      -- the others come back with a value or panic on every path
      dsimp only [sysWrite, sysReadNb, sysFbInfo, sysIomap, sysDmaAlloc, sysPortIn, sysPortOut,
        sysCapIdentify, sysSend, sysSignal, sysFrameAlloc, frameAllocUnwind, sysMapFrame,
        sysGetStatus, sysGetenvp, sysLogRead, sysKill, sysCapGrant]
      repeat' split
      all_goals first | exact .returned _ _ | exact .panicked _

/-- The way back to ring 3 does not halt. -/
lemma syscallExit {r : Kernel × Option ℕ} (h : NotFinished r) :
    (Kernel.syscallExit r).1.exec ≠ .halted := by
  obtain ⟨k₁, v⟩ := r
  cases v with
  | none => exact h rfl
  | some v => simp [Kernel.syscallExit, returnToUser]

end NotFinished

/-- Resuming a thread never ends it. -/
lemma resumeAt_ne_halted (k : Kernel) (kont : Kont) : (k.resumeAt kont).1.exec ≠ .halted := by
  cases kont with
  | trampoline => simp [resumeAt, enterUser]
  | timer => simp [resumeAt, returnToUser]
  | yield => simp [resumeAt, Kernel.syscallExit, returnToUser]
  | recv id outPtr dstSlot => exact (NotFinished.recvLoop k id outPtr dstSlot).syscallExit
  | wait id => exact (NotFinished.waitLoop k id).syscallExit
  | waitPid pid => exact (NotFinished.waitPidLoop k pid).syscallExit
  | read ptr len => exact (NotFinished.readLoop k ptr len).syscallExit

/-- Ending a process changes its own entry only. -/
lemma exitInner_procs (k : Kernel) (code : ℕ) :
    (k.exitInner code).sched.procs = (k.sched.finish code).procs := by
  rw [exitInner]
  split <;> rfl

/-- The timer does not halt the machine. -/
lemma timerIsr_ne_halted (k : Kernel) : k.timerIsr.exec ≠ .halted := by
  rw [timerIsr]
  dsimp only
  split
  next hy => exact NotFinished.yieldNow hy rfl
  next => simp [returnToUser]

end Kernel

/-- A step that ends the running process is a run of `exit_inner` with its code, and no other step
halts the machine. -/
inductive EndCase (k : Kernel) (e : Event) (r : Kernel × Option ℕ) : Prop
  | ends {code : ℕ} {cpu : Cpu} (hcode : k.exitsWith e = some code)
      (heq : r = ({ k with cpu, exec := .kernel }.exitInner code, none))
  | goesOn (hcode : k.exitsWith e = none) (hexec : r.1.exec ≠ .halted)

/-- A step ends the running process, or the machine goes on. -/
lemma end_cases {e : Event} {r : Kernel × Option ℕ} (hreach : Reachable (xernel plat) k)
    (hs : Xernel.step plat k e = some r) : EndCase k e r := by
  have hfault : ∀ {e}, k.faults e = true → k.exitsWith e = some exitFault := by
    intro e h
    rw [Kernel.exitsWith, if_pos h]
  cases step_cases hs with
  | @syscall nr args hw hexec =>
    obtain ⟨ts, hrun⟩ := hreach
    -- `exit` is the only call that ends the caller at once
    rw [Kernel.syscallEntry, if_pos ((coherent_run hrun).swapgs hexec).1]
    by_cases hd : Sys.decode nr = some .exit
    · have hcode : k.exitsWith (.syscall nr args hw) = some args.rdi.toNat := by
        simp [Kernel.exitsWith, Kernel.faults, Kernel.activity, hd]
      refine .ends hcode (?_ : _ = (Kernel.exitInner { k with cpu := k.cpu.swapgs, exec := .kernel }
        args.rdi.toNat, none))
      rw [Kernel.dispatch, hd]
      rfl
    · refine .goesOn ?_ (Kernel.NotFinished.dispatch hd).syscallExit
      cases hd' : Sys.decode nr with
      | none => simp [Kernel.exitsWith, Kernel.faults, Kernel.activity, hd']
      | some sys =>
        have hsys : sys ≠ .exit := fun h => hd (h ▸ hd')
        simp [Kernel.exitsWith, Kernel.faults, Kernel.activity, hd', hsys]
  | timer hexec => exact .goesOn rfl (Kernel.timerIsr_ne_halted k)
  | fault hexec => exact .ends (hfault rfl) rfl
  | keyboard hexec =>
    refine .goesOn rfl ?_
    rcases hexec with h | h <;> simp [Kernel.keyboardIrq, h]
  | @store va b hexec =>
    rw [Kernel.userStore]
    by_cases hok : k.mm.userPageOk k.cpu.cr3 true va = true
    · rw [if_pos hok]
      exact .goesOn (by simp [Kernel.exitsWith, Kernel.faults, Kernel.activity, hok]) (by simp [hexec])
    · rw [if_neg hok]
      exact .ends (hfault (by simpa [Kernel.faults] using hok)) rfl
  | dma hexec hw =>
    obtain ⟨mem, rfl⟩ := Kernel.deviceWrite_mem hw
    refine .goesOn rfl ?_
    rcases hexec with h | h | h <;> simp [h]
  | idleTick hexec => exact .goesOn rfl (by simp [Kernel.tick, hexec])
  | @resume p hexec hp =>
    refine .goesOn ?_ (Kernel.resumeAt_ne_halted _ _)
    simp [Kernel.exitsWith, Kernel.faults, Kernel.activity, hp]

/-! ## The last process -/

/-- A process other than the running one. -/
def Scheduler.Other (s : Scheduler) (p : Process) : Prop :=
  ∃ i : ℕ, i ≠ s.current ∧ s.procs[i]? = some p

/-- The entry of the process that ended, and any other. -/
lemma Scheduler.getElem?_finish {s : Scheduler} {code i : ℕ} {p : Process}
    (h : (s.finish code).procs[i]? = some p) :
    (p.state = .done ∧ p.exitCode = code ∧ i = s.current) ∨ s.procs[i]? = some p ∧ i ≠ s.current := by
  rw [finish, modifyCur, getElem?_modify] at h
  split at h
  next hi =>
    obtain ⟨q, -, rfl⟩ := Option.map_eq_some_iff.mp h
    exact .inl ⟨rfl, rfl, hi.symm⟩
  next hi => exact .inr ⟨h, fun h => hi h.symm⟩

/-- The others do not notice. -/
lemma Scheduler.finish_other {s : Scheduler} {i : ℕ} {p : Process} (code : ℕ) (hi : i ≠ s.current)
    (h : s.procs[i]? = some p) : (s.finish code).procs[i]? = some p := by
  rw [finish, modifyCur, getElem?_modify, if_neg hi.symm, h]

/-- What happens next ends the running process while nobody else is ready and somebody is blocked. -/
def Kernel.Strands (k : Kernel) (e : Event) : Prop :=
  (k.exitsWith e).isSome = true ∧ (∀ p, k.sched.Other p → p.state ≠ .ready) ∧
    ∃ p reason, k.sched.Other p ∧ p.state = .blocked reason

/-- `exit_inner` finds no next process exactly if no other process is ready. -/
lemma Kernel.exitInner_halted (k : Kernel) (code : ℕ) :
    (k.exitInner code).exec = .halted ↔ ∀ p, k.sched.Other p → p.state ≠ .ready := by
  have hnone : (k.sched.finish code).pickNext = none ↔
      ∀ p, k.sched.Other p → p.state ≠ .ready := by
    rw [Scheduler.pickNext_eq_none]
    constructor
    · rintro h p ⟨i, hi, hp⟩
      exact h i p (Scheduler.finish_other code hi hp)
    · intro h i p hp
      rcases Scheduler.getElem?_finish hp with ⟨hst, -, -⟩ | ⟨hp, hi⟩
      · simp [hst]
      · exact h p ⟨i, hi, hp⟩
  rw [← hnone, exitInner]
  split
  next h =>
    have h' : (k.sched.finish code).pickNext = none := h
    simp [h']
  next i h =>
    have h' : (k.sched.finish code).pickNext = some i := h
    simp [resumeProcess, h']

/-- The machine halts with every process ended. -/
def Kernel.FinishedWhenHalted (k : Kernel) : Prop :=
  k.exec = .halted → ∀ (i : ℕ) (p : Process), k.sched.procs[i]? = some p → p.state = .done

/-- A step halts the machine with an unfinished process exactly if it strands one. -/
lemma finishedWhenHalted_iff {e : Event} (hreach : Reachable (xernel plat) k)
    (hs : Xernel.step plat k e = some (k', out)) : k'.FinishedWhenHalted ↔ ¬ k.Strands e := by
  cases end_cases hreach hs with
  | goesOn hcode hexec =>
    have hno : ¬ k.Strands e := by simp [Kernel.Strands, hcode]
    exact ⟨fun _ => hno, fun _ h => absurd h hexec⟩
  | @ends code cpu hcode heq =>
    obtain ⟨rfl, -⟩ := Prod.mk.inj heq
    have hhalt := Kernel.exitInner_halted { k with cpu, exec := .kernel } code
    have hprocs := Kernel.exitInner_procs { k with cpu, exec := .kernel } code
    constructor
    · rintro hfin ⟨-, hready, p, reason, ⟨i, hi, hp⟩, hst⟩
      have hp' := Scheduler.finish_other code hi hp
      have hdone := hfin (hhalt.mpr hready) i p (by rw [hprocs]; exact hp')
      rw [hst] at hdone
      cases hdone
    · intro hno hexec i p hp
      have hready := hhalt.mp hexec
      rw [hprocs] at hp
      rcases Scheduler.getElem?_finish hp with ⟨hst, -, -⟩ | ⟨hp, hi⟩
      · exact hst
      · cases hst : p.state with
        | done => rfl
        | ready => exact absurd hst (hready p ⟨i, hi, hp⟩)
        | blocked reason =>
          exact absurd ⟨by rw [hcode]; rfl, hready, p, reason, ⟨i, hi, hp⟩, hst⟩ hno

/-- In every run, `exit_inner` declares the system finished only with every process ended, exactly
if no step of the run ends the running process while nobody else is ready and somebody is
blocked. -/
theorem finished_when_halted {ts : List KernelStep} (h : Run (xernel plat) ts k) :
    (∀ t ∈ ts, t.post.FinishedWhenHalted) ↔ ∀ t ∈ ts, ¬ t.pre.Strands t.event := by
  have hiff : ∀ t ∈ ts, (t.post.FinishedWhenHalted ↔ ¬ t.pre.Strands t.event) := fun t ht =>
    finishedWhenHalted_iff (h.mem_step ht).1 (h.mem_step ht).2
  exact ⟨fun hall t ht => (hiff t ht).mp (hall t ht), fun hall t ht => (hiff t ht).mpr (hall t ht)⟩

/-- A parent spawns a child and ends; the child ends after it, and the machine halts. -/
theorem finished_when_halted_spawn :
    ∃ ts k, Run (xernel smallPlatform) ts k ∧ k.exec = .halted ∧ k.sched.procs.length = 2 ∧
      ∀ t ∈ ts, ¬ t.pre.Strands t.event := by
  let es : List Event := [.resume, .call .spawn 0 6, .call .exit 0, .resume, .call .exit 0]
  have hrun : (trace smallPlatform es).isSome = true := by decide +kernel
  have hfacts : (trace smallPlatform es).map (fun r => (r.2.exec, r.2.sched.procs.length,
      r.1.all fun t => decide (t.post.exec ≠ .halted) ||
        t.post.sched.procs.all fun p => p.state = .done)) = some (.halted, 2, true) := by
    decide +kernel
  obtain ⟨r, hr⟩ := Option.isSome_iff_exists.mp hrun
  rw [hr, Option.map_some, Option.some.injEq, Prod.mk.injEq, Prod.mk.injEq] at hfacts
  refine ⟨r.1, r.2, trace_run hr, hfacts.1, hfacts.2.1,
    (finished_when_halted (trace_run hr)).mp fun t ht hexec i p hp => ?_⟩
  have hdone := List.all_eq_true.mp hfacts.2.2 t ht
  rw [hexec] at hdone
  simp only [ne_eq, not_true_eq_false, decide_false, Bool.false_or] at hdone
  simpa using List.all_eq_true.mp hdone p (List.mem_of_getElem? hp)

/-- A parent spawns a child and blocks in `RECV`; the child ends and the machine halts with the
parent blocked. -/
theorem halted_not_finished :
    ¬ ∀ (plat : Platform) (ts : List KernelStep) (k : Kernel), Run (xernel plat) ts k →
      ∀ t ∈ ts, t.post.FinishedWhenHalted := by
  intro hall
  let es : List Event := [.resume, .call .spawn 0 6, .call .recv 3 0x808000 0, .resume,
    .call .exit 0]
  have hrun : (trace smallPlatform es).isSome = true := by decide +kernel
  have hfacts : (trace smallPlatform es).map (fun r => (r.1[4]?).map fun t =>
      (t.post.exec, (t.post.sched.procs[0]?).map fun p => p.state)) =
      some (some (.halted, some (.blocked (.endpoint 0)))) := by decide +kernel
  obtain ⟨r, hr⟩ := Option.isSome_iff_exists.mp hrun
  rw [hr, Option.map_some, Option.some.injEq] at hfacts
  obtain ⟨t, ht, htp⟩ := Option.map_eq_some_iff.mp hfacts
  obtain ⟨hexec, hst⟩ := Prod.mk.inj htp
  obtain ⟨p, hp, hpst⟩ := Option.map_eq_some_iff.mp hst
  have hdone := hall _ _ _ (trace_run hr) t (List.mem_of_getElem? ht) hexec 0 p hp
  rw [hpst] at hdone
  cases hdone

end Xernel
