import Xernel.Ending

/-!
# Exit codes

An exit code is set by `exit_inner` or by a `KILL` and read by `WAIT_PID`. It tells a crash from an
exit as long as no program passes one of the two codes that have a meaning of their own.
-/

namespace Xernel

variable {plat : Platform} {k k' : Kernel} {out : Option ℕ}

/-! ## Passing a reserved code -/

/-- The two codes `WAIT_PID` gives a meaning of its own. -/
def reservedCode (code : ℕ) : Bool := code == exitFault || code == u64Max

/-- What happens next passes a reserved code to `EXIT`, or to a `KILL` of a process that has not
ended. -/
def Kernel.forgesCode (k : Kernel) (e : Event) : Bool :=
  match k.activity e with
  | .call .exit args => reservedCode args.rdi.toNat
  | .call .kill args => reservedCode args.rsi.toNat &&
      (k.currentProcessPid args.rdi.toNat).any fun pid => k.getStatus pid == 0
  | _ => false

/-- Some step took a CPU exception in process `pid`. -/
def Faulted (ts : List KernelStep) (pid : ℕ) : Prop :=
  ∃ t ∈ ts, t.pre.faults t.event = true ∧ t.pre.sched.current = pid

/-- An effective `KILL` sets the exit code to its signal. -/
lemma Kernel.forgesCode_kill {e : Event} {args : Args} {p : Process} {i : ℕ} (hinv : TableInv k.core)
    (hp : k.sched.procs[i]? = some p) (hact : k.activity e = .call .kill args)
    (hn : k.sched.Names args.rdi.toNat p.pid) (halive : p.state ≠ .done)
    (hf : k.forgesCode e = false) : reservedCode args.rsi.toNat = false := by
  obtain ⟨q, hq, -, hfind⟩ := hinv.find (hinv.names hn).2
  have hpid := hinv.pid i p hp
  obtain rfl : q = p := by
    rw [hpid] at hq
    exact Option.some.inj (hq.symm.trans hp)
  have hstatus : k.getStatus q.pid = 0 := by
    simp only [getStatus, show k.sched.find q.pid = some q from hfind, if_neg halive]
  simpa [forgesCode, hact, currentProcessPid_eq_some.mpr hn, hstatus] using hf

/-- The exit codes of the table. -/
def Scheduler.exitCodes (s : Scheduler) : List ℕ := s.procs.map Process.exitCode

namespace Scheduler

variable {s s' : Scheduler}

lemma exitCodes_modify (s : Scheduler) (i : ℕ) {f : Process → Process}
    (hf : ∀ p, (f p).exitCode = p.exitCode) : (s.modify i f).exitCodes = s.exitCodes :=
  s.map_modify i hf

lemma exitCodes_modifyCur (s : Scheduler) {f : Process → Process}
    (hf : ∀ p, (f p).exitCode = p.exitCode) : (s.modifyCur f).exitCodes = s.exitCodes :=
  exitCodes_modify s s.current hf

@[simp] lemma exitCodes_park (s : Scheduler) (kont : Kont) :
    (s.park kont).exitCodes = s.exitCodes := exitCodes_modifyCur s fun _ => rfl

@[simp] lemma exitCodes_setState (s : Scheduler) (state : State) :
    (s.setState state).exitCodes = s.exitCodes := exitCodes_modifyCur s fun _ => rfl

/-- Waking sets no exit code. -/
lemma exitCodes_wake (s : Scheduler) (reason : BlockReason) :
    (s.wake reason).exitCodes = s.exitCodes := s.map_wake reason fun _ => rfl

/-- A new process brings its own exit code. -/
lemma exitCodes_push (s : Scheduler) (p : Process) :
    (s.push p).exitCodes = s.exitCodes ++ [p.exitCode] := s.map_push p

/-- Switching sets no exit code. -/
lemma Switched.exitCodes (h : s.Switched s') : s'.exitCodes = s.exitCodes := by
  obtain ⟨i, -, rfl⟩ := h
  rfl

end Scheduler

/-- A new process has exit code 0. -/
lemma Created.exitCode {m : Mm} {pid : ℕ} {p : Process} (h : Created plat m pid p) :
    p.exitCode = 0 := by
  obtain ⟨space, entry, envpUser, envpLen, heapBreak, rfl⟩ := h.eq_newProcess
  rfl

/-- A step that is no system call and no exception leaves the exit codes alone. -/
lemma exitCodes_other {e : Event} (hs : Xernel.step plat k e = some (k', out))
    (hcode : k.exitsWith e = none) (hact : k.activity e = .other) :
    k'.sched.exitCodes = k.sched.exitCodes := by
  have hfault : k.faults e = false := by
    cases hf : k.faults e with
    | false => rfl
    | true => rw [Kernel.exitsWith, if_pos hf] at hcode; cases hcode
  generalize hr : (k', out) = r at hs
  obtain rfl : k' = r.1 := by rw [← hr]
  clear hr
  cases step_cases hs with
  | @syscall nr args hw hexec =>
    have hd : Sys.decode nr = none := by
      cases hd : Sys.decode nr with
      | none => rfl
      | some sys => rw [Kernel.activity, hd] at hact; cases hact
    rw [Kernel.syscallEntry]
    dsimp only
    split
    · rw [Kernel.dispatch, hd]
      rfl
    · rfl
  | timer hexec =>
    rw [Kernel.timerIsr]
    dsimp only
    split
    next k₁ hy =>
      obtain ⟨i, -, rfl⟩ := Kernel.yieldNow_eq_some hy
      exact Scheduler.exitCodes_modifyCur _ fun _ => rfl
    next => rfl
  | fault hexec => cases hfault
  | keyboard hexec => rfl
  | @store va b hexec =>
    have hok : k.mm.userPageOk k.cpu.cr3 true va = true := by simpa [Kernel.faults] using hfault
    rw [Kernel.userStore, if_pos hok]
  | dma hexec hw =>
    obtain ⟨mem, rfl⟩ := Kernel.deviceWrite_mem hw
    rfl
  | idleTick hexec => rfl
  | resume hexec hp => rw [Kernel.activity, hp] at hact; cases hact

/-- How the exit codes of the table change in a step that does not run `exit_inner`. -/
inductive CodesStep (k k' : Kernel) (e : Event) : Prop
  | same (h : k'.sched.exitCodes = k.sched.exitCodes)
  | created (h : k'.sched.exitCodes = k.sched.exitCodes ++ [0])
  | killed {args : Args} {pid i : ℕ} (hact : k.activity e = .call .kill args)
      (hpid : k.sched.Names args.rdi.toNat pid) (hi : k.sched.indexOf pid = some i)
      (halive : ∀ p, k.sched.procs[i]? = some p → p.state ≠ .done)
      (hs : k'.sched = k.sched.modify i fun p =>
        { p with exitCode := args.rsi.toNat, state := .done })

/-- A step that ends nobody changes an exit code only by a kill. -/
lemma codesStep {e : Event} (hreach : Reachable (xernel plat) k)
    (hs : Xernel.step plat k e = some (k', out)) (hcode : k.exitsWith e = none) :
    CodesStep k k' e := by
  have hcur : ∀ {f : Process → Process}, k'.sched = k.sched.modifyCur f →
      (∀ p, (f p).exitCode = p.exitCode) → CodesStep k k' e := fun h hf =>
    .same (by rw [h, Scheduler.exitCodes_modifyCur _ hf])
  cases reachable_core hreach hs with
  | quiet hact hout h | taken hact hout htake h => exact .same (congrArg Scheduler.exitCodes h)
  | logged data hact h | setBreak hact h | charged hact hout hc h | refunded hact hout hc h
  | frameInstalled hact hout hc hins h | received hact hrecv hins h | parked hk hkont hout h =>
    exact hcur h fun _ => rfl
  | spawned hact hout hp hins h =>
    refine .created ?_
    have h' : k'.sched = _ := h
    rw [h', Scheduler.exitCodes_push, hp.exitCode]
    congr 1
    exact Scheduler.exitCodes_modifyCur _ fun _ => rfl
  | sent hact hout hid hsend h | signalled hact hout hid hsig h =>
    have h' : k'.sched = _ := h
    exact .same (by rw [h', Scheduler.exitCodes_wake]; rfl)
  | yielded hk hkont hout h =>
    have hcodes := h.exitCodes
    rw [Scheduler.exitCodes_park] at hcodes
    exact .same hcodes
  | blocked hk hkont hout hwait h =>
    rcases h with h | h
    · have hcodes := h.exitCodes
      simp only [Scheduler.exitCodes_setState, Scheduler.exitCodes_park] at hcodes
      exact .same hcodes
    · have hcodes := congrArg Scheduler.exitCodes h
      simp only [Scheduler.exitCodes_setState, Scheduler.exitCodes_park] at hcodes
      exact .same hcodes
  | exited code hact hout h =>
    rcases hact with hact | ⟨args, hact⟩
    · exact .same (exitCodes_other hs hcode hact)
    · rw [Kernel.exitsWith, hact] at hcode
      split at hcode <;> cases hcode
  | logTaken hact hpid hi h | granted hact hout hpid hcap hi hins h =>
    have h' : k'.sched = _ := h
    exact .same (by rw [h']; exact Scheduler.exitCodes_modify _ _ fun _ => rfl)
  | killed hact hpid hne hi halive h => exact .killed hact hpid hi halive h

/-- What the exit codes say about the steps `ts` that led to `k`. -/
structure CodesInv (ts : List KernelStep) (k : Kernel) : Prop where
  /-- A process that took an exception has ended with `EXIT_FAULT` and does not run any more. -/
  faulted : ∀ i, Faulted ts i → k.Ended i exitFault ∧ (k.exec ≠ .halted → k.sched.current ≠ i)
  /-- Only a process that took an exception has the code `EXIT_FAULT`. -/
  only : ∀ (i code : ℕ), k.sched.exitCodes[i]? = some code → code = exitFault → Faulted ts i
  noMax : ∀ (i code : ℕ), k.sched.exitCodes[i]? = some code → code ≠ u64Max

lemma Faulted.snoc {ts : List KernelStep} {t : KernelStep} {i : ℕ}
    (h : Faulted (ts ++ [t]) i) :
    Faulted ts i ∨ t.pre.faults t.event = true ∧ t.pre.sched.current = i := by
  obtain ⟨u, hu, hf⟩ := h
  rcases List.mem_append.mp hu with hu | hu
  · exact .inl ⟨u, hu, hf⟩
  · obtain rfl : u = t := by simpa using hu
    exact .inr hf

/-- A fault is not undone. -/
lemma Faulted.mono {ts us : List KernelStep} {i : ℕ} (h : Faulted ts i) : Faulted (ts ++ us) i := by
  obtain ⟨t, ht, hf⟩ := h
  exact ⟨t, List.mem_append_left _ ht, hf⟩

/-- The process `exit_inner` switches to is ready. -/
lemma Kernel.exitInner_ready {code : ℕ} (h : (k.exitInner code).exec ≠ .halted) :
    (k.exitInner code).sched.cur.state = .ready := by
  revert h
  rw [exitInner]
  split
  next => exact fun h => absurd rfl h
  next i hi =>
    have hready := Scheduler.pickNext_ready hi
    exact fun _ => hready

lemma Kernel.exitsWith_eq_some {e : Event} {code : ℕ} (h : k.exitsWith e = some code) :
    (k.faults e = true ∧ code = exitFault) ∨
      ∃ args, k.activity e = .call .exit args ∧ code = args.rdi.toNat := by
  rw [exitsWith] at h
  split at h
  next hf => exact .inl ⟨hf, (Option.some.inj h).symm⟩
  next =>
    split at h
    next args hact => exact .inr ⟨args, hact, (Option.some.inj h).symm⟩
    next => cases h

/-- Where an exit code of the table comes from: it was there before, the step took an exception, or
it is none of the reserved codes. -/
lemma exitCode_cases {e : Event} {i code : ℕ} (hreach : Reachable (xernel plat) k)
    (hforge : k.forgesCode e = false) (hs : Xernel.step plat k e = some (k', out))
    (hc : k'.sched.exitCodes[i]? = some code) :
    k.sched.exitCodes[i]? = some code ∨ reservedCode code = false ∨
      k.faults e = true ∧ code = exitFault ∧ k.sched.current = i := by
  have hold : ∀ {p : Process}, k.sched.procs[i]? = some p →
      k.sched.exitCodes[i]? = some p.exitCode := fun hp => by
    rw [Scheduler.exitCodes, List.getElem?_map, hp, Option.map_some]
  cases end_cases hreach hs with
  | @ends code' cpu hcode heq =>
    obtain ⟨rfl, -⟩ := Prod.mk.inj heq
    rw [Scheduler.exitCodes, List.getElem?_map, Kernel.exitInner_procs] at hc
    obtain ⟨p, hp, rfl⟩ := Option.map_eq_some_iff.mp hc
    rcases Scheduler.getElem?_finish hp with ⟨-, hcode', hi⟩ | ⟨hp, -⟩
    · rcases Kernel.exitsWith_eq_some hcode with ⟨hf, hfault⟩ | ⟨args, hact, hargs⟩
      · exact .inr (.inr ⟨hf, hcode'.trans hfault, hi.symm⟩)
      · rw [Kernel.forgesCode, hact] at hforge
        rw [hcode', hargs]
        exact .inr (.inl hforge)
    · exact .inl (hold hp)
  | goesOn hcode hexec =>
    cases codesStep hreach hs hcode with
    | same h => exact .inl (h ▸ hc)
    | created h =>
      rw [h, List.getElem?_append] at hc
      split at hc
      · exact .inl hc
      · obtain ⟨-, rfl⟩ := List.getElem?_eq_some_iff.mp hc
        exact .inr (.inl (by simp [reservedCode, exitFault, u64Max]))
    | @killed args pid j hact hpid hj halive h =>
      obtain ⟨q, hq, hqpid, -⟩ := Scheduler.find_eq_of_indexOf hj
      rw [Scheduler.exitCodes, List.getElem?_map, h, Scheduler.getElem?_modify] at hc
      split at hc
      next hi =>
        subst hi
        rw [hq] at hc
        obtain rfl := Option.some.inj hc
        -- the code given to `kill` is not a reserved one
        obtain ⟨ts, hrun⟩ := hreach
        exact .inr (.inl (Kernel.forgesCode_kill (tableInv_run hrun) hq hact (hqpid ▸ hpid)
          (halive q hq) hforge))
      next =>
        obtain ⟨p, hp, rfl⟩ := Option.map_eq_some_iff.mp hc
        exact .inl (hold hp)

lemma CodesInv.step {ts : List KernelStep} {e : Event} (h : CodesInv ts k)
    (hreach : Reachable (xernel plat) k) (hforge : k.forgesCode e = false)
    (hs : Xernel.step plat k e = some (k', out)) : CodesInv (ts ++ [⟨k, e, out, k'⟩]) k' := by
  have hexec : k.exec ≠ .halted := by
    intro hexec
    simp [Xernel.step, hexec] at hs
  refine ⟨fun i hi => ?_, fun i code hc hfault => ?_, fun i code hc => ?_⟩
  · rcases hi.snoc with hold | ⟨hf, hcur⟩
    · obtain ⟨hend, hne⟩ := h.faulted i hold
      -- it has faulted before: it stays ended and is not run again
      have hend' := (reachable_core hreach hs).ended hend (hne hexec)
      refine ⟨hend', fun _ heq => ?_⟩
      rcases (reachable_core hreach hs).current_or_ready with hsame | hready
      · exact hne hexec (hsame.symm.trans heq)
      · exact hend'.current_ne hready heq
    · have hcode : k.exitsWith e = some exitFault := by rw [Kernel.exitsWith]; exact if_pos hf
      cases end_cases hreach hs with
      | goesOn hnone => rw [hcode] at hnone; cases hnone
      | @ends code cpu hcode' heq =>
        obtain ⟨rfl, -⟩ := Prod.mk.inj heq
        obtain rfl : exitFault = code := Option.some.inj (hcode.symm.trans hcode')
        have hcur' : k.sched.current = i := hcur
        subst hcur'
        have hend : (Kernel.exitInner { k with cpu, exec := .kernel } exitFault).Ended
            k.sched.current exitFault := by
          refine ⟨{ k.sched.cur with exitCode := exitFault, state := .done }, ?_, rfl, rfl⟩
          rw [Kernel.exitInner_procs, Scheduler.finish, Scheduler.modifyCur,
            Scheduler.getElem?_modify, if_pos rfl, Scheduler.getElem?_current, Option.map_some]
        exact ⟨hend, fun hrun => hend.current_ne (Kernel.exitInner_ready hrun)⟩
  · rcases exitCode_cases hreach hforge hs hc with hold | hres | ⟨hf, -, hcur⟩
    · exact (h.only i code hold hfault).mono
    · subst hfault
      cases hres
    · exact ⟨_, List.mem_append_right _ (List.mem_singleton_self _), hf, hcur⟩
  · rcases exitCode_cases hreach hforge hs hc with hold | hres | ⟨-, rfl, -⟩
    · exact h.noMax i code hold
    · rintro rfl
      cases hres
    · decide

/-- At boot nobody has ended. -/
lemma codesInv_boot (h : boot plat = some k) : CodesInv [] k := by
  obtain ⟨m, p, hnew, hprocs, -⟩ := boot_core h
  have hcodes : k.sched.exitCodes = [0] := by
    have hprocs' : k.sched.procs = [p] := hprocs
    rw [Scheduler.exitCodes, hprocs', List.map_singleton, hnew.exitCode]
  have hzero : ∀ {i code : ℕ}, k.sched.exitCodes[i]? = some code → code = 0 := by
    intro i code hc
    rw [hcodes] at hc
    simpa using List.mem_of_getElem? hc
  refine ⟨fun i hi => ?_, fun i code hc hfault => ?_, fun i code hc => ?_⟩
  · obtain ⟨t, ht, -⟩ := hi
    cases ht
  · rw [hzero hc] at hfault
    cases hfault
  · rw [hzero hc]
    decide

/-- In every run in which no reserved code is passed, the exit codes tell who took an exception. -/
lemma codesInv_run {ts : List KernelStep} (h : Run (xernel plat) ts k)
    (hforge : ∀ t ∈ ts, t.pre.forgesCode t.event = false) : CodesInv ts k := by
  induction h with
  | start hi => exact codesInv_boot hi
  | @next ts k k' e out hrun hs ih =>
    have hpre := ih fun t ht => hforge t (List.mem_append_left _ ht)
    exact hpre.step ⟨ts, hrun⟩ (hforge ⟨k, e, out, k'⟩ (by simp)) hs

/-! ## Waiting for a crash -/

/-- What a round of `wait_pid` comes back with: `u64::MAX` for the caller itself, or the exit code
of an ended process. -/
lemma Kernel.waitPidLoop_out {pid v : ℕ} (hinv : TableInv k.core) (hpid : pid < k.sched.procs.length)
    (h : (k.waitPidLoop pid).2 = some v) :
    (v = u64Max ∧ k.sched.cur.pid = pid) ∨ k.sched.exitCodes[pid]? = some v := by
  obtain ⟨p, hp, -, hfind⟩ := hinv.find hpid
  have hfind' : k.sched.find pid = some p := hfind
  rw [waitPidLoop] at h
  dsimp only at h
  split at h
  next hcur => exact .inl ⟨(Option.some.inj h).symm, hcur⟩
  next =>
    rw [hfind'] at h
    dsimp only at h
    split at h
    · obtain rfl := Option.some.inj h
      have hp' : k.sched.procs[pid]? = some p := hp
      exact .inr (by rw [Scheduler.exitCodes, List.getElem?_map, hp', Option.map_some])
    · -- the target has not ended: this round yields and does not come back
      split at h <;> cases h

lemma Kernel.WaitsForPid.out_cases {e : Event} {pid v : ℕ} (hw : k.WaitsForPid e pid)
    (hinv : TableInv k.core) (hreach : Reachable (xernel plat) k)
    (hs : Xernel.step plat k e = some (k', some v)) :
    (v = u64Max ∧ k.sched.cur.pid = pid) ∨ k.sched.exitCodes[pid]? = some v := by
  have hpid : pid < k.sched.procs.length := by
    rcases hw with ⟨args, -, hn⟩ | hact
    · exact (hinv.names hn).2
    · obtain ⟨p, hp, hkont⟩ := activity_resumed hact
      exact (hinv.waited _ p pid hp hkont).2
  obtain ⟨k₁, hcore, hout⟩ := hw.out_eq hinv hreach hs
  have hsched : k₁.sched = k.sched := congrArg Core.sched hcore
  have hcases := Kernel.waitPidLoop_out (hcore ▸ hinv) (hsched ▸ hpid) hout.symm
  rwa [hsched] at hcases

/-- A round of `WAIT_PID` for a process comes back with `EXIT_FAULT` exactly if that process took a
CPU exception before, and with `u64::MAX` only without a `Process` capability or if the caller waits
for itself. -/
def CrashesAreDistinguishable (ts : List KernelStep) : Prop :=
  ∀ (n : ℕ) (u : KernelStep), ts[n]? = some u →
    (∀ pid, u.pre.WaitsForPid u.event pid → (u.out = some exitFault ↔ Faulted (ts.take n) pid)) ∧
    (∀ args, u.pre.activity u.event = .call .waitPid args → u.out = some u64Max →
      (∀ pid, ¬ u.pre.sched.Names args.rdi.toNat pid) ∨
        u.pre.sched.Names args.rdi.toNat u.pre.sched.cur.pid) ∧
    (∀ pid, u.pre.activity u.event = .resumed (.waitPid pid) → u.out = some u64Max →
      pid = u.pre.sched.cur.pid)

/-- In every run in which no process passes `EXIT_FAULT` or `u64::MAX` to `EXIT`, or to a `KILL` of a
process that has not ended, crashes are distinguishable from exits. -/
theorem crashes_distinguishable {ts : List KernelStep} (h : Run (xernel plat) ts k)
    (hforge : ∀ t ∈ ts, t.pre.forgesCode t.event = false) : CrashesAreDistinguishable ts := by
  intro n u hu
  have hmem : u ∈ ts := List.mem_of_getElem? hu
  obtain ⟨hn, rfl⟩ := List.getElem?_eq_some_iff.mp hu
  have hts : ts = ts.take n ++ ts[n] :: ts.drop (n + 1) := by simp
  obtain ⟨hpre, hstep, -⟩ := h.split hts
  have hreach : Reachable (xernel plat) ts[n].pre := ⟨_, hpre⟩
  have hinv := tableInv_run hpre
  have hcodes := codesInv_run hpre fun t ht => hforge t (List.mem_of_mem_take ht)
  have hmax : ∀ {pid}, ts[n].pre.WaitsForPid ts[n].event pid → ts[n].out = some u64Max →
      ts[n].pre.sched.cur.pid = pid := by
    intro pid hw hout
    rw [hout] at hstep
    rcases hw.out_cases hinv hreach hstep with ⟨-, hcur⟩ | hcode
    · exact hcur
    · exact absurd rfl (hcodes.noMax _ _ hcode)
  refine ⟨fun pid hw => ⟨fun hout => ?_, fun hf => ?_⟩, fun args hact hout => ?_,
    fun pid hact hout => (hmax (.inr hact) hout).symm⟩
  · rw [hout] at hstep
    rcases hw.out_cases hinv hreach hstep with ⟨hv, -⟩ | hcode
    · cases hv
    · exact hcodes.only _ _ hcode rfl
  · obtain ⟨hend, hne⟩ := hcodes.faulted pid hf
    have hexec : ts[n].pre.exec ≠ .halted := by
      intro hexec
      simp [xernel, Xernel.step, hexec] at hstep
    exact hend.waitPid_out hinv hreach (hne hexec) hw hstep
  · by_cases hname : ∃ pid, ts[n].pre.sched.Names args.rdi.toNat pid
    · obtain ⟨pid, hname⟩ := hname
      have hself := hmax (.inl ⟨args, hact, hname⟩) hout
      exact .inr (hself ▸ hname)
    · exact .inl fun pid hp => hname ⟨pid, hp⟩

/-- A child crashes on its first instruction; its parent waits for it and sees `EXIT_FAULT`. -/
theorem crashes_distinguishable_fault :
    ∃ ts k, Run (xernel smallPlatform) ts k ∧ CrashesAreDistinguishable ts ∧
      (ts.getLast?.bind fun u => u.out) = some exitFault := by
  let es : List Event := [.resume, .call .spawn 0 6, .call .yield, .resume, .fault, .resume,
    .call .waitPid 6]
  have hrun : (trace smallPlatform es).isSome = true := by decide +kernel
  have hfacts : (trace smallPlatform es).map (fun r => (r.1.all fun t =>
      !t.pre.forgesCode t.event, r.1.getLast?.bind fun u => u.out)) =
      some (true, some exitFault) := by
    decide +kernel
  obtain ⟨r, hr⟩ := Option.isSome_iff_exists.mp hrun
  rw [hr, Option.map_some, Option.some.injEq, Prod.mk.injEq] at hfacts
  refine ⟨r.1, r.2, trace_run hr, crashes_distinguishable (trace_run hr) fun t ht => ?_, hfacts.2⟩
  simpa using List.all_eq_true.mp hfacts.1 t ht

/-- A child passes `0x100` to `EXIT`; its parent waits for it and sees `EXIT_FAULT` although nothing
has crashed. -/
theorem crashes_not_distinguishable :
    ¬ ∀ (plat : Platform) (ts : List KernelStep) (k : Kernel), Run (xernel plat) ts k →
      CrashesAreDistinguishable ts := by
  intro hall
  let es : List Event := [.resume, .call .spawn 0 6, .call .yield, .resume, .call .exit 0x100,
    .resume, .call .waitPid 6]
  have hrun : (trace smallPlatform es).isSome = true := by decide +kernel
  have hfacts : (trace smallPlatform es).map (fun r => ((r.1[6]?).map fun u => (u.out,
      u.pre.currentProcessPid 6), r.1.all fun t => !t.pre.faults t.event)) =
      some (some (some exitFault, some 1), true) := by decide +kernel
  obtain ⟨r, hr⟩ := Option.isSome_iff_exists.mp hrun
  rw [hr, Option.map_some, Option.some.injEq, Prod.mk.injEq] at hfacts
  obtain ⟨u, hu, huf⟩ := Option.map_eq_some_iff.mp hfacts.1
  obtain ⟨hout, hpid⟩ := Prod.mk.inj huf
  have hev : Event.call .waitPid 6 = u.event := Option.some.inj (trace_event hr hu)
  have hwait : u.pre.WaitsForPid u.event 1 :=
    .inl ⟨⟨6, 0, 0, 0, 0, 0⟩, by rw [← hev]; rfl, Kernel.currentProcessPid_eq_some.mp hpid⟩
  obtain ⟨t, ht, hf, -⟩ := ((hall _ _ _ (trace_run hr) 6 u hu).1 1 hwait).mp hout
  have hnone := List.all_eq_true.mp hfacts.2 t (List.mem_of_mem_take ht)
  rw [hf] at hnone
  cases hnone

end Xernel
