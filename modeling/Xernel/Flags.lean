import Xernel.Core

/-!
# The nested-task flag

`SFMASK` has `syscall` clear some flags, but it leaves `RFLAGS.NT` as ring 3 has set it; the gates of
interrupts and exceptions clear it. The kernel never touches it, and a context switch does not save it. So
a process that gives the processor away in a system call takes the flag along, and if the next thread was
preempted by the timer, the `iretq` that closes `timer_isr` faults in ring 0. `sysretq` does not mind.

Up to such a fault the runs of the system with the flag are those without.
-/

namespace Xernel

variable {plat : Platform}

/-- The kernel, with `RFLAGS.NT` as it is in ring 0. -/
structure FlaggedKernel where
  kernel : Kernel
  nt : Bool

/-- What can happen next, with `RFLAGS.NT` as ring 3 has it then. -/
structure FlaggedEvent where
  event : Event
  nt : Bool

/-- The flag in ring 0 after an event. -/
def Kernel.ntAfter (k : Kernel) (nt : Bool) (e : FlaggedEvent) : Bool :=
  match k.exec, e.event with
  | .user, .syscall _ _ _ => e.nt
  | .user, _ => false
  | _, _ => nt

/-- The thread the processor is on goes on with the `iretq` of `timer_isr`, and the flag is set. -/
def FlaggedKernel.iretFaults (s : FlaggedKernel) (e : Event) : Bool :=
  s.nt && match s.kernel.exec, s.kernel.activity e with
    | .idle, .resumed .timer | .kernel, .resumed .timer => true
    | _, _ => false

/-- The running system, with the flag: the general protection fault of `iretq` is a panic (`fatal`). -/
def flagged (plat : Platform) : TransitionSystem FlaggedKernel FlaggedEvent (Option ℕ) where
  init s := boot plat = some s.kernel ∧ s.nt = false
  step s e :=
    if s.iretFaults e.event then some (⟨s.kernel.panic, s.nt⟩, none)
    else (step plat s.kernel e.event).map fun r => (⟨r.1, s.kernel.ntAfter s.nt e⟩, r.2)

abbrev FlaggedStep := Transition FlaggedKernel FlaggedEvent (Option ℕ)

/-- The run of the system with the flag on the given events. -/
def flaggedTrace (plat : Platform) (es : List FlaggedEvent) : Option (List FlaggedStep × FlaggedKernel) :=
  (boot plat).bind fun k => (flagged plat).replay ⟨k, false⟩ es

lemma flaggedTrace_run {es : List FlaggedEvent} {r : List FlaggedStep × FlaggedKernel}
    (h : flaggedTrace plat es = some r) : Run (flagged plat) r.1 r.2 := by
  obtain ⟨k, hk, hr⟩ := Option.bind_eq_some_iff.mp h
  have hinit : (flagged plat).init ⟨k, false⟩ := ⟨hk, rfl⟩
  simpa using (Run.start hinit).append_replay hr

lemma flaggedTrace_events {es : List FlaggedEvent} {r : List FlaggedStep × FlaggedKernel}
    (h : flaggedTrace plat es = some r) : r.1.map Transition.event = es := by
  obtain ⟨k, -, hr⟩ := Option.bind_eq_some_iff.mp h
  exact TransitionSystem.replay_events hr

/-- A step without the flag. -/
def FlaggedStep.plain (t : FlaggedStep) : KernelStep :=
  ⟨t.pre.kernel, t.event.event, t.out, t.post.kernel⟩

namespace Flagged

variable {ts : List FlaggedStep} {s s' : FlaggedKernel} {e : FlaggedEvent} {out : Option ℕ}

/-- A step is a fault, or one without the flag. -/
lemma step_cases (h : (flagged plat).step s e = some (s', out)) :
    s.iretFaults e.event = true ∧ s'.kernel = s.kernel.panic ∧ out = none ∨
      s.iretFaults e.event = false ∧ step plat s.kernel e.event = some (s'.kernel, out) ∧
        s'.nt = s.kernel.ntAfter s.nt e := by
  by_cases hfault : s.iretFaults e.event = true
  · obtain ⟨rfl, rfl⟩ := Prod.mk.inj (Option.some.inj ((if_pos hfault).symm.trans h))
    exact .inl ⟨hfault, rfl, rfl⟩
  · obtain ⟨r, hr, heq⟩ := Option.map_eq_some_iff.mp ((if_neg hfault).symm.trans h)
    obtain ⟨rfl, rfl⟩ := Prod.mk.inj heq
    exact .inr ⟨Bool.eq_false_iff.mpr hfault, hr, rfl⟩

/-- Nothing happens after a panic. -/
lemma exec_ne_panicked (h : (flagged plat).step s e = some (s', out)) : s.kernel.exec ≠ .panicked := by
  intro hexec
  rcases step_cases h with ⟨hfault, -⟩ | ⟨-, hs, -⟩
  · simp [FlaggedKernel.iretFaults, hexec] at hfault
  · simp [step, hexec] at hs

/-- A run is one without the flag, or its last step is a fault and the steps before are such a run. -/
theorem run_plain (h : Run (flagged plat) ts s) :
    Run (xernel plat) (ts.map FlaggedStep.plain) s.kernel ∨ ∃ a t, ts = a ++ [t] ∧
      t.pre.iretFaults t.event.event = true ∧
      Run (xernel plat) (a.map FlaggedStep.plain) t.pre.kernel ∧ s.kernel = t.pre.kernel.panic := by
  induction h with
  | start hinit => exact .inl (.start hinit.1)
  | @next ts s s' e out h hs ih =>
    rcases ih with hrun | ⟨a, t, -, -, -, hpanic⟩
    · rcases step_cases hs with ⟨hfault, hpanic, -⟩ | ⟨-, hstep, -⟩
      · exact .inr ⟨ts, ⟨s, e, out, s'⟩, rfl, hfault, hrun, hpanic⟩
      · rw [List.map_append]
        exact .inl (hrun.next hstep)
    · -- after a fault there is no step
      exact absurd (congrArg Kernel.exec hpanic) (exec_ne_panicked hs)

/-- What comes before a step of a run is a run without the flag. -/
lemma run_before {a b : List FlaggedStep} {t : FlaggedStep} (h : Run (flagged plat) ts s)
    (hts : ts = a ++ t :: b) : Run (xernel plat) (a.map FlaggedStep.plain) t.pre.kernel := by
  obtain ⟨hpre, hs, -⟩ := h.split hts
  rcases run_plain hpre with hrun | ⟨_, _, -, -, -, hpanic⟩
  · exact hrun
  · exact absurd (congrArg Kernel.exec hpanic) (exec_ne_panicked hs)

/-- If ring 3 never has the flag set, neither has the kernel. -/
lemma nt_clear (h : Run (flagged plat) ts s) (hts : ∀ t ∈ ts, t.event.nt = false) : s.nt = false := by
  refine h.invariant_of (I := fun s => s.nt = false) (C := fun _ e => e.nt = false)
    (fun s (hinit : boot plat = some s.kernel ∧ s.nt = false) => hinit.2) (fun s e s' out _ hnt he hs => ?_) hts
  rcases step_cases hs with ⟨hfault, -⟩ | ⟨-, -, hafter⟩
  · simp [FlaggedKernel.iretFaults, hnt] at hfault
  · rw [hafter, Kernel.ntAfter]
    split
    · exact he
    · rfl
    · exact hnt

end Flagged

end Xernel
