import Xernel.Coherence
import Xernel.RoundRobin

/-!
# Waiting for the processor

Processes come and go and change each other's states while a ready process waits for its turn. The
order of the circle still holds: `Rotation.turn` of the running process moves on with every switch, so
nobody overtakes the waiting process twice.
-/

namespace Xernel

open TransitionSystem

variable {plat : Platform} {k k' k₀ : Kernel} {a b : Core} {act : Activity} {out : Option ℕ}
  {ts : List KernelStep} {i : ℕ}

/-! ## One step -/

namespace Scheduler

variable {s s' : Scheduler}

lemma isReady_modifyCur {f : Process → Process} (hi : i ≠ s.current) :
    (s.modifyCur f).isReady i = s.isReady i := by
  have hget : (s.modifyCur f).procs[i]? = s.procs[i]? := by
    rw [modifyCur, getElem?_modify, if_neg (Ne.symm hi)]
  rw [isReady, isReady, List.getElem?_map, List.getElem?_map, hget]

lemma lt_of_isReady (h : s.isReady i = true) : i < s.procs.length := by
  obtain ⟨p, hp, -⟩ := isReady_iff.mp h
  exact (List.getElem?_eq_some_iff.mp hp).1

lemma Switched.next (h : s.Switched s') :
    Rotation.next s.procs.length s.isReady s.current = some s'.current := by
  obtain ⟨j, hj, rfl⟩ := h
  rw [← pickNext_eq_next, hj]
  rfl

/-- With another process ready, whatever the running one did to itself, `pick_next` goes to another. -/
lemma pickNext_of_isReady {f : Process → Process} (hi : i ≠ s.current) (hready : s.isReady i = true) :
    ∃ j : Fin (s.modifyCur f).procs.length, (s.modifyCur f).pickNext = some j ∧
      (j : ℕ) ≠ s.current := by
  have hready' : (s.modifyCur f).isReady i = true := by rw [isReady_modifyCur hi, hready]
  have hlt : i < (s.modifyCur f).procs.length := lt_of_isReady hready'
  cases hpick : (s.modifyCur f).pickNext with
  | none =>
    obtain ⟨p, hp, hst⟩ := isReady_iff.mp hready'
    exact absurd hst (pickNext_eq_none.mp hpick i p hp)
  | some j =>
    have hnext := (s.modifyCur f).pickNext_eq_next
    rw [hpick, Option.map_some] at hnext
    have hturn := Rotation.turn_lt_of_next hlt hready' (s.modifyCur f).current_lt
      (Ne.symm hi) hnext.symm
    refine ⟨j, rfl, fun heq => ?_⟩
    rw [heq, modifyCur_current] at hturn
    exact lt_irrefl _ hturn

end Scheduler

/-- Who runs after a step: the same process, or the next ready one on the circle, where nobody but the
running process has changed on its way out. -/
theorem CoreStep.turn (h : CoreStep plat a b act out) :
    b.sched.current = a.sched.current ∨
      ∃ ready, Rotation.next a.sched.procs.length ready a.sched.current = some b.sched.current ∧
        ∀ i ≠ a.sched.current, ready i = a.sched.isReady i := by
  have hswitch : ∀ {f : Process → Process}, (a.sched.modifyCur f).Switched b.sched →
      ∃ ready, Rotation.next a.sched.procs.length ready a.sched.current = some b.sched.current ∧
        ∀ i ≠ a.sched.current, ready i = a.sched.isReady i := by
    intro f hs
    have hnext := hs.next
    rw [Scheduler.length_modifyCur, Scheduler.modifyCur_current] at hnext
    exact ⟨_, hnext, fun i hi => Scheduler.isReady_modifyCur hi⟩
  cases h with
  -- only these three hand the processor on; the others leave the scheduler where it is
  | yielded hk hkont hout hs hc => exact .inr (hswitch hs)
  | blocked hk hkont hout hwait hs hc =>
    rcases hs with hs | hs
    · rw [Scheduler.setState, Scheduler.park, Scheduler.modifyCur_modifyCur] at hs
      exact .inr (hswitch hs)
    · rw [hs]
      exact .inl rfl
  | exited code hact hout hs hc =>
    rcases hs with hs | hs
    · exact .inr (hswitch hs)
    · rw [hs]
      exact .inl rfl
  | quiet hact hout hs | logged data hact hs | setBreak hact hs | charged hact hout h hs
  | refunded hact hout h hs | frameInstalled hact hout h hins hs | spawned hact hout hp hins hs
  | sent hact hout hid hsend hs | signalled hact hout hid hsig hs | received hact hrecv hins hs
  | taken hact hout htake hs | parked hk hkont hout hs | logTaken hact hpid hi hs
  | killed hact hpid hne hi halive hs | granted hact hres hpid hcap hi hins hs =>
    rw [hs]
    exact .inl rfl

/-- While another process waits ready, every switch gets on on the way to it. -/
lemma CoreStep.turn_lt (h : CoreStep plat a b act out) (hready : a.sched.isReady i = true)
    (hne : a.sched.current ≠ i) (hsw : b.sched.current ≠ a.sched.current) :
    Rotation.turn i a.sched.current < Rotation.turn i b.sched.current := by
  rcases h.turn with heq | ⟨ready, hnext, hother⟩
  · exact absurd heq hsw
  · refine Rotation.turn_lt_of_next (Scheduler.lt_of_isReady hready) ?_ a.sched.current_lt hne hnext
    rw [hother i (Ne.symm hne), hready]

/-- A process that does not run stays ready until it is killed, and stays ended. -/
lemma ProcStep.waiting {p p' : Process} (h : ProcStep a b act out i p p')
    (hne : a.sched.current ≠ i) :
    (p.state = .ready → p'.state = .ready ∨ p'.state = .done) ∧
      (p.state = .done → p'.state = .done) := by
  cases h with
  | own hi h => exact absurd hi.symm hne
  | woken hst => exact ⟨fun _ => .inl rfl, fun h => by rw [hst] at h; cases h⟩
  | killed hact hpid hne halive => exact ⟨fun _ => .inr rfl, fun _ => rfl⟩
  | same | logTaken hact hpid | granted hact hres hpid hcap hins => exact ⟨.inl, id⟩

namespace Kernel

lemma yieldNow_of_isReady (kont : Kont) (hi : i ≠ k.sched.current)
    (hready : k.sched.isReady i = true) :
    ∃ k', k.yieldNow kont = some k' ∧ k'.sched.current ≠ k.sched.current := by
  obtain ⟨j, hj, hne⟩ := Scheduler.pickNext_of_isReady (f := fun p => { p with kont }) hi hready
  have hpick : (k.park kont).sched.pickNext = some j := hj
  refine ⟨(k.park kont).resumeProcess j, ?_, hne⟩
  rw [yieldNow]
  simp only [hpick]
  exact if_neg hne

lemma exitInner_current (code : ℕ) (hi : i ≠ k.sched.current)
    (hready : k.sched.isReady i = true) : (k.exitInner code).sched.current ≠ k.sched.current := by
  obtain ⟨j, hj, hne⟩ := Scheduler.pickNext_of_isReady
    (f := fun p => { p with exitCode := code, state := .done }) hi hready
  have hpick : (k.modifyCur fun p => { p with exitCode := code, state := .done }).sched.pickNext =
      some j := hj
  rw [exitInner]
  simp only [hpick]
  exact hne

end Kernel

/-- The running process is preempted, yields, or ends. -/
def relinquishes (t : KernelStep) : Bool :=
  match t.pre.exec, t.event with
  | .user, .timer => true
  | .user, .fault => true
  | .user, .syscall nr _ _ => Sys.decode nr = some .yield ∨ Sys.decode nr = some .exit
  | _, _ => false

/-- Whoever gives up the processor does not get it back while somebody else is ready. -/
lemma relinquishes_switch {e : Event} (hreach : Reachable (xernel plat) k)
    (hs : step plat k e = some (k', out)) (hrel : relinquishes ⟨k, e, out, k'⟩ = true)
    (hi : i ≠ k.sched.current) (hready : k.sched.isReady i = true) :
    k'.sched.current ≠ k.sched.current := by
  obtain ⟨ts, hrun⟩ := hreach
  generalize hr : (k', out) = r at hs
  obtain rfl : k' = r.1 := by rw [← hr]
  clear hr
  cases step_cases hs with
  | @syscall nr args hw hexec =>
    have hgs := (coherent_run hrun).swapgs hexec
    rw [Kernel.syscallEntry]
    dsimp only
    -- the way out of the call does not touch the scheduler
    rw [if_pos hgs.1, show (Kernel.syscallExit _).1.sched = _ from
      congrArg Core.sched (Kernel.syscallExit_core _).1]
    simp only [relinquishes, hexec, decide_eq_true_eq] at hrel
    rcases hrel with hnr | hnr
    · obtain ⟨k₁, hk₁, hne⟩ := Kernel.yieldNow_of_isReady .yield
        (k := { k with cpu := k.cpu.swapgs, exec := .kernel }) hi hready
      rw [Kernel.dispatch, hnr]
      simp only [hk₁]
      exact hne
    · rw [Kernel.dispatch, hnr]
      exact Kernel.exitInner_current (k := { k with cpu := k.cpu.swapgs, exec := .kernel })
        _ hi hready
  | timer hexec =>
    obtain ⟨k₁, hk₁, hne⟩ := Kernel.yieldNow_of_isReady .timer
      (k := { k.tick with cpu := k.cpu.swapgs, exec := .kernel }) hi hready
    rw [Kernel.timerIsr]
    simp only [hk₁]
    exact hne
  | fault hexec =>
    exact Kernel.exitInner_current (k := { k with cpu := k.cpu.gsForceKernel, exec := .kernel })
      exitFault hi hready
  | idleTick hexec => simp [relinquishes, hexec] at hrel
  | keyboard hexec => simp [relinquishes] at hrel
  | store hexec => simp [relinquishes] at hrel
  | dma hexec hw => simp [relinquishes] at hrel
  | resume hexec hp => simp [relinquishes] at hrel

/-! ## Along a path -/

/-- The processes that got the processor, in this order. -/
def switchedTo (ts : List KernelStep) : List ℕ :=
  (ts.filter fun t => t.post.sched.current ≠ t.pre.sched.current).map fun t => t.post.sched.current

lemma switchedTo_append (as bs : List KernelStep) :
    switchedTo (as ++ bs) = switchedTo as ++ switchedTo bs := by
  rw [switchedTo, switchedTo, switchedTo, List.filter_append, List.map_append]

/-- A process that waits ready keeps waiting ready, unless it ends. -/
lemma ready_or_done (hreach : Reachable (xernel plat) k₀) (hpath : (xernel plat).Path k₀ ts k)
    (hstart : k₀.sched.isReady i = true) (hwait : ∀ t ∈ ts, t.pre.sched.current ≠ i) :
    ∃ p, k.sched.procs[i]? = some p ∧ (p.state = .ready ∨ p.state = .done) := by
  induction hpath with
  | nil =>
    obtain ⟨p, hp, hst⟩ := Scheduler.isReady_iff.mp hstart
    exact ⟨p, hp, .inl hst⟩
  | @snoc ts k k' e out hpath hs ih =>
    obtain ⟨p, hp, hst⟩ := ih fun t ht => hwait t (List.mem_append_left _ ht)
    have hne : k.sched.current ≠ i := hwait ⟨k, e, out, k'⟩ (by simp)
    obtain ⟨p', hp', hstep⟩ := (reachable_core (hpath.reachable hreach) hs).stays hp
    refine ⟨p', hp', ?_⟩
    rcases hst with hst | hst
    · exact (hstep.waiting hne).1 hst
    · exact .inr ((hstep.waiting hne).2 hst)

/-- A process that is ready at both ends and has not run was ready all the time. -/
lemma isReady_pre {e : Event} (hreach : Reachable (xernel plat) k₀)
    (hpath : (xernel plat).Path k₀ ts k) (hs : (xernel plat).step k e = some (k', out))
    (hstart : k₀.sched.isReady i = true) (hwait : ∀ t ∈ ts, t.pre.sched.current ≠ i)
    (hne : k.sched.current ≠ i) (hend : k'.sched.isReady i = true) : k.sched.isReady i = true := by
  obtain ⟨p, hp, hst⟩ := ready_or_done hreach hpath hstart hwait
  obtain ⟨p', hp', hstep⟩ := (reachable_core (hpath.reachable hreach) hs).stays hp
  obtain ⟨q, hq, hready⟩ := Scheduler.isReady_iff.mp hend
  obtain rfl : p' = q := Option.some.inj (hp'.symm.trans hq)
  rcases hst with hst | hst
  · exact Scheduler.isReady_iff.mpr ⟨p, hp, hst⟩
  · rw [(hstep.waiting hne).2 hst] at hready
    cases hready

/-- The turns of those who run while `i` waits go up, and each step in which somebody gives up the
processor is a switch. -/
lemma turns_increase (hreach : Reachable (xernel plat) k₀) (hpath : (xernel plat).Path k₀ ts k)
    (hstart : k₀.sched.isReady i = true) (hend : k.sched.isReady i = true)
    (hwait : ∀ t ∈ ts, t.pre.sched.current ≠ i) :
    (k₀.sched.current :: switchedTo ts).Pairwise (fun c j => Rotation.turn i c < Rotation.turn i j) ∧
      (∀ c ∈ k₀.sched.current :: switchedTo ts, c < k.sched.procs.length ∧
        Rotation.turn i c ≤ Rotation.turn i k.sched.current) ∧
      ∀ t ∈ ts, relinquishes t = true → t.post.sched.current ≠ t.pre.sched.current := by
  induction hpath with
  | nil =>
    refine ⟨List.pairwise_singleton .., fun c hc => ?_, fun t ht => absurd ht List.not_mem_nil⟩
    obtain rfl := List.mem_singleton.mp hc
    exact ⟨k₀.sched.current_lt, le_rfl⟩
  | @snoc ts k k' e out hpath hs ih =>
    have hwait' : ∀ t ∈ ts, t.pre.sched.current ≠ i := fun t ht => hwait t (List.mem_append_left _ ht)
    have hne : k.sched.current ≠ i := hwait ⟨k, e, out, k'⟩ (by simp)
    -- `i` is ready before the last step too, so the induction hypothesis applies
    have hready : k.sched.isReady i = true := isReady_pre hreach hpath hs hstart hwait' hne hend
    obtain ⟨hturns, hle, hswitch⟩ := ih hready hwait'
    have hreach' := hpath.reachable hreach
    have hcore := reachable_core hreach' hs
    have hswitch' : ∀ t ∈ ts ++ [(⟨k, e, out, k'⟩ : KernelStep)], relinquishes t = true →
        t.post.sched.current ≠ t.pre.sched.current := by
      intro t ht hrel
      rcases List.mem_append.mp ht with ht | ht
      · exact hswitch t ht hrel
      · obtain rfl := List.mem_singleton.mp ht
        exact relinquishes_switch hreach' hs hrel (Ne.symm hne) hready
    have hlen : k.sched.procs.length ≤ k'.sched.procs.length := hcore.length_le
    by_cases hsw : k'.sched.current = k.sched.current
    · have hnil : switchedTo [(⟨k, e, out, k'⟩ : KernelStep)] = [] := by simp [switchedTo, hsw]
      rw [switchedTo_append, hnil, List.append_nil, hsw]
      refine ⟨hturns, fun c hc => ?_, hswitch'⟩
      obtain ⟨hlt, hturn⟩ := hle c hc
      exact ⟨by omega, hturn⟩
    · have hone : switchedTo [(⟨k, e, out, k'⟩ : KernelStep)] = [k'.sched.current] := by
        simp [switchedTo, hsw]
      -- a switch goes on towards `i`, so the new turn is above all earlier ones
      have hturn : Rotation.turn i k.sched.current < Rotation.turn i k'.sched.current :=
        hcore.turn_lt hready hne hsw
      rw [switchedTo_append, hone, ← List.cons_append]
      refine ⟨?_, fun c hc => ?_, hswitch'⟩
      · rw [List.pairwise_append]
        refine ⟨hturns, List.pairwise_singleton .., fun c hc j hj => ?_⟩
        obtain rfl := List.mem_singleton.mp hj
        exact lt_of_le_of_lt (hle c hc).2 hturn
      · rcases List.mem_append.mp hc with hc | hc
        · exact ⟨Nat.lt_of_lt_of_le (hle c hc).1 hlen, ((hle c hc).2.trans_lt hturn).le⟩
        · obtain rfl := List.mem_singleton.mp hc
          exact ⟨k'.sched.current_lt, le_rfl⟩

/-- While a ready process waits for the processor, nobody else gets it twice, and the process that has
it at the start does not get it back. So there are fewer switches than processes, whatever processes
are started, killed and woken meanwhile, and each step in which a process is preempted, yields or ends
is one. -/
theorem bounded_wait (hreach : Reachable (xernel plat) k₀) (hpath : (xernel plat).Path k₀ ts k)
    (hstart : k₀.sched.isReady i = true) (hend : k.sched.isReady i = true)
    (hwait : ∀ t ∈ ts, t.pre.sched.current ≠ i) :
    (k₀.sched.current :: switchedTo ts).Nodup ∧
      (∀ t ∈ ts, relinquishes t = true → t.post.sched.current ≠ t.pre.sched.current) ∧
      (switchedTo ts).length < k.sched.procs.length := by
  obtain ⟨hturns, hle, hswitch⟩ := turns_increase hreach hpath hstart hend hwait
  have hnodup : (k₀.sched.current :: switchedTo ts).Nodup := by
    refine hturns.imp ?_
    rintro c j hlt rfl
    exact lt_irrefl _ hlt
  refine ⟨hnodup, hswitch, ?_⟩
  -- distinct processes of the table: no more than it has
  have hsub : k₀.sched.current :: switchedTo ts ⊆ List.range k.sched.procs.length :=
    fun c hc => List.mem_range.mpr (hle c hc).1
  have hlen := (hnodup.subperm hsub).length_le
  rw [List.length_cons, List.length_range] at hlen
  omega

/-- The first process starts two others and is preempted; the second one is preempted in turn, and the
third has its turn. -/
theorem bounded_wait_third : ∃ (k₀ k : Kernel) (ts : List KernelStep),
    Reachable (xernel smallPlatform) k₀ ∧ (xernel smallPlatform).Path k₀ ts k ∧
      ts.countP relinquishes = 2 ∧ (k₀.sched.current :: switchedTo ts).Nodup ∧
      (∀ t ∈ ts, relinquishes t = true → t.post.sched.current ≠ t.pre.sched.current) ∧
      (switchedTo ts).length < k.sched.procs.length := by
  let start : Option (List KernelStep × Kernel) :=
    trace smallPlatform [.resume, .call .spawn 0 6, .call .spawn 0 7]
  let path (k : Kernel) : Option (List KernelStep × Kernel) :=
    (xernel smallPlatform).replay k [.timer, .resume, .timer]
  have hrun : start.isSome = true ∧ (start.bind fun r => path r.2).isSome = true := by decide +kernel
  have hfacts : (start.map fun r => r.2.sched.isReady 2) = some true ∧
      ((start.bind fun r => path r.2).map fun r =>
        (r.2.sched.isReady 2, r.1.map fun t => t.pre.sched.current, r.1.countP relinquishes)) =
        some (true, [0, 1, 1], 2) := by decide +kernel
  obtain ⟨r₀, hr₀⟩ := Option.isSome_iff_exists.mp hrun.1
  have hpath := hrun.2
  rw [hr₀, Option.bind_some] at hpath hfacts
  obtain ⟨r, hr⟩ := Option.isSome_iff_exists.mp hpath
  rw [hr, Option.map_some, Option.map_some, Option.some.injEq, Option.some.injEq, Prod.mk.injEq,
    Prod.mk.injEq] at hfacts
  obtain ⟨hstart, hend, hcur, hcount⟩ := hfacts
  have hreach : Reachable (xernel smallPlatform) r₀.2 := ⟨r₀.1, trace_run hr₀⟩
  have hwait : ∀ t ∈ r.1, t.pre.sched.current ≠ 2 := by
    intro t ht heq
    have hmem : (2 : ℕ) ∈ r.1.map fun t => t.pre.sched.current := List.mem_map.mpr ⟨t, ht, heq⟩
    rw [hcur] at hmem
    simp at hmem
  exact ⟨r₀.2, r.2, r.1, hreach, path_of_replay hr, hcount,
    bounded_wait hreach (path_of_replay hr) hstart hend hwait⟩

end Xernel
