import Xernel.Holdings
import Xernel.Coherence

/-!
# The process table and `Process` capabilities

A PID is the index of its process for good, and every `Process` capability in circulation names a
process of the table other than the first, so searches by PID through a capability never fail.
-/

namespace Xernel

variable {plat : Platform} {a b : Core} {act : Activity} {out : Option ℕ}

/-! ## The invariant -/

/-- PIDs are indices, and whatever names a process by PID names one of the table. -/
structure TableInv (a : Core) : Prop where
  pid : ∀ (i : ℕ) (p : Process), a.sched.procs[i]? = some p → p.pid = i
  nextPid : a.sched.nextPid = a.sched.procs.length
  named : ∀ cap pid, a.Holds cap → cap.processPid = some pid →
    1 ≤ pid ∧ pid < a.sched.procs.length
  waited : ∀ (i : ℕ) (p : Process) (pid : ℕ), a.sched.procs[i]? = some p → p.kont = .waitPid pid →
    1 ≤ pid ∧ pid < a.sched.procs.length

lemma CapEntry.processPid_eq_some {cap : CapEntry} {pid : ℕ} :
    cap.processPid = some pid ↔ cap.capType = .process ∧ cap.object = pid := by
  unfold processPid
  split <;> simp_all

lemma CapEntry.SameButBudget.processPid {cap cap' : CapEntry} (h : cap.SameButBudget cap') :
    cap'.processPid = cap.processPid := by
  by_cases hu : cap.capType = .untyped
  · have hu' : cap'.capType = .untyped := h.1.trans hu
    simp [CapEntry.processPid, hu, hu']
  · rw [h.eq hu]

/-- No process is seeded with a `Process` capability. -/
lemma processPid_seededCaps : ∀ cap ∈ seededCaps, cap.processPid = none := by decide

namespace TableInv

/-- A search by PID ends at the index it names. -/
lemma indexOf (h : TableInv a) {pid : ℕ} (hpid : pid < a.sched.procs.length) :
    a.sched.indexOf pid = some pid := by
  rw [Scheduler.indexOf, List.findIdx?_eq_some_iff_getElem]
  refine ⟨hpid, ?_, fun j hj => ?_⟩
  · simpa using h.pid pid _ (List.getElem?_eq_getElem hpid)
  · have hj' := h.pid j _ (List.getElem?_eq_getElem (Nat.lt_trans hj hpid))
    simp only [hj']
    simp
    omega

lemma find (h : TableInv a) {pid : ℕ} (hpid : pid < a.sched.procs.length) :
    ∃ p, a.sched.procs[pid]? = some p ∧ p.pid = pid ∧ a.sched.find pid = some p :=
  Scheduler.find_eq_of_indexOf (h.indexOf hpid)

/-- What a slot of the running process names is in the table. -/
lemma names (h : TableInv a) {slot pid : ℕ} (hn : a.sched.Names slot pid) :
    1 ≤ pid ∧ pid < a.sched.procs.length := by
  obtain ⟨cap, hcap, hpid⟩ := hn
  exact h.named cap pid (.inl ⟨_, _, Core.hasSlot_cur hcap⟩) hpid

/-- The running process has its index as PID. -/
lemma cur_pid (h : TableInv a) : a.sched.cur.pid = a.sched.current :=
  h.pid _ _ (Scheduler.getElem?_current _)

/-- One step keeps the table invariant, if a resumed thread resumes at its own continuation. -/
theorem step (h : TableInv a) (hs : CoreStep plat a b act out)
    (hres : ∀ kont, act = .resumed kont → ∃ (i : ℕ) (p : Process),
      a.sched.procs[i]? = some p ∧ p.kont = kont) :
    TableInv b := by
  have hle := hs.length_le
  have hwiden : ∀ {pid : ℕ}, 1 ≤ pid ∧ pid < a.sched.procs.length →
      1 ≤ pid ∧ pid < b.sched.procs.length := fun h => ⟨h.1, Nat.lt_of_lt_of_le h.2 hle⟩
  have hparks : ∀ {kont pid}, Parks a.sched act kont → kont = .waitPid pid →
      1 ≤ pid ∧ pid < b.sched.procs.length := by
    intro kont pid hk heq
    cases hk with
    | again =>
      obtain ⟨i, p, hp, hkont⟩ := hres kont rfl
      exact hwiden (h.waited i p pid hp (hkont.trans heq))
    | waitPid hn hne => cases heq; exact hwiden (h.names hn)
    | _ => cases heq
  refine ⟨fun i p hp => ?_, ?_, fun cap pid hcap hpid => ?_, fun i p pid hp hkont => ?_⟩
  · rcases hs.proc hp with ⟨q, hq, hstep⟩ | ⟨rfl, hnew⟩
    · exact hstep.identity.pid.trans (h.pid i q hq)
    · exact hnew.spec.1.trans h.nextPid
  · have := h.nextPid
    rcases hs.length with ⟨hl, hn⟩ | ⟨hl, hn, -⟩ <;> omega
  · rcases hs.holds hcap with ⟨cap₀, hcap₀, hsame⟩ | ⟨slot, hseed⟩ | ⟨rfl, hnext⟩ |
      ⟨phys, pages, later, rfl, -⟩
    · exact hwiden (h.named cap₀ pid hcap₀ (hsame.processPid ▸ hpid))
    · rw [processPid_seededCaps cap (seededSlot_mem hseed)] at hpid; cases hpid
    · -- the handle of the new process: it names the index the process gets
      obtain rfl := (CapEntry.processPid_eq_some.mp hpid).2
      have hpos := a.sched.length_pos
      have hnx := h.nextPid
      show 1 ≤ a.sched.nextPid ∧ a.sched.nextPid < _
      rcases hs.length with ⟨hl, hn⟩ | ⟨hl, hn, -⟩ <;> omega
    · cases hpid
  · rcases hs.proc hp with ⟨q, hq, hstep⟩ | ⟨rfl, hnew⟩
    · cases hstep with
      | own hi hown =>
        cases hown with
        | parked hk | blocked hk | unblocked hk => exact hparks hk hkont
        | _ => exact hwiden (h.waited i _ pid hq hkont)
      | _ => exact hwiden (h.waited i _ pid hq hkont)
    · rw [hnew.spec.2.1] at hkont; cases hkont

end TableInv

/-- A resumed thread resumes at the continuation of its process. -/
lemma activity_resumed {k : Kernel} {e : Event} {kont : Kont}
    (h : k.activity e = .resumed kont) :
    ∃ p, k.sched.procs[k.cpu.thread]? = some p ∧ p.kont = kont := by
  unfold Kernel.activity at h
  split at h
  next nr _ _ => cases hd : Sys.decode nr <;> rw [hd] at h <;> cases h
  next =>
    cases hp : k.sched.procs[k.cpu.thread]? with
    | none => rw [hp] at h; cases h
    | some p => rw [hp] at h; cases h; exact ⟨p, rfl, rfl⟩
  next => cases h

lemma tableInv_boot {k : Kernel} (h : boot plat = some k) : TableInv k.core := by
  obtain ⟨m, p, hnew, hprocs, -, hnext, -⟩ := boot_core h
  have hget : ∀ (i : ℕ) (q : Process), k.core.sched.procs[i]? = some q → i = 0 ∧ q = p := by
    intro i q hq
    rw [hprocs] at hq
    rcases i with _ | i
    · exact ⟨rfl, (Option.some.inj hq).symm⟩
    · simp at hq
  refine ⟨fun i q hq => ?_, by rw [hnext, hprocs]; rfl, fun cap pid hcap hpid => ?_,
    fun i q pid hq hk => ?_⟩
  · obtain ⟨rfl, rfl⟩ := hget i q hq
    exact hnew.spec.1
  · rw [processPid_seededCaps cap (boot_holds h hcap).2] at hpid
    cases hpid
  · obtain ⟨rfl, rfl⟩ := hget i q hq
    rw [hnew.spec.2.1] at hk
    cases hk

/-- The table invariant holds in every reachable state. -/
theorem tableInv_run {ts : List KernelStep} {k : Kernel}
    (h : Run (xernel plat) ts k) : TableInv k.core := by
  refine h.invariant (I := fun k => TableInv k.core) (fun k hk => tableInv_boot hk) ?_
  intro k e k' o hreach hinv hs
  refine hinv.step (reachable_core hreach hs) fun kont hk => ?_
  obtain ⟨p, hp, hkont⟩ := activity_resumed hk
  exact ⟨_, p, hp, hkont⟩

/-! ## Using a `Process` capability -/

/-- What happens next acts on the process with PID `pid`, through a `Process` capability of the
caller or in the rest of a `WAIT_PID` that started with one. -/
def Kernel.Targets (k : Kernel) (e : Event) (pid : ℕ) : Prop :=
  (∃ sys args, k.activity e = .call sys args ∧
    sys ∈ [Sys.getStatus, .logRead, .kill, .waitPid, .capGrant] ∧
    k.sched.Names args.rdi.toNat pid) ∨
  k.activity e = .resumed (.waitPid pid)

lemma TableInv.targets {k : Kernel} {e : Event} {pid : ℕ} (h : TableInv k.core)
    (ht : k.Targets e pid) : 1 ≤ pid ∧ pid < k.sched.procs.length := by
  rcases ht with ⟨sys, args, -, -, hn⟩ | hact
  · exact h.names hn
  · obtain ⟨p, hp, hkont⟩ := activity_resumed hact
    exact h.waited _ p pid hp hkont

/-- `GET_STATUS` does not find an unknown PID. -/
lemma TableInv.getStatus_ne_two {k k' : Kernel} {e : Event} {args : Args} (h : TableInv k.core)
    (hreach : Reachable (xernel plat) k) (hact : k.activity e = .call .getStatus args)
    (hs : Xernel.step plat k e = some (k', out)) : out ≠ some 2 := by
  obtain ⟨-, nr, hw, rfl, hd, heq⟩ := reachable_call hreach hs hact
  generalize hk₁ : ({ k with cpu := k.cpu.swapgs, exec := .kernel } : Kernel) = k₁ at heq
  have h₁ : TableInv k₁.core := by rw [← hk₁]; exact h
  have hout : out = (k₁.sysGetStatus args.rdi.toNat).2 := by
    have hsnd := congrArg Prod.snd heq
    rwa [(Kernel.syscallExit_core _).2, Kernel.dispatch, hd] at hsnd
  rw [hout, Kernel.sysGetStatus]
  split
  · simp [u64Max]
  next pid hpid =>
    obtain ⟨p, -, -, hfind⟩ := h₁.find (h₁.names (Kernel.names_of_currentProcessPid hpid)).2
    have hfind' : k₁.sched.find pid = some p := hfind
    simp only [Kernel.getStatus, hfind']
    split <;> simp

/-- A step keeps the index and the identity of a process. -/
lemma step_same {k k' : Kernel} {e : Event} {o : Option ℕ} {i : ℕ} {p : Process}
    (hreach : Reachable (xernel plat) k) (hs : Xernel.step plat k e = some (k', o))
    (h : ∃ q, k.sched.procs[i]? = some q ∧ p.Same q) :
    ∃ q, k'.sched.procs[i]? = some q ∧ p.Same q := by
  obtain ⟨q, hq, hsame⟩ := h
  obtain ⟨q', hq', hstep⟩ := (reachable_core hreach hs).stays hq
  exact ⟨q', hq', hsame.trans hstep.identity⟩

/-- Processes keep their index and identity to the end of a run. -/
lemma run_same {ts c d : List KernelStep} {k : Kernel}
    {t : KernelStep} (h : Run (xernel plat) ts k) (hts : ts = c ++ t :: d)
    {i : ℕ} {p : Process} (hp : t.pre.sched.procs[i]? = some p) :
    ∃ p', k.sched.procs[i]? = some p' ∧ p.Same p' := by
  obtain ⟨hpre, hstep, -⟩ := h.split hts
  exact (h.preserved_after (P := fun k => ∃ q, k.sched.procs[i]? = some q ∧ p.Same q) hts
    (fun u _ hu hr => step_same hr hu) (step_same ⟨_, hpre⟩ hstep ⟨p, hp, .refl p⟩)).2

/-- PIDs are table indices, the counter is the length of the table, and every `Process` capability
in a slot or a queue names exactly one process of the table, never the first. The process it names
stays the same to the end of the run; calls through it find their target, and `GET_STATUS` never
reports an unknown PID. -/
theorem processTable_sound {ts : List KernelStep} {k : Kernel}
    (h : Run (xernel plat) ts k) :
    ((∀ (i : ℕ) (p : Process), k.sched.procs[i]? = some p → p.pid = i) ∧
      k.sched.nextPid = k.sched.procs.length ∧ k.sched.current < k.sched.procs.length) ∧
    (∀ cap, k.core.Holds cap → cap.capType = .process → 1 ≤ cap.object ∧
      ∃! i : ℕ, ∃ p : Process, k.sched.procs[i]? = some p ∧ p.pid = cap.object) ∧
    (∀ t ∈ ts, ∀ cap, t.pre.core.Holds cap → cap.capType = .process →
      ∃ p p', t.pre.sched.find cap.object = some p ∧ k.sched.find cap.object = some p' ∧
        p.Same p') ∧
    (∀ t ∈ ts, ∀ pid, t.pre.Targets t.event pid →
      t.pre.sched.find pid ≠ none ∧ t.pre.sched.indexOf pid ≠ none) ∧
    (∀ t ∈ ts, ∀ args, t.pre.activity t.event = .call .getStatus args → t.out ≠ some 2) := by
  have hinv := tableInv_run h
  have hpre : ∀ t ∈ ts, TableInv t.pre.core := fun t ht => by
    obtain ⟨⟨ts', hrun⟩, -⟩ := h.mem_step ht
    exact tableInv_run hrun
  refine ⟨⟨hinv.pid, hinv.nextPid, k.sched.current_lt⟩, fun cap hcap htype => ?_,
    fun t ht cap hcap htype => ?_, fun t ht pid htgt => ?_, fun t ht args hact => ?_⟩
  · obtain ⟨hpos, hlt⟩ := hinv.named cap _ hcap (CapEntry.processPid_eq_some.mpr ⟨htype, rfl⟩)
    obtain ⟨p, hp, hpid, -⟩ := hinv.find hlt
    refine ⟨hpos, cap.object, ⟨p, hp, hpid⟩, ?_⟩
    rintro j ⟨q, hq, hqpid⟩
    exact (hinv.pid j q hq).symm.trans hqpid
  · obtain ⟨-, hlt⟩ :=
      (hpre t ht).named cap _ hcap (CapEntry.processPid_eq_some.mpr ⟨htype, rfl⟩)
    obtain ⟨p, hp, -, hfind⟩ := (hpre t ht).find hlt
    obtain ⟨c, d, hts⟩ := List.append_of_mem ht
    obtain ⟨p', hp', hsame⟩ := run_same h hts hp
    obtain ⟨q, hq, -, hfind'⟩ := hinv.find (List.getElem?_eq_some_iff.mp hp').1
    obtain rfl : q = p' := Option.some.inj (hq.symm.trans hp')
    exact ⟨p, q, hfind, hfind', hsame⟩
  · obtain ⟨-, hlt⟩ := (hpre t ht).targets htgt
    obtain ⟨p, -, -, hfind⟩ := (hpre t ht).find hlt
    have hidx := (hpre t ht).indexOf hlt
    exact ⟨by rw [show t.pre.sched.find pid = some p from hfind]; simp,
      by rw [show t.pre.sched.indexOf pid = some pid from hidx]; simp⟩
  · exact (hpre t ht).getStatus_ne_two (h.mem_step ht).1 hact (h.mem_step ht).2

/-- After a spawn the parent's slot 6 names the child, PID 1. -/
theorem processTable_sound_spawn :
    ∃ k, Reachable (xernel smallPlatform) k ∧ k.core.Holds (.process 1) ∧
      k.sched.nextPid = 2 ∧ ∃! i : ℕ, ∃ p : Process, k.sched.procs[i]? = some p ∧ p.pid = 1 := by
  have hrun : (trace smallPlatform [.resume, .call .spawn 0 6]).isSome = true := by decide +kernel
  have hfacts : (trace smallPlatform [.resume, .call .spawn 0 6]).map
      (fun r => (r.2.sched.nextPid, (r.2.sched.procs[0]?).bind fun p => p.caps.slot 6)) =
      some (2, some (.process 1)) := by decide +kernel
  obtain ⟨r, hr⟩ := Option.isSome_iff_exists.mp hrun
  rw [hr, Option.map_some, Option.some.injEq, Prod.mk.injEq] at hfacts
  obtain ⟨p, hp, hslot⟩ := Option.bind_eq_some_iff.mp hfacts.2
  have hholds : r.2.core.Holds (.process 1) := .inl ⟨0, 6, p, hp, hslot⟩
  exact ⟨r.2, ⟨r.1, trace_run hr⟩, hholds, hfacts.1,
    ((processTable_sound (trace_run hr)).2.1 _ hholds rfl).2⟩

end Xernel
