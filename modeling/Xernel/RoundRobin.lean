import Xernel.Lib.Rotation
import Xernel.ProcessTheorems

/-!
# Round-robin order

`pick_next` searches the process table around the circle, from the entry after the running one on.
With the states of the processes left alone, yielding again and again is a tour of the ready ones.
-/

namespace Xernel

/-! ## The search -/

namespace Scheduler

variable {s s' : Scheduler}

/-- Process `i` is ready. -/
def isReady (s : Scheduler) (i : ℕ) : Bool :=
  decide ((s.procs.map Process.state)[i]? = some .ready)

lemma isReady_iff {i : ℕ} :
    s.isReady i = true ↔ ∃ p, s.procs[i]? = some p ∧ p.state = .ready := by
  rw [isReady, decide_eq_true_eq, List.getElem?_map, Option.map_eq_some_iff]

lemma isReady_fin (i : Fin s.procs.length) :
    s.isReady i = decide ((s.procs.get i).state = .ready) := by
  rw [isReady, List.getElem?_map, List.getElem?_eq_getElem i.isLt, Option.map_some]
  simp

/-- The number of ready processes. -/
def readyCount (s : Scheduler) : ℕ := s.procs.countP fun p => p.state = .ready

/-- `pick_next` goes around the circle of table entries. -/
lemma pickNext_eq_next (s : Scheduler) :
    s.pickNext.map Fin.val = Rotation.next s.procs.length s.isReady s.current := by
  rw [pickNext, Rotation.next, Rotation.around, List.find?_map, List.find?_map, Option.map_map]
  congr 2
  funext off
  rw [Function.comp_apply, Function.comp_apply]
  exact (isReady_fin _).symm

/-- Nothing is picked exactly if nobody is ready: the search goes through the whole table. -/
lemma pickNext_eq_none :
    s.pickNext = none ↔ ∀ (i : ℕ) (p : Process), s.procs[i]? = some p → p.state ≠ .ready := by
  rw [← Option.map_eq_none_iff (f := Fin.val), pickNext_eq_next,
    Rotation.next_eq_none_iff s.current_lt]
  constructor
  · intro h i p hp hready
    obtain ⟨hi, -⟩ := List.getElem?_eq_some_iff.mp hp
    have : s.isReady i = true := isReady_iff.mpr ⟨p, hp, hready⟩
    rw [h i hi] at this
    cases this
  · intro h i _
    by_contra hne
    obtain ⟨p, hp, hready⟩ := isReady_iff.mp (by simpa using hne)
    exact h i p hp hready

/-- The same processes in the same states, the same one running. -/
def SameStates (s s' : Scheduler) : Prop :=
  s'.procs.map Process.state = s.procs.map Process.state ∧ s'.current = s.current

lemma length_eq_of_states (h : s'.procs.map Process.state = s.procs.map Process.state) :
    s'.procs.length = s.procs.length := by
  simpa using congrArg List.length h

lemma isReady_eq_of_states (h : s'.procs.map Process.state = s.procs.map Process.state) :
    s'.isReady = s.isReady := by
  funext i
  rw [isReady, isReady, h]

/-- Counting the ready processes in the table or their positions is the same. -/
lemma length_filter_isReady (s : Scheduler) :
    ((List.range s.procs.length).filter s.isReady).length = s.readyCount := by
  have hmap : (List.range s.procs.length).map (fun i => s.procs[i]?) = s.procs.map some := by
    apply List.ext_getElem?
    intro i
    by_cases hi : i < s.procs.length
    · simp [hi]
    · simp [hi]
  have hcount := congrArg (List.countP fun p => (p.map Process.state) = some .ready) hmap
  rw [List.countP_map, List.countP_map] at hcount
  rw [← List.countP_eq_length_filter, readyCount]
  convert hcount using 2
  · funext i
    simp [isReady]
  · funext p
    simp

end Scheduler

/-! ## Yielding again and again -/

namespace Kernel

variable {k k' : Kernel}

/-- The kernel when `yield_now` is through: some process runs, possibly the caller. -/
def afterYield (k : Kernel) (kont : Kont) : Kernel := (k.yieldNow kont).getD k

/-- `k'` is reached from `k` by calls of `yield_now` with no state changes in between; `is` lists who
runs after each of them. -/
inductive YieldRun : Kernel → List ℕ → Kernel → Prop
  | start (k : Kernel) : YieldRun k [] k
  | next {k k₁ k' : Kernel} {is : List ℕ} (kont : Kont) (hsame : k.sched.SameStates k₁.sched)
      (hthread : k₁.cpu.thread = k.cpu.thread) (h : YieldRun (k₁.afterYield kont) is k') :
      YieldRun k ((k₁.afterYield kont).sched.current :: is) k'

lemma afterYield_states (k : Kernel) (kont : Kont) :
    (k.afterYield kont).sched.procs.map Process.state = k.sched.procs.map Process.state := by
  have hpark : (k.park kont).sched.procs.map Process.state = k.sched.procs.map Process.state :=
    k.sched.map_modifyCur fun _ => rfl
  rw [afterYield, yieldNow]
  split
  · rfl
  · split
    · rfl
    · exact hpark

/-- `yield_now` goes to the process that `pick_next` names. -/
lemma afterYield_current {kont : Kont} {i : ℕ}
    (h : Rotation.next k.sched.procs.length k.sched.isReady k.sched.current = some i) :
    (k.afterYield kont).sched.current = i ∧
      (k.cpu.thread = k.sched.current → (k.afterYield kont).cpu.thread = i) := by
  have hpark : (k.park kont).sched.procs.map Process.state = k.sched.procs.map Process.state :=
    k.sched.map_modifyCur fun _ => rfl
  rw [← Scheduler.length_eq_of_states hpark, ← Scheduler.isReady_eq_of_states hpark,
    show k.sched.current = (k.park kont).sched.current from rfl, ← Scheduler.pickNext_eq_next,
    Option.map_eq_some_iff] at h
  obtain ⟨j, hj, rfl⟩ := h
  rw [afterYield, yieldNow]
  simp only [hj]
  split
  next hcur => exact ⟨hcur.symm, fun hth => hth.trans hcur.symm⟩
  next => exact ⟨rfl, fun _ => rfl⟩

/-- The processes a run of yields goes through, from one that is ready on, are a tour. -/
lemma YieldRun.chain {is : List ℕ} (h : YieldRun k is k')
    (hready : k.sched.isReady k.sched.current = true) :
    List.IsChain (fun a b => Rotation.next k.sched.procs.length k.sched.isReady a = some b)
        (k.sched.current :: is) ∧
      k'.sched.current = (k.sched.current :: is).getLast (List.cons_ne_nil _ _) ∧
      (k.cpu.thread = k.sched.current → k'.cpu.thread = k'.sched.current) := by
  induction h with
  | start k => exact ⟨List.isChain_singleton _, rfl, id⟩
  | @next k k₁ k' is kont hsame hthread h ih =>
    obtain ⟨hstates, hcur⟩ := hsame
    have hstates' := (afterYield_states k₁ kont).trans hstates
    have hlen := Scheduler.length_eq_of_states hstates
    have hfun := Scheduler.isReady_eq_of_states hstates
    -- someone is ready: at least the caller
    obtain ⟨i, hi⟩ : ∃ i, Rotation.next k.sched.procs.length k.sched.isReady k.sched.current =
        some i := by
      rw [← Option.isSome_iff_exists, Option.isSome_iff_ne_none]
      intro hnone
      rw [Rotation.next_eq_none_iff k.sched.current_lt] at hnone
      rw [hnone _ k.sched.current_lt] at hready
      cases hready
    have hi₁ := hi
    rw [← hlen, ← hfun, ← hcur] at hi₁
    obtain ⟨hto, hth⟩ := @afterYield_current _ kont _ hi₁
    obtain ⟨-, -, -, -, hready', -⟩ := Rotation.next_eq_some_iff.mp hi
    rw [Scheduler.length_eq_of_states hstates', Scheduler.isReady_eq_of_states hstates', hto] at ih
    obtain ⟨hchain, hlast, hthr⟩ := ih hready'
    rw [hto]
    refine ⟨List.isChain_cons_cons.mpr ⟨hi, hchain⟩, ?_, fun hthk => hthr ?_⟩
    · rw [hlast, List.getLast_cons (List.cons_ne_nil _ _)]
    · exact hth (by rw [hthread, hthk, hcur])

end Kernel

/-- `pick_next` picks the ready process reached first when counting on from the running one, and none
exactly if nobody is ready. As many yields in a row as there are ready processes run each of these
once, nobody else, and come back to the process they started from. -/
theorem round_robin (k : Kernel) :
    (k.sched.pickNext = none ↔
      ∀ (i : ℕ) (p : Process), k.sched.procs[i]? = some p → p.state ≠ .ready) ∧
    (∀ i, k.sched.pickNext = some i →
      ∃ off, 1 ≤ off ∧ off ≤ k.sched.procs.length ∧
        (i : ℕ) = (k.sched.current + off) % k.sched.procs.length ∧
        (k.sched.procs.get i).state = .ready ∧
        ∀ o, 1 ≤ o → o < off → ∀ p : Process,
          k.sched.procs[(k.sched.current + o) % k.sched.procs.length]? = some p →
            p.state ≠ .ready) ∧
    (k.sched.cur.state = .ready → ∀ is k', k.YieldRun is k' → is.length = k.sched.readyCount →
      is.Nodup ∧
      (∀ i : ℕ, i ∈ is ↔ ∃ p, k.sched.procs[i]? = some p ∧ p.state = .ready) ∧
      k'.sched.current = k.sched.current ∧
      (k.cpu.thread = k.sched.current → k'.cpu.thread = k.sched.current)) := by
  have hlt := k.sched.current_lt
  refine ⟨Scheduler.pickNext_eq_none, fun i hi => ?_, fun hready is k' hrun hlen => ?_⟩
  · have hnext := k.sched.pickNext_eq_next
    rw [hi, Option.map_some] at hnext
    obtain ⟨off, hpos, hle, hidx, -, hmin⟩ := Rotation.next_eq_some_iff.mp hnext.symm
    refine ⟨off, hpos, hle, hidx, Scheduler.pickNext_ready hi, fun o ho holt p hp hst => ?_⟩
    have : k.sched.isReady ((k.sched.current + o) % k.sched.procs.length) = true :=
      Scheduler.isReady_iff.mpr ⟨p, hp, hst⟩
    rw [hmin o ho holt] at this
    cases this
  · have hcur : k.sched.isReady k.sched.current = true :=
      Scheduler.isReady_iff.mpr ⟨k.sched.cur, Scheduler.getElem?_current _, hready⟩
    obtain ⟨hchain, hlast, hthread⟩ := hrun.chain hcur
    -- as many steps as there are ready processes are one tour: the rotation without the others
    have htour := Rotation.tour hlt hchain (hlen.trans k.sched.length_filter_isReady.symm)
    have hperm := (Rotation.around_perm hlt).filter k.sched.isReady
    have hend : k'.sched.current = k.sched.current := by
      have hsome := Rotation.tour_getLast (n := k.sched.procs.length) hlt hcur
      rw [← htour] at hsome
      rw [hlast, List.getLast_eq_iff_getLast?_eq_some, List.getLast?_cons, hsome, Option.getD_some]
    refine ⟨?_, fun i => ?_, hend, fun h => (hthread h).trans hend⟩
    · rw [htour, hperm.nodup_iff]
      exact List.nodup_range.filter _
    · rw [htour, hperm.mem_iff, List.mem_filter, List.mem_range, Scheduler.isReady_iff]
      constructor
      · exact fun h => h.2
      · rintro ⟨p, hp, hst⟩
        obtain ⟨hi, -⟩ := List.getElem?_eq_some_iff.mp hp
        exact ⟨hi, p, hp, hst⟩

end Xernel
