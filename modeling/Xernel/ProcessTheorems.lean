import Xernel.Process
import Xernel.CapTheorems

/-!
# Lemmas about the process table

The table is read through `procs[i]?`; `Scheduler.getElem?_modify` and its siblings say what each
update does to one entry.
-/

namespace Xernel
namespace Scheduler

variable {s : Scheduler} {i j : ℕ} {f : Process → Process} {p : Process}

/-- The entry at the current index is the running process. -/
lemma getElem?_current (s : Scheduler) : s.procs[s.current]? = some s.cur :=
  List.getElem?_eq_getElem s.current_lt

/-- The running process is told by its entry. -/
lemma cur_eq_iff : s.cur = p ↔ s.procs[s.current]? = some p := by
  rw [getElem?_current, Option.some.injEq]

/-! ## Updates -/

/-- Changing an entry switches to nobody. -/
@[simp] lemma modify_current (s : Scheduler) (i : ℕ) (f : Process → Process) :
    (s.modify i f).current = s.current := rfl

/-- Changing an entry uses up no pid. -/
@[simp] lemma modify_nextPid (s : Scheduler) (i : ℕ) (f : Process → Process) :
    (s.modify i f).nextPid = s.nextPid := rfl

/-- Changing an entry adds none. -/
@[simp] lemma length_modify (s : Scheduler) (i : ℕ) (f : Process → Process) :
    (s.modify i f).procs.length = s.procs.length := by
  simp [modify]

/-- Only the entry that is changed differs. -/
lemma getElem?_modify (s : Scheduler) (i j : ℕ) (f : Process → Process) :
    (s.modify i f).procs[j]? = if i = j then (s.procs[j]?).map f else s.procs[j]? := by
  simp only [modify, List.getElem?_modify]
  split <;> simp

@[simp] lemma modifyCur_current (s : Scheduler) (f : Process → Process) :
    (s.modifyCur f).current = s.current := rfl

@[simp] lemma modifyCur_nextPid (s : Scheduler) (f : Process → Process) :
    (s.modifyCur f).nextPid = s.nextPid := rfl

/-- The running process is an entry like the others. -/
@[simp] lemma length_modifyCur (s : Scheduler) (f : Process → Process) :
    (s.modifyCur f).procs.length = s.procs.length := length_modify ..

/-- The process that runs is the one that was changed. -/
@[simp] lemma cur_modifyCur (s : Scheduler) (f : Process → Process) :
    (s.modifyCur f).cur = f s.cur := by
  rw [cur_eq_iff, modifyCur_current, modifyCur, getElem?_modify, if_pos rfl, getElem?_current,
    Option.map_some]

/-- A switch changes no entry. -/
@[simp] lemma setCurrent_procs (s : Scheduler) (i : Fin s.procs.length) :
    (s.setCurrent i).procs = s.procs := rfl

/-- A switch makes the given entry the current one. -/
@[simp] lemma setCurrent_current (s : Scheduler) (i : Fin s.procs.length) :
    (s.setCurrent i).current = i := rfl

@[simp] lemma setCurrent_nextPid (s : Scheduler) (i : Fin s.procs.length) :
    (s.setCurrent i).nextPid = s.nextPid := rfl

/-- The new process does not run yet. -/
@[simp] lemma push_current (s : Scheduler) (p : Process) : (s.push p).current = s.current := rfl

/-- A new process uses up a pid. -/
@[simp] lemma push_nextPid (s : Scheduler) (p : Process) :
    (s.push p).nextPid = s.nextPid + 1 := rfl

@[simp] lemma length_push (s : Scheduler) (p : Process) :
    (s.push p).procs.length = s.procs.length + 1 := by
  simp [push]

/-- The new process is the last entry, and the others stay where they are. -/
lemma getElem?_push (s : Scheduler) (p : Process) (i : ℕ) :
    (s.push p).procs[i]? = if i = s.procs.length then some p else s.procs[i]? := by
  simp only [push]
  rcases Nat.lt_trichotomy i s.procs.length with h | h | h
  · rw [List.getElem?_append_left h, if_neg h.ne]
  · subst h
    simp
  · rw [if_neg h.ne', List.getElem?_eq_none (by simp; omega), List.getElem?_eq_none (by omega)]

/-- Those who are woken have to wait for their turn. -/
@[simp] lemma wake_current (s : Scheduler) (r : BlockReason) :
    (s.wake r).current = s.current := rfl

@[simp] lemma wake_nextPid (s : Scheduler) (r : BlockReason) :
    (s.wake r).nextPid = s.nextPid := rfl

/-- Waking adds no entry. -/
@[simp] lemma length_wake (s : Scheduler) (r : BlockReason) :
    (s.wake r).procs.length = s.procs.length := by
  simp [wake]

/-- A process after `wake r`. -/
lemma getElem?_wake (s : Scheduler) (r : BlockReason) (i : ℕ) :
    (s.wake r).procs[i]? = (s.procs[i]?).map fun p =>
      if p.state = .blocked r then { p with state := .ready } else p := by
  simp [wake]

/-! ## One field of every process -/

section Field

variable {β : Type*} {φ : Process → β}

/-- A field that `f` leaves alone has the same values after one entry is changed by `f`. -/
lemma map_modify (s : Scheduler) (i : ℕ) (hf : ∀ p, φ (f p) = φ p) :
    (s.modify i f).procs.map φ = s.procs.map φ := by
  apply List.ext_getElem?
  intro j
  rw [List.getElem?_map, List.getElem?_map, getElem?_modify]
  split
  · rw [Option.map_map]
    congr 1
    funext p
    exact hf p
  · rfl

/-- The same for the running process. -/
lemma map_modifyCur (s : Scheduler) (hf : ∀ p, φ (f p) = φ p) :
    (s.modifyCur f).procs.map φ = s.procs.map φ := s.map_modify s.current hf

/-- A new process adds the value of its own field. -/
lemma map_push (s : Scheduler) (p : Process) :
    (s.push p).procs.map φ = s.procs.map φ ++ [φ p] := by
  rw [push, List.map_append, List.map_singleton]

/-- Waking changes the state of a process only. -/
lemma map_wake (s : Scheduler) (r : BlockReason)
    (hf : ∀ p : Process, φ { p with state := .ready } = φ p) :
    (s.wake r).procs.map φ = s.procs.map φ := by
  rw [wake, List.map_map]
  congr 1
  funext p
  rw [Function.comp_apply]
  split
  · exact hf p
  · rfl

end Field

/-! ## Searching -/

/-- `indexOf` and `find` go for the same process, the first one with the pid. -/
lemma find_eq_of_indexOf {pid : ℕ} (h : s.indexOf pid = some i) :
    ∃ p, s.procs[i]? = some p ∧ p.pid = pid ∧ s.find pid = some p := by
  simp only [indexOf, List.findIdx?_eq_some_iff_getElem] at h
  obtain ⟨hi, hpid, hmin⟩ := h
  refine ⟨s.procs.get ⟨i, hi⟩, List.getElem?_eq_getElem hi, by simpa using hpid, ?_⟩
  rw [find, List.find?_eq_some_iff_getElem]
  exact ⟨hpid, i, hi, rfl, fun j hj => by simpa using hmin j hj⟩

/-- The process that the round-robin search picks is ready. -/
lemma pickNext_ready {i : Fin s.procs.length} (h : s.pickNext = some i) :
    (s.procs.get i).state = .ready := by
  have := List.find?_some h
  simpa using this

end Scheduler
end Xernel
