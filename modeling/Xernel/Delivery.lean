import Xernel.Holdings
import Xernel.Coherence

/-!
# Message delivery and wakeups

The messages sent to an endpoint over a run are those received from it, in the same order, followed
by those still queued; a notification word is the OR of what was signalled since it was last taken;
and nobody sleeps on an endpoint or notification that has something for it.
-/

namespace Xernel

variable {plat : Platform} {a b : Core} {act : Activity} {out : Option ℕ}

/-! ## Histories -/

/-- The message sent to endpoint `id` in a step. -/
def sentIn (id : ℕ) (t : KernelStep) : Option Message :=
  t.pre.core.sends (t.pre.activity t.event) t.out id

/-- The message dequeued from endpoint `id` in a step. -/
def receivedIn (id : ℕ) (t : KernelStep) : Option Message :=
  t.pre.core.dequeues (t.pre.activity t.event) id

/-- The bits signalled to notification `id` in a step. -/
def signalledIn (id : ℕ) (t : KernelStep) : Option ℕ :=
  t.pre.core.signals (t.pre.activity t.event) t.out id

/-- The bits taken from notification `id` in a step. -/
def takenIn (id : ℕ) (t : KernelStep) : Option ℕ :=
  t.pre.core.takes (t.pre.activity t.event) id

lemma filterMap_snoc {α β : Type*} (f : α → Option β) (l : List α) (x : α) :
    (l ++ [x]).filterMap f = l.filterMap f ++ (f x).toList := by
  cases h : f x <;> simp [h]

/-- First in, first out: what was sent is what was received and then what is still queued. -/
theorem sent_eq_received_append {ts : List KernelStep} {k : Kernel} (h : Run (xernel plat) ts k)
    (id : ℕ) : ts.filterMap (sentIn id) = ts.filterMap (receivedIn id) ++ k.ipc.endpoints id := by
  induction h with
  | @start k hk =>
    obtain ⟨m, p, -, -, -, -, hq, -⟩ := boot_core hk
    simp [show k.ipc.endpoints id = [] from hq id]
  | @next ts k k' e o hrun hs ih =>
    have hq := (reachable_core ⟨ts, hrun⟩ hs).queue id
    rw [filterMap_snoc, filterMap_snoc, ih, List.append_assoc, List.append_assoc]
    exact congrArg _ hq

/-! ## Notification words -/

/-- A mute activity waits on nothing. -/
lemma Activity.Mute.waitsOn (h : act.Mute a.sched out) : a.waitsOn act = none := by
  unfold Core.waitsOn
  split
  · exact h
  · cases h
  · rfl

lemma Activity.Mute.signals (h : act.Mute a.sched out) (id : ℕ) : a.signals act out id = none := by
  unfold Core.signals
  split
  · exact if_neg fun hc => h hc.1
  · rfl

/-- A word is cleared when it is taken, and otherwise gains the bits signalled. -/
theorem CoreStep.word (h : CoreStep plat a b act out) (id : ℕ) :
    b.ipc.notifications id = if (a.takes act id).isSome then 0
      else a.ipc.notifications id ||| (a.signals act out id).getD 0 := by
  cases h.ipc with
  | mute hact hc => simp [hact.signals, Core.takes, hact.waitsOn, hc]
  | @blocked reason kont hk hkont hwait hc =>
    have hsig : a.signals act out id = none := by cases hk <;> rfl
    -- whoever blocks on a notification has found its word zero
    have htake : a.takes act id = none := by
      rw [Core.takes]
      split
      next hon =>
        have hreason : reason = .notification id := by
          cases hk with
          | again => cases kont <;> simp_all [Core.waitsOn, Kont.reason]
          | wait hid =>
            cases hkont
            exact congrArg _ (Option.some.inj (hid.symm.trans hon))
          | _ => cases hon
        subst hreason
        simp [show a.ipc.pollTake id = none from hwait]
      next => rfl
    simp [hsig, htake, hc]
  | @sent args id' hact hout hid hsend =>
    subst hact
    simp [Core.signals, Core.takes, Core.waitsOn, (Ipc.send_eq_some hsend).2.2.2]
  | @signalled args id' hact hout hid hsig =>
    subst hact hout
    obtain ⟨-, hword, hother, -⟩ := Ipc.signal_eq_some hsig
    by_cases hne : id = id'
    · subst hne
      simp [Core.signals, Core.takes, Core.waitsOn, hid, hword]
    · have hne' : ¬ id' = id := fun h => hne h.symm
      simp [Core.signals, Core.takes, Core.waitsOn, hid, hne', hother id hne]
  | @received id' dstSlot msg hact hrecv =>
    have hnt := (Ipc.tryRecv_eq_some hrecv).2.2
    cases hact <;> simp [Core.signals, Core.takes, Core.waitsOn, hnt]
  | @taken id' bits hact htake =>
    obtain ⟨-, hzero, hother, -⟩ := Ipc.pollTake_eq_some htake
    have hsig : a.signals act out id = none := by
      rcases hact with ⟨args, rfl, -⟩ | rfl <;> rfl
    have hon : a.waitsOn act = some id' := by
      rcases hact with ⟨args, rfl, hid⟩ | rfl
      · exact hid
      · rfl
    by_cases hne : id = id'
    · subst hne
      simp [Core.takes, hon, htake, hzero]
    · have hne' : ¬ id' = id := fun h => hne h.symm
      simp [Core.takes, hon, hne', hother id hne, hsig]

/-- The word of a notification is the OR of the bits signalled since it was last taken. -/
theorem word_eq_signalled {ts : List KernelStep} {k : Kernel} (h : Run (xernel plat) ts k)
    (id : ℕ) : ∃ c d, ts = c ++ d ∧
      (c = [] ∨ ∃ c' t, c = c' ++ [t] ∧ (takenIn id t).isSome) ∧ (∀ t ∈ d, takenIn id t = none) ∧
      k.ipc.notifications id = (d.filterMap (signalledIn id)).foldl (· ||| ·) 0 := by
  induction h with
  | @start k hk =>
    obtain ⟨m, p, -, -, -, -, -, hw⟩ := boot_core hk
    exact ⟨[], [], rfl, .inl rfl, by simp, hw id⟩
  | @next ts k k' e o hrun hs ih =>
    have hword := (reachable_core ⟨ts, hrun⟩ hs).word id
    obtain ⟨c, d, rfl, hc, hd, hold⟩ := ih
    by_cases htake : (takenIn id ⟨k, e, o, k'⟩).isSome
    · -- the step takes the word: the new suffix is empty
      refine ⟨c ++ d ++ [⟨k, e, o, k'⟩], [], by simp, .inr ⟨_, _, rfl, htake⟩, by simp, ?_⟩
      exact hword.trans (if_pos htake)
    · refine ⟨c, d ++ [⟨k, e, o, k'⟩], by simp, hc, ?_, ?_⟩
      · intro t ht
        rcases List.mem_append.mp ht with ht | ht
        · exact hd t ht
        · obtain rfl : t = ⟨k, e, o, k'⟩ := by simpa using ht
          simpa using htake
      · refine (hword.trans (if_neg htake)).trans ?_
        rw [show k.core.ipc.notifications id = _ from hold, filterMap_snoc, List.foldl_append]
        show _ ||| (signalledIn id ⟨k, e, o, k'⟩).getD 0 = _
        cases signalledIn id ⟨k, e, o, k'⟩ <;> simp

/-! ## Wakeups -/

/-- There is nothing for a process that waits for `reason`. -/
def Ipc.Drained (c : Ipc) : BlockReason → Prop
  | .endpoint id => c.endpoints id = []
  | .notification id => c.notifications id = 0

/-- Blocked processes have nothing to wake up for, and only the endpoints and notifications that
exist hold anything. -/
structure WakeInv (a : Core) : Prop where
  blocked : ∀ (i : ℕ) (p : Process) (reason : BlockReason), a.sched.procs[i]? = some p →
    p.state = .blocked reason → a.ipc.Drained reason
  endpoints : ∀ id, numEndpoints ≤ id → a.ipc.endpoints id = []
  notifications : ∀ id, numNotifications ≤ id → a.ipc.notifications id = 0

/-- Finding nothing to take means that there is nothing. -/
lemma WakeInv.drained (h : WakeInv a) {reason : BlockReason} (he : a.ipc.Empty reason) :
    a.ipc.Drained reason := by
  cases reason with
  | endpoint id =>
    have he' : a.ipc.tryRecv id = none := he
    by_cases hid : id < numEndpoints
    · rw [Ipc.tryRecv, if_pos hid] at he'
      show a.ipc.endpoints id = []
      split at he'
      next hq => exact hq
      next => cases he'
    · exact h.endpoints id (Nat.le_of_not_lt hid)
  | notification id =>
    have he' : a.ipc.pollTake id = none := he
    by_cases hid : id < numNotifications
    · rw [Ipc.pollTake] at he'
      show a.ipc.notifications id = 0
      split at he'
      · cases he'
      next hn => simpa [hid] using hn
    · exact h.notifications id (Nat.le_of_not_lt hid)

/-- What a blocked process waits for stays empty, unless the step wakes everyone who waits. -/
lemma CoreStep.drained (h : CoreStep plat a b act out) {reason : BlockReason}
    (hd : a.ipc.Drained reason) : b.ipc.Drained reason ∨ b.sched = a.sched.wake reason := by
  cases h with
  | @sent args id hact hout hid hsend hs =>
    obtain ⟨-, -, hother, hnt⟩ := Ipc.send_eq_some hsend
    cases reason with
    | endpoint id' =>
      by_cases hne : id' = id
      · exact .inr (hne ▸ hs)
      · exact .inl ((hother id' hne).trans hd)
    | notification id' => exact .inl ((congrFun hnt id').trans hd)
  | @signalled args id hact hout hid hsig hs =>
    obtain ⟨-, -, hother, hep⟩ := Ipc.signal_eq_some hsig
    cases reason with
    | endpoint id' => exact .inl ((congrFun hep id').trans hd)
    | notification id' =>
      by_cases hne : id' = id
      · exact .inr (hne ▸ hs)
      · exact .inl ((hother id' hne).trans hd)
  | @received id dstSlot msg caps hact hrecv hins hs =>
    obtain ⟨hq, hother, hnt⟩ := Ipc.tryRecv_eq_some hrecv
    cases reason with
    | endpoint id' =>
      -- nothing is received from an empty queue
      have hne : id' ≠ id := by
        rintro rfl
        rw [show a.ipc.endpoints id' = [] from hd] at hq
        cases hq
      exact .inl ((hother id' hne).trans hd)
    | notification id' => exact .inl ((congrFun hnt id').trans hd)
  | @taken id bits hact hout htake hs =>
    obtain ⟨-, hzero, hother, hep⟩ := Ipc.pollTake_eq_some htake
    cases reason with
    | endpoint id' => exact .inl ((congrFun hep id').trans hd)
    | notification id' =>
      by_cases hne : id' = id
      · exact .inl (hne ▸ hzero)
      · exact .inl ((hother id' hne).trans hd)
  | quiet _ _ _ hc | logged _ _ _ hc | setBreak _ _ hc | charged _ _ _ _ hc
  | refunded _ _ _ _ hc | frameInstalled _ _ _ _ _ hc | spawned _ _ _ _ _ hc
  | parked _ _ _ _ hc | yielded _ _ _ _ hc | blocked _ _ _ _ _ hc | exited _ _ _ _ hc
  | logTaken _ _ _ _ hc | killed _ _ _ _ _ _ hc | granted _ _ _ _ _ _ _ hc =>
    rw [hc]; exact .inl hd

/-- Endpoints and notifications that do not exist stay empty. -/
lemma WakeInv.outside (h : WakeInv a) (hs : CoreStep plat a b act out) :
    (∀ id, numEndpoints ≤ id → b.ipc.endpoints id = []) ∧
      ∀ id, numNotifications ≤ id → b.ipc.notifications id = 0 := by
  cases hs.ipc with
  | mute _ hc | blocked _ _ _ hc => rw [hc]; exact ⟨h.endpoints, h.notifications⟩
  | @sent args id' hact hout hid hsend =>
    obtain ⟨hlt, -, hother, hnt⟩ := Ipc.send_eq_some hsend
    refine ⟨fun id hge => ?_, fun id hge => (congrFun hnt id).trans (h.notifications id hge)⟩
    exact (hother id (by omega)).trans (h.endpoints id hge)
  | @signalled args id' hact hout hid hsig =>
    obtain ⟨hlt, -, hother, hep⟩ := Ipc.signal_eq_some hsig
    refine ⟨fun id hge => (congrFun hep id).trans (h.endpoints id hge), fun id hge => ?_⟩
    exact (hother id (by omega)).trans (h.notifications id hge)
  | @received id' dstSlot msg hact hrecv =>
    obtain ⟨hq, hother, hnt⟩ := Ipc.tryRecv_eq_some hrecv
    refine ⟨fun id hge => ?_, fun id hge => (congrFun hnt id).trans (h.notifications id hge)⟩
    have hne : id ≠ id' := by
      rintro rfl
      rw [h.endpoints id hge] at hq
      cases hq
    exact (hother id hne).trans (h.endpoints id hge)
  | @taken id' bits hact htake =>
    obtain ⟨-, hzero, hother, hep⟩ := Ipc.pollTake_eq_some htake
    refine ⟨fun id hge => (congrFun hep id).trans (h.endpoints id hge), fun id hge => ?_⟩
    by_cases hne : id = id'
    · rw [hne]; exact hzero
    · exact (hother id hne).trans (h.notifications id hge)

/-- A process that is blocked after a step was blocked before, or found nothing in the step. -/
lemma ProcStep.blocked {i : ℕ} {p p' : Process} {reason : BlockReason}
    (h : ProcStep a b act out i p p') (hst : p'.state = .blocked reason) :
    p.state = .blocked reason ∨ (a.ipc.Empty reason ∧ b.ipc = a.ipc) := by
  cases h with
  | woken h => cases hst
  | killed => cases hst
  | own hi hown =>
    cases hown with
    | blocked hk hout hwait hc => cases hst; exact .inr ⟨hwait, hc⟩
    | unblocked hk => cases hst
    | finished code hout => cases hst
    | _ => exact .inl hst
  | _ => exact .inl hst

/-- One step loses no wakeup. -/
theorem WakeInv.step (h : WakeInv a) (hs : CoreStep plat a b act out) : WakeInv b := by
  refine ⟨fun i p' reason hp' hst => ?_, (h.outside hs).1, (h.outside hs).2⟩
  rcases hs.proc hp' with ⟨p, hp, hstep⟩ | ⟨-, hnew⟩
  · rcases hstep.blocked hst with hold | ⟨hempty, hc⟩
    · rcases hs.drained (h.blocked i p reason hp hold) with hd | hwake
      · exact hd
      · -- everyone blocked on `reason` was made ready
        rw [hwake, Scheduler.getElem?_wake, hp, Option.map_some, Option.some.injEq] at hp'
        rw [← hp', if_pos hold] at hst
        cases hst
    · rw [hc]
      exact h.drained hempty
  · rw [hnew.spec.2.2.1] at hst
    cases hst

lemma wakeInv_boot {k : Kernel} (h : boot plat = some k) : WakeInv k.core := by
  obtain ⟨m, p, hnew, hprocs, -, -, hq, hw⟩ := boot_core h
  refine ⟨fun i q reason hq hst => ?_, fun id _ => hq id, fun id _ => hw id⟩
  rw [hprocs] at hq
  obtain rfl : q = p := by simpa using List.mem_of_getElem? hq
  rw [hnew.spec.2.2.1] at hst
  cases hst

theorem wakeInv_run {ts : List KernelStep} {k : Kernel} (h : Run (xernel plat) ts k) :
    WakeInv k.core :=
  h.invariant (I := fun k => WakeInv k.core) (fun _ hk => wakeInv_boot hk)
    fun _ _ _ _ hreach hinv hs => hinv.step (reachable_core hreach hs)

/-- On every endpoint the messages sent are the messages received, in order, followed by the queue;
every notification word is the OR of the bits signalled since it was last taken; and no process is
blocked on an endpoint with a message or on a notification with a bit set. -/
theorem ipc_delivery {ts : List KernelStep} {k : Kernel} (h : Run (xernel plat) ts k) :
    (∀ id, ts.filterMap (sentIn id) = ts.filterMap (receivedIn id) ++ k.ipc.endpoints id) ∧
    (∀ id, ∃ c d, ts = c ++ d ∧ (c = [] ∨ ∃ c' t, c = c' ++ [t] ∧ (takenIn id t).isSome) ∧
      (∀ t ∈ d, takenIn id t = none) ∧
      k.ipc.notifications id = (d.filterMap (signalledIn id)).foldl (· ||| ·) 0) ∧
    (∀ (i : ℕ) (p : Process) (id : ℕ), k.sched.procs[i]? = some p →
      (p.state = .blocked (.endpoint id) → k.ipc.endpoints id = []) ∧
      (p.state = .blocked (.notification id) → k.ipc.notifications id = 0)) := by
  have hinv := wakeInv_run h
  exact ⟨sent_eq_received_append h, word_eq_signalled h, fun i p id hp =>
    ⟨hinv.blocked i p (.endpoint id) hp, hinv.blocked i p (.notification id) hp⟩⟩

/-- Two messages are sent while the child waits for one: it is woken and takes the first. -/
theorem ipc_delivery_two_messages :
    ∃ ts k, Run (xernel smallPlatform) ts k ∧ ts.filterMap (sentIn 0) = [(7, none), (8, none)] ∧
      ts.filterMap (receivedIn 0) = [(7, none)] ∧ k.ipc.endpoints 0 = [(8, none)] := by
  let es : List Event := [.resume, .call .spawn 0 6, .call .yield, .resume,
    .call .recv 3 0x80_8000 0xffff_ffff_ffff_ffff, .resume,
    .call .send 3 7 0xffff_ffff_ffff_ffff, .call .send 3 8 0xffff_ffff_ffff_ffff, .call .yield,
    .resume]
  have hrun : (trace smallPlatform es).isSome = true := by decide +kernel
  have hfacts : (trace smallPlatform es).map (fun r => (r.1.filterMap (sentIn 0),
      r.1.filterMap (receivedIn 0))) = some ([(7, none), (8, none)], [(7, none)]) := by
    decide +kernel
  obtain ⟨r, hr⟩ := Option.isSome_iff_exists.mp hrun
  rw [hr, Option.map_some, Option.some.injEq, Prod.mk.injEq] at hfacts
  have hfifo := (ipc_delivery (trace_run hr)).1 0
  rw [hfacts.1, hfacts.2] at hfifo
  exact ⟨r.1, r.2, trace_run hr, hfacts.1, hfacts.2, (by simpa using hfifo.symm)⟩

end Xernel
