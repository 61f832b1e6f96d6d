import Xernel.Table

/-!
# Allocation budgets

`DMA_ALLOC` and `FRAME_ALLOC` pay for memory from the `Untyped` capabilities of the caller. `SEND`
and `CAP_GRANT` copy such a capability with all the bytes left in it, so the bytes handed out stay
within the budget seeded at boot only as long as nobody delegates one that has bytes left.
-/

namespace Xernel

variable {plat : Platform} {a b : Core} {act : Activity} {out : Option ℕ}

/-! ## The budget of a table of processes -/

/-- The bytes that all processes together may still allocate. -/
def Scheduler.budget (s : Scheduler) : ℕ := (s.procs.map fun p => p.caps.budget).sum

namespace Scheduler

variable {s : Scheduler} {i : ℕ} {f : Process → Process} {p : Process}

lemma budget_modify (hp : s.procs[i]? = some p) :
    (s.modify i f).budget + p.caps.budget = s.budget + (f p).caps.budget := by
  show ((s.procs.modify i f).map _).sum + _ = (s.procs.map _).sum + _
  generalize s.procs = ps at hp
  induction ps generalizing i with
  | nil => simp at hp
  | cons q ps ih =>
    cases i with
    | zero =>
      obtain rfl : q = p := by simpa using hp
      simp only [List.modify_zero_cons, List.map_cons, List.sum_cons]
      omega
    | succ i =>
      have ih' := ih (i := i) (by simpa using hp)
      simp only [List.modify_succ_cons, List.map_cons, List.sum_cons]
      omega

/-- An update that leaves the capabilities alone leaves the budget alone. -/
lemma budget_modify_of_caps (s : Scheduler) (i : ℕ) (hf : ∀ p, (f p).caps = p.caps) :
    (s.modify i f).budget = s.budget := by
  cases hp : s.procs[i]? with
  | some p =>
    have := budget_modify (f := f) hp
    rw [hf p] at this
    omega
  | none =>
    have hlen := List.getElem?_eq_none_iff.mp hp
    simp only [budget, modify, List.modify_eq_self hlen]

lemma budget_modifyCur_of_caps (s : Scheduler) (hf : ∀ p, (f p).caps = p.caps) :
    (s.modifyCur f).budget = s.budget :=
  s.budget_modify_of_caps s.current hf

lemma budget_setCaps (s : Scheduler) (caps : CNode) :
    (s.setCaps caps).budget + s.cur.caps.budget = s.budget + caps.budget :=
  budget_modify (f := fun p => { p with caps }) (getElem?_current s)

lemma budget_push (s : Scheduler) (p : Process) :
    (s.push p).budget = s.budget + p.caps.budget := by
  simp [budget, push]

lemma budget_wake (s : Scheduler) (r : BlockReason) : (s.wake r).budget = s.budget := by
  have hcaps : ∀ p : Process, (if p.state = .blocked r then { p with state := .ready } else p).caps =
      p.caps := by
    intro p
    split <;> rfl
  simp only [budget, wake, List.map_map, Function.comp_def, hcaps]

lemma Switched.budget {s s' : Scheduler} (h : s.Switched s') : s'.budget = s.budget := by
  obtain ⟨i, -, rfl⟩ := h
  rfl

end Scheduler

/-! ## One step -/

/-- The activity puts a copy of an `Untyped` capability with bytes left into a queue or into a slot
of another process. -/
def Core.delegatesBudget (a : Core) : Activity → Bool
  | .call .send args =>
    (a.sched.endpointAt args.rdi.toNat).any (fun id => decide (id < numEndpoints)) &&
      (a.sched.attached args.rdx.toNat).any fun cap => decide (0 < cap.budget)
  | .call .capGrant args =>
    (((a.sched.cur.caps.slot args.rdi.toNat).bind CapEntry.processPid).bind a.sched.find).any
        (fun p => decide (args.rdx.toNat < p.caps.slots.length ∧ p.caps.slot args.rdx.toNat = none)) &&
      (a.sched.cur.caps.slot args.rsi.toNat).any fun cap => decide (0 < cap.budget)
  | _ => false

/-- Messages carry no budget. -/
def Core.QueuesFree (a : Core) : Prop := ∀ id cap, a.Queued id cap → cap.budget = 0

lemma budget_seedCaps {pid : ℕ} (h : pid ≠ 0) : (seedCaps pid).budget = 0 := by
  rw [seedCaps_of_ne_zero h]
  decide +kernel

/-- What a step without delegation sends carries no budget. -/
theorem Core.QueuesFree.step (h : a.QueuesFree) (hs : CoreStep plat a b act out)
    (hdel : a.delegatesBudget act = false) : b.QueuesFree := by
  intro id cap hq
  rcases hs.queued hq with h₀ | ⟨args, rfl, -, hid, hlt, hatt⟩
  · exact h id cap h₀
  · simp only [Core.delegatesBudget, hid, hatt, Option.any_some, hlt, decide_true, Bool.true_and,
      decide_eq_false_iff_not] at hdel
    omega

/-- A step without delegation takes what it hands out from the budget of the caller. -/
theorem CoreStep.budget (hs : CoreStep plat a b act out) (hq : a.QueuesFree)
    (hdel : a.delegatesBudget act = false) (hnext : a.sched.nextPid ≠ 0) :
    b.sched.budget + act.handsOut out ≤ a.sched.budget := by
  have hmute : ∀ {act' : Activity}, act' = act → act'.handsOut out = 0 →
      b.sched.budget = a.sched.budget → b.sched.budget + act.handsOut out ≤ a.sched.budget := by
    rintro act' rfl h₀ heq
    omega
  have hpark : ∀ {kont : Kont}, Parks a.sched act kont → act.handsOut out = 0 := by
    intro kont hk
    cases hk <;> rfl
  cases hs with
  | quiet hact hout hs => rw [hs, hout]; exact Nat.le_refl _
  | logged data hact hs =>
    refine hmute hact.symm rfl ?_
    rw [hs, Scheduler.budget_modifyCur_of_caps]
    exact fun _ => rfl
  | setBreak hact hs =>
    refine hmute hact.symm rfl ?_
    rw [hs, Scheduler.budget_modifyCur_of_caps]
    exact fun _ => rfl
  | @charged args need caps hact hout h hs =>
    -- the charge covers what is handed out
    have hset := a.sched.budget_setCaps caps
    have hch := CNode.budget_charge h
    rw [hs]
    omega
  | @refunded args need caps hact hout h hs =>
    have hset := a.sched.budget_setCaps (caps.refundUntyped need)
    have hch := CNode.budget_charge h
    -- at most what was charged comes back, and nothing was handed out
    have hre := CNode.budget_refund_le caps need
    have hzero : act.handsOut out = 0 := by
      rcases hact with rfl | rfl <;> rw [hout] <;> rfl
    rw [hs, hzero]
    omega
  | @frameInstalled args phys caps caps' later hact hout h hins hs =>
    have hset := a.sched.budget_setCaps caps'
    have hch := CNode.budget_charge h
    have hin := CNode.budget_insert hins
    have hframe : ∀ phys pages, (CapEntry.frame phys pages).budget = 0 := fun _ _ => rfl
    rw [hframe] at hin
    rw [hs, hact, hout]
    simp only [Activity.handsOut]
    omega
  | @spawned args p caps hact hout hp hins hs =>
    have hset := a.sched.budget_setCaps caps
    have hcaps : caps.budget = a.sched.cur.caps.budget := by
      rcases hins with rfl | ⟨slot, hins⟩
      · rfl
      · rw [CNode.budget_insert hins]; rfl
    have hzero : act.handsOut out = 0 := by rcases hact with rfl | rfl <;> rfl
    rw [hs, Scheduler.budget_push, hp.spec.2.2.2.1, budget_seedCaps hnext, hzero]
    omega
  | sent hact hout hid hsend hs =>
    exact hmute hact.symm rfl (by rw [hs, Scheduler.budget_wake])
  | signalled hact hout hid hsig hs =>
    exact hmute hact.symm rfl (by rw [hs, Scheduler.budget_wake])
  | @received id dstSlot msg caps hact hrecv hins hs =>
    have hset := a.sched.budget_setCaps caps
    have hcaps : caps.budget = a.sched.cur.caps.budget := by
      rcases hins with rfl | ⟨cap, hmsg, hins⟩
      · rfl
      · rw [CNode.budget_insert hins, hq id cap (Core.queued_of_tryRecv hrecv hmsg), Nat.add_zero]
    have hzero : act.handsOut out = 0 := by cases hact <;> rfl
    rw [hs, hzero]
    omega
  | taken hact hout htake hs =>
    rcases hact with ⟨args, hact, -⟩ | hact <;> exact hmute hact.symm rfl (by rw [hs])
  | parked hk hkont hout hs =>
    refine hmute rfl (hpark hk) ?_
    rw [hs, Scheduler.park, Scheduler.budget_modifyCur_of_caps]
    exact fun _ => rfl
  | yielded hk hkont hout hs =>
    refine hmute rfl (hpark hk) ?_
    rw [hs.budget, Scheduler.park, Scheduler.budget_modifyCur_of_caps]
    exact fun _ => rfl
  | @blocked reason kont hk hkont hout hwait hs =>
    refine hmute rfl (hpark hk) ?_
    have hset : ∀ (s : Scheduler) (st : State), (s.setState st).budget = s.budget :=
      fun s st => s.budget_modifyCur_of_caps fun _ => rfl
    have hkeep : ((a.sched.park kont).setState (.blocked reason)).budget = a.sched.budget := by
      rw [hset, Scheduler.park, Scheduler.budget_modifyCur_of_caps]
      exact fun _ => rfl
    rcases hs with hs | hs
    · rw [hs.budget, hkeep]
    · rw [hs, hset, hkeep]
  | exited code hact hout hs =>
    have hzero : act.handsOut out = 0 := by rcases hact with rfl | ⟨args, rfl⟩ <;> rfl
    have hkeep : (a.sched.finish code).budget = a.sched.budget := by
      rw [Scheduler.finish, Scheduler.budget_modifyCur_of_caps]
      exact fun _ => rfl
    rcases hs with hs | hs
    · exact hmute rfl hzero (by rw [hs.budget, hkeep])
    · exact hmute rfl hzero (by rw [hs, hkeep])
  | logTaken hact hpid hi hs =>
    refine hmute hact.symm rfl ?_
    rw [hs, Scheduler.budget_modify_of_caps]
    exact fun _ => rfl
  | killed hact hpid hne hi halive hs =>
    refine hmute hact.symm rfl ?_
    rw [hs, Scheduler.budget_modify_of_caps]
    exact fun _ => rfl
  | @granted args pid i cap caps hact hout hpid hcap hi hins hs =>
    obtain ⟨p, hp, hins⟩ := hins
    obtain ⟨q, hq', -, hfind⟩ := Scheduler.find_eq_of_indexOf hi
    obtain rfl : p = q := Option.some.inj (hp.symm.trans hq')
    obtain ⟨c, hc, hcpid⟩ := hpid
    obtain ⟨hlt, hempty, -⟩ := CNode.insert_eq_ok_iff.mp hins
    -- a grant that delegates bytes is excluded
    have hzero : cap.budget = 0 := by
      simp only [Core.delegatesBudget, hact, hc, hcap, Option.bind_some, hcpid, hfind,
        Option.any_some, hlt, hempty, and_self, decide_true, Bool.true_and,
        decide_eq_false_iff_not] at hdel
      omega
    have hmod := Scheduler.budget_modify (f := fun p => { p with caps }) hp
    have hin := CNode.budget_insert hins
    refine hmute hact.symm rfl ?_
    rw [hs]
    simp only at hmod
    omega

/-! ## Whole runs -/

/-- What happens next delegates an `Untyped` capability with bytes left. -/
def Kernel.delegatesBudget (k : Kernel) (e : Event) : Bool :=
  k.core.delegatesBudget (k.activity e)

/-- The bytes of physical memory that `DMA_ALLOC` and `FRAME_ALLOC` handed out in a run. -/
def bytesHandedOut (ts : List KernelStep) : ℕ :=
  (ts.map fun t => (t.pre.activity t.event).handsOut t.out).sum

/-- In every run in which nobody delegates an `Untyped` capability with bytes left, the bytes handed
out and the budgets of all processes together stay within `DMA_BUDGET`. -/
lemma budget_run {ts : List KernelStep} {k : Kernel} (h : Run (xernel plat) ts k)
    (hdel : ∀ t ∈ ts, t.pre.delegatesBudget t.event = false) :
    k.core.QueuesFree ∧ k.sched.budget + bytesHandedOut ts ≤ dmaBudget := by
  induction h with
  | @start k hk =>
    obtain ⟨m, p, hnew, hprocs, -, -, hempty, -⟩ := boot_core hk
    refine ⟨fun id cap hq => ?_, ?_⟩
    · obtain ⟨msg, hmsg, -⟩ := hq
      rw [hempty id] at hmsg
      cases hmsg
    · have hseed : (seedCaps 0).budget = dmaBudget := by decide +kernel
      show (k.core.sched.procs.map _).sum + 0 ≤ _
      rw [hprocs]
      simp [hnew.spec.2.2.2.1, hseed]
  | @next ts k k' e o hrun hs ih =>
    obtain ⟨hq, hle⟩ := ih fun t ht => hdel t (List.mem_append_left _ ht)
    have hlast : k.core.delegatesBudget (k.activity e) = false := hdel ⟨k, e, o, k'⟩ (by simp)
    have hcore := reachable_core ⟨ts, hrun⟩ hs
    have hnext : k.core.sched.nextPid ≠ 0 := by
      have hpos := k.core.sched.length_pos
      have hinv := (tableInv_run hrun).nextPid
      omega
    have hstep : k'.sched.budget + (k.activity e).handsOut o ≤ k.sched.budget :=
      hcore.budget hq hlast hnext
    refine ⟨hq.step hcore hlast, ?_⟩
    simp only [bytesHandedOut, List.map_append, List.sum_append, List.map_cons, List.map_nil,
      List.sum_cons, List.sum_nil] at hle ⊢
    omega

/-- Without delegation of `Untyped` capabilities that have bytes left, all successful allocations
together hand out no more than `DMA_BUDGET` bytes. -/
theorem untyped_budget_bound {ts : List KernelStep} {k : Kernel} (h : Run (xernel plat) ts k)
    (hdel : ∀ t ∈ ts, t.pre.delegatesBudget t.event = false) : bytesHandedOut ts ≤ dmaBudget := by
  have := (budget_run h hdel).2
  omega

/-- The first process passes an endpoint to its child and allocates half of its budget. -/
theorem untyped_budget_bound_grant :
    ∃ ts k, Run (xernel smallPlatform) ts k ∧ bytesHandedOut ts = 0x20000 ∧
      bytesHandedOut ts ≤ dmaBudget := by
  let es : List Event := [.resume, .call .spawn 0 6, .call .capGrant 6 3 7,
    .call .dmaAlloc 0x20000 0x808000]
  have hrun : (trace smallPlatform es).isSome = true := by decide +kernel
  have hfacts : (trace smallPlatform es).map (fun r =>
      (r.1.all fun t => !t.pre.delegatesBudget t.event, bytesHandedOut r.1)) =
      some (true, 0x20000) := by decide +kernel
  obtain ⟨r, hr⟩ := Option.isSome_iff_exists.mp hrun
  rw [hr, Option.map_some, Option.some.injEq, Prod.mk.injEq] at hfacts
  refine ⟨r.1, r.2, trace_run hr, hfacts.2, untyped_budget_bound (trace_run hr) fun t ht => ?_⟩
  simpa using List.all_eq_true.mp hfacts.1 t ht

/-- The first process grants its child a copy of the boot budget; both then allocate all of it. -/
theorem untyped_budget_not_bounded :
    ¬ ∀ (plat : Platform) (ts : List KernelStep) (k : Kernel), Run (xernel plat) ts k →
      bytesHandedOut ts ≤ dmaBudget := by
  intro hall
  let es : List Event := [.resume, .call .spawn 0 6, .call .capGrant 6 2 7,
    .call .dmaAlloc 0x40000 0x808000, .call .yield, .resume, .call .dmaAlloc 0x40000 0x808000]
  have hrun : (trace smallPlatform es).isSome = true := by decide +kernel
  have hfacts : (trace smallPlatform es).map (fun r => bytesHandedOut r.1) =
      some (2 * dmaBudget) := by decide +kernel
  obtain ⟨r, hr⟩ := Option.isSome_iff_exists.mp hrun
  rw [hr, Option.map_some, Option.some.injEq] at hfacts
  have hle := hall _ _ _ (trace_run hr)
  rw [hfacts] at hle
  exact absurd hle (by decide)

end Xernel
