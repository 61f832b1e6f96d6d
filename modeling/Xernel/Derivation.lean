import Xernel.Table
import Xernel.Delivery

/-!
# Capability derivation

Every capability in a slot got there in one of the ways listed in `Derived`, an occupied slot keeps
its capability but for the bytes left of a budget, and so authority over ports, device memory and
budgets stays with the first process as long as it does not pass it on itself.
-/

namespace Xernel

variable {plat : Platform} {a b : Core} {act : Activity} {out : Option ℕ}

/-! ## How a capability gets into a slot -/

/-- The steps that sent to endpoint `id`, each with its message. -/
def sendersOn (id : ℕ) (ts : List KernelStep) : List (KernelStep × Message) :=
  ts.filterMap fun t => (sentIn id t).map fun msg => (t, msg)

/-- How `cap` came into slot `slot` of process `i` in step `t`, which follows the steps `before`. -/
inductive Derived (before : List KernelStep) (t : KernelStep) (i slot : ℕ) (cap : CapEntry) : Prop
  /-- `seed_caps` of a process created in the step. -/
  | seeded (hnew : i = t.pre.sched.procs.length) (hseed : seededSlot i slot = some cap)
  /-- The handle of a process that `i` spawned. -/
  | spawned {args : Args} {pid : ℕ} (hi : i = t.pre.sched.current)
      (hact : t.pre.activity t.event = .call .spawn args ∨
        t.pre.activity t.event = .call .spawnEnv args)
      (hout : t.out = some pid) (hnew : pid = t.pre.sched.procs.length)
      (hcap : cap = .process pid)
  /-- The run of frames that a `FRAME_ALLOC` of `i` allocated. -/
  | allocated {args : Args} {phys : ℕ} {later : List FrameCall} (hi : i = t.pre.sched.current)
      (hact : t.pre.activity t.event = .call .frameAlloc args) (hout : t.out = some 0)
      (hslot : slot = args.rsi.toNat) (hcap : cap = .frame phys args.rdi.toNat)
      (hcalls : t.post.mm.calls =
        t.pre.mm.calls ++ .allocContiguous args.rdi.toNat (some phys) :: later)
  /-- A message that `i` received; step `u` sent it, from a slot that held the capability. -/
  | received {id slot' : ℕ} {msg : Message} {u : KernelStep} (hi : i = t.pre.sched.current)
      (hrecv : receivedIn id t = some msg) (hmsg : msg.2 = some cap)
      (hsent : (sendersOn id before)[(before.filterMap (receivedIn id)).length]? = some (u, msg))
      (hheld : u.pre.sched.cur.caps.slot slot' = some cap)
  /-- A `CAP_GRANT` by a process that holds the capability and a `Process` capability for `i`. -/
  | granted {args : Args} (hact : t.pre.activity t.event = .call .capGrant args)
      (hout : t.out = some 0) (hslot : slot = args.rdx.toNat)
      (hheld : t.pre.sched.cur.caps.slot args.rsi.toNat = some cap)
      (hproc : t.pre.sched.Names args.rdi.toNat i)

/-- The capability in slot `slot` of process `i`, if there is one. -/
def Kernel.slotOf (k : Kernel) (i slot : ℕ) : Option CapEntry :=
  (k.sched.procs[i]?).bind fun p => p.caps.slot slot

lemma Kernel.slotOf_eq_some {k : Kernel} {i slot : ℕ} {cap : CapEntry} :
    k.slotOf i slot = some cap ↔ k.core.HasSlot i slot cap := by
  rw [slotOf, Option.bind_eq_some_iff]
  rfl

/-- The step that sent the message at the head of a queue, and the slot its capability was in. -/
lemma exists_sender {ts : List KernelStep} {k : Kernel} (h : Run (xernel plat) ts k) {id : ℕ}
    {msg : Message} {rest : List Message} {cap : CapEntry}
    (hq : k.ipc.endpoints id = msg :: rest) (hmsg : msg.2 = some cap) :
    ∃ u slot', (sendersOn id ts)[(ts.filterMap (receivedIn id)).length]? = some (u, msg) ∧
      u.pre.sched.cur.caps.slot slot' = some cap := by
  have hsnd : (sendersOn id ts).map Prod.snd = ts.filterMap (sentIn id) := by
    simp [sendersOn, List.map_filterMap]
  have hget : (ts.filterMap (sentIn id))[(ts.filterMap (receivedIn id)).length]? = some msg := by
    rw [sent_eq_received_append h, hq]
    simp
  rw [← hsnd, List.getElem?_map] at hget
  obtain ⟨⟨u, msg'⟩, hu, rfl⟩ := Option.map_eq_some_iff.mp hget
  obtain ⟨t, -, ht⟩ := List.mem_filterMap.mp (List.mem_of_getElem? hu)
  obtain ⟨msg'', hsent, heq⟩ := Option.map_eq_some_iff.mp ht
  obtain ⟨rfl, rfl⟩ := Prod.mk.inj heq
  obtain ⟨args, -, -, -, hatt⟩ := Core.sends_eq_some hsent
  exact ⟨t, args.rdx.toNat, hu, Scheduler.slot_of_attached (hatt.symm.trans hmsg)⟩

/-- A slot that a step fills is filled in one of the listed ways. -/
theorem derived_of_step {before : List KernelStep} {t : KernelStep} {i slot : ℕ} {cap : CapEntry}
    (hpre : Run (xernel plat) before t.pre)
    (hs : Xernel.step plat t.pre t.event = some (t.post, t.out))
    (hold : t.pre.slotOf i slot = none) (hcap : t.post.slotOf i slot = some cap) :
    Derived before t i slot cap := by
  have hinv := tableInv_run hpre
  cases (reachable_core ⟨before, hpre⟩ hs).slot (Kernel.slotOf_eq_some.mp hcap) with
  | kept h₀ hsame =>
    rw [Kernel.slotOf_eq_some.mpr h₀] at hold
    cases hold
  | seeded hi hseed =>
    have hpid : t.pre.core.sched.nextPid = i := hinv.nextPid.trans hi.symm
    exact .seeded hi (hpid ▸ hseed)
  | frame hi hact hout hslot hcap hcalls hkeep => exact .allocated hi hact hout hslot hcap hcalls
  | handle hi hact hout hcap hnext => exact .spawned hi hact hout hinv.nextPid hcap
  | received hi hact hrecv hmsg =>
    obtain ⟨u, slot', hu, hheld⟩ := exists_sender hpre (Ipc.tryRecv_eq_some hrecv).1 hmsg
    refine .received hi ?_ hmsg hu hheld
    rw [receivedIn, Core.dequeues, if_pos hact.receivesFrom, hrecv]
    rfl
  | granted hact hout hslot hheld hp hproc =>
    exact .granted hact hout hslot hheld (hinv.pid i _ hp ▸ hproc)

/-- An occupied slot keeps its capability, but for the bytes left of a budget. -/
theorem occupied_of_step {k k' : Kernel} {e : Event} {i slot : ℕ} {cap : CapEntry}
    (hreach : Reachable (xernel plat) k) (hs : Xernel.step plat k e = some (k', out))
    (hcap : k.slotOf i slot = some cap) :
    ∃ cap', k'.slotOf i slot = some cap' ∧ cap.SameButBudget cap' := by
  obtain ⟨cap', hcap', hsame⟩ :=
    (reachable_core hreach hs).occupied (Kernel.slotOf_eq_some.mp hcap)
  exact ⟨cap', Kernel.slotOf_eq_some.mpr hcap', hsame⟩

/-! ## Authority over the hardware -/

/-- The kinds of capability that ports, device memory and allocations need. -/
def CapEntry.Privileged (cap : CapEntry) : Prop :=
  cap.capType = .ioPort ∨ cap.capType = .ioMem ∨ cap.capType = .untyped

/-- Privileged capabilities are only in the slots that the first process is seeded with. -/
structure Confined (a : Core) : Prop where
  slots : ∀ i slot cap, a.HasSlot i slot cap → cap.Privileged → i = 0 ∧ slot < 3
  queues : ∀ id cap, a.Queued id cap → ¬ cap.Privileged

/-- What happens next makes the first process pass on one of its slots 0, 1 and 2. -/
def Kernel.passesOn (k : Kernel) (e : Event) : Bool :=
  k.sched.cur.pid == 0 &&
    match k.activity e with
    | .call .send args => decide (args.rdx.toNat < 3)
    | .call .capGrant args => decide (args.rsi.toNat < 3)
    | _ => false

lemma CapEntry.SameButBudget.privileged {cap cap' : CapEntry} (h : cap.SameButBudget cap')
    (hp : cap'.Privileged) : cap.Privileged := by
  rwa [CapEntry.Privileged, h.1] at hp

lemma privileged_seededSlot {pid slot : ℕ} {cap : CapEntry} (h : seededSlot pid slot = some cap)
    (hp : cap.Privileged) : pid = 0 ∧ slot < 3 := by
  have hno : ∀ {c : CapEntry}, some c = some cap → ¬ c.Privileged → False := by
    intro c hc hn
    obtain rfl := Option.some.inj hc
    exact hn hp
  unfold seededSlot at h
  split at h
  · exact (hno h (by simp [CapEntry.Privileged, CapEntry.endpoint, CapEntry.new])).elim
  split at h
  · exact (hno h (by simp [CapEntry.Privileged, CapEntry.endpoint, CapEntry.new])).elim
  split at h
  · exact (hno h (by simp [CapEntry.Privileged, CapEntry.notification, CapEntry.new])).elim
  split at h
  next hc => omega
  split at h
  next hc => omega
  split at h
  next hc => omega
  · cases h

/-- A step in which the first process keeps its slots to itself keeps the authority confined. -/
theorem Confined.step {k k' : Kernel} {e : Event} (h : Confined k.core) (hinv : TableInv k.core)
    (hs : CoreStep plat k.core k'.core (k.activity e) out) (hkeep : k.passesOn e = false) :
    Confined k'.core := by
  have hcur : ∀ {slot cap}, k.sched.cur.caps.slot slot = some cap → cap.Privileged →
      k.sched.cur.pid = 0 ∧ slot < 3 := by
    intro slot cap hslot hpriv
    obtain ⟨hi, hlt⟩ := h.slots _ _ _ (Core.hasSlot_cur hslot) hpriv
    exact ⟨hinv.cur_pid.trans hi, hlt⟩
  refine ⟨fun i slot cap hcap hpriv => ?_, fun id cap hq hpriv => ?_⟩
  · cases hs.slot hcap with
    | kept h₀ hsame => exact h.slots i slot _ h₀ (hsame.privileged hpriv)
    | seeded hi hseed =>
      obtain ⟨hzero, hlt⟩ := privileged_seededSlot hseed hpriv
      exact ⟨hi.trans (hinv.nextPid.symm.trans hzero), hlt⟩
    | frame hi hact hout hslot hcap hcalls hkeep' =>
      subst hcap
      simp [CapEntry.Privileged, CapEntry.frame] at hpriv
    | handle hi hact hout hcap hnext =>
      subst hcap
      simp [CapEntry.Privileged, CapEntry.process, CapEntry.new] at hpriv
    | received hi hact hrecv hmsg =>
      exact absurd hpriv (h.queues _ _ (Core.queued_of_tryRecv hrecv hmsg))
    | granted hact hout hslot hheld hp hproc =>
      obtain ⟨hpid, hlt⟩ := hcur hheld hpriv
      simp [Kernel.passesOn, hpid, hact, hlt] at hkeep
  · rcases hs.queued hq with h₀ | ⟨args, hact, -, -, -, hatt⟩
    · exact h.queues id cap h₀ hpriv
    · obtain ⟨hpid, hlt⟩ := hcur (Scheduler.slot_of_attached hatt) hpriv
      simp [Kernel.passesOn, hpid, hact, hlt] at hkeep

/-- The slots of the first process after boot are the seeded ones. -/
lemma slotOf_boot {k : Kernel} {i slot : ℕ} {cap : CapEntry} (h : boot plat = some k)
    (hcap : k.slotOf i slot = some cap) : i = 0 ∧ seededSlot 0 slot = some cap := by
  obtain ⟨m, p, hnew, hprocs, -⟩ := boot_core h
  obtain ⟨q, hq, hslot⟩ := Kernel.slotOf_eq_some.mp hcap
  rw [hprocs] at hq
  rcases i with _ | i
  · obtain rfl := Option.some.inj hq
    rw [hnew.spec.2.2.2.1, slot_seedCaps] at hslot
    exact ⟨rfl, hslot⟩
  · simp at hq

lemma confined_boot {k : Kernel} (h : boot plat = some k) : Confined k.core := by
  refine ⟨fun i slot cap hcap hpriv => ?_, fun id cap hq => ?_⟩
  · obtain ⟨rfl, hseed⟩ := slotOf_boot h (Kernel.slotOf_eq_some.mpr hcap)
    exact ⟨rfl, (privileged_seededSlot hseed hpriv).2⟩
  · obtain ⟨m, p, -, -, -, -, hempty, -⟩ := boot_core h
    obtain ⟨msg, hmsg, -⟩ := hq
    rw [hempty id] at hmsg
    cases hmsg

/-! ## Calls that need a privileged capability -/

/-- The calls that go to ports, to device memory or to the frame allocator. -/
def Sys.isPrivileged (sys : Sys) : Bool :=
  sys ∈ [Sys.portIn, .portOut, .iomap, .dmaAlloc, .frameAlloc]

/-- Without a privileged capability of its own the caller gets nothing but the error value. -/
lemma Kernel.dispatch_unprivileged {k : Kernel} {nr : UInt64} {args : Args} {hw : Hw} {sys : Sys}
    (hd : Sys.decode nr = some sys) (hsys : sys.isPrivileged = true)
    (hno : ∀ slot cap, k.sched.cur.caps.slot slot = some cap → ¬ cap.Privileged) :
    (k.dispatch plat nr args hw).2 = some u64Max := by
  have hport : ∀ port size, k.sched.cur.caps.authorizesPort port size = false := by
    intro port size
    by_contra htrue
    obtain ⟨i, cap, hcap, hauth⟩ := CNode.authorizesPort_eq_true (Bool.not_eq_false _ ▸ htrue)
    refine hno i cap hcap (.inl ?_)
    by_contra hne
    simp [CapEntry.authorizesPort, hne] at hauth
  have hmmio : ∀ phys len, k.sched.cur.caps.authorizesMmio phys len = false := by
    intro phys len
    by_contra htrue
    obtain ⟨i, cap, hcap, hauth⟩ := CNode.authorizesMmio_eq_true (Bool.not_eq_false _ ▸ htrue)
    refine hno i cap hcap (.inr (.inl ?_))
    by_contra hne
    simp [CapEntry.authorizesMmio, hne] at hauth
  have hcharge : ∀ amount, k.currentChargeUntyped amount = none := by
    intro amount
    rw [Kernel.currentChargeUntyped, Option.map_eq_none_iff]
    by_contra hsome
    obtain ⟨caps, hcaps⟩ := Option.ne_none_iff_exists'.mp hsome
    obtain ⟨i, cap, hcap, hty⟩ := CNode.exists_untyped_of_charge hcaps
    exact hno i cap hcap (.inr (.inr hty))
  rw [Kernel.dispatch, hd]
  cases sys with
  | portIn => simp [Kernel.sysPortIn, hport]
  | portOut => simp [Kernel.sysPortOut, hport]
  | iomap =>
    simp only [Kernel.sysIomap, hmmio]
    split <;> rfl
  | dmaAlloc =>
    simp only [Kernel.sysDmaAlloc, hcharge]
    split <;> rfl
  | frameAlloc =>
    simp only [Kernel.sysFrameAlloc, hcharge]
    split <;> rfl
  | _ => simp [Sys.isPrivileged] at hsys

/-- Every capability comes into its slot by seeding, by the process's own spawn or allocation, by a
message whose sender held it, or by a grant of a process that held it and a `Process` capability for
the receiver; slots in use keep their capability but for the bytes left of a budget. So if the first
process passes on none of its slots 0, 1 and 2, no other process reaches a port, device memory or
the frame allocator. -/
theorem capability_derivation {ts : List KernelStep} {k : Kernel} (h : Run (xernel plat) ts k) :
    (∀ k₀, boot plat = some k₀ → ∀ i slot cap, k₀.slotOf i slot = some cap →
      i = 0 ∧ seededSlot 0 slot = some cap) ∧
    (∀ before t after, ts = before ++ t :: after → ∀ i slot cap,
      t.pre.slotOf i slot = none → t.post.slotOf i slot = some cap → Derived before t i slot cap) ∧
    (∀ t ∈ ts, ∀ i slot cap, t.pre.slotOf i slot = some cap →
      ∃ cap', t.post.slotOf i slot = some cap' ∧ cap.SameButBudget cap') ∧
    ((∀ t ∈ ts, t.pre.passesOn t.event = false) → ∀ t ∈ ts, ∀ sys args,
      t.pre.activity t.event = .call sys args → sys.isPrivileged = true →
      t.pre.sched.cur.pid ≠ 0 → t.out = some u64Max) := by
  refine ⟨fun k₀ hk₀ i slot cap => slotOf_boot hk₀, fun before t after hts i slot cap hold hcap => ?_,
    fun t ht i slot cap hcap => ?_, fun hkeep t ht sys args hact hsys hpid => ?_⟩
  · obtain ⟨hpre, hstep, -⟩ := h.split hts
    exact derived_of_step hpre hstep hold hcap
  · exact occupied_of_step (h.mem_step ht).1 (h.mem_step ht).2 hcap
  · have hconf := (h.invariant_of_mem (I := fun k => Confined k.core)
      (C := fun k e => k.passesOn e = false) (fun _ hk => confined_boot hk) ?_ hkeep t ht).1
    · obtain ⟨hreach, hstep⟩ := h.mem_step ht
      obtain ⟨-, nr, hw, -, hd, heq⟩ := reachable_call hreach hstep hact
      have hsnd := congrArg Prod.snd heq
      rw [(Kernel.syscallExit_core _).2] at hsnd
      refine hsnd.trans (Kernel.dispatch_unprivileged hd hsys fun slot cap hslot hpriv => hpid ?_)
      obtain ⟨ts', hrun⟩ := hreach
      exact (tableInv_run hrun).cur_pid.trans (hconf.slots _ _ _ (Core.hasSlot_cur hslot) hpriv).1
    · rintro k e k' o ⟨ts', hrun⟩ hinv hpass hs
      exact hinv.step (tableInv_run hrun) (reachable_core ⟨ts', hrun⟩ hs) hpass

/-- A child that was granted only an endpoint asks for a port, device memory and memory in vain. -/
theorem capability_derivation_child :
    ∃ ts k, Run (xernel smallPlatform) ts k ∧ k.slotOf 1 7 = some (.endpoint 0) ∧
      ∀ t ∈ ts, t.pre.sched.cur.pid ≠ 0 → ∀ sys args, t.pre.activity t.event = .call sys args →
        sys.isPrivileged = true → t.out = some u64Max := by
  let es : List Event := [.resume, .call .spawn 0 6, .call .capGrant 6 3 7, .call .yield, .resume,
    .call .portIn 0xcf8 4, .call .iomap 0xfee00000 4096, .call .dmaAlloc 4096]
  have hrun : (trace smallPlatform es).isSome = true := by decide +kernel
  have hfacts : (trace smallPlatform es).map (fun r =>
      (r.1.all fun t => !t.pre.passesOn t.event, r.2.slotOf 1 7)) =
      some (true, some (.endpoint 0)) := by decide +kernel
  obtain ⟨r, hr⟩ := Option.isSome_iff_exists.mp hrun
  rw [hr, Option.map_some, Option.some.injEq, Prod.mk.injEq] at hfacts
  refine ⟨r.1, r.2, trace_run hr, hfacts.2, fun t ht hpid sys args hact hsys => ?_⟩
  refine (capability_derivation (trace_run hr)).2.2.2 (fun t ht => ?_) t ht sys args hact hsys hpid
  simpa using List.all_eq_true.mp hfacts.1 t ht

end Xernel
