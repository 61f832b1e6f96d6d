import Xernel.CoreTheorems

/-!
# Where capabilities are and where they come from

A capability is in circulation when it sits in a slot of some process or travels with a queued
message. `CoreStep.holds` lists the ways one can get into circulation in a step: it was there before
(up to the bytes left of a budget), a new process was seeded with it, it is the handle of a new
process, or it names a run of frames just allocated.
-/

namespace Xernel

variable {plat : Platform} {a b : Core} {act : Activity} {out : Option ℕ}

/-! ## Seeded capabilities -/

/-- The capability `seed_caps` puts into slot `i`. -/
def seededSlot (pid i : ℕ) : Option CapEntry :=
  if i = epSlot then some (.endpoint 0)
  else if i = replyEpSlot then some (.endpoint 1)
  else if i = notifSlot then some (.notification 0)
  else if pid = 0 ∧ i = 0 then some (.ioPort pciIoBase pciIoCount)
  else if pid = 0 ∧ i = 1 then some (.ioMem pciMmioBase pciMmioLen)
  else if pid = 0 ∧ i = 2 then some (.untyped dmaBudget)
  else none

/-- The capabilities that processes are seeded with. -/
def seededCaps : List CapEntry :=
  [.endpoint 0, .endpoint 1, .notification 0, .ioPort pciIoBase pciIoCount,
    .ioMem pciMmioBase pciMmioLen, .untyped dmaBudget]

lemma seededSlot_mem {pid i : ℕ} {cap : CapEntry} (h : seededSlot pid i = some cap) :
    cap ∈ seededCaps := by
  unfold seededSlot at h
  repeat' split at h
  all_goals cases h <;> simp [seededCaps]

lemma seedCaps_of_ne_zero {pid : ℕ} (h : pid ≠ 0) : seedCaps pid = seedCaps 1 := by
  simp [seedCaps, h]

lemma slot_seedCaps (pid i : ℕ) : (seedCaps pid).slot i = seededSlot pid i := by
  have hsmall : ∀ i < 64, (seedCaps 0).slot i = seededSlot 0 i ∧
      (seedCaps 1).slot i = seededSlot 1 i := by decide +kernel
  have hlen : (seedCaps 0).slots.length = 64 ∧ (seedCaps 1).slots.length = 64 := by decide +kernel
  have hbig : 64 ≤ i → ∀ pid, seededSlot pid i = none := by
    intro hi pid
    simp [seededSlot, epSlot, replyEpSlot, notifSlot, show i ≠ 3 by omega, show i ≠ 4 by omega,
      show i ≠ 5 by omega, show i ≠ 0 by omega, show i ≠ 1 by omega, show i ≠ 2 by omega]
  rcases Nat.eq_zero_or_pos pid with rfl | hpos
  · rcases Nat.lt_or_ge i 64 with hi | hi
    · exact (hsmall i hi).1
    · rw [hbig hi, CNode.slot, List.getElem?_eq_none (by omega)]; rfl
  · have hne : pid ≠ 0 := by omega
    have hseed : seededSlot pid i = seededSlot 1 i := by simp [seededSlot, hne]
    rw [seedCaps_of_ne_zero hne, hseed]
    rcases Nat.lt_or_ge i 64 with hi | hi
    · exact (hsmall i hi).2
    · rw [hbig hi, CNode.slot, List.getElem?_eq_none (by omega)]; rfl

/-! ## Circulation -/

/-- Slot `slot` of process `i` holds `cap`. -/
def Core.HasSlot (a : Core) (i slot : ℕ) (cap : CapEntry) : Prop :=
  ∃ p, a.sched.procs[i]? = some p ∧ p.caps.slot slot = some cap

/-- A message with `cap` attached waits on endpoint `id`. -/
def Core.Queued (a : Core) (id : ℕ) (cap : CapEntry) : Prop :=
  ∃ msg ∈ a.ipc.endpoints id, msg.2 = some cap

/-- The capability is in a slot or a queue. -/
def Core.Holds (a : Core) (cap : CapEntry) : Prop :=
  (∃ i slot, a.HasSlot i slot cap) ∨ ∃ id, a.Queued id cap

lemma Core.hasSlot_cur {slot : ℕ} {cap : CapEntry} (h : a.sched.cur.caps.slot slot = some cap) :
    a.HasSlot a.sched.current slot cap :=
  ⟨a.sched.cur, Scheduler.getElem?_current _, h⟩

lemma Ipc.tryRecv_eq_some {c c' : Ipc} {id : ℕ} {msg : Message}
    (h : c.tryRecv id = some (msg, c')) :
    c.endpoints id = msg :: c'.endpoints id ∧ (∀ id' ≠ id, c'.endpoints id' = c.endpoints id') ∧
      c'.notifications = c.notifications := by
  rw [tryRecv] at h
  split at h
  · split at h
    · cases h
    next msg' rest hq =>
      obtain ⟨rfl, rfl⟩ := Prod.mk.inj (Option.some.inj h)
      exact ⟨by simp [hq], fun id' hne => by simp [hne], rfl⟩
  · cases h

lemma Ipc.send_eq_some {c c' : Ipc} {id : ℕ} {msg : Message} (h : c.send id msg = some c') :
    id < numEndpoints ∧ c'.endpoints id = c.endpoints id ++ [msg] ∧
      (∀ id' ≠ id, c'.endpoints id' = c.endpoints id') ∧ c'.notifications = c.notifications := by
  rw [send] at h
  split at h
  next hid =>
    obtain rfl := Option.some.inj h
    exact ⟨hid, by simp, fun id' hne => by simp [hne], rfl⟩
  · cases h

lemma Ipc.signal_eq_some {c c' : Ipc} {id bits : ℕ} (h : c.signal id bits = some c') :
    id < numNotifications ∧ c'.notifications id = c.notifications id ||| bits ∧
      (∀ id' ≠ id, c'.notifications id' = c.notifications id') ∧ c'.endpoints = c.endpoints := by
  rw [signal] at h
  split at h
  next hid =>
    obtain rfl := Option.some.inj h
    exact ⟨hid, by simp, fun id' hne => by simp [hne], rfl⟩
  · cases h

lemma Ipc.pollTake_eq_some {c c' : Ipc} {id bits : ℕ} (h : c.pollTake id = some (bits, c')) :
    c.notifications id = bits ∧ c'.notifications id = 0 ∧
      (∀ id' ≠ id, c'.notifications id' = c.notifications id') ∧ c'.endpoints = c.endpoints := by
  rw [pollTake] at h
  split at h
  · obtain ⟨hbits, rfl⟩ := Prod.mk.inj (Option.some.inj h)
    exact ⟨hbits, by simp, fun id' hne => by simp [hne], rfl⟩
  · cases h

lemma Receives.receivesFrom {id dstSlot : ℕ} (h : Receives a.sched id dstSlot act) :
    a.receivesFrom act = some id := by
  cases h with
  | call hid hdst => exact hid
  | resumed => rfl

/-- A mute activity receives from nowhere. -/
lemma Activity.Mute.receivesFrom (h : act.Mute a.sched out) : a.receivesFrom act = none := by
  unfold Core.receivesFrom
  split
  · exact h
  · cases h
  · rfl

lemma Activity.Mute.sends (h : act.Mute a.sched out) (id : ℕ) : a.sends act out id = none := by
  unfold Core.sends
  split
  · exact if_neg fun hc => h hc.1
  · rfl

/-- Every queue loses the message that is dequeued from it, at the front, and gains the message
that is sent to it, at the end. -/
theorem CoreStep.queue (h : CoreStep plat a b act out) (id : ℕ) :
    a.ipc.endpoints id ++ (a.sends act out id).toList =
      (a.dequeues act id).toList ++ b.ipc.endpoints id := by
  cases h.ipc with
  | mute hact hc => simp [hact.sends, Core.dequeues, hact.receivesFrom, hc]
  | @blocked reason kont hk hkont hwait hc =>
    have hsends : a.sends act out id = none := by cases hk <;> rfl
    -- whoever blocks on an endpoint has found its queue empty
    have hdeq : a.dequeues act id = none := by
      rw [Core.dequeues]
      split
      next hfrom =>
        have hreason : reason = .endpoint id := by
          cases hk with
          | again =>
            cases kont <;> simp_all [Core.receivesFrom, Kont.reason]
          | recv hid =>
            cases hkont
            exact congrArg _ (Option.some.inj (hid.symm.trans hfrom))
          | _ => cases hfrom
        subst hreason
        simp [show a.ipc.tryRecv id = none from hwait]
      next => rfl
    rw [hsends, hdeq, hc]
    simp
  | @sent args id' hact hout hid hsend =>
    subst hact hout
    obtain ⟨-, hq, hother, -⟩ := Ipc.send_eq_some hsend
    have hdeq : a.dequeues (.call .send args) id = none := by simp [Core.dequeues, Core.receivesFrom]
    by_cases hne : id = id'
    · subst hne
      simp [Core.sends, hid, hdeq, hq]
    · have hne' : ¬ id' = id := fun h => hne h.symm
      simp [Core.sends, hid, hdeq, hother id hne, hne']
  | @signalled args id' hact hout hid hsig =>
    subst hact
    simp [Core.sends, Core.dequeues, Core.receivesFrom, (Ipc.signal_eq_some hsig).2.2.2]
  | @received id' dstSlot msg hact hrecv =>
    obtain ⟨hq, hother, -⟩ := Ipc.tryRecv_eq_some hrecv
    have hsends : a.sends act out id = none := by cases hact <;> rfl
    rw [Core.dequeues, hact.receivesFrom, hsends]
    by_cases hne : id = id'
    · subst hne
      simp [hrecv, hq]
    · have hne' : ¬ id' = id := fun h => hne h.symm
      simp [hne', hother id hne]
  | @taken id' bits hact htake =>
    have hep := (Ipc.pollTake_eq_some htake).2.2.2
    rcases hact with ⟨args, rfl, -⟩ | rfl <;>
      simp [Core.sends, Core.dequeues, Core.receivesFrom, hep]

/-- What is attached to a message is in the slot that the sender gave. -/
lemma Scheduler.slot_of_attached {s : Scheduler} {slot : ℕ} {cap : CapEntry}
    (h : s.attached slot = some cap) : s.cur.caps.slot slot = some cap := by
  unfold Scheduler.attached at h
  split at h
  · cases h
  · exact h

lemma Core.sends_eq_some {id : ℕ} {msg : Message} (h : a.sends act out id = some msg) :
    ∃ args, act = .call .send args ∧ out = some 0 ∧ a.sched.endpointAt args.rdi.toNat = some id ∧
      msg.2 = a.sched.attached args.rdx.toNat := by
  unfold Core.sends at h
  split at h
  next args =>
    split at h
    next hc =>
      obtain rfl := Option.some.inj h
      exact ⟨args, rfl, hc.1, hc.2, rfl⟩
    · cases h
  next => cases h

/-! ## Slots in a step -/

/-- How slot `slot` of process `i` came to hold `cap` after a step: it held it before, up to the bytes
left of a budget, or the step filled it. -/
inductive SlotStep (a b : Core) (act : Activity) (out : Option ℕ) (i slot : ℕ) (cap : CapEntry) : Prop
  | kept {cap₀ : CapEntry} (h : a.HasSlot i slot cap₀) (hsame : cap₀.SameButBudget cap)
  | seeded (hi : i = a.sched.procs.length) (hseed : seededSlot a.sched.nextPid slot = some cap)
  | frame {args : Args} {phys : ℕ} {later : List FrameCall} (hi : i = a.sched.current)
      (hact : act = .call .frameAlloc args) (hout : out = some 0) (hslot : slot = args.rsi.toNat)
      (hcap : cap = .frame phys args.rdi.toNat)
      (hcalls : b.mm.calls = a.mm.calls ++ .allocContiguous args.rdi.toNat (some phys) :: later)
      (hkeep : ∀ pa, .free pa ∉ later)
  | handle {args : Args} (hi : i = a.sched.current)
      (hact : act = .call .spawn args ∨ act = .call .spawnEnv args)
      (hout : out = some a.sched.nextPid) (hcap : cap = .process a.sched.nextPid)
      (hnext : b.sched.nextPid = a.sched.nextPid + 1)
  | received {id : ℕ} {msg : Message} (hi : i = a.sched.current)
      (hact : Receives a.sched id slot act) (hrecv : a.ipc.tryRecv id = some (msg, b.ipc))
      (hmsg : msg.2 = some cap)
  | granted {args : Args} {p : Process} (hact : act = .call .capGrant args) (hout : out = some 0)
      (hslot : slot = args.rdx.toNat) (hheld : a.sched.cur.caps.slot args.rsi.toNat = some cap)
      (hp : a.sched.procs[i]? = some p) (hproc : a.sched.Names args.rdi.toNat p.pid)

/-- What is in a slot after a step. -/
theorem CoreStep.slot (h : CoreStep plat a b act out) {i slot : ℕ} {cap : CapEntry}
    (hb : b.HasSlot i slot cap) : SlotStep a b act out i slot cap := by
  obtain ⟨p', hp', hslot⟩ := hb
  rcases h.proc hp' with ⟨p, hp, hstep⟩ | ⟨hi, hnew⟩
  · have hold : p.caps.slot slot = some cap → SlotStep a b act out i slot cap :=
      fun h => .kept ⟨p, hp, h⟩ (.refl cap)
    have hsame : ∀ {caps' : CNode}, p.caps.SameButBudget caps' → caps'.slot slot = some cap →
        SlotStep a b act out i slot cap := by
      intro caps' hs hs'
      have hrel := hs slot
      rw [hs'] at hrel
      generalize hold' : p.caps.slot slot = o at hrel
      cases hrel with
      | some hrel => exact .kept ⟨p, hp, hold'⟩ hrel
    cases hstep with
    | own hi hown =>
      cases hown with
      | caps hcaps =>
        cases hcaps with
        | budget hs => exact hsame hs hslot
        | frame hact hres hs hins hcalls hkeep =>
          rw [CNode.slot_insert hins] at hslot
          split at hslot
          next heq => exact .frame hi hact hres heq.symm (Option.some.inj hslot).symm hcalls hkeep
          next => exact hsame hs hslot
        | handle hact hres hins hnext =>
          rw [CNode.slot_insert hins] at hslot
          split at hslot
          · exact .handle hi hact hres (Option.some.inj hslot).symm hnext
          · exact hold hslot
        | received hact hrecv hmsg hins =>
          rw [CNode.slot_insert hins] at hslot
          split at hslot
          next heq =>
            obtain rfl := Option.some.inj hslot
            subst heq
            exact .received hi hact hrecv hmsg
          next => exact hold hslot
      | _ => exact hold hslot
    | granted hact hres hpid hheld hins =>
      rw [CNode.slot_insert hins] at hslot
      split at hslot
      next heq =>
        obtain rfl := Option.some.inj hslot
        exact .granted hact hres heq.symm hheld hp hpid
      next => exact hold hslot
    | _ => exact hold hslot
  · rw [hnew.spec.2.2.2.1, slot_seedCaps] at hslot
    exact .seeded hi hslot

/-- An occupied slot keeps its capability, but for the bytes left of a budget. -/
theorem CoreStep.occupied (h : CoreStep plat a b act out) {i slot : ℕ} {cap : CapEntry}
    (ha : a.HasSlot i slot cap) : ∃ cap', b.HasSlot i slot cap' ∧ cap.SameButBudget cap' := by
  obtain ⟨p, hp, hslot⟩ := ha
  obtain ⟨p', hp', hstep⟩ := h.stays hp
  have hbudget : ∀ {caps' : CNode}, p.caps.SameButBudget caps' →
      ∃ cap', caps'.slot slot = some cap' ∧ cap.SameButBudget cap' := by
    intro caps' hsame
    have hrel := hsame slot
    rw [hslot] at hrel
    generalize caps'.slot slot = o at hrel
    cases hrel with
    | some hrel => exact ⟨_, rfl, hrel⟩
  -- `insert` only fills empty slots
  have hins : ∀ {caps caps' : CNode} {j : ℕ} {c cap' : CapEntry}, caps.insert j c = .ok caps' →
      caps.slot slot = some cap' → caps'.slot slot = some cap' := by
    intro caps caps' j c cap' hins hold
    rw [CNode.slot_insert hins, if_neg]
    · exact hold
    · rintro rfl
      rw [CNode.slot_eq_none_of_insert hins] at hold
      cases hold
  have hkeep : p'.caps.slot slot = some cap →
      ∃ cap', b.HasSlot i slot cap' ∧ cap.SameButBudget cap' :=
    fun h => ⟨cap, ⟨p', hp', h⟩, .refl cap⟩
  cases hstep with
  | own hi hown =>
    cases hown with
    | caps hcaps =>
      cases hcaps with
      | budget hsame =>
        obtain ⟨cap', hcap', hrel⟩ := hbudget hsame
        exact ⟨cap', ⟨_, hp', hcap'⟩, hrel⟩
      | frame hact hres hsame hins' hcalls hkeep' =>
        obtain ⟨cap', hcap', hrel⟩ := hbudget hsame
        exact ⟨cap', ⟨_, hp', hins hins' hcap'⟩, hrel⟩
      | handle hact hres hins' hnext => exact hkeep (hins hins' hslot)
      | received hact hrecv hmsg hins' => exact hkeep (hins hins' hslot)
    | _ => exact hkeep hslot
  | granted hact hres hpid hheld hins' => exact hkeep (hins hins' hslot)
  | _ => exact hkeep hslot

/-- What is attached to a queued message after a step was so before, or was sent from a slot. -/
theorem CoreStep.queued (h : CoreStep plat a b act out) {id : ℕ} {cap : CapEntry}
    (hb : b.Queued id cap) :
    a.Queued id cap ∨ ∃ args, act = .call .send args ∧ out = some 0 ∧
      a.sched.endpointAt args.rdi.toNat = some id ∧ id < numEndpoints ∧
      a.sched.attached args.rdx.toNat = some cap := by
  obtain ⟨msg, hmsg, hcap⟩ := hb
  have hmem : msg ∈ a.ipc.endpoints id ++ (a.sends act out id).toList := by
    rw [h.queue id]; exact List.mem_append_right _ hmsg
  rcases List.mem_append.mp hmem with hmem | hmem
  · exact .inl ⟨msg, hmem, hcap⟩
  · obtain ⟨args, rfl, rfl, hid, hatt⟩ := Core.sends_eq_some (Option.mem_toList.mp hmem)
    refine .inr ⟨args, rfl, rfl, hid, ?_, hatt ▸ hcap⟩
    cases h.ipc with
    | mute hact hc => exact absurd rfl hact
    | blocked hk => cases hk
    | sent hact hout hid' hsend =>
      cases hact
      obtain rfl := Option.some.inj (hid.symm.trans hid')
      exact (Ipc.send_eq_some hsend).1
    | signalled hact => cases hact
    | received hact => cases hact
    | taken hact =>
      rcases hact with ⟨args', hact, -⟩ | hact <;> cases hact

/-- The message at the head of a queue is queued. -/
lemma Core.queued_of_tryRecv {id : ℕ} {msg : Message} {cap : CapEntry} {c : Ipc}
    (h : a.ipc.tryRecv id = some (msg, c)) (hmsg : msg.2 = some cap) : a.Queued id cap :=
  ⟨msg, (Ipc.tryRecv_eq_some h).1 ▸ List.mem_cons_self, hmsg⟩

/-- A capability in circulation after a step was so before, up to its budget, or was made in the
step. -/
theorem CoreStep.holds (h : CoreStep plat a b act out) {cap : CapEntry} (hb : b.Holds cap) :
    (∃ cap₀, a.Holds cap₀ ∧ cap₀.SameButBudget cap) ∨
    (∃ slot, seededSlot a.sched.nextPid slot = some cap) ∨
    (cap = .process a.sched.nextPid ∧ b.sched.nextPid = a.sched.nextPid + 1) ∨
    ∃ phys pages later, cap = .frame phys pages ∧
      b.mm.calls = a.mm.calls ++ .allocContiguous pages (some phys) :: later ∧
      ∀ pa, .free pa ∉ later := by
  rcases hb with ⟨i, slot, hslot⟩ | ⟨id, hq⟩
  · cases h.slot hslot with
    | kept h₀ hsame => exact .inl ⟨_, .inl ⟨i, slot, h₀⟩, hsame⟩
    | seeded hi hseed => exact .inr (.inl ⟨slot, hseed⟩)
    | frame hi hact hout hslot hcap hcalls hkeep =>
      exact .inr (.inr (.inr ⟨_, _, _, hcap, hcalls, hkeep⟩))
    | handle hi hact hout hcap hnext => exact .inr (.inr (.inl ⟨hcap, hnext⟩))
    | received hi hact hrecv hmsg =>
      exact .inl ⟨cap, .inr ⟨_, Core.queued_of_tryRecv hrecv hmsg⟩, .refl cap⟩
    | granted hact hout hslot hheld hp hproc =>
      exact .inl ⟨cap, .inl ⟨_, _, Core.hasSlot_cur hheld⟩, .refl cap⟩
  · rcases h.queued hq with h₀ | ⟨args, -, -, -, -, hatt⟩
    · exact .inl ⟨cap, .inr ⟨id, h₀⟩, .refl cap⟩
    · exact .inl ⟨cap, .inl ⟨_, _, Core.hasSlot_cur (Scheduler.slot_of_attached hatt)⟩, .refl cap⟩

/-- After boot only the seeded capabilities are there. -/
lemma boot_holds {k : Kernel} {cap : CapEntry} (h : boot plat = some k)
    (hcap : k.core.Holds cap) :
    (∃ i slot, k.core.HasSlot i slot cap) ∧ cap ∈ seededCaps := by
  obtain ⟨m, p, hnew, hprocs, -, -, hq, -⟩ := boot_core h
  rcases hcap with ⟨i, slot, q, hi, hslot⟩ | ⟨id, msg, hmsg, -⟩
  · refine ⟨⟨i, slot, q, hi, hslot⟩, ?_⟩
    rw [hprocs, List.getElem?_singleton] at hi
    split at hi
    · obtain rfl := Option.some.inj hi
      rw [hnew.spec.2.2.2.1, slot_seedCaps] at hslot
      exact seededSlot_mem hslot
    · cases hi
  · rw [hq id] at hmsg
    cases hmsg

end Xernel
