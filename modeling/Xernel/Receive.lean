import Xernel.Delivery
import Xernel.Derivation

/-!
# Receives that fail

`RECV` takes the message off the queue before it looks at the destination slot and at the buffer, and no
exit puts it back. A receive that fails for want of an endpoint capability changes nothing; one that fails
with a message in hand loses it.
-/

namespace Xernel

variable {plat : Platform} {k k' : Kernel} {e : Event} {out : Option ℕ}

namespace Kernel

/-- What a step of `RECV` receives with: the endpoint, the buffer and the destination slot. -/
def recvArgs (k : Kernel) (e : Event) : Option (ℕ × ℕ × ℕ) :=
  match k.activity e with
  | .call .recv args =>
    (k.sched.endpointAt args.rdi.toNat).map fun id => (id, args.rsi.toNat, args.rdx.toNat)
  | .resumed (.recv id outPtr dstSlot) => some (id, outPtr, dstSlot)
  | _ => none

/-- The step is a `RECV`, from its entry on or from where it slept. -/
def IsRecv (k : Kernel) (e : Event) : Prop :=
  (∃ args, k.activity e = .call .recv args) ∨
    ∃ id outPtr dstSlot, k.activity e = .resumed (.recv id outPtr dstSlot)

lemma isRecv_of_recvArgs {r : ℕ × ℕ × ℕ} (h : k.recvArgs e = some r) : k.IsRecv e := by
  unfold recvArgs at h
  split at h
  next args hact => exact .inl ⟨args, hact⟩
  next id outPtr dstSlot hact => exact .inr ⟨id, outPtr, dstSlot, hact⟩
  next => cases h

/-- There is room for the message: an empty slot for its capability, if that is wanted, and a writable
buffer for its word. -/
def CanTake (k : Kernel) (msg : Message) (outPtr dstSlot : ℕ) : Prop :=
  (msg.2.isSome → dstSlot ≠ u64Max →
    dstSlot < k.sched.cur.caps.slots.length ∧ k.sched.cur.caps.slot dstSlot = none) ∧
  k.userSliceMut outPtr 8 = true

instance (k : Kernel) (msg : Message) (outPtr dstSlot : ℕ) :
    Decidable (k.CanTake msg outPtr dstSlot) := by
  unfold CanTake
  infer_instance

/-- The step receives a message that there is no room for. -/
def LosesMessage (k : Kernel) (e : Event) : Prop :=
  ∃ r ∈ k.recvArgs e, ∃ m ∈ k.ipc.tryRecv r.1, ¬ k.CanTake m.1 r.2.1 r.2.2

instance (k : Kernel) (e : Event) : Decidable (k.LosesMessage e) := by
  unfold LosesMessage
  infer_instance

lemma canTake_with {cpu : Cpu} (hcr3 : cpu.cr3 = k.cpu.cr3) (exec : Exec) (msg : Message)
    (outPtr dstSlot : ℕ) :
    ({ k with cpu, exec } : Kernel).CanTake msg outPtr dstSlot ↔ k.CanTake msg outPtr dstSlot := by
  unfold CanTake userSliceMut userBufferOk
  dsimp only
  rw [hcr3]

lemma currentCapInstall_isSome_iff {slot : ℕ} {cap : CapEntry} :
    (k.currentCapInstall slot cap).isSome ↔
      slot < k.sched.cur.caps.slots.length ∧ k.sched.cur.caps.slot slot = none := by
  unfold currentCapInstall
  constructor
  · intro h
    split at h
    · cases h
    next caps hins =>
      have hspec := CNode.insert_eq_ok_iff.mp hins
      exact ⟨hspec.1, hspec.2.1⟩
  · rintro ⟨hlt, hnone⟩
    rw [CNode.insert_eq_ok_iff.mpr ⟨hlt, hnone, rfl⟩]
    rfl

/-- Handing over a message ends well exactly if there is room for it; either way the message stays out
of the queues. -/
lemma deliverMessage_spec (k : Kernel) (msg : Message) (outPtr dstSlot : ℕ) :
    (k.deliverMessage msg outPtr dstSlot).1.ipc = k.ipc ∧
      (k.CanTake msg outPtr dstSlot → (k.deliverMessage msg outPtr dstSlot).2 = some 0) ∧
      (¬ k.CanTake msg outPtr dstSlot → (k.deliverMessage msg outPtr dstSlot).2 = some u64Max) := by
  unfold deliverMessage CanTake
  dsimp only
  split
  next hcap =>
    split
    next hbuf => exact ⟨rfl, fun _ => rfl, fun h => absurd ⟨by simp [hcap], hbuf⟩ h⟩
    next hbuf => exact ⟨rfl, fun h => absurd h.2 hbuf, fun _ => rfl⟩
  next cap hcap =>
    split
    next hdst =>
      split
      next hbuf => exact ⟨rfl, fun _ => rfl, fun h => absurd ⟨fun _ hne => absurd hdst hne, hbuf⟩ h⟩
      next hbuf => exact ⟨rfl, fun h => absurd h.2 hbuf, fun _ => rfl⟩
    next hdst =>
      have hroom := @currentCapInstall_isSome_iff k dstSlot cap
      split
      next hins =>
        rw [hins] at hroom
        refine ⟨rfl, fun h => ?_, fun _ => rfl⟩
        exact absurd (hroom.mpr (h.1 (by rw [hcap]; rfl) hdst)) Bool.false_ne_true
      next k₁ hins =>
        rw [hins] at hroom
        obtain ⟨caps, -, rfl⟩ := currentCapInstall_eq_some hins
        -- the slot is filled by now, also if the buffer turns out to be bad
        split
        next hbuf => exact ⟨rfl, fun _ => rfl, fun h => absurd ⟨fun _ _ => hroom.mp rfl, hbuf⟩ h⟩
        next hbuf => exact ⟨rfl, fun h => absurd h.2 hbuf, fun _ => rfl⟩

/-- A round of the receive loop fails exactly if it takes a message that there is no room for. -/
lemma recvLoop_failed_iff (k : Kernel) (id outPtr dstSlot : ℕ) :
    (k.recvLoop id outPtr dstSlot).2 = some u64Max ↔
      ∃ msg ipc, k.ipc.tryRecv id = some (msg, ipc) ∧ ¬ k.CanTake msg outPtr dstSlot := by
  unfold recvLoop
  split
  next msg ipc hrecv =>
    obtain ⟨-, hdone, hfailed⟩ := deliverMessage_spec { k with ipc } msg outPtr dstSlot
    constructor
    · intro h
      refine ⟨msg, ipc, hrecv, fun hroom => ?_⟩
      rw [hdone hroom] at h
      exact absurd h (by decide)
    · rintro ⟨msg', ipc', heq, hroom⟩
      obtain ⟨rfl, rfl⟩ := Prod.mk.inj (Option.some.inj (hrecv.symm.trans heq))
      exact hfailed hroom
  next hrecv => simp [hrecv]

/-- A message that a round of the receive loop takes is gone from its queue. -/
lemma recvLoop_ipc_ne {id outPtr dstSlot : ℕ} {msg : Message} {ipc : Ipc}
    (h : k.ipc.tryRecv id = some (msg, ipc)) : (k.recvLoop id outPtr dstSlot).1.ipc ≠ k.ipc := by
  unfold recvLoop
  rw [h]
  dsimp only
  rw [(deliverMessage_spec { k with ipc } msg outPtr dstSlot).1]
  unfold Ipc.tryRecv at h
  split at h
  · split at h
    · cases h
    next msg' rest hqueue =>
      obtain ⟨-, rfl⟩ := Prod.mk.inj (Option.some.inj h)
      intro heq
      -- the queue of the endpoint is shorter now
      have hlen := congrArg (fun c : Ipc => (c.endpoints id).length) heq
      simp [hqueue] at hlen
  · cases h

end Kernel

/-! ## Steps -/

/-- A step of `RECV` fails at once for want of an endpoint, or is a round of the receive loop. -/
lemma reachable_recv (hreach : Reachable (xernel plat) k)
    (hs : Xernel.step plat k e = some (k', out)) (hrecv : k.IsRecv e) :
    (k.recvArgs e = none ∧ out = some u64Max ∧ k'.core = k.core) ∨
    ∃ id outPtr dstSlot cpu, cpu.cr3 = k.cpu.cr3 ∧ k.recvArgs e = some (id, outPtr, dstSlot) ∧
      k'.core = ({ k with cpu, exec := .kernel }.recvLoop id outPtr dstSlot).1.core ∧
      out = ({ k with cpu, exec := .kernel }.recvLoop id outPtr dstSlot).2 := by
  rcases hrecv with ⟨args, hact⟩ | ⟨id, outPtr, dstSlot, hact⟩
  · obtain ⟨-, nr, hw, -, hd, heq⟩ := reachable_call hreach hs hact
    -- the call enters the loop with its own arguments
    have hexit := Kernel.syscallExit_core (Kernel.dispatch plat
      { k with cpu := k.cpu.swapgs, exec := .kernel } nr args hw)
    rw [← heq, Kernel.dispatch, hd] at hexit
    simp only [Kernel.sysRecv, Kernel.currentEndpointId_eq] at hexit
    have hargs : k.recvArgs e = (k.sched.endpointAt args.rdi.toNat).map fun id =>
        (id, args.rsi.toNat, args.rdx.toNat) := by
      unfold Kernel.recvArgs
      rw [hact]
    cases hid : k.sched.endpointAt args.rdi.toNat with
    | none =>
      rw [hid] at hargs hexit
      exact .inl ⟨hargs, hexit.2, hexit.1⟩
    | some id =>
      rw [hid] at hargs hexit
      exact .inr ⟨id, _, _, k.cpu.swapgs, rfl, hargs, hexit.1, hexit.2⟩
  · refine .inr ⟨id, outPtr, dstSlot, k.cpu, rfl, by simp [Kernel.recvArgs, hact], ?_⟩
    -- the process slept in the loop, and goes round once more
    obtain ⟨p, hp, hkont⟩ := activity_resumed hact
    have hres : e = .resume := by
      cases e with
      | resume => rfl
      | syscall nr args hw => cases hd : Sys.decode nr <;> simp [Kernel.activity, hd] at hact
      | _ => cases hact
    subst hres
    generalize hr : (k', out) = r at hs
    cases step_cases hs with
    | resume hexec hp' =>
      obtain rfl := Option.some.inj (hp.symm.trans hp')
      rw [hkont] at hr
      have hexit := Kernel.syscallExit_core
        (({ k with exec := .kernel } : Kernel).recvLoop id outPtr dstSlot)
      rw [Kernel.resumeAt] at hr
      rw [← hr] at hexit
      exact hexit

/-- In every run: every receive that fails leaves all queues and all capability tables as they were, so
that it can be made again, exactly if no step receives a message that there is no room for. -/
theorem recv_atomic_iff {ts : List KernelStep} (h : Run (xernel plat) ts k) :
    (∀ t ∈ ts, t.pre.IsRecv t.event → t.out = some u64Max →
      t.post.ipc = t.pre.ipc ∧ ∀ i slot, t.post.slotOf i slot = t.pre.slotOf i slot) ↔
      ∀ t ∈ ts, ¬ t.pre.LosesMessage t.event := by
  constructor
  · rintro hatomic t ht ⟨⟨id, outPtr, dstSlot⟩, hargs, ⟨msg, ipc⟩, hmsg, hroom⟩
    obtain ⟨hreach, hs⟩ := h.mem_step ht
    have hrecv : t.pre.IsRecv t.event := Kernel.isRecv_of_recvArgs hargs
    rcases reachable_recv hreach hs hrecv with
      ⟨hnone, -⟩ | ⟨id', out', dst', cpu, hcr3, hargs', hcore, hout⟩
    · cases hargs.symm.trans hnone
    · cases hargs.symm.trans hargs'
      rw [← Kernel.canTake_with hcr3 .kernel] at hroom
      have hfailed := (Kernel.recvLoop_failed_iff { t.pre with cpu, exec := .kernel } id outPtr
        dstSlot).mpr ⟨msg, ipc, hmsg, hroom⟩
      have hipc := (hatomic t ht hrecv (hout.trans hfailed)).1
      refine Kernel.recvLoop_ipc_ne (k := { t.pre with cpu, exec := .kernel }) hmsg
        ((congrArg Core.ipc hcore).symm.trans hipc)
  · intro hkeeps t ht hrecv hfailed
    obtain ⟨hreach, hs⟩ := h.mem_step ht
    rcases reachable_recv hreach hs hrecv with
      ⟨-, -, hcore⟩ | ⟨id, outPtr, dstSlot, cpu, hcr3, hargs, -, hout⟩
    · have hsched : t.post.sched = t.pre.sched := congrArg Core.sched hcore
      refine ⟨congrArg Core.ipc hcore, fun i slot => ?_⟩
      rw [Kernel.slotOf, hsched, Kernel.slotOf]
    · obtain ⟨msg, ipc, hmsg, hroom⟩ := (Kernel.recvLoop_failed_iff _ _ _ _).mp (hout.symm.trans hfailed)
      rw [Kernel.canTake_with hcr3] at hroom
      exact absurd ⟨(id, outPtr, dstSlot), hargs, (msg, ipc), hmsg, hroom⟩ (hkeeps t ht)

/-- A receive through an empty slot fails while a message waits, and the receive is then made again
through the right one. -/
theorem recv_atomic_iff_retried :
    ∃ ts k, Run (xernel smallPlatform) ts k ∧
      ts.map Transition.out = [none, some 0, some u64Max, some 0] ∧
      ∀ t ∈ ts, t.pre.IsRecv t.event → t.out = some u64Max →
        t.post.ipc = t.pre.ipc ∧ ∀ i slot, t.post.slotOf i slot = t.pre.slotOf i slot := by
  have hfacts : (trace smallPlatform [.resume, .call .send 3 7 4, .call .recv 50 0x80_8000 20,
      .call .recv 3 0x80_8000 20]).map (fun r => (r.1.map Transition.out,
        r.1.all fun t => ¬ t.pre.LosesMessage t.event)) =
      some ([none, some 0, some u64Max, some 0], true) := by decide +kernel
  obtain ⟨r, hr, hfacts⟩ := Option.map_eq_some_iff.mp hfacts
  obtain ⟨hout, hkeeps⟩ := Prod.mk.inj hfacts
  refine ⟨r.1, r.2, trace_run hr, hout, (recv_atomic_iff (trace_run hr)).mpr fun t ht => ?_⟩
  exact of_decide_eq_true (List.all_eq_true.mp hkeeps t ht)

/-- A message with a capability is received into a slot that is in use: the receive fails, and made again
with an empty slot it finds no message. -/
theorem not_recv_atomic :
    ∃ ts k, Run (xernel smallPlatform) ts k ∧
      ts.map Transition.out = [none, some 0, some u64Max, none] ∧
      ¬ ∀ t ∈ ts, t.pre.IsRecv t.event → t.out = some u64Max →
        t.post.ipc = t.pre.ipc ∧ ∀ i slot, t.post.slotOf i slot = t.pre.slotOf i slot := by
  have hfacts : (trace smallPlatform [.resume, .call .send 3 7 4, .call .recv 3 0x80_8000 4,
      .call .recv 3 0x80_8000 20]).map (fun r => (r.1.map Transition.out,
        (r.1[2]?.map fun t => ((t.pre.recvArgs t.event).isSome, (t.pre.ipc.endpoints 0).length,
          (t.post.ipc.endpoints 0).length)))) =
      some ([none, some 0, some u64Max, none], some (true, 1, 0)) := by decide +kernel
  obtain ⟨r, hr, hfacts⟩ := Option.map_eq_some_iff.mp hfacts
  obtain ⟨hout, hthird⟩ := Prod.mk.inj hfacts
  obtain ⟨t, ht, hthird⟩ := Option.map_eq_some_iff.mp hthird
  obtain ⟨hargs, hqueues⟩ := Prod.mk.inj hthird
  obtain ⟨hbefore, hafter⟩ := Prod.mk.inj hqueues
  refine ⟨r.1, r.2, trace_run hr, hout, fun hatomic => ?_⟩
  obtain ⟨args, hargs⟩ := Option.isSome_iff_exists.mp hargs
  have hfailed : t.out = some u64Max := by
    have hmap := congrArg (fun l : List (Option ℕ) => l[2]?) hout
    simpa [ht] using hmap
  have hipc := (hatomic t (List.mem_of_getElem? ht) (Kernel.isRecv_of_recvArgs hargs) hfailed).1
  rw [hipc, hbefore] at hafter
  cases hafter

end Xernel
