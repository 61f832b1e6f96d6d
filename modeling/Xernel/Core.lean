import Xernel.System
import Xernel.CapTheorems

/-!
# What a step can do

`CoreStep` lists everything one step of the kernel does to processes, capabilities and messages,
whatever the path through the entry stubs and the system call that led there. The invariants of the
system are proved by going through this list; `step_core` in `CoreTheorems` shows that it is complete.
`Flow` does the same for the processor state around a handler.
-/

namespace Xernel

/-- The part of the kernel state that `CoreStep` is about. -/
structure Core where
  mm : Mm
  sched : Scheduler
  ipc : Ipc

def Kernel.core (k : Kernel) : Core := { mm := k.mm, sched := k.sched, ipc := k.ipc }

/-- What the running thread executes in a step: a system call from its entry on, the rest of one it
was switched away in (or its first run), or nothing of its own. -/
inductive Activity
  | call (sys : Sys) (args : Args)
  | resumed (kont : Kont)
  | other

/-- The bytes of physical memory that an activity with result `out` handed out. -/
def Activity.handsOut : Activity → Option ℕ → ℕ
  | .call .dmaAlloc args, some 0 => pagesFor args.rdi.toNat * frameSize
  | .call .frameAlloc args, some 0 => args.rdi.toNat * frameSize
  | _, _ => 0

/-- What the running thread executes when `e` happens in `k`. -/
def Kernel.activity (k : Kernel) : Event → Activity
  | .syscall nr args _ => (Sys.decode nr).elim .other fun sys => .call sys args
  | .resume => (k.sched.procs[k.cpu.thread]?).elim .other fun p => .resumed p.kont
  | _ => .other

namespace Scheduler

def setCaps (s : Scheduler) (caps : CNode) : Scheduler := s.modifyCur fun p => { p with caps }

def park (s : Scheduler) (kont : Kont) : Scheduler := s.modifyCur fun p => { p with kont }

def setState (s : Scheduler) (state : State) : Scheduler := s.modifyCur fun p => { p with state }

/-- The running process ends with exit code `code`. -/
def finish (s : Scheduler) (code : ℕ) : Scheduler :=
  s.modifyCur fun p => { p with exitCode := code, state := .done }

/-- `s'` is `s` after a switch to the process `pickNext` chose. -/
def Switched (s s' : Scheduler) : Prop :=
  ∃ i, s.pickNext = some i ∧ s' = s.setCurrent i

/-- The endpoint that slot `slot` of the running process names. -/
def endpointAt (s : Scheduler) (slot : ℕ) : Option ℕ :=
  (s.cur.caps.slot slot).bind fun cap => if cap.capType = .endpoint then some cap.object else none

/-- The notification that slot `slot` of the running process names. -/
def notificationAt (s : Scheduler) (slot : ℕ) : Option ℕ :=
  (s.cur.caps.slot slot).bind fun cap =>
    if cap.capType = .notification then some cap.object else none

/-- The capability a `SEND` of slot `slot` attaches; `u64::MAX` attaches none. -/
def attached (s : Scheduler) (slot : ℕ) : Option CapEntry :=
  if slot = u64Max then none else s.cur.caps.slot slot

/-- Slot `slot` of the running process holds a `Process` capability for `pid`. -/
def Names (s : Scheduler) (slot pid : ℕ) : Prop :=
  ∃ cap, s.cur.caps.slot slot = some cap ∧ cap.processPid = some pid

end Scheduler

/-- There is nothing to take from what a process blocks on. -/
def Ipc.Empty (c : Ipc) : BlockReason → Prop
  | .endpoint id => c.tryRecv id = none
  | .notification id => c.pollTake id = none

/-- What a thread that resumes at this continuation waits for. -/
def Kont.reason : Kont → Option BlockReason
  | .recv id _ _ => some (.endpoint id)
  | .wait id => some (.notification id)
  | _ => none

/-- An activity that neither sends nor takes a message or notification. -/
def Activity.Mute (s : Scheduler) : Activity → Option ℕ → Prop
  | .call .send _, out | .call .signal _, out => out ≠ some 0
  | .call .recv args, _ => s.endpointAt args.rdi.toNat = none
  | .call .wait args, _ => s.notificationAt args.rdi.toNat = none
  | .resumed kont, _ => kont.reason = none
  | _, _ => True

/-- The continuations an activity of the running process can leave behind. -/
inductive Parks (s : Scheduler) : Activity → Kont → Prop
  | again {kont : Kont} : Parks s (.resumed kont) kont
  | yield {args : Args} : Parks s (.call .yield args) .yield
  | timer : Parks s .other .timer
  | read {args : Args} {ptr len : ℕ} : Parks s (.call .read args) (.read ptr len)
  | recv {args : Args} {id outPtr dstSlot : ℕ} (hid : s.endpointAt args.rdi.toNat = some id) :
      Parks s (.call .recv args) (.recv id outPtr dstSlot)
  | wait {args : Args} {id : ℕ} (hid : s.notificationAt args.rdi.toNat = some id) :
      Parks s (.call .wait args) (.wait id)
  | waitPid {args : Args} {pid : ℕ} (hpid : s.Names args.rdi.toNat pid) (hne : pid ≠ 0) :
      Parks s (.call .waitPid args) (.waitPid pid)

/-- The record of a process that `create` made, with the environment `spawn_env` may add. -/
inductive Created (plat : Platform) (m : Mm) (pid : ℕ) : Process → Prop
  | mk {p : Process} {m' : Mm} {envpUser envpLen heapBreak : ℕ}
      (h : create plat m pid = (.done p, m')) :
      Created plat m pid { p with envpUser, envpLen, heapBreak }

/-- The activities that dequeue a message from endpoint `id`, for slot `dstSlot`. -/
inductive Receives (s : Scheduler) (id dstSlot : ℕ) : Activity → Prop
  | call {args : Args} (hid : s.endpointAt args.rdi.toNat = some id)
      (hdst : args.rdx.toNat = dstSlot) : Receives s id dstSlot (.call .recv args)
  | resumed {outPtr : ℕ} : Receives s id dstSlot (.resumed (.recv id outPtr dstSlot))

/-- The effects of one step on processes, capabilities and messages. -/
inductive CoreStep (plat : Platform) (a b : Core) (act : Activity) (out : Option ℕ) : Prop
  | quiet (hact : act.Mute a.sched out) (hout : act.handsOut out = 0) (hs : b.sched = a.sched)
      (hc : b.ipc = a.ipc)
  | logged {args : Args} (data : List UInt8) (hact : act = .call .write args)
      (hs : b.sched =
        a.sched.modifyCur fun p => { p with logBuf := data.foldl Kernel.logPush p.logBuf })
      (hc : b.ipc = a.ipc)
  | setBreak {args : Args} {heapBreak : ℕ} (hact : act = .call .sbrk args)
      (hs : b.sched = a.sched.modifyCur fun p => { p with heapBreak }) (hc : b.ipc = a.ipc)
  | charged {args : Args} {need : ℕ} {caps : CNode}
      (hact : act = .call .dmaAlloc args ∨ act = .call .frameAlloc args)
      (hout : act.handsOut out ≤ need)
      (h : a.sched.cur.caps.chargeUntyped need = some caps)
      (hs : b.sched = a.sched.setCaps caps) (hc : b.ipc = a.ipc)
  | refunded {args : Args} {need : ℕ} {caps : CNode}
      (hact : act = .call .dmaAlloc args ∨ act = .call .frameAlloc args)
      (hout : out = some u64Max)
      (h : a.sched.cur.caps.chargeUntyped need = some caps)
      (hs : b.sched = a.sched.setCaps (caps.refundUntyped need)) (hc : b.ipc = a.ipc)
  | frameInstalled {args : Args} {phys : ℕ} {caps caps' : CNode} {later : List FrameCall}
      (hact : act = .call .frameAlloc args) (hout : out = some 0)
      (h : a.sched.cur.caps.chargeUntyped (args.rdi.toNat * frameSize) = some caps)
      (hins : caps.insert args.rsi.toNat (.frame phys args.rdi.toNat) = .ok caps')
      (hs : b.sched = a.sched.setCaps caps') (hc : b.ipc = a.ipc)
      (hcalls : b.mm.calls =
        a.mm.calls ++ .allocContiguous args.rdi.toNat (some phys) :: later)
      (hkeep : ∀ pa, .free pa ∉ later)
  | spawned {args : Args} {p : Process} {caps : CNode}
      (hact : act = .call .spawn args ∨ act = .call .spawnEnv args)
      (hout : out = some a.sched.nextPid)
      (hp : Created plat a.mm a.sched.nextPid p)
      (hins : caps = a.sched.cur.caps ∨
        ∃ slot, a.sched.cur.caps.insert slot (.process a.sched.nextPid) = .ok caps)
      (hs : b.sched = (a.sched.setCaps caps).push p) (hc : b.ipc = a.ipc)
  | sent {args : Args} {id : ℕ} (hact : act = .call .send args) (hout : out = some 0)
      (hid : a.sched.endpointAt args.rdi.toNat = some id)
      (hsend : a.ipc.send id (args.rsi.toNat, a.sched.attached args.rdx.toNat) = some b.ipc)
      (hs : b.sched = a.sched.wake (.endpoint id))
  | signalled {args : Args} {id : ℕ} (hact : act = .call .signal args) (hout : out = some 0)
      (hid : a.sched.notificationAt args.rdi.toNat = some id)
      (hsig : a.ipc.signal id args.rsi.toNat = some b.ipc)
      (hs : b.sched = a.sched.wake (.notification id))
  | received {id dstSlot : ℕ} {msg : Message} {caps : CNode}
      (hact : Receives a.sched id dstSlot act)
      (hrecv : a.ipc.tryRecv id = some (msg, b.ipc))
      (hins : caps = a.sched.cur.caps ∨
        ∃ cap, msg.2 = some cap ∧ a.sched.cur.caps.insert dstSlot cap = .ok caps)
      (hs : b.sched = a.sched.setCaps caps)
  | taken {id bits : ℕ}
      (hact : (∃ args, act = .call .wait args ∧ a.sched.notificationAt args.rdi.toNat = some id) ∨
        act = .resumed (.wait id))
      (hout : out = some bits)
      (htake : a.ipc.pollTake id = some (bits, b.ipc)) (hs : b.sched = a.sched)
  | parked {kont : Kont} (hk : Parks a.sched act kont) (hkont : kont.reason = none)
      (hout : out = none) (hs : b.sched = a.sched.park kont) (hc : b.ipc = a.ipc)
  | yielded {kont : Kont} (hk : Parks a.sched act kont) (hkont : kont.reason = none)
      (hout : out = none) (hs : (a.sched.park kont).Switched b.sched) (hc : b.ipc = a.ipc)
  | blocked {reason : BlockReason} {kont : Kont} (hk : Parks a.sched act kont)
      (hkont : kont.reason = some reason) (hout : out = none) (hwait : a.ipc.Empty reason)
      (hs : ((a.sched.park kont).setState (.blocked reason)).Switched b.sched ∨
        b.sched = ((a.sched.park kont).setState (.blocked reason)).setState .ready)
      (hc : b.ipc = a.ipc)
  | exited (code : ℕ) (hact : act = .other ∨ ∃ args, act = .call .exit args) (hout : out = none)
      (hs : (a.sched.finish code).Switched b.sched ∨ b.sched = a.sched.finish code)
      (hc : b.ipc = a.ipc)
  | logTaken {args : Args} {pid i n : ℕ} (hact : act = .call .logRead args)
      (hpid : a.sched.Names args.rdi.toNat pid) (hi : a.sched.indexOf pid = some i)
      (hs : b.sched = a.sched.modify i fun p => { p with logBuf := p.logBuf.drop n })
      (hc : b.ipc = a.ipc)
  | killed {args : Args} {pid i : ℕ} (hact : act = .call .kill args)
      (hpid : a.sched.Names args.rdi.toNat pid) (hne : pid ≠ 0)
      (hi : a.sched.indexOf pid = some i)
      (halive : ∀ p, a.sched.procs[i]? = some p → p.state ≠ .done)
      (hs : b.sched = a.sched.modify i fun p =>
        { p with exitCode := args.rsi.toNat, state := .done })
      (hc : b.ipc = a.ipc)
  | granted {args : Args} {pid i : ℕ} {cap : CapEntry} {caps : CNode}
      (hact : act = .call .capGrant args) (hout : out = some 0)
      (hpid : a.sched.Names args.rdi.toNat pid)
      (hcap : a.sched.cur.caps.slot args.rsi.toNat = some cap)
      (hi : a.sched.indexOf pid = some i)
      (hins : ∃ p, a.sched.procs[i]? = some p ∧ p.caps.insert args.rdx.toNat cap = .ok caps)
      (hs : b.sched = a.sched.modify i fun p => { p with caps }) (hc : b.ipc = a.ipc)

/-! ## Messages and notifications in a step -/

/-- What a step does to endpoints and notifications. -/
inductive IpcStep (a b : Core) (act : Activity) (out : Option ℕ) : Prop
  | mute (hact : act.Mute a.sched out) (hc : b.ipc = a.ipc)
  | blocked {reason : BlockReason} {kont : Kont} (hk : Parks a.sched act kont)
      (hkont : kont.reason = some reason) (hwait : a.ipc.Empty reason) (hc : b.ipc = a.ipc)
  | sent {args : Args} {id : ℕ} (hact : act = .call .send args) (hout : out = some 0)
      (hid : a.sched.endpointAt args.rdi.toNat = some id)
      (hsend : a.ipc.send id (args.rsi.toNat, a.sched.attached args.rdx.toNat) = some b.ipc)
  | signalled {args : Args} {id : ℕ} (hact : act = .call .signal args) (hout : out = some 0)
      (hid : a.sched.notificationAt args.rdi.toNat = some id)
      (hsig : a.ipc.signal id args.rsi.toNat = some b.ipc)
  | received {id dstSlot : ℕ} {msg : Message} (hact : Receives a.sched id dstSlot act)
      (hrecv : a.ipc.tryRecv id = some (msg, b.ipc))
  | taken {id bits : ℕ}
      (hact : (∃ args, act = .call .wait args ∧ a.sched.notificationAt args.rdi.toNat = some id) ∨
        act = .resumed (.wait id))
      (htake : a.ipc.pollTake id = some (bits, b.ipc))

/-- The message an activity with result `out` sends to endpoint `id`. -/
def Core.sends (a : Core) (act : Activity) (out : Option ℕ) (id : ℕ) : Option Message :=
  match act with
  | .call .send args =>
    if out = some 0 ∧ a.sched.endpointAt args.rdi.toNat = some id then
      some (args.rsi.toNat, a.sched.attached args.rdx.toNat)
    else none
  | _ => none

/-- The endpoint an activity receives from. -/
def Core.receivesFrom (a : Core) : Activity → Option ℕ
  | .call .recv args => a.sched.endpointAt args.rdi.toNat
  | .resumed (.recv id _ _) => some id
  | _ => none

/-- The message an activity dequeues from endpoint `id`. -/
def Core.dequeues (a : Core) (act : Activity) (id : ℕ) : Option Message :=
  if a.receivesFrom act = some id then (a.ipc.tryRecv id).map Prod.fst else none

/-- The bits an activity with result `out` signals to notification `id`. -/
def Core.signals (a : Core) (act : Activity) (out : Option ℕ) (id : ℕ) : Option ℕ :=
  match act with
  | .call .signal args =>
    if out = some 0 ∧ a.sched.notificationAt args.rdi.toNat = some id then some args.rsi.toNat
    else none
  | _ => none

/-- The notification an activity waits on. -/
def Core.waitsOn (a : Core) : Activity → Option ℕ
  | .call .wait args => a.sched.notificationAt args.rdi.toNat
  | .resumed (.wait id) => some id
  | _ => none

/-- The bits an activity takes from notification `id`. -/
def Core.takes (a : Core) (act : Activity) (id : ℕ) : Option ℕ :=
  if a.waitsOn act = some id then (a.ipc.pollTake id).map Prod.fst else none

/-! ## One process in a step -/

/-- How the capability table of the running process changes by what it does itself. -/
inductive CapsStep (a b : Core) (act : Activity) (out : Option ℕ) (caps : CNode) : CNode → Prop
  | budget {caps' : CNode} (h : caps.SameButBudget caps') : CapsStep a b act out caps caps'
  | frame {args : Args} {phys : ℕ} {caps' caps'' : CNode} {later : List FrameCall}
      (hact : act = .call .frameAlloc args)
      (hres : out = some 0) (h : caps.SameButBudget caps')
      (hins : caps'.insert args.rsi.toNat (.frame phys args.rdi.toNat) = .ok caps'')
      (hcalls : b.mm.calls =
        a.mm.calls ++ .allocContiguous args.rdi.toNat (some phys) :: later)
      (hkeep : ∀ pa, .free pa ∉ later) : CapsStep a b act out caps caps''
  | handle {args : Args} {slot : ℕ} {caps' : CNode}
      (hact : act = .call .spawn args ∨ act = .call .spawnEnv args)
      (hres : out = some a.sched.nextPid)
      (hins : caps.insert slot (.process a.sched.nextPid) = .ok caps')
      (hnext : b.sched.nextPid = a.sched.nextPid + 1) : CapsStep a b act out caps caps'
  | received {id dstSlot : ℕ} {msg : Message} {cap : CapEntry} {caps' : CNode}
      (hact : Receives a.sched id dstSlot act) (hrecv : a.ipc.tryRecv id = some (msg, b.ipc))
      (hmsg : msg.2 = some cap) (hins : caps.insert dstSlot cap = .ok caps') :
      CapsStep a b act out caps caps'

/-- How the running process changes by what it does itself. -/
inductive OwnStep (a b : Core) (act : Activity) (out : Option ℕ) (p : Process) : Process → Prop
  | logged (data : List UInt8) :
      OwnStep a b act out p { p with logBuf := data.foldl Kernel.logPush p.logBuf }
  | setBreak (heapBreak : ℕ) : OwnStep a b act out p { p with heapBreak }
  | caps {caps : CNode} (h : CapsStep a b act out p.caps caps) : OwnStep a b act out p { p with caps }
  | parked {kont : Kont} (hk : Parks a.sched act kont) : OwnStep a b act out p { p with kont }
  | blocked {reason : BlockReason} {kont : Kont} (hk : Parks a.sched act kont)
      (hout : out = none) (hwait : a.ipc.Empty reason) (hc : b.ipc = a.ipc) :
      OwnStep a b act out p { p with kont, state := .blocked reason }
  | unblocked {kont : Kont} (hk : Parks a.sched act kont) :
      OwnStep a b act out p { p with kont, state := .ready }
  | finished (code : ℕ) (hout : out = none) :
      OwnStep a b act out p { p with exitCode := code, state := .done }

/-- How process `i`, with record `p`, changes in a step. -/
inductive ProcStep (a b : Core) (act : Activity) (out : Option ℕ) (i : ℕ) (p : Process) :
    Process → Prop
  | same : ProcStep a b act out i p p
  | woken {reason : BlockReason} (h : p.state = .blocked reason) :
      ProcStep a b act out i p { p with state := .ready }
  | own {p' : Process} (hi : i = a.sched.current) (h : OwnStep a b act out p p') :
      ProcStep a b act out i p p'
  | logTaken {args : Args} {n : ℕ} (hact : act = .call .logRead args)
      (hpid : a.sched.Names args.rdi.toNat p.pid) :
      ProcStep a b act out i p { p with logBuf := p.logBuf.drop n }
  | killed {args : Args} (hact : act = .call .kill args)
      (hpid : a.sched.Names args.rdi.toNat p.pid) (hne : p.pid ≠ 0) (halive : p.state ≠ .done) :
      ProcStep a b act out i p { p with exitCode := args.rsi.toNat, state := .done }
  | granted {args : Args} {cap : CapEntry} {caps : CNode} (hact : act = .call .capGrant args)
      (hres : out = some 0) (hpid : a.sched.Names args.rdi.toNat p.pid)
      (hcap : a.sched.cur.caps.slot args.rsi.toNat = some cap)
      (hins : p.caps.insert args.rdx.toNat cap = .ok caps) :
      ProcStep a b act out i p { p with caps }

/-- How a handler that was entered in `k` leaves the processor: it comes back to its caller, it was
switched away from, it spins or idles on its own stack, or the machine stops. -/
inductive Flow (k : Kernel) : Kernel × Option ℕ → Prop
  | returned {k' : Kernel} {v : ℕ} (hcpu : k'.cpu = k.cpu) (hexec : k'.exec = k.exec)
      (hcur : k'.sched.current = k.sched.current) : Flow k (k', some v)
  | switched {k' : Kernel} {i : Fin k'.sched.procs.length} (hcpu : k'.cpu = k.cpu)
      (hi : k'.sched.pickNext = some i) : Flow k (k'.resumeProcess i, none)
  | stayed {k' : Kernel} (hcpu : k'.cpu = k.cpu) (hexec : k'.exec = .kernel ∨ k'.exec = .idle)
      (hcur : k'.sched.current = k.sched.current)
      (hready : k.sched.cur.state = .ready → k'.sched.cur.state = .ready)
      (hread : k'.exec = .idle → ∃ ptr len, k'.sched.cur.kont = .read ptr len) : Flow k (k', none)
  | stopped {k' : Kernel} (hexec : k'.exec = .halted ∨ k'.exec = .panicked) : Flow k (k', none)

end Xernel
