import Xernel.Cap
import Xernel.Elf
import Xernel.Arch.Keyboard

/-!
# Processes and the scheduler (`process.rs`)

The kernel state and the operations on processes. The saved kernel stack of a process that is not
running is modelled by its continuation `Kont`: where in the kernel it resumes when it is switched
to. `Cpu.thread` is the process whose kernel stack the processor is on, as opposed to
`Scheduler.current`, the index the scheduler keeps.

Functions that may leave the caller by a context switch return `none` in place of the result they
would hand back.
-/

namespace Xernel

/-! ## Constants -/

def capSlots : ℕ := 64
def userAddrMax : ℕ := 0x0000_8000_0000_0000
def pciIoBase : ℕ := 0xc000
def pciIoCount : ℕ := 0x4000
def pciMmioBase : ℕ := 0xc000_0000
def pciMmioLen : ℕ := 0x4000_0000
def dmaBudget : ℕ := 256 * 1024
def epSlot : ℕ := 3
def replyEpSlot : ℕ := 4
def notifSlot : ℕ := 5
def userStackVa : ℕ := 0x80_0000
def userStackPages : ℕ := 16
def heapStart : ℕ := 0x1000_0000
def heapMax : ℕ := 0x2000_0000
def numProcesses : ℕ := 1
def exitFault : ℕ := 0x100
def logBufCap : ℕ := 65536
def numEndpoints : ℕ := 4
def numNotifications : ℕ := 4

/-! ## The machine the kernel boots on -/

/-- The framebuffer the bootloader set up, by physical address. -/
structure Framebuffer where
  phys : ℕ
  width : ℕ
  height : ℕ
  pitch : ℕ
  bpp : ℕ

/-- What the bootloader and the hardware fix before `kmain` runs. `kstackEnd` is where the kernel
heap puts the end of the kernel stack of each PID. -/
structure Platform where
  regions : List Region
  image : List UInt8
  kernelHalf : TableTree
  bootSpace : ℕ
  lapicPhys : ℕ
  framebuffer : Option Framebuffer
  kstackEnd : ℕ → ℕ
  mem : ℕ → UInt8

/-! ## State -/

inductive BlockReason
  | endpoint (id : ℕ)
  | notification (id : ℕ)
  deriving Repr, DecidableEq

inductive State
  | ready
  | blocked (reason : BlockReason)
  | done
  deriving Repr, DecidableEq

/-- Where a kernel thread resumes: at its first run, inside a system call, or inside the timer
handler. -/
inductive Kont
  | trampoline
  | yield
  | recv (id outPtr dstSlot : ℕ)
  | wait (id : ℕ)
  | waitPid (target : ℕ)
  | read (ptr len : ℕ)
  | timer
  deriving Repr, DecidableEq

structure Process where
  pid : ℕ
  space : ℕ
  entry : ℕ
  userStackTop : ℕ
  heapBreak : ℕ
  kont : Kont
  kstackTop : ℕ
  state : State
  caps : CNode
  envpUser : ℕ
  envpLen : ℕ
  logBuf : List UInt8
  exitCode : ℕ

/-- The process table, the index of the process that runs, and the next pid. -/
structure Scheduler where
  procs : List Process
  current : ℕ
  nextPid : ℕ
  /-- The running process is in the table. -/
  current_lt : current < procs.length

/-- A queued message: its word and the capability attached to it. -/
abbrev Message := ℕ × Option CapEntry

structure Ipc where
  endpoints : ℕ → List Message
  notifications : ℕ → ℕ

/-- The two values a GS base takes: the user value `0` and `&PERCPU`. -/
inductive Gs
  | user
  | percpu
  deriving Repr, DecidableEq

/-- The registers that the kernel switches. -/
structure Cpu where
  gsBase : Gs
  kernelGsBase : Gs
  cr3 : ℕ
  /-- `PERCPU.kernel_rsp`. -/
  kernelRsp : ℕ
  rsp0 : ℕ
  /-- The process whose kernel stack the processor is on. -/
  thread : ℕ
  deriving Repr, DecidableEq

/-- What the processor is doing: ring-3 code, a kernel thread about to run on from its
continuation, waiting for an interrupt inside `keyboard::read`, halted for good, or panicked. -/
inductive Exec
  | user
  | kernel
  | idle
  | halted
  | panicked
  deriving Repr, DecidableEq

/-- One access to an I/O port, as the device sees it. -/
structure PortAccess where
  write : Bool
  port : ℕ
  width : ℕ
  value : ℕ
  deriving Repr, DecidableEq

structure Devices where
  ticks : ℕ
  keyboard : Keyboard.Ring
  ports : List PortAccess

/-- The next free addresses of the three mapping windows. -/
structure Windows where
  nextMmioVa : ℕ
  nextDmaVa : ℕ
  nextSharedVa : ℕ
  deriving Repr, DecidableEq

structure Kernel where
  mm : Mm
  sched : Scheduler
  ipc : Ipc
  win : Windows
  dev : Devices
  cpu : Cpu
  exec : Exec

/-- The result of a fallible kernel function: a value, `None`/`false`, or a kernel panic. -/
inductive Attempt (α : Type)
  | done (a : α)
  | failed
  | panic
  deriving Repr, DecidableEq

/-! ## The process table -/

namespace Scheduler

/-- `procs[current]`. -/
def cur (s : Scheduler) : Process := s.procs.get ⟨s.current, s.current_lt⟩

/-- Change the entry at an index. -/
def modify (s : Scheduler) (i : ℕ) (f : Process → Process) : Scheduler :=
  { s with
    procs := s.procs.modify i f
    current_lt := by simpa using s.current_lt }

def modifyCur (s : Scheduler) (f : Process → Process) : Scheduler := s.modify s.current f

/-- `procs.push(Box::new(p)); next_pid += 1`. -/
def push (s : Scheduler) (p : Process) : Scheduler :=
  { procs := s.procs ++ [p]
    current := s.current
    nextPid := s.nextPid + 1
    current_lt := by simpa using Nat.lt_succ_of_lt s.current_lt }

/-- Make another entry the running one. -/
def setCurrent (s : Scheduler) (i : Fin s.procs.length) : Scheduler :=
  { s with current := i, current_lt := i.isLt }

/-- `procs.iter().position(|p| p.pid == pid)`: where a search by PID ends up. -/
def indexOf (s : Scheduler) (pid : ℕ) : Option ℕ := s.procs.findIdx? fun p => p.pid = pid

/-- `procs.iter().find(|p| p.pid == pid)`. -/
def find (s : Scheduler) (pid : ℕ) : Option Process := s.procs.find? fun p => p.pid = pid

lemma length_pos (s : Scheduler) : 0 < s.procs.length := Nat.zero_lt_of_lt s.current_lt

/-- Index of the next ready process after `current`, round-robin. -/
def pickNext (s : Scheduler) : Option (Fin s.procs.length) :=
  ((List.range' 1 s.procs.length).map fun off =>
      (⟨(s.current + off) % s.procs.length, Nat.mod_lt _ s.length_pos⟩ : Fin _)).find?
    fun i => (s.procs.get i).state = .ready

/-- Wake every process blocked on exactly `reason`. -/
def wake (s : Scheduler) (reason : BlockReason) : Scheduler :=
  { s with
    procs := s.procs.map fun p =>
      if p.state = .blocked reason then { p with state := .ready } else p
    current_lt := by simpa using s.current_lt }

end Scheduler

/-- Build a process's initial capability space. -/
def seedCaps (pid : ℕ) : CNode :=
  let put (slot : ℕ) (cap : CapEntry) (caps : CNode) : CNode :=
    match caps.insert slot cap with
    | .ok caps => caps
    | .error _ => caps
  let caps := put epSlot (.endpoint 0) (CNode.new capSlots)
  let caps := put replyEpSlot (.endpoint 1) caps
  let caps := put notifSlot (.notification 0) caps
  if pid = 0 then
    let caps := put 0 (.ioPort pciIoBase pciIoCount) caps
    let caps := put 1 (.ioMem pciMmioBase pciMmioLen) caps
    put 2 (.untyped dmaBudget) caps
  else caps

/-! ## Creating processes -/

/-- The loops that map `n` consecutive pages, one after the other: the user stack, the heap, DMA
and shared runs and device windows. `map` maps one page; the loop stops at the first failure. -/
def mapRun (map : Mm → ℕ → ℕ → Mm.MapOutcome × Mm) : ℕ → ℕ → ℕ → Mm → Attempt Unit × Mm
  | 0, _, _, m => (.done (), m)
  | n + 1, va, phys, m =>
    match map m va phys with
    | (.panic, m) => (.panic, m)
    | (.failed _, m) => (.failed, m)
    | (.done, m) => mapRun map n (va + frameSize) (phys + frameSize) m

/-- `n` fresh zeroed pages from `va` on, read-write and not executable. -/
def allocMapPages (space n va : ℕ) (m : Mm) : Attempt Unit × Mm :=
  mapRun (fun m va _ => m.allocMapUser space va true false) n va 0 m

/-- `x & !0xf`. -/
def align16 (x : ℕ) : ℕ := x / 16 * 16

/-- The record `create` builds once the address space is set up. -/
def newProcess (plat : Platform) (pid space entry : ℕ) : Process :=
  { pid, space, entry
    userStackTop := userStackVa + userStackPages * frameSize - 8
    heapBreak := heapStart
    kont := .trampoline
    kstackTop := align16 (plat.kstackEnd pid)
    state := .ready
    caps := seedCaps pid
    envpUser := 0
    envpLen := 0
    logBuf := []
    exitCode := 0 }

/-- A new address space with the image and a stack, and the record of the process. -/
def create (plat : Platform) (m : Mm) (pid : ℕ) : Attempt Process × Mm :=
  match m.vspaceNew with
  | (none, m) => (.failed, m)
  | (some space, m) =>
    match Elf.load m plat.image space with
    | (.error .panic, m) => (.panic, m)
    | (.error (.elf _), m) => (.failed, m)
    | (.ok entry, m) =>
      match allocMapPages space userStackPages userStackVa m with
      | (.panic, m) => (.panic, m)
      | (.failed, m) => (.failed, m)
      | (.done (), m) => (.done (newProcess plat pid space entry), m)

namespace Kernel

/-- A kernel panic: nothing runs any more. -/
def panic (k : Kernel) : Kernel := { k with exec := .panicked }

def modifyCur (k : Kernel) (f : Process → Process) : Kernel :=
  { k with sched := k.sched.modifyCur f }

/-- Hand the caller a `Process` capability for its new child, unless it wants none. -/
def installProcessCap (k : Kernel) (pid capSlot : ℕ) : Option Kernel :=
  if capSlot = u64Max then some k
  else
    match k.sched.cur.caps.insert capSlot (.process pid) with
    | .error _ => none
    | .ok caps => some (k.modifyCur fun p => { p with caps })

/-- The common end of `spawn` and `spawn_env`: install the handle, then add the child. -/
def addProcess (k : Kernel) (p : Process) (capSlot : ℕ) : Attempt ℕ × Kernel :=
  match k.installProcessCap k.sched.nextPid capSlot with
  | none => (.failed, k)
  | some k' => (.done k.sched.nextPid, { k' with sched := k'.sched.push p })

/-- `spawn`: a child with the image that the boot loader passed. -/
def spawn (plat : Platform) (k : Kernel) (capSlot : ℕ) : Attempt ℕ × Kernel :=
  match create plat k.mm k.sched.nextPid with
  | (.panic, mm) => (.panic, { k with mm })
  | (.failed, mm) => (.failed, { k with mm })
  | (.done p, mm) => addProcess { k with mm } p capSlot

/-- `n` bytes from user address `src` of space `cr3` to physical address `dst`. -/
def copyBytes (cr3 : ℕ) : ℕ → ℕ → ℕ → Mm → Mm
  | 0, _, _, m => m
  | n + 1, src, dst, m => copyBytes cr3 n (src + 1) (dst + 1) (m.setByte dst (m.readByte cr3 src))

/-- The page loop of `spawn_env`: `n` more pages of the environment block, from page `i` on. -/
def copyEnv (cr3 space envpPtr envpLen : ℕ) : ℕ → ℕ → Mm → Attempt Unit × Mm
  | 0, _, m => (.done (), m)
  | n + 1, i, m =>
    let childVa := heapStart + i * frameSize
    match m.allocMapUser space childVa true false with
    | (.panic, m) => (.panic, m)
    | (.failed _, m) => (.failed, m)
    | (.done, m) =>
      match m.physOf space childVa with
      | none => (.failed, m)
      | some dst =>
        let start := i * frameSize
        let count := min (envpLen - start) frameSize
        copyEnv cr3 space envpPtr envpLen n (i + 1) (copyBytes cr3 count (envpPtr + start) dst m)

/-- `spawn_env`: the same with a copy of the caller's environment and a heap. -/
def spawnEnv (plat : Platform) (k : Kernel) (envpPtr envpLen capSlot : ℕ) :
    Attempt ℕ × Kernel :=
  if envpLen = 0 ∨ envpPtr = 0 then k.spawn plat capSlot
  else
    match create plat k.mm k.sched.nextPid with
    | (.panic, mm) => (.panic, { k with mm })
    | (.failed, mm) => (.failed, { k with mm })
    | (.done p, mm) =>
      if u64Max < envpPtr + envpLen then (.failed, { k with mm })
      else if userAddrMax ≤ envpPtr + envpLen ∨ !mm.userRangeOk k.cpu.cr3 envpPtr envpLen false then
        (.failed, { k with mm })
      else
        let envPages := pagesFor envpLen
        match copyEnv k.cpu.cr3 p.space envpPtr envpLen envPages 0 mm with
        | (.panic, mm) => (.panic, { k with mm })
        | (.failed, mm) => (.failed, { k with mm })
        | (.done (), mm) =>
          let p := { p with
            envpUser := heapStart
            envpLen
            heapBreak := heapStart + envPages * frameSize }
          addProcess { k with mm } p capSlot

/-! ## Switching -/

/-- Make process `i` the active one: address space and kernel stack. -/
def activate (k : Kernel) (i : Fin k.sched.procs.length) : Kernel :=
  let p := k.sched.procs.get i
  { k with
    sched := k.sched.setCurrent i
    cpu := { k.cpu with kernelRsp := align16 p.kstackTop, rsp0 := p.kstackTop, cr3 := p.space } }

/-- `activate` followed by `switch_context` to the saved stack of process `i`. -/
def resumeProcess (k : Kernel) (i : Fin k.sched.procs.length) : Kernel :=
  let k' := k.activate i
  { k' with cpu := { k'.cpu with thread := i }, exec := .kernel }

/-- Save the running thread on its kernel stack: it will resume at `kont`. -/
def park (k : Kernel) (kont : Kont) : Kernel := k.modifyCur fun p => { p with kont }

/-- Yield to the next ready process, to be resumed at `kont`. `none` if nobody else is ready and
the caller just runs on. -/
def yieldNow (k : Kernel) (kont : Kont) : Option Kernel :=
  let k := k.park kont
  match k.sched.pickNext with
  | none => none
  | some i => if (i : ℕ) = k.sched.current then none else some (k.resumeProcess i)

/-- Block the running process on `reason`; it re-checks its condition at `kont` when it runs again.
If nobody else is runnable it is marked ready and re-checks at once. -/
def blockOn (k : Kernel) (reason : BlockReason) (kont : Kont) : Kernel :=
  let k := (k.park kont).modifyCur fun p => { p with state := .blocked reason }
  match k.sched.pickNext with
  | none => { k.modifyCur fun p => { p with state := .ready } with exec := .kernel }
  | some i => k.resumeProcess i

/-- `wake`: make those ready who wait for this. -/
def wake (k : Kernel) (reason : BlockReason) : Kernel :=
  { k with sched := k.sched.wake reason }

/-- Terminate the running process with exit code `code` and run the next. -/
def exitInner (k : Kernel) (code : ℕ) : Kernel :=
  let k := k.modifyCur fun p => { p with exitCode := code, state := .done }
  match k.sched.pickNext with
  | none => { k with exec := .halted }
  | some i => k.resumeProcess i

/-! ## Operations on the running process -/

/-- The log buffer after appending `b`, the oldest byte dropped if it was full. -/
def logPush (buf : List UInt8) (b : UInt8) : List UInt8 :=
  (if logBufCap ≤ buf.length then buf.tail else buf) ++ [b]

/-- Append to the log of the running process. -/
def logWrite (k : Kernel) (data : List UInt8) : Kernel :=
  k.modifyCur fun p => { p with logBuf := data.foldl logPush p.logBuf }

/-- Adjust the heap break; new pages are mapped into the process's own space. -/
def sbrk (k : Kernel) (delta : ℤ) : Attempt ℕ × Kernel :=
  let old := k.sched.cur.heapBreak
  if delta = 0 then (.done old, k)
  else if delta > 0 ∧ u64Max < old + delta.toNat then (.failed, k)
  else if delta < 0 ∧ old < delta.natAbs then (.failed, k)
  else
    let new := if delta > 0 then old + delta.toNat else old - delta.natAbs
    if new < heapStart ∨ heapMax < new then (.failed, k)
    else if delta > 0 then
      let pages := (pageUp new - pageUp old) / frameSize
      match allocMapPages k.sched.cur.space pages (pageUp old) k.mm with
      | (.panic, mm) => (.panic, { k with mm })
      | (.failed, mm) => (.failed, { k with mm })
      | (.done (), mm) =>
        (.done old, { k with mm }.modifyCur fun p => { p with heapBreak := new })
    else (.done old, k.modifyCur fun p => { p with heapBreak := new })

/-! ## Operations on other processes -/

/-- 0 = running, 1 = exited, 2 = unknown PID. -/
def getStatus (k : Kernel) (targetPid : ℕ) : ℕ :=
  match k.sched.find targetPid with
  | none => 2
  | some p => if p.state = .done then 1 else 0

/-- Copy `cap` into slot `dstSlot` of the process `targetPid`. -/
def grantTo (k : Kernel) (targetPid : ℕ) (cap : CapEntry) (dstSlot : ℕ) : Option Kernel :=
  match k.sched.indexOf targetPid, k.sched.find targetPid with
  | some i, some p =>
    match p.caps.insert dstSlot cap with
    | .error _ => none
    | .ok caps => some { k with sched := k.sched.modify i fun p => { p with caps } }
  | _, _ => none

/-- The bytes taken from the log of `targetPid`, at most `max`, and the kernel without them. -/
def logRead (k : Kernel) (targetPid max : ℕ) : List UInt8 × Kernel :=
  match k.sched.indexOf targetPid, k.sched.find targetPid with
  | some i, some p =>
    let n := min max p.logBuf.length
    (p.logBuf.take n,
      { k with sched := k.sched.modify i fun p => { p with logBuf := p.logBuf.drop n } })
  | _, _ => ([], k)

/-- Send a signal: mark the process as exited, with the signal as exit code. -/
def kill (k : Kernel) (targetPid signal : ℕ) : ℕ × Kernel :=
  if targetPid = 0 then (u64Max, k)
  else
    match k.sched.indexOf targetPid, k.sched.find targetPid with
    | some i, some p =>
      if p.state = .done then (u64Max, k)
      else
        (0, { k with
          sched := k.sched.modify i fun p => { p with exitCode := signal, state := .done } })
    | _, _ => (u64Max, k)

/-- One round of the loop of `wait_pid`: the result, or a yield to come back for another round. -/
def waitPidLoop (k : Kernel) (targetPid : ℕ) : Kernel × Option ℕ :=
  let again : Kernel × Option ℕ :=
    match k.yieldNow (.waitPid targetPid) with
    | some k => (k, none)
    | none => ({ k.park (.waitPid targetPid) with exec := .kernel }, none)
  if k.sched.cur.pid = targetPid then (k, some u64Max)
  else
    match k.sched.find targetPid with
    | none => (k, some u64Max)
    | some p => if p.state = .done then (k, some p.exitCode) else again

/-- Nobody may wait for pid 0. -/
def waitPid (k : Kernel) (targetPid : ℕ) : Kernel × Option ℕ :=
  if targetPid = 0 then (k, some u64Max) else k.waitPidLoop targetPid

/-! ## Capabilities of the running process -/

/-- What is in a slot of the running process. -/
def currentCapGet (k : Kernel) (slot : ℕ) : Option CapEntry :=
  (k.sched.cur.caps.get slot).toOption

def currentEndpointId (k : Kernel) (slot : ℕ) : Option ℕ :=
  (k.currentCapGet slot).bind fun cap => if cap.capType = .endpoint then some cap.object else none

def currentNotificationId (k : Kernel) (slot : ℕ) : Option ℕ :=
  (k.currentCapGet slot).bind fun cap =>
    if cap.capType = .notification then some cap.object else none

/-- The run that a Frame capability in the slot names. -/
def currentFrameCap (k : Kernel) (slot : ℕ) : Option (ℕ × ℕ) :=
  (k.currentCapGet slot).bind fun cap =>
    if cap.capType = .frame then some (cap.object, cap.badge) else none

/-- The process that a capability in the slot names. -/
def currentProcessPid (k : Kernel) (slot : ℕ) : Option ℕ :=
  (k.currentCapGet slot).bind CapEntry.processPid

/-- Install a capability into an empty slot of the running process. -/
def currentCapInstall (k : Kernel) (slot : ℕ) (cap : CapEntry) : Option Kernel :=
  match k.sched.cur.caps.insert slot cap with
  | .error _ => none
  | .ok caps => some (k.modifyCur fun p => { p with caps })

/-- Charge the running process. -/
def currentChargeUntyped (k : Kernel) (amount : ℕ) : Option Kernel :=
  (k.sched.cur.caps.chargeUntyped amount).map fun caps => k.modifyCur fun p => { p with caps }

/-- Give a charge back to the running process. -/
def currentRefundUntyped (k : Kernel) (amount : ℕ) : Kernel :=
  k.modifyCur fun p => { p with caps := p.caps.refundUntyped amount }

end Kernel

/-! ## Endpoints and notifications (`endpoint.rs`, `notification.rs`) -/

namespace Ipc

/-- Enqueue a message on endpoint `id`; `none` if there is no such endpoint. -/
def send (c : Ipc) (id : ℕ) (msg : Message) : Option Ipc :=
  if id < numEndpoints then
    some { c with endpoints := Function.update c.endpoints id (c.endpoints id ++ [msg]) }
  else none

/-- Dequeue one message from endpoint `id`, if there is one. -/
def tryRecv (c : Ipc) (id : ℕ) : Option (Message × Ipc) :=
  if id < numEndpoints then
    match c.endpoints id with
    | [] => none
    | msg :: rest =>
      some (msg, { c with endpoints := Function.update c.endpoints id rest })
  else none

/-- OR `bits` into notification `id`; `none` if there is no such notification. -/
def signal (c : Ipc) (id bits : ℕ) : Option Ipc :=
  if id < numNotifications then
    some { c with
      notifications := Function.update c.notifications id (c.notifications id ||| bits) }
  else none

/-- Take the word of notification `id` if it is non-zero. -/
def pollTake (c : Ipc) (id : ℕ) : Option (ℕ × Ipc) :=
  if id < numNotifications ∧ c.notifications id ≠ 0 then
    some (c.notifications id, { c with notifications := Function.update c.notifications id 0 })
  else none

end Ipc
end Xernel
