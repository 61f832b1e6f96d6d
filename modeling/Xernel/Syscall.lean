import Xernel.Process

/-!
# System calls (`syscall.rs`)

Each system call maps a kernel to the kernel after it and the value it returns, or `none` if it
left the caller by a context switch, an idle wait or a panic. Console output is not modelled.
-/

namespace Xernel

def mmioRegionEnd : ℕ := 0x6000_0000
def dmaRegionEnd : ℕ := 0x7000_0000
def sharedRegionEnd : ℕ := 0x8000_0000
def maxSharedPages : ℕ := 64
def maxWrite : ℕ := 1 <<< 20
/-- `FB_USER_VA` of `framebuffer.rs`. -/
def fbUserVa : ℕ := 0x3000_0000

/-- The system calls, by name. -/
inductive Sys
  | write | exit | debug | getTicks | sysinfo | read | readNb | sbrk | fbInfo | getpid | yield
  | pciRead | iomap | dmaAlloc | portIn | portOut | capIdentify | send | recv | spawn | signal
  | wait | frameAlloc | mapFrame | spawnEnv | getStatus | getenvp | logRead | kill | waitPid
  | capGrant
  deriving Repr, DecidableEq

/-- The `SYS_*` numbers, from 1 on. -/
def Sys.table : List Sys :=
  [.write, .exit, .debug, .getTicks, .sysinfo, .read, .readNb, .sbrk, .fbInfo, .getpid, .yield,
    .pciRead, .iomap, .dmaAlloc, .portIn, .portOut, .capIdentify, .send, .recv, .spawn, .signal,
    .wait, .frameAlloc, .mapFrame, .spawnEnv, .getStatus, .getenvp, .logRead, .kill, .waitPid,
    .capGrant]

/-- The system call with number `nr`, if there is one. -/
def Sys.decode (nr : UInt64) : Option Sys :=
  if nr.toNat = 0 then none else Sys.table[nr.toNat - 1]?

/-- The six argument registers. -/
structure Args where
  rdi : UInt64
  rsi : UInt64
  rdx : UInt64
  r10 : UInt64
  r8 : UInt64
  r9 : UInt64
  deriving Repr, DecidableEq

/-- What the hardware answers to the port or configuration read of this step. -/
structure Hw where
  portValue : ℕ
  pciValue : ℕ
  deriving Repr, DecidableEq

namespace Kernel

/-! ## User buffers -/

/-- The checks `user_slice` and `user_slice_mut` share on a non-empty buffer. -/
def userBufferOk (k : Kernel) (ptr len : ℕ) (writable : Bool) : Bool :=
  if ptr = 0 ∨ maxWrite < len then false
  else if u64Max < ptr + len then false
  else if userAddrMax ≤ ptr ∨ userAddrMax < ptr + len then false
  else k.mm.userRangeOk k.cpu.cr3 ptr len writable

/-- `user_slice`, with the bytes of the slice it returns. An empty slice needs no buffer. -/
def userSlice (k : Kernel) (ptr len : ℕ) : Option (List UInt8) :=
  if len = 0 then some []
  else if k.userBufferOk ptr len false then some (k.mm.readUser k.cpu.cr3 ptr len)
  else none

/-- Whether `user_slice_mut` hands out the buffer. -/
def userSliceMut (k : Kernel) (ptr len : ℕ) : Bool :=
  if len = 0 then false else k.userBufferOk ptr len true

/-- Write into a buffer that `userSliceMut` handed out. -/
def copyOut (k : Kernel) (ptr : ℕ) (bytes : List UInt8) : Kernel :=
  { k with mm := k.mm.writeUser k.cpu.cr3 ptr bytes }

/-! ## Console and keyboard -/

/-- Only what is written to 1 and 2 goes to the log; the rest is dropped, with the same result. -/
def sysWrite (k : Kernel) (fd ptr len : ℕ) : Kernel × Option ℕ :=
  match k.userSlice ptr len with
  | none => (k, some u64Max)
  | some buf => if fd = 1 ∨ fd = 2 then (k.logWrite buf, some len) else (k, some len)

/-- Take up to `len` bytes from the keyboard buffer into the user buffer. -/
def readKeys (k : Kernel) (ptr len : ℕ) : ℕ × Kernel :=
  let r := k.dev.keyboard.drain len
  (r.1.length, { k with dev := { k.dev with keyboard := r.2 } }.copyOut ptr r.1)

/-- One round of `keyboard::read`: with nothing buffered, wait for an interrupt. -/
def readLoop (k : Kernel) (ptr len : ℕ) : Kernel × Option ℕ :=
  match k.readKeys ptr len with
  | (0, _) => ({ k.park (.read ptr len) with exec := .idle }, none)
  | (n + 1, k) => (k, some (n + 1))

/-- Blocks until there is a key. -/
def sysRead (k : Kernel) (ptr len : ℕ) : Kernel × Option ℕ :=
  if k.userSliceMut ptr len then k.readLoop ptr len else (k, some u64Max)

/-- With nothing buffered, the result is 0. -/
def sysReadNb (k : Kernel) (ptr len : ℕ) : Kernel × Option ℕ :=
  if k.userSliceMut ptr len then ((k.readKeys ptr len).2, some (k.readKeys ptr len).1)
  else (k, some u64Max)

/-! ## Devices -/

/-- `framebuffer::info` and `sys_fb_info`: map the framebuffer, then report it. -/
def sysFbInfo (plat : Platform) (k : Kernel) (ptr : ℕ) : Kernel × Option ℕ :=
  match plat.framebuffer with
  | none => (k, some u64Max)
  | some fb =>
    let physBase := pageDown fb.phys
    let offset := fb.phys - physBase
    let pages := pagesFor (offset + fb.height * fb.pitch)
    match mapRun (fun m va phys => m.mapUserDevice k.cpu.cr3 va phys) pages fbUserVa physBase
        k.mm with
    | (.panic, mm) => ({ k with mm }.panic, none)
    | (.failed, mm) => ({ k with mm }, some u64Max)
    | (.done (), mm) =>
      let k := { k with mm }
      if k.userSliceMut ptr 40 then
        (k.copyOut ptr
          ([fbUserVa + offset, fb.width, fb.height, fb.pitch, fb.bpp].flatMap (leBytes 8)), some 0)
      else (k, some u64Max)

/-- Map device memory of at most 16 MiB, for which a capability is needed, into the window for devices.
-/
def sysIomap (k : Kernel) (phys len : ℕ) : Kernel × Option ℕ :=
  if len = 0 ∨ 16 <<< 20 < len then (k, some u64Max)
  else
    let physBase := pageDown phys
    let offset := phys - physBase
    let pages := pagesFor (offset + len)
    if !k.sched.cur.caps.authorizesMmio physBase (pages * frameSize) then (k, some u64Max)
    else
      let vaBase := k.win.nextMmioVa
      if mmioRegionEnd < vaBase + pages * frameSize then (k, some u64Max)
      else
        match mapRun (fun m va phys => m.mapUserDevice k.cpu.cr3 va phys) pages vaBase physBase
            k.mm with
        | (.panic, mm) => ({ k with mm }.panic, none)
        | (.failed, mm) => ({ k with mm }, some u64Max)
        | (.done (), mm) =>
          ({ k with mm, win := { k.win with nextMmioVa := vaBase + pages * frameSize } },
            some (vaBase + offset))

/-- The width of the `Port` operation `port_in` and `port_out` execute for `size`. -/
def portWidth (size : ℕ) : ℕ := if size = 1 then 1 else if size = 2 then 2 else 4

/-- An access to a port, as the device sees it. -/
def portAccess (k : Kernel) (a : PortAccess) : Kernel :=
  { k with dev := { k.dev with ports := k.dev.ports ++ [a] } }

/-- Any width but 1 and 2 is taken for 4. -/
def sysPortIn (k : Kernel) (port size : ℕ) (hw : Hw) : Kernel × Option ℕ :=
  if k.sched.cur.caps.authorizesPort port size then
    let width := portWidth size
    let value := hw.portValue % 2 ^ (8 * width)
    (k.portAccess { write := false, port, width, value }, some value)
  else (k, some u64Max)

/-- The access is all that the kernel does. What the device does to memory afterwards is `Event.dma`. -/
def sysPortOut (k : Kernel) (port size value : ℕ) : Kernel × Option ℕ :=
  if k.sched.cur.caps.authorizesPort port size then
    let width := portWidth size
    (k.portAccess { write := true, port, width, value := value % 2 ^ (8 * width) }, some 0)
  else (k, some u64Max)

/-- Three words that describe the capability in the slot. -/
def sysCapIdentify (k : Kernel) (slot outPtr : ℕ) : Kernel × Option ℕ :=
  match k.currentCapGet slot with
  | none => (k, some u64Max)
  | some cap =>
    if k.userSliceMut outPtr 24 then
      let d := cap.describe
      (k.copyOut outPtr ([d.1, d.2.1, d.2.2].flatMap (leBytes 8)), some 0)
    else (k, some u64Max)

/-! ## Physical memory -/

/-- The allocation and mapping half of `sys_dma_alloc`, after the charge. -/
def dmaAllocCharged (k : Kernel) (pages outPtr : ℕ) : Attempt Unit × Kernel :=
  match k.mm.frameAllocContiguous pages with
  | (none, mm) => (.failed, { k with mm })
  | (some phys, mm) =>
    let mm := mm.zero phys (pages * frameSize)
    let vaBase := k.win.nextDmaVa
    if dmaRegionEnd < vaBase + pages * frameSize then (.failed, { k with mm })
    else
      match mapRun (fun m va phys => m.mapUser k.cpu.cr3 va phys true false) pages vaBase phys
          mm with
      | (.panic, mm) => (.panic, { k with mm })
      | (.failed, mm) => (.failed, { k with mm })
      | (.done (), mm) =>
        let k := { k with mm, win := { k.win with nextDmaVa := vaBase + pages * frameSize } }
        if k.userSliceMut outPtr 16 then
          (.done (), k.copyOut outPtr (leBytes 8 vaBase ++ leBytes 8 phys))
        else (.failed, k)

/-- Charge, allocate and map at most 1 MiB; the charge is given back if that fails. -/
def sysDmaAlloc (k : Kernel) (len outPtr : ℕ) : Kernel × Option ℕ :=
  if len = 0 ∨ 1 <<< 20 < len then (k, some u64Max)
  else
    let pages := pagesFor len
    let need := pages * frameSize
    match k.currentChargeUntyped need with
    | none => (k, some u64Max)
    | some k =>
      match k.dmaAllocCharged pages outPtr with
      | (.panic, k) => (k.panic, none)
      | (.failed, k) => (k.currentRefundUntyped need, some u64Max)
      | (.done (), k) => (k, some 0)

/-- Map the physical run `[phys, phys + pages * PAGE)` at the shared window's next address in the
running address space. -/
def mapShared (k : Kernel) (phys pages : ℕ) : Attempt ℕ × Kernel :=
  let vaBase := k.win.nextSharedVa
  if sharedRegionEnd < vaBase + pages * frameSize then (.failed, k)
  else
    match mapRun (fun m va phys => m.mapUser k.cpu.cr3 va phys true false) pages vaBase phys
        k.mm with
    | (.panic, mm) => (.panic, { k with mm })
    | (.failed, mm) => (.failed, { k with mm })
    | (.done (), mm) =>
      (.done vaBase, { k with mm, win := { k.win with nextSharedVa := vaBase + pages * frameSize } })

/-- Free the `n` frames from `phys` on. -/
def freeRun (m : Mm) (phys : ℕ) : ℕ → Mm
  | 0 => m
  | n + 1 => freeRun (m.frameFree phys) (phys + frameSize) n

/-- The failure exit of `sys_frame_alloc`: free the run if one was allocated, refund the budget. -/
def frameAllocUnwind (k : Kernel) (phys : Option ℕ) (pages : ℕ) : Kernel × Option ℕ :=
  let k := { k with mm := phys.elim k.mm fun p => freeRun k.mm p pages }
  (k.currentRefundUntyped (pages * frameSize), some u64Max)

/-- Charge, allocate and map at most 64 pages, and name them by a new capability. After a failure the
frames are freed, but not unmapped. -/
def sysFrameAlloc (k : Kernel) (pages capSlot outPtr : ℕ) : Kernel × Option ℕ :=
  if pages = 0 ∨ maxSharedPages < pages then (k, some u64Max)
  else
    let need := pages * frameSize
    match k.currentChargeUntyped need with
    | none => (k, some u64Max)
    | some k =>
      match k.mm.frameAllocContiguous pages with
      | (none, mm) => { k with mm }.frameAllocUnwind none pages
      | (some phys, mm) =>
        match { k with mm := mm.zero phys need }.mapShared phys pages with
        | (.panic, k) => (k.panic, none)
        | (.failed, k) => k.frameAllocUnwind (some phys) pages
        | (.done va, k) =>
          if k.userSliceMut outPtr 8 then
            let k := k.copyOut outPtr (leBytes 8 va)
            match k.currentCapInstall capSlot (.frame phys pages) with
            | none => k.frameAllocUnwind (some phys) pages
            | some k => (k, some 0)
          else k.frameAllocUnwind (some phys) pages

/-- Map the run of a Frame capability at the next address of the window for shared frames. -/
def sysMapFrame (k : Kernel) (capSlot outPtr : ℕ) : Kernel × Option ℕ :=
  match k.currentFrameCap capSlot with
  | none => (k, some u64Max)
  | some (phys, pages) =>
    match k.mapShared phys pages with
    | (.panic, k) => (k.panic, none)
    | (.failed, k) => (k, some u64Max)
    | (.done va, k) =>
      if k.userSliceMut outPtr 8 then (k.copyOut outPtr (leBytes 8 va), some 0)
      else (k, some u64Max)

/-- The memory in bytes, all of it and what is free, and the size of a page. -/
def sysinfo (k : Kernel) (which : ℕ) : ℕ :=
  let stats := k.mm.frames.stats
  if which = 0 then stats.2 * frameSize
  else if which = 1 then stats.1 * frameSize
  else if which = 2 then frameSize
  else u64Max

/-! ## Endpoints and notifications -/

/-- Queue a word, and a copy of the capability in `capSlot` if one is given, and wake the waiters. -/
def sysSend (k : Kernel) (epSlot word capSlot : ℕ) : Kernel × Option ℕ :=
  match k.currentEndpointId epSlot with
  | none => (k, some u64Max)
  | some id =>
    let deliver (cap : Option CapEntry) : Kernel × Option ℕ :=
      match k.ipc.send id (word, cap) with
      | none => (k, some u64Max)
      | some ipc => ({ k with ipc }.wake (.endpoint id), some 0)
    if capSlot = u64Max then deliver none
    else
      match k.currentCapGet capSlot with
      | none => (k, some u64Max)
      | some cap => deliver (some cap)

/-- The `if let Some` body of `sys_recv`: hand over a dequeued message. -/
def deliverMessage (k : Kernel) (msg : Message) (outPtr dstSlot : ℕ) : Kernel × Option ℕ :=
  let write (k : Kernel) : Kernel × Option ℕ :=
    if k.userSliceMut outPtr 8 then (k.copyOut outPtr (leBytes 8 msg.1), some 0)
    else (k, some u64Max)
  match msg.2 with
  | none => write k
  | some cap =>
    if dstSlot = u64Max then write k
    else
      match k.currentCapInstall dstSlot cap with
      | none => (k, some u64Max)
      | some k => write k

/-- One round of the loop of `sys_recv`. -/
def recvLoop (k : Kernel) (id outPtr dstSlot : ℕ) : Kernel × Option ℕ :=
  match k.ipc.tryRecv id with
  | some (msg, ipc) => { k with ipc }.deliverMessage msg outPtr dstSlot
  | none => (k.blockOn (.endpoint id) (.recv id outPtr dstSlot), none)

/-- Take a message from the endpoint in the slot, or block. -/
def sysRecv (k : Kernel) (epSlot outPtr dstSlot : ℕ) : Kernel × Option ℕ :=
  match k.currentEndpointId epSlot with
  | none => (k, some u64Max)
  | some id => k.recvLoop id outPtr dstSlot

/-- Add bits to the notification in the slot, and wake the waiters. -/
def sysSignal (k : Kernel) (notifSlot bits : ℕ) : Kernel × Option ℕ :=
  match k.currentNotificationId notifSlot with
  | none => (k, some u64Max)
  | some id =>
    match k.ipc.signal id bits with
    | none => (k, some u64Max)
    | some ipc => ({ k with ipc }.wake (.notification id), some 0)

/-- One round of the loop of `sys_wait`. -/
def waitLoop (k : Kernel) (id : ℕ) : Kernel × Option ℕ :=
  match k.ipc.pollTake id with
  | some (bits, ipc) => ({ k with ipc }, some bits)
  | none => (k.blockOn (.notification id) (.wait id), none)

/-- Take the word of the notification in the slot, or block. Without a notification the result is 0. -/
def sysWait (k : Kernel) (notifSlot : ℕ) : Kernel × Option ℕ :=
  match k.currentNotificationId notifSlot with
  | none => (k, some 0)
  | some id => k.waitLoop id

/-! ## Other processes -/

/-- The address and the length of the environment; zeros if there is none. -/
def sysGetenvp (k : Kernel) (outPtr : ℕ) : Kernel × Option ℕ :=
  if k.userSliceMut outPtr 16 then
    (k.copyOut outPtr (leBytes 8 k.sched.cur.envpUser ++ leBytes 8 k.sched.cur.envpLen), some 0)
  else (k, some u64Max)

/-- The status of the process that the capability names. -/
def sysGetStatus (k : Kernel) (procSlot : ℕ) : Kernel × Option ℕ :=
  match k.currentProcessPid procSlot with
  | none => (k, some u64Max)
  | some pid => (k, some (k.getStatus pid))

/-- Take at most 64 KiB out of the log of the process that the capability names. -/
def sysLogRead (k : Kernel) (procSlot outPtr max : ℕ) : Kernel × Option ℕ :=
  match k.currentProcessPid procSlot with
  | none => (k, some u64Max)
  | some pid =>
    let max := min max 65536
    if k.userSliceMut outPtr max then
      let r := k.logRead pid max
      (r.2.copyOut outPtr r.1, some r.1.length)
    else (k, some u64Max)

/-- End the process that the capability names. -/
def sysKill (k : Kernel) (procSlot signal : ℕ) : Kernel × Option ℕ :=
  match k.currentProcessPid procSlot with
  | none => (k, some u64Max)
  | some pid => ((k.kill pid signal).2, some (k.kill pid signal).1)

/-- Wait until the process that the capability names has ended. -/
def sysWaitPid (k : Kernel) (procSlot : ℕ) : Kernel × Option ℕ :=
  match k.currentProcessPid procSlot with
  | none => (k, some u64Max)
  | some pid => k.waitPid pid

/-- Copy a capability to a slot of the process that another one names. -/
def sysCapGrant (k : Kernel) (procSlot srcSlot dstSlot : ℕ) : Kernel × Option ℕ :=
  match k.currentProcessPid procSlot with
  | none => (k, some u64Max)
  | some pid =>
    match k.currentCapGet srcSlot with
    | none => (k, some u64Max)
    | some cap =>
      match k.grantTo pid cap dstSlot with
      | none => (k, some u64Max)
      | some k => (k, some 0)

/-! ## Dispatch -/

/-- `unwrap_or(u64::MAX)` on the result of `spawn`, `spawn_env` and `sbrk`. -/
def orMax : Attempt ℕ × Kernel → Kernel × Option ℕ
  | (.panic, k) => (k.panic, none)
  | (.failed, k) => (k, some u64Max)
  | (.done v, k) => (k, some v)

/-- `x as i64`. -/
def asI64 (x : ℕ) : ℤ := if x < 2 ^ 63 then x else (x : ℤ) - 2 ^ 64

def dispatch (plat : Platform) (k : Kernel) (nr : UInt64) (args : Args) (hw : Hw) :
    Kernel × Option ℕ :=
  let a0 := args.rdi.toNat
  let a1 := args.rsi.toNat
  let a2 := args.rdx.toNat
  let a3 := args.r10.toNat
  match Sys.decode nr with
  | none => (k, some u64Max)
  | some .write => k.sysWrite a0 a1 a2
  | some .exit => (k.exitInner a0, none)
  | some .debug => (k, some 0)
  | some .getTicks => (k, some k.dev.ticks)
  | some .sysinfo => (k, some (k.sysinfo a0))
  | some .read => k.sysRead a1 a2
  | some .readNb => k.sysReadNb a1 a2
  | some .sbrk => orMax (k.sbrk (asI64 a0))
  | some .fbInfo => k.sysFbInfo plat a0
  | some .getpid => (k, some k.sched.cur.pid)
  | some .yield =>
    match k.yieldNow .yield with
    | some k => (k, none)
    | none => (k, some 0)
  | some .pciRead => (k, some (hw.pciValue % 2 ^ 32))
  | some .iomap => k.sysIomap a0 a1
  | some .dmaAlloc => k.sysDmaAlloc a0 a1
  | some .portIn => k.sysPortIn (a0 % 2 ^ 16) (a1 % 2 ^ 8) hw
  | some .portOut => k.sysPortOut (a0 % 2 ^ 16) (a1 % 2 ^ 8) (a2 % 2 ^ 32)
  | some .capIdentify => k.sysCapIdentify a0 a1
  | some .send => k.sysSend a0 a1 a2
  | some .recv => k.sysRecv a0 a1 a2
  | some .spawn => orMax (k.spawn plat a1)
  | some .signal => k.sysSignal a0 a1
  | some .wait => k.sysWait a0
  | some .frameAlloc => k.sysFrameAlloc a0 a1 a2
  | some .mapFrame => k.sysMapFrame a0 a1
  | some .spawnEnv => orMax (k.spawnEnv plat a1 a2 a3)
  | some .getStatus => k.sysGetStatus a0
  | some .getenvp => k.sysGetenvp a0
  | some .logRead => k.sysLogRead a0 a1 a2
  | some .kill => k.sysKill a0 a1
  | some .waitPid => k.sysWaitPid a0
  | some .capGrant => k.sysCapGrant a0 a1 a2

end Kernel
end Xernel
