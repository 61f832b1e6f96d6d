import Xernel.Syscall
import Xernel.Lib.Run

/-!
# The system: boot and steps

The entry and exit paths of the kernel (`arch/x86_64/syscall.rs`, `apic.rs`, `idt.rs`) around the
system calls, and the transition system they form. A step is what happens between two points at
which something else could happen: an event arriving in ring 3 runs the kernel until it returns to
ring 3 or switches away, and a thread that was switched to runs on from its continuation.
-/

namespace Xernel

/-- Exchange `GS.base` and `KERNEL_GS_BASE`. -/
def Cpu.swapgs (c : Cpu) : Cpu := { c with gsBase := c.kernelGsBase, kernelGsBase := c.gsBase }

/-- `gs_force_kernel`. -/
def Cpu.gsForceKernel (c : Cpu) : Cpu := { c with gsBase := .percpu, kernelGsBase := .user }

namespace Kernel

/-- The closing `swapgs; sysretq` (or `swapgs; iretq`). -/
def returnToUser (k : Kernel) : Kernel := { k with cpu := k.cpu.swapgs, exec := .user }

/-- The exit half of `syscall_entry`, if the handler came back with a value. -/
def syscallExit : Kernel × Option ℕ → Kernel × Option ℕ
  | (k, some v) => (k.returnToUser, some v)
  | (k, none) => (k, none)

/-- `syscall_entry`: after the `swapgs` the stub reads and writes `PERCPU` through `gs`; with the
user value in `GS.base` that access faults in ring 0. -/
def syscallEntry (plat : Platform) (k : Kernel) (nr : UInt64) (args : Args) (hw : Hw) :
    Kernel × Option ℕ :=
  let k := { k with cpu := k.cpu.swapgs, exec := .kernel }
  if k.cpu.gsBase = .percpu then syscallExit (k.dispatch plat nr args hw) else (k.panic, none)

/-- `timer_tick`. -/
def tick (k : Kernel) : Kernel := { k with dev := { k.dev with ticks := k.dev.ticks + 1 } }

/-- `timer_isr` entered from ring 3. -/
def timerIsr (k : Kernel) : Kernel :=
  let k := { k.tick with cpu := k.cpu.swapgs, exec := .kernel }
  match k.yieldNow .timer with
  | some k => k
  | none => k.returnToUser

/-- `fatal` and `page_fault` for a fault in ring 3: kill the process. -/
def userFault (k : Kernel) : Kernel :=
  { k with cpu := k.cpu.gsForceKernel, exec := .kernel }.exitInner exitFault

def keyboardIrq (k : Kernel) (scancode : UInt8) : Kernel :=
  { k with dev := { k.dev with keyboard := Keyboard.irqHandler k.dev.keyboard scancode } }

/-- A store by ring-3 code: it lands if the page is mapped for it, else it faults. -/
def userStore (k : Kernel) (va : ℕ) (b : UInt8) : Kernel :=
  if k.mm.userPageOk k.cpu.cr3 true va then { k with mm := k.mm.writeByte k.cpu.cr3 va b }
  else k.userFault

/-- A device writes a byte of a contiguous run, past the page tables of whoever runs. The runs of
`DMA_ALLOC` and `FRAME_ALLOC` are the memory whose physical address a driver is told. -/
def deviceWrite (k : Kernel) (phys : ℕ) (b : UInt8) : Option Kernel :=
  if pageDown phys ∈ runFrames k.mm.calls then some { k with mm := k.mm.setByte phys b } else none

/-- `enter_user`: both GS bases are set to the state ring 3 runs in. -/
def enterUser (k : Kernel) : Kernel :=
  { k with cpu := { k.cpu with gsBase := .user, kernelGsBase := .percpu }, exec := .user }

/-- The thread the processor is on runs on from its continuation. -/
def resumeAt (k : Kernel) : Kont → Kernel × Option ℕ
  | .trampoline => (k.enterUser, none)
  | .yield => syscallExit (k, some 0)
  | .recv id outPtr dstSlot => syscallExit (k.recvLoop id outPtr dstSlot)
  | .wait id => syscallExit (k.waitLoop id)
  | .waitPid target => syscallExit (k.waitPidLoop target)
  | .read ptr len => syscallExit (k.readLoop ptr len)
  | .timer => (k.returnToUser, none)

end Kernel

/-- What can happen next. -/
inductive Event
  | syscall (nr : UInt64) (args : Args) (hw : Hw)
  | timer
  | fault
  | keyboard (scancode : UInt8)
  | store (va : ℕ) (b : UInt8)
  | dma (phys : ℕ) (b : UInt8)
  | resume

/-- One step, with the value a system call returned to ring 3 in it. Interrupts are masked in the
kernel except while it idles for the keyboard, and the timer does not preempt ring 0. A device writes
when it likes. -/
def step (plat : Platform) (k : Kernel) (e : Event) : Option (Kernel × Option ℕ) :=
  match k.exec, e with
  | .user, .syscall nr args hw => some (k.syscallEntry plat nr args hw)
  | .user, .timer => some (k.timerIsr, none)
  | .user, .fault => some (k.userFault, none)
  | .user, .keyboard scancode => some (k.keyboardIrq scancode, none)
  | .user, .store va b => some (k.userStore va b, none)
  | .user, .dma phys b | .idle, .dma phys b | .kernel, .dma phys b =>
    (k.deviceWrite phys b).map fun k => (k, none)
  | .idle, .timer => some (k.tick, none)
  | .idle, .keyboard scancode => some (k.keyboardIrq scancode, none)
  | .idle, .resume | .kernel, .resume =>
    (k.sched.procs[k.cpu.thread]?).map fun p => { k with exec := .kernel }.resumeAt p.kont
  | _, _ => none

/-! ## Boot -/

def lapicVirt : ℕ := 0xffff_9200_0000_0000
def ioapicVirt : ℕ := 0xffff_9300_0000_0000
def ioapicPhys : ℕ := 0xFEC0_0000

/-- Memory as `mm::init_frames` finds it. -/
def initMm (plat : Platform) : Mm :=
  { frames := .new plat.regions
    calls := []
    pt := { kernel := plat.kernelHalf, user := fun _ => .empty }
    mem := plat.mem }

/-- `enable_interrupts`: map the LAPIC and IO-APIC windows. `none` is a failed `expect`. -/
def enableInterrupts (plat : Platform) (m : Mm) : Option Mm :=
  match m.mapMmio plat.bootSpace lapicVirt plat.lapicPhys with
  | (.done, m) =>
    match m.mapMmio plat.bootSpace ioapicVirt ioapicPhys with
    | (.done, m) => some m
    | _ => none
  | _ => none

/-- The kernel with its one first process, before that runs. -/
def firstKernel (plat : Platform) (m : Mm) (p : Process) : Kernel :=
  { mm := m
    sched := { procs := [p], current := 0, nextPid := numProcesses, current_lt := by simp }
    ipc := { endpoints := fun _ => [], notifications := fun _ => 0 }
    win := { nextMmioVa := 0x5000_0000, nextDmaVa := 0x6000_0000, nextSharedVa := 0x7000_0000 }
    dev := { ticks := 0, keyboard := .new, ports := [] }
    cpu := { gsBase := .user, kernelGsBase := .percpu, cr3 := plat.bootSpace, kernelRsp := 0,
             rsp0 := 0, thread := 0 }
    exec := .kernel }

lemma firstKernel_length (plat : Platform) (m : Mm) (p : Process) :
    0 < (firstKernel plat m p).sched.procs.length := Nat.one_pos

/-- `kmain` up to the switch to the first process. `none` is a boot panic. -/
def boot (plat : Platform) : Option Kernel :=
  match enableInterrupts plat (initMm plat) with
  | none => none
  | some m =>
    match create plat m 0 with
    | (.done p, m) => some ((firstKernel plat m p).resumeProcess ⟨0, firstKernel_length plat m p⟩)
    | _ => none

/-- The running system. -/
def xernel (plat : Platform) : TransitionSystem Kernel Event (Option ℕ) where
  init k := boot plat = some k
  step := step plat

/-- A step of the running system. -/
abbrev KernelStep := Transition Kernel Event (Option ℕ)

/-- The run of the system on the given events. -/
def trace (plat : Platform) (es : List Event) :
    Option (List KernelStep × Kernel) :=
  (boot plat).bind fun k => (xernel plat).replay k es

theorem trace_run {plat : Platform} {es : List Event}
    {r : List KernelStep × Kernel} (h : trace plat es = some r) :
    Run (xernel plat) r.1 r.2 := by
  obtain ⟨k, hk, hr⟩ := Option.bind_eq_some_iff.mp h
  simpa using (Run.start (T := xernel plat) hk).append_replay hr

/-- The transitions of a trace are labelled with its events. -/
theorem trace_event {plat : Platform} {es : List Event} {r : List KernelStep × Kernel}
    (h : trace plat es = some r) {n : ℕ} {t : KernelStep} (ht : r.1[n]? = some t) :
    es[n]? = some t.event := by
  obtain ⟨k, hk, hr⟩ := Option.bind_eq_some_iff.mp h
  rw [← TransitionSystem.replay_events hr, List.getElem?_map, ht, Option.map_some]

/-- A small machine: 1 MiB of usable memory, no framebuffer, and an image without segments. -/
def smallPlatform : Platform where
  regions := [⟨0x10_0000, 0x20_0000⟩]
  image := [0x7f, 0x45, 0x4c, 0x46, 2, 1, 1, 0] ++ List.replicate 56 0
  kernelHalf := .empty
  bootSpace := 0x1000
  lapicPhys := 0xfee0_0000
  framebuffer := none
  kstackEnd pid := 0xffff_a000_0000_0000 + (pid + 1) * 0x8000
  mem _ := 0

/-- The event of ring-3 code making a system call with up to four arguments. -/
def Event.call (sys : Sys) (rdi rsi rdx r10 : UInt64 := 0) : Event :=
  .syscall (UInt64.ofNat (Sys.table.idxOf sys + 1)) { rdi, rsi, rdx, r10, r8 := 0, r9 := 0 }
    { portValue := 0, pciValue := 0 }

end Xernel
