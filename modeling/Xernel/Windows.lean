import Xernel.Coherence
import Xernel.ElfTheorems
import Xernel.FrameCaps

/-!
# The mapping windows

Which steps touch page tables and window cursors. Most system calls do neither (`SameMap`); the calls
that map pages for the caller stay inside a region of the address space of their own, and `SPAWN` and
`SPAWN_ENV` only set up the space of the child. The cursors of the three windows only move forward, by
the pages of a call that got all of them mapped.
-/

namespace Xernel

open Mm (MapsAtMost)

variable {plat : Platform} {k k' k'' : Kernel} {out : Option ℕ} {args : Args}

/-- The calls that change page tables. -/
def Sys.mapsPages : Sys → Bool
  | .sbrk | .fbInfo | .iomap | .dmaAlloc | .frameAlloc | .mapFrame | .spawn | .spawnEnv => true
  | _ => false

namespace Kernel

/-! ## Calls that map nothing -/

/-- Page tables and window cursors are as before. -/
structure SameMap (k k' : Kernel) : Prop where
  pt : k'.mm.pt = k.mm.pt
  win : k'.win = k.win

/-- Two functions in a row. -/
lemma SameMap.trans (h : SameMap k k') (h' : SameMap k' k'') : SameMap k k'' :=
  ⟨h'.pt.trans h.pt, h'.win.trans h.win⟩

/-- Writing to a buffer maps nothing. -/
lemma copyOut_sameMap (k : Kernel) (ptr : ℕ) (bytes : List UInt8) :
    SameMap k (k.copyOut ptr bytes) := by
  obtain ⟨mem, hmem⟩ := copyOut_mm k ptr bytes
  exact ⟨by rw [hmem], rfl⟩

/-- Nothing is unmapped when a process ends. -/
lemma exitInner_sameMap (k : Kernel) (code : ℕ) : SameMap k (k.exitInner code) := by
  rw [exitInner]
  split <;> exact ⟨rfl, rfl⟩

/-- Nor when it blocks. -/
lemma blockOn_sameMap (k : Kernel) (reason : BlockReason) (kont : Kont) :
    SameMap k (k.blockOn reason kont) := by
  rw [blockOn]
  split <;> exact ⟨rfl, rfl⟩

lemma yieldNow_sameMap {kont : Kont} (h : k.yieldNow kont = some k') : SameMap k k' := by
  obtain ⟨i, -, rfl⟩ := yieldNow_eq_some h
  exact ⟨rfl, rfl⟩

/-- Having a capability is not yet mapping anything. -/
lemma currentCapInstall_sameMap {slot : ℕ} {cap : CapEntry}
    (h : k.currentCapInstall slot cap = some k') : SameMap k k' := by
  obtain ⟨caps, -, rfl⟩ := currentCapInstall_eq_some h
  exact ⟨rfl, rfl⟩

lemma readKeys_sameMap (k : Kernel) (ptr len : ℕ) : SameMap k (k.readKeys ptr len).2 := by
  have hdev : SameMap k { k with dev := { k.dev with keyboard := (k.dev.keyboard.drain len).2 } } :=
    ⟨rfl, rfl⟩
  exact hdev.trans (copyOut_sameMap ..)

/-- A read writes to a buffer at most. -/
lemma readLoop_sameMap (k : Kernel) (ptr len : ℕ) : SameMap k (k.readLoop ptr len).1 := by
  have hread := readKeys_sameMap k ptr len
  rw [readLoop]
  split
  next => exact ⟨rfl, rfl⟩
  next heq => rw [heq] at hread; exact hread

/-- A capability in a message is installed, not mapped. -/
lemma deliverMessage_sameMap (k : Kernel) (msg : Message) (outPtr dstSlot : ℕ) :
    SameMap k (k.deliverMessage msg outPtr dstSlot).1 := by
  have hwrite : ∀ k₁ : Kernel, SameMap k k₁ → SameMap k
      (if k₁.userSliceMut outPtr 8 then (k₁.copyOut outPtr (leBytes 8 msg.1), some 0)
        else (k₁, some u64Max)).1 := by
    intro k₁ h₁
    split
    · exact h₁.trans (copyOut_sameMap ..)
    · exact h₁
  rw [deliverMessage]
  dsimp only
  split
  · exact hwrite k ⟨rfl, rfl⟩
  · split
    · exact hwrite k ⟨rfl, rfl⟩
    · split
      · exact ⟨rfl, rfl⟩
      next hins => exact hwrite _ (currentCapInstall_sameMap hins)

/-- So it is when the receiver had to wait. -/
lemma recvLoop_sameMap (k : Kernel) (id outPtr dstSlot : ℕ) :
    SameMap k (k.recvLoop id outPtr dstSlot).1 := by
  rw [recvLoop]
  split
  next msg ipc hrecv =>
    have hipc : SameMap k { k with ipc } := ⟨rfl, rfl⟩
    exact hipc.trans (deliverMessage_sameMap ..)
  next => exact blockOn_sameMap ..

lemma waitLoop_sameMap (k : Kernel) (id : ℕ) : SameMap k (k.waitLoop id).1 := by
  rw [waitLoop]
  split
  · exact ⟨rfl, rfl⟩
  · exact blockOn_sameMap ..

lemma waitPidLoop_sameMap (k : Kernel) (pid : ℕ) : SameMap k (k.waitPidLoop pid).1 := by
  rw [waitPidLoop]
  dsimp only
  split
  · exact ⟨rfl, rfl⟩
  split
  · exact ⟨rfl, rfl⟩
  split
  · exact ⟨rfl, rfl⟩
  split
  next hy => exact yieldNow_sameMap hy
  next => exact ⟨rfl, rfl⟩

/-- Sending a Frame capability unmaps nothing. -/
lemma sysSend_sameMap (k : Kernel) (epSlot word capSlot : ℕ) :
    SameMap k (k.sysSend epSlot word capSlot).1 := by
  rw [sysSend]
  split
  · exact ⟨rfl, rfl⟩
  dsimp only
  split
  · split <;> exact ⟨rfl, rfl⟩
  · split
    · exact ⟨rfl, rfl⟩
    · split <;> exact ⟨rfl, rfl⟩

lemma logRead_sameMap (k : Kernel) (pid max : ℕ) : SameMap k (k.logRead pid max).2 := by
  rw [logRead]
  split <;> exact ⟨rfl, rfl⟩

lemma kill_sameMap (k : Kernel) (pid signal : ℕ) : SameMap k (k.kill pid signal).2 := by
  rw [kill]
  split
  · exact ⟨rfl, rfl⟩
  split
  · split <;> exact ⟨rfl, rfl⟩
  · exact ⟨rfl, rfl⟩

/-- Nor does granting one. -/
lemma sysCapGrant_sameMap (k : Kernel) (procSlot srcSlot dstSlot : ℕ) :
    SameMap k (k.sysCapGrant procSlot srcSlot dstSlot).1 := by
  rw [sysCapGrant]
  split
  · exact ⟨rfl, rfl⟩
  split
  · exact ⟨rfl, rfl⟩
  split
  · exact ⟨rfl, rfl⟩
  next hgrant =>
    rw [grantTo] at hgrant
    split at hgrant
    · split at hgrant
      · cases hgrant
      · obtain rfl := Option.some.inj hgrant
        exact ⟨rfl, rfl⟩
    · cases hgrant

/-- The other calls change neither page tables nor cursors. -/
lemma dispatch_sameMap {nr : UInt64} {hw : Hw}
    (h : ∀ sys, Sys.decode nr = some sys → sys.mapsPages = false) :
    SameMap k (k.dispatch plat nr args hw).1 := by
  rw [dispatch]
  generalize Sys.decode nr = decoded at h
  cases decoded with
  | none => exact ⟨rfl, rfl⟩
  | some sys =>
    have hsys := h sys rfl
    cases sys with
    | sbrk | fbInfo | iomap | dmaAlloc | frameAlloc | mapFrame | spawn | spawnEnv => cases hsys
    -- the calls that map pages are out, those that do nothing here come first
    | debug | getTicks | sysinfo | getpid | pciRead => exact ⟨rfl, rfl⟩
    | write =>
      dsimp only
      rw [sysWrite]
      split
      · exact ⟨rfl, rfl⟩
      · split <;> exact ⟨rfl, rfl⟩
    | exit => exact exitInner_sameMap ..
    | read =>
      dsimp only
      rw [sysRead]
      split
      · exact readLoop_sameMap ..
      · exact ⟨rfl, rfl⟩
    | readNb =>
      dsimp only
      rw [sysReadNb]
      split
      · exact readKeys_sameMap ..
      · exact ⟨rfl, rfl⟩
    | yield =>
      dsimp only
      split
      next hy => exact yieldNow_sameMap hy
      next => exact ⟨rfl, rfl⟩
    | portIn =>
      dsimp only
      rw [sysPortIn]
      split <;> exact ⟨rfl, rfl⟩
    | portOut =>
      dsimp only
      rw [sysPortOut]
      split <;> exact ⟨rfl, rfl⟩
    | capIdentify =>
      dsimp only
      rw [sysCapIdentify]
      split
      · exact ⟨rfl, rfl⟩
      · split
        · exact copyOut_sameMap ..
        · exact ⟨rfl, rfl⟩
    | send => exact sysSend_sameMap ..
    | recv =>
      dsimp only
      rw [sysRecv]
      split
      · exact ⟨rfl, rfl⟩
      · exact recvLoop_sameMap ..
    | signal =>
      dsimp only
      rw [sysSignal]
      split
      · exact ⟨rfl, rfl⟩
      · split <;> exact ⟨rfl, rfl⟩
    | wait =>
      dsimp only
      rw [sysWait]
      split
      · exact ⟨rfl, rfl⟩
      · exact waitLoop_sameMap ..
    | getStatus =>
      dsimp only
      rw [sysGetStatus]
      split <;> exact ⟨rfl, rfl⟩
    | getenvp =>
      dsimp only
      rw [sysGetenvp]
      split
      · exact copyOut_sameMap ..
      · exact ⟨rfl, rfl⟩
    | logRead =>
      dsimp only
      rw [sysLogRead]
      split
      · exact ⟨rfl, rfl⟩
      dsimp only
      split
      · exact (logRead_sameMap ..).trans (copyOut_sameMap ..)
      · exact ⟨rfl, rfl⟩
    | kill =>
      dsimp only
      rw [sysKill]
      split
      · exact ⟨rfl, rfl⟩
      · exact kill_sameMap ..
    | waitPid =>
      dsimp only
      rw [sysWaitPid]
      split
      · exact ⟨rfl, rfl⟩
      rw [waitPid]
      split
      · exact ⟨rfl, rfl⟩
      · exact waitPidLoop_sameMap ..
    | capGrant => exact sysCapGrant_sameMap ..

/-- The way back to ring 3. -/
lemma syscallExit_sameMap (r : Kernel × Option ℕ) : SameMap r.1 (syscallExit r).1 := by
  obtain ⟨k, _ | v⟩ := r <;> exact ⟨rfl, rfl⟩

end Kernel

/-- A step that is not one of the mapping calls changes neither page tables nor cursors. -/
lemma step_sameMap {e : Event} (hs : Xernel.step plat k e = some (k', out))
    (hact : ∀ sys args, k.activity e = .call sys args → sys.mapsPages = false) :
    k.SameMap k' := by
  generalize hr : (k', out) = r at hs
  obtain rfl : k' = r.1 := by rw [← hr]
  clear hr
  cases step_cases hs with
  | @syscall nr args hw hexec =>
    rw [Kernel.syscallEntry]
    dsimp only
    split
    · have henter : k.SameMap { k with cpu := k.cpu.swapgs, exec := .kernel } := ⟨rfl, rfl⟩
      refine (henter.trans (Kernel.dispatch_sameMap fun sys hd => ?_)).trans
        (Kernel.syscallExit_sameMap _)
      exact hact sys args (by rw [Kernel.activity, hd]; rfl)
    · exact ⟨rfl, rfl⟩
  | timer hexec =>
    show k.SameMap k.timerIsr
    rw [Kernel.timerIsr]
    dsimp only
    split
    next hy =>
      have htick : k.SameMap { k.tick with cpu := k.cpu.swapgs, exec := .kernel } := ⟨rfl, rfl⟩
      exact htick.trans (Kernel.yieldNow_sameMap hy)
    next => exact ⟨rfl, rfl⟩
  | fault hexec =>
    have henter : k.SameMap { k with cpu := k.cpu.gsForceKernel, exec := .kernel } := ⟨rfl, rfl⟩
    exact henter.trans (Kernel.exitInner_sameMap ..)
  | keyboard hexec => exact ⟨rfl, rfl⟩
  | @store va b hexec =>
    show k.SameMap (k.userStore va b)
    rw [Kernel.userStore]
    split
    · obtain ⟨mem, hmem⟩ := Mm.writeByte_eq k.mm k.cpu.cr3 va b
      exact ⟨by rw [hmem], rfl⟩
    · have henter : k.SameMap { k with cpu := k.cpu.gsForceKernel, exec := .kernel } := ⟨rfl, rfl⟩
      exact henter.trans (Kernel.exitInner_sameMap ..)
  | dma hexec hw =>
    obtain ⟨mem, rfl⟩ := Kernel.deviceWrite_mem hw
    exact ⟨rfl, rfl⟩
  | idleTick hexec => exact ⟨rfl, rfl⟩
  | @resume p hexec hp =>
    have hwake : k.SameMap { k with exec := .kernel } := ⟨rfl, rfl⟩
    cases hk : p.kont with
    | trampoline | timer | yield => exact ⟨rfl, rfl⟩
    | recv id outPtr dstSlot =>
      exact (hwake.trans (Kernel.recvLoop_sameMap ..)).trans (Kernel.syscallExit_sameMap _)
    | wait id =>
      exact (hwake.trans (Kernel.waitLoop_sameMap ..)).trans (Kernel.syscallExit_sameMap _)
    | waitPid pid =>
      exact (hwake.trans (Kernel.waitPidLoop_sameMap ..)).trans (Kernel.syscallExit_sameMap _)
    | read ptr len =>
      exact (hwake.trans (Kernel.readLoop_sameMap ..)).trans (Kernel.syscallExit_sameMap _)

/-! ## Calls that map pages for the caller -/

/-- Outside the pages `[lo, hi)` the lower halves of all spaces are as before. -/
def Mm.SameOutside (m m' : Mm) (lo hi : ℕ) : Prop :=
  ∀ l p, p < lowerHalfPages → p < lo ∨ hi ≤ p → m'.pt.leaf l p = m.pt.leaf l p

namespace Mm.SameOutside

variable {m m' m'' : Mm} {lo hi : ℕ}

/-- A function that leaves the page tables alone. -/
lemma of_pt (h : m'.pt = m.pt) : m.SameOutside m' lo hi := fun _ _ _ _ => by rw [h]

/-- Two functions with the same range. -/
lemma trans (h : m.SameOutside m' lo hi) (h' : m'.SameOutside m'' lo hi) :
    m.SameOutside m'' lo hi :=
  fun l p hp hout => (h' l p hp hout).trans (h l p hp hout)

/-- A larger range. -/
lemma mono {lo' hi' : ℕ} (h : m.SameOutside m' lo hi) (hlo : lo' ≤ lo) (hhi : hi ≤ hi') :
    m.SameOutside m' lo' hi' :=
  fun l p hp hout => h l p hp (by omega)

end Mm.SameOutside

section MapRun

variable {map : Mm → ℕ → ℕ → Mm.MapOutcome × Mm} {L : ℕ → Set Leaf} {space n va phys stop : ℕ}
  {m : Mm}

/-- A run is mapped between its first and its last page. -/
lemma mapRun_sameOutside
    (hmap : ∀ m va phys, MapsAtMost space (va / frameSize) (L phys) m (map m va phys).2)
    (hstop : va + n * frameSize ≤ stop) :
    m.SameOutside (mapRun map n va phys m).2 (va / frameSize) (stop / frameSize) := by
  intro l p hp hout
  refine mapRun_other hmap hp (.inr (hout.imp_right fun h => ?_))
  simp only [frameSize] at hstop h ⊢
  omega

/-- `map_user` makes one entry, for data. -/
lemma mapUser_atMost (m : Mm) (space va phys : ℕ) :
    MapsAtMost space (va / frameSize) {⟨pageDown phys, Mm.userFlags true false⟩} m
      (m.mapUser space va phys true false).2 := by
  rw [Mm.mapUser_eq]
  exact Mm.mapWithFlags_atMost ..

end MapRun

/-- The three windows that the mapping calls hand out addresses from. -/
inductive Window
  | mmio
  | dma
  | shared
  deriving Repr, DecidableEq

namespace Window

def start : Window → ℕ
  | mmio => 0x5000_0000
  | dma => mmioRegionEnd
  | shared => dmaRegionEnd

def stop : Window → ℕ
  | mmio => mmioRegionEnd
  | dma => dmaRegionEnd
  | shared => sharedRegionEnd

end Window

/-- The next free address of a window. -/
def Windows.next (w : Windows) : Window → ℕ
  | .mmio => w.nextMmioVa
  | .dma => w.nextDmaVa
  | .shared => w.nextSharedVa

/-- The window that a call takes addresses from. -/
def Sys.window : Sys → Option Window
  | .iomap => some .mmio
  | .dmaAlloc => some .dma
  | .frameAlloc | .mapFrame => some .shared
  | _ => none

namespace Kernel

/-- A call that takes pages from window `w`: it maps none below the cursor or after the end of the
window, and moves the cursor forward by whole pages, not past the end. -/
structure Advances (k k' : Kernel) (w : Window) : Prop where
  outside : k.mm.SameOutside k'.mm (k.win.next w / frameSize) (w.stop / frameSize)
  next : ∃ n, k'.win.next w = k.win.next w + n * frameSize ∧ (n ≠ 0 → k'.win.next w ≤ w.stop)
  others : ∀ w' ≠ w, k'.win.next w' = k.win.next w'

/-- A call that gets no page. -/
lemma Advances.of_win {w : Window}
    (h : k.mm.SameOutside k'.mm (k.win.next w / frameSize) (w.stop / frameSize))
    (hwin : k'.win = k.win) : k.Advances k' w :=
  ⟨h, ⟨0, by rw [hwin, Nat.zero_mul, Nat.add_zero], fun h => absurd rfl h⟩, fun w' _ => by rw [hwin]⟩

/-- What maps nothing may follow. -/
lemma Advances.sameMap {w : Window} (h : k.Advances k' w) (h' : SameMap k' k'') :
    k.Advances k'' w :=
  ⟨h.outside.trans (.of_pt h'.pt), by rw [h'.win]; exact h.next, by rw [h'.win]; exact h.others⟩

/-- And it may come before. -/
lemma SameMap.advances {w : Window} (h : SameMap k k') (h' : k'.Advances k'' w) :
    k.Advances k'' w := by
  obtain ⟨hout, hnext, hothers⟩ := h'
  rw [h.win] at hout hnext hothers
  exact ⟨(Mm.SameOutside.of_pt h.pt).trans hout, hnext, hothers⟩

/-- The window calls after their checks: map `n` pages at the cursor. -/
lemma mapRun_advances {map : Mm → ℕ → ℕ → Mm.MapOutcome × Mm} {L : ℕ → Set Leaf}
    {w : Window} {space n : ℕ} {m : Mm} (phys : ℕ) (win : Windows)
    (hmap : ∀ m va phys, MapsAtMost space (va / frameSize) (L phys) m (map m va phys).2)
    (hpt : m.pt = k.mm.pt) (hroom : k.win.next w + n * frameSize ≤ w.stop)
    (hwin : win.next w = k.win.next w + n * frameSize)
    (hothers : ∀ w' ≠ w, win.next w' = k.win.next w') :
    k.Advances { k with mm := (mapRun map n (k.win.next w) phys m).2, win } w :=
  ⟨(Mm.SameOutside.of_pt hpt).trans (mapRun_sameOutside hmap hroom),
    ⟨n, hwin, fun _ => by rw [hwin]; exact hroom⟩, hothers⟩

/-- A run that is mapped in part leaves the window where it is. -/
lemma mapRun_advances_none {map : Mm → ℕ → ℕ → Mm.MapOutcome × Mm} {L : ℕ → Set Leaf}
    {w : Window} {space n : ℕ} {m : Mm} (phys : ℕ)
    (hmap : ∀ m va phys, MapsAtMost space (va / frameSize) (L phys) m (map m va phys).2)
    (hpt : m.pt = k.mm.pt) (hroom : k.win.next w + n * frameSize ≤ w.stop) :
    k.Advances { k with mm := (mapRun map n (k.win.next w) phys m).2 } w :=
  .of_win ((Mm.SameOutside.of_pt hpt).trans (mapRun_sameOutside hmap hroom)) rfl

/-- `SYS_IOMAP` moves the window for devices. -/
lemma sysIomap_advances (k : Kernel) (phys len : ℕ) : k.Advances (k.sysIomap phys len).1 .mmio := by
  have hmap := fun m va phys => Mm.mapUserDevice_atMost m k.cpu.cr3 va phys
  rw [sysIomap]
  split
  · exact .of_win (.of_pt rfl) rfl
  dsimp only
  split
  · exact .of_win (.of_pt rfl) rfl
  split
  · exact .of_win (.of_pt rfl) rfl
  next hroom =>
    generalize pagesFor (phys - pageDown phys + len) = pages at hroom ⊢
    have hroom : k.win.next .mmio + pages * frameSize ≤ Window.mmio.stop := Nat.le_of_not_lt hroom
    have hstop := mapRun_advances_none (k := k) (pageDown phys) hmap rfl hroom
    have hdone := mapRun_advances (k := k) (pageDown phys)
      { k.win with nextMmioVa := k.win.nextMmioVa + pages * frameSize } hmap rfl hroom rfl
      (fun w' hw' => by cases w' <;> first | exact absurd rfl hw' | rfl)
    rw [Windows.next] at hstop hdone
    split
    next heq => rw [heq] at hstop; exact hstop.sameMap ⟨rfl, rfl⟩
    next heq => rw [heq] at hstop; exact hstop
    next heq => rw [heq] at hdone; exact hdone

/-- A DMA buffer moves the window for DMA, also when the results cannot be written. -/
lemma dmaAllocCharged_advances (k : Kernel) (pages outPtr : ℕ) :
    k.Advances (k.dmaAllocCharged pages outPtr).2 .dma := by
  have hmap := fun m va phys => mapUser_atMost m k.cpu.cr3 va phys
  rw [dmaAllocCharged]
  split
  next m ha => exact .of_win (.of_pt (frameAllocContiguous_calls ha).2) rfl
  next phys m ha =>
    have hpt : (m.zero phys (pages * frameSize)).pt = k.mm.pt := (frameAllocContiguous_calls ha).2
    dsimp only
    split
    · exact .of_win (.of_pt hpt) rfl
    next hroom =>
      have hroom : k.win.next .dma + pages * frameSize ≤ Window.dma.stop := Nat.le_of_not_lt hroom
      have hstop := mapRun_advances_none (k := k) phys hmap hpt hroom
      have hdone := mapRun_advances (k := k) phys
        { k.win with nextDmaVa := k.win.nextDmaVa + pages * frameSize } hmap hpt hroom rfl
        (fun w' hw' => by cases w' <;> first | exact absurd rfl hw' | rfl)
      rw [Windows.next] at hstop hdone
      split
      next heq => rw [heq] at hstop; exact hstop
      next heq => rw [heq] at hstop; exact hstop
      next heq =>
        rw [heq] at hdone
        split
        · exact hdone.sameMap (copyOut_sameMap ..)
        · exact hdone

/-- The charge moves no window. -/
lemma sysDmaAlloc_advances (k : Kernel) (len outPtr : ℕ) :
    k.Advances (k.sysDmaAlloc len outPtr).1 .dma := by
  rw [sysDmaAlloc]
  split
  · exact .of_win (.of_pt rfl) rfl
  dsimp only
  split
  · exact .of_win (.of_pt rfl) rfl
  next k₁ hcharge =>
    obtain ⟨caps, -, rfl⟩ := currentChargeUntyped_eq_some hcharge
    have hcharged : SameMap k { k with sched := k.sched.setCaps caps } := ⟨rfl, rfl⟩
    have hadv := hcharged.advances (dmaAllocCharged_advances { k with sched := k.sched.setCaps caps }
      (pagesFor len) outPtr)
    split
    next heq => rw [heq] at hadv; exact hadv.sameMap ⟨rfl, rfl⟩
    next heq => rw [heq] at hadv; exact hadv.sameMap ⟨rfl, rfl⟩
    next heq => rw [heq] at hadv; exact hadv

/-- A Frame capability moves the window for shared frames. -/
lemma mapShared_advances (k : Kernel) (phys pages : ℕ) :
    k.Advances (k.mapShared phys pages).2 .shared := by
  have hmap := fun m va phys => mapUser_atMost m k.cpu.cr3 va phys
  rw [mapShared]
  dsimp only
  split
  · exact .of_win (.of_pt rfl) rfl
  next hroom =>
    have hroom : k.win.next .shared + pages * frameSize ≤ Window.shared.stop :=
      Nat.le_of_not_lt hroom
    have hstop := mapRun_advances_none (k := k) phys hmap rfl hroom
    have hdone := mapRun_advances (k := k) phys
      { k.win with nextSharedVa := k.win.nextSharedVa + pages * frameSize } hmap rfl hroom rfl
      (fun w' hw' => by cases w' <;> first | exact absurd rfl hw' | rfl)
    rw [Windows.next] at hstop hdone
    split
    next heq => rw [heq] at hstop; exact hstop
    next heq => rw [heq] at hstop; exact hstop
    next heq => rw [heq] at hdone; exact hdone

lemma frameAllocUnwind_sameMap (k : Kernel) (phys : Option ℕ) (pages : ℕ) :
    SameMap k (k.frameAllocUnwind phys pages).1 := by
  cases phys with
  | none => exact ⟨rfl, rfl⟩
  | some p => exact ⟨freeRun_pt k.mm p pages, rfl⟩

/-- So does a new one, also when the frames are given back. -/
lemma sysFrameAlloc_advances (k : Kernel) (pages capSlot outPtr : ℕ) :
    k.Advances (k.sysFrameAlloc pages capSlot outPtr).1 .shared := by
  rw [sysFrameAlloc]
  split
  · exact .of_win (.of_pt rfl) rfl
  dsimp only
  split
  · exact .of_win (.of_pt rfl) rfl
  next k₁ hcharge =>
    obtain ⟨caps, -, rfl⟩ := currentChargeUntyped_eq_some hcharge
    split
    next m ha =>
      have halloc : SameMap k { k with sched := k.sched.setCaps caps, mm := m } :=
        ⟨(frameAllocContiguous_calls ha).2, rfl⟩
      exact (Advances.of_win (.of_pt rfl) rfl).sameMap
        (halloc.trans (frameAllocUnwind_sameMap _ _ _))
    next phys m ha =>
      have halloc : SameMap k { k with
          sched := k.sched.setCaps caps, mm := m.zero phys (pages * frameSize) } :=
        ⟨(frameAllocContiguous_calls ha).2, rfl⟩
      have hadv := halloc.advances (mapShared_advances _ phys pages)
      split
      next heq => rw [heq] at hadv; exact hadv.sameMap ⟨rfl, rfl⟩
      next heq => rw [heq] at hadv; exact hadv.sameMap (frameAllocUnwind_sameMap ..)
      next va k₂ heq =>
        rw [heq] at hadv
        split
        · have hwrite := hadv.sameMap (copyOut_sameMap k₂ outPtr (leBytes 8 va))
          split
          · exact hwrite.sameMap (frameAllocUnwind_sameMap ..)
          next hins => exact hwrite.sameMap (currentCapInstall_sameMap hins)
        · exact hadv.sameMap (frameAllocUnwind_sameMap ..)

/-- So it does whoever maps it. -/
lemma sysMapFrame_advances (k : Kernel) (capSlot outPtr : ℕ) :
    k.Advances (k.sysMapFrame capSlot outPtr).1 .shared := by
  rw [sysMapFrame]
  split
  · exact .of_win (.of_pt rfl) rfl
  next phys pages hcap =>
    have hadv := mapShared_advances k phys pages
    split
    next heq => rw [heq] at hadv; exact hadv.sameMap ⟨rfl, rfl⟩
    next heq => rw [heq] at hadv; exact hadv
    next heq =>
      rw [heq] at hadv
      split
      · exact hadv.sameMap (copyOut_sameMap ..)
      · exact hadv

/-! The framebuffer and the heap have addresses of their own. -/

/-- The framebuffer has a place of its own. -/
lemma sysFbInfo_outside (plat : Platform) (k : Kernel) (ptr : ℕ) :
    k.mm.SameOutside (k.sysFbInfo plat ptr).1.mm (fbUserVa / frameSize)
      (fbUserVa / frameSize + plat.framebufferFrames.length) ∧
    (k.sysFbInfo plat ptr).1.win = k.win := by
  rw [sysFbInfo]
  split
  · exact ⟨.of_pt rfl, rfl⟩
  next fb hfb =>
    have hlen : plat.framebufferFrames.length =
        pagesFor (fb.phys - pageDown fb.phys + fb.height * fb.pitch) := by
      rw [Platform.framebufferFrames, hfb, Option.elim_some, length_blockRun]
    rw [hlen]
    dsimp only
    generalize pagesFor (fb.phys - pageDown fb.phys + fb.height * fb.pitch) = pages
    have hrun : k.mm.SameOutside (mapRun (fun m va phys => m.mapUserDevice k.cpu.cr3 va phys) pages
        fbUserVa (pageDown fb.phys) k.mm).2 (fbUserVa / frameSize)
        (fbUserVa / frameSize + pages) :=
      fun l p hp hout => mapRun_other
        (fun m va phys => Mm.mapUserDevice_atMost m k.cpu.cr3 va phys) hp (.inr hout)
    split
    next heq => rw [heq] at hrun; exact ⟨hrun, rfl⟩
    next heq => rw [heq] at hrun; exact ⟨hrun, rfl⟩
    next m heq =>
      rw [heq] at hrun
      split
      · have hcopy := copyOut_sameMap { k with mm := m } ptr
          ([fbUserVa + (fb.phys - pageDown fb.phys), fb.width, fb.height, fb.pitch, fb.bpp].flatMap
            (leBytes 8))
        exact ⟨hrun.trans (.of_pt hcopy.pt), rfl⟩
      · exact ⟨hrun, rfl⟩

/-- `sbrk` maps no page at or above `HEAP_MAX`. -/
lemma sbrk_outside (k : Kernel) (delta : ℤ) :
    k.mm.SameOutside (orMax (k.sbrk delta)).1.mm 0 (heapMax / frameSize) ∧
    (orMax (k.sbrk delta)).1.win = k.win := by
  rw [sbrk]
  dsimp only
  split
  · exact ⟨.of_pt rfl, rfl⟩
  split
  · exact ⟨.of_pt rfl, rfl⟩
  split
  · exact ⟨.of_pt rfl, rfl⟩
  by_cases hpos : delta > 0
  · simp only [if_pos hpos]
    split
    · exact ⟨.of_pt rfl, rfl⟩
    next hrange =>
      generalize hnew : k.sched.cur.heapBreak + delta.toNat = new at hrange ⊢
      generalize hpages : (pageUp new - pageUp k.sched.cur.heapBreak) / frameSize = pages
      have hrun : k.mm.SameOutside (allocMapPages k.sched.cur.space pages
          (pageUp k.sched.cur.heapBreak) k.mm).2 0 (heapMax / frameSize) := by
        intro l p hp hout
        -- the pages end at the rounded new break, which is at most `HEAP_MAX`
        refine mapRun_other (fun m va _ => Mm.allocMapUser_atMost m k.sched.cur.space va true false) hp
          (.inr (.inr ?_))
        simp only [pageUp, pageDown, heapMax, frameSize] at hpages hrange hout ⊢
        omega
      split
      next heq => rw [heq] at hrun; exact ⟨hrun, rfl⟩
      next heq => rw [heq] at hrun; exact ⟨hrun, rfl⟩
      next heq => rw [heq] at hrun; exact ⟨hrun, rfl⟩
  · simp only [if_neg hpos]
    split <;> exact ⟨.of_pt rfl, rfl⟩

/-! ## `IOMAP` -/

/-- An `IOMAP` with these arguments gets its first page mapped, or finds it mapped, and does not get to
the end of its run. -/
def iomapStops (k : Kernel) (phys len : ℕ) : Bool :=
  if len = 0 ∨ 16 <<< 20 < len then false
  else
    let physBase := pageDown phys
    let pages := pagesFor (phys - physBase + len)
    let vaBase := k.win.nextMmioVa
    if !k.sched.cur.caps.authorizesMmio physBase (pages * frameSize) then false
    else if mmioRegionEnd < vaBase + pages * frameSize then false
    else
      (k.mm.mapUserDevice k.cpu.cr3 vaBase physBase).1 == .done &&
        (mapRun (fun m va phys => m.mapUserDevice k.cpu.cr3 va phys) pages vaBase physBase k.mm).1 !=
          .done ()

/-- A run of device pages that stops at its first page maps nothing. -/
lemma mapRun_first {cr3 n va phys : ℕ} {m : Mm} (h : (m.mapUserDevice cr3 va phys).1 ≠ .done) :
    (mapRun (fun m va phys => m.mapUserDevice cr3 va phys) n va phys m).2.pt.leaf = m.pt.leaf := by
  cases n with
  | zero => rfl
  | succ n =>
    have hsame : (m.mapUserDevice cr3 va phys).2.pt.leaf = m.pt.leaf := by
      rcases m.mapUserDevice_leaf cr3 va phys with ⟨hdone, -⟩ | ⟨hdone, -⟩ | ⟨-, hsame⟩
      · exact absurd hdone h
      · exact absurd hdone h
      · exact hsame
    rw [mapRun]
    split
    next heq => rw [heq] at hsame; exact hsame
    next heq => rw [heq] at hsame; exact hsame
    next heq => rw [heq] at h; exact absurd rfl h

/-- An `IOMAP` that does not stop midway leaves the pages from its new cursor on as they are. -/
lemma sysIomap_ahead {phys len l p : ℕ} (hstops : k.iomapStops phys len = false)
    (hp : p < lowerHalfPages) (hahead : (k.sysIomap phys len).1.win.nextMmioVa / frameSize ≤ p) :
    (k.sysIomap phys len).1.mm.pt.leaf l p = k.mm.pt.leaf l p := by
  revert hahead hstops
  rw [sysIomap, iomapStops]
  split
  · exact fun _ _ => rfl
  next hlen =>
    dsimp only
    split
    · exact fun _ _ => rfl
    split
    · exact fun _ _ => rfl
    next hroom =>
      generalize pagesFor (phys - pageDown phys + len) = pages at hroom ⊢
      intro hstops
      -- if the loop fails, it does so at its first page
      have hstop : (mapRun (fun m va phys => m.mapUserDevice k.cpu.cr3 va phys) pages
          k.win.nextMmioVa (pageDown phys) k.mm).1 ≠ .done () →
          (mapRun (fun m va phys => m.mapUserDevice k.cpu.cr3 va phys) pages
            k.win.nextMmioVa (pageDown phys) k.mm).2.pt.leaf l p = k.mm.pt.leaf l p := by
        intro hne
        have hfirst : (k.mm.mapUserDevice k.cpu.cr3 k.win.nextMmioVa (pageDown phys)).1 ≠ .done := by
          intro hdone
          simp [hdone, hne] at hstops
        rw [mapRun_first hfirst]
      -- if not, the cursor is past what it mapped
      have hother : k.win.nextMmioVa / frameSize + pages ≤ p →
          (mapRun (fun m va phys => m.mapUserDevice k.cpu.cr3 va phys) pages
            k.win.nextMmioVa (pageDown phys) k.mm).2.pt.leaf l p = k.mm.pt.leaf l p := fun hle =>
        mapRun_other (fun m va phys => Mm.mapUserDevice_atMost m k.cpu.cr3 va phys) hp
          (.inr (.inr hle))
      split
      next heq => rw [heq] at hstop; exact fun _ => hstop (by simp)
      next heq => rw [heq] at hstop; exact fun _ => hstop (by simp)
      next heq =>
        rw [heq] at hother
        intro hahead
        rw [Nat.add_mul_div_right _ _ frameSize_pos] at hahead
        exact hother hahead

/-- What an `IOMAP` that succeeds has done. -/
lemma sysIomap_ok {phys len v : ℕ} (h : k.sysIomap phys len = (k', some v)) (hv : v ≠ u64Max) :
    ∃ m, mapRun (fun m va phys => m.mapUserDevice k.cpu.cr3 va phys)
        (pagesFor (phys - pageDown phys + len)) k.win.nextMmioVa (pageDown phys) k.mm =
          (.done (), m) ∧
      k.win.nextMmioVa + pagesFor (phys - pageDown phys + len) * frameSize ≤ mmioRegionEnd ∧
      v = k.win.nextMmioVa + (phys - pageDown phys) ∧ k'.mm = m ∧
      k'.win.nextMmioVa =
        k.win.nextMmioVa + pagesFor (phys - pageDown phys + len) * frameSize := by
  have hfail : ∀ {k₁ : Kernel}, (k₁, some u64Max) ≠ (k', some v) := by
    intro k₁ heq
    exact hv (Option.some.inj (Prod.mk.inj heq).2).symm
  rw [sysIomap] at h
  split at h
  · exact absurd h hfail
  dsimp only at h
  split at h
  · exact absurd h hfail
  split at h
  · exact absurd h hfail
  next hroom =>
    split at h
    · cases h
    · exact absurd h hfail
    next m heq =>
      obtain ⟨rfl, hval⟩ := Prod.mk.inj h
      exact ⟨m, heq, Nat.le_of_not_lt hroom, (Option.some.inj hval).symm, rfl, rfl⟩

end Kernel

/-! ## New processes -/

/-- The program image maps nothing inside the windows. -/
def Platform.WindowsClear (plat : Platform) : Prop :=
  ∀ page, Elf.Covered plat.image page → page < 0x5000_0000 ∨ 0x8000_0000 ≤ page

/-- The window for device memory of space `l4` is empty from page number `lo` on. -/
def Mm.MmioClear (m : Mm) (l4 lo : ℕ) : Prop :=
  ∀ p, lo ≤ p → p < mmioRegionEnd / frameSize → m.pt.leaf l4 p = none

lemma mmio_lower {p : ℕ} (hp : p < mmioRegionEnd / frameSize) : p < lowerHalfPages := by
  simp only [mmioRegionEnd, frameSize, lowerHalfPages] at hp ⊢
  omega

/-- The window stays clear when something else is mapped outside it. -/
lemma Mm.MmioClear.outside {m m' : Mm} {l4 lo a b : ℕ} (h : m.MmioClear l4 lo)
    (hsame : m.SameOutside m' a b)
    (hout : b ≤ lo ∨ mmioRegionEnd / frameSize ≤ a) : m'.MmioClear l4 lo := by
  intro p hlo hp
  rw [hsame l4 p (mmio_lower hp) (by omega)]
  exact h p hlo hp

/-- The first page number of the window for device memory. -/
def mmioStart : ℕ := Window.mmio.start / frameSize

/-- A new process finds its window for device memory empty. -/
lemma create_mmioClear {m m' : Mm} {pid : ℕ} {p : Process} (hplat : plat.WindowsClear)
    (hdisj : plat.RegionsDisjoint) (hr : AllocatorRun plat.regions m.frames m.calls)
    (h : create plat m pid = (.done p, m')) : m'.MmioClear p.space mmioStart := by
  rcases vspaceNew_cases m with ⟨m₁, -, hnew⟩ | ⟨space, m₁, m₂, ha, hnew, -, hspace⟩
  · rw [create, hnew] at h
    cases h
  have hempty : ∀ q < lowerHalfPages, m₂.pt.leaf space q = none := by
    intro q hq
    rw [Mm.vspaceNew, ha] at hnew
    obtain ⟨-, rfl⟩ := Prod.mk.inj hnew
    rw [PageTables.leaf, PageTables.tree, if_pos hq]
    simp [TableTree.empty, TableTree.setTable]
  have hrun := (hspace ⟨.univ, .univ, .univ⟩ trivial).run hr
  rw [create, hnew] at h
  dsimp only at h
  split at h
  · cases h
  · cases h
  next entry m₃ hload =>
    -- no segment reaches into the window
    have hclear : m₃.MmioClear space mmioStart := by
      intro q hlo hq
      obtain ⟨-, pages, frames, m₄, htouched, hmapped, hpt, -⟩ := Elf.load_eq_ok hdisj hrun hload
      by_contra hne
      rw [hpt, ← hempty q (mmio_lower hq)] at hne
      obtain ⟨page, hpage, -, rfl⟩ := hmapped.other space q hne
      have hcov := htouched.covered.mpr hpage
      simp only [mmioStart, Window.start, mmioRegionEnd, frameSize] at hlo hq
      rcases hplat page hcov with hlt | hle
      · omega
      · omega
    have hstack : m₃.SameOutside (allocMapPages space userStackPages userStackVa m₃).2
        (userStackVa / frameSize) (userStackVa / frameSize + userStackPages) := fun l q hq hout =>
      mapRun_other (fun m va _ => Mm.allocMapUser_atMost m space va true false) hq (.inr hout)
    split at h
    · cases h
    · cases h
    next heq =>
      obtain ⟨hp, rfl⟩ := Prod.mk.inj h
      obtain rfl := Attempt.done.inj hp
      rw [heq] at hstack
      exact hclear.outside hstack (.inl (by decide))

namespace Kernel

/-- The environment goes to the pages from `HEAP_START` on. -/
lemma copyEnv_outside (cr3 space envpPtr envpLen n : ℕ) : ∀ (i : ℕ) (m : Mm),
    m.SameOutside (copyEnv cr3 space envpPtr envpLen n i m).2 0 (heapStart / frameSize + i + n) := by
  induction n with
  | zero => exact fun _ _ => .of_pt rfl
  | succ n ih =>
    intro i m
    have hpage : (heapStart + i * frameSize) / frameSize = heapStart / frameSize + i :=
      Nat.add_mul_div_right _ _ frameSize_pos
    have hmap : m.SameOutside (m.allocMapUser space (heapStart + i * frameSize) true false).2 0
        (heapStart / frameSize + i + (n + 1)) := by
      intro l p hp hout
      exact (Mm.allocMapUser_atMost m space _ true false).other hp (by omega)
    rw [copyEnv]
    dsimp only
    split
    next heq => rw [heq] at hmap; exact hmap
    next heq => rw [heq] at hmap; exact hmap
    next m₁ heq =>
      rw [heq] at hmap
      split
      · exact hmap
      next dst _ =>
        obtain ⟨mem, hmem⟩ := copyBytes_eq cr3 (min (envpLen - i * frameSize) frameSize)
          (envpPtr + i * frameSize) dst m₁
        rw [hmem]
        have hrest := ih (i + 1) { m₁ with mem }
        rw [show heapStart / frameSize + (i + 1) + n = heapStart / frameSize + i + (n + 1) by
          omega] at hrest
        exact (hmap.trans (.of_pt rfl)).trans hrest

/-- `addProcess` puts the child at the end of the table. -/
lemma addProcess_last {p : Process} {capSlot pid : ℕ} (h : k.addProcess p capSlot = (.done pid, k')) :
    k'.mm = k.mm ∧ k'.win = k.win ∧ k'.sched.procs[k.sched.procs.length]? = some p := by
  have hlast : ∀ s : Scheduler, s.procs.length = k.sched.procs.length →
      (s.push p).procs[k.sched.procs.length]? = some p := by
    intro s hlen
    rw [Scheduler.push, ← hlen]
    exact List.getElem?_concat_length
  rw [addProcess] at h
  split at h
  · cases h
  next k₁ hcap =>
    obtain ⟨-, rfl⟩ := Prod.mk.inj h
    rw [installProcessCap] at hcap
    split at hcap
    · obtain rfl := Option.some.inj hcap
      exact ⟨rfl, rfl, hlast _ rfl⟩
    · split at hcap
      · cases hcap
      next caps hins =>
        obtain rfl := Option.some.inj hcap
        exact ⟨rfl, rfl, hlast _ (List.length_modify ..)⟩

/-- A child that is not added changes nothing. -/
lemma addProcess_failed {p : Process} {capSlot : ℕ}
    (h : ∀ pid, (k.addProcess p capSlot).1 ≠ .done pid) : (k.addProcess p capSlot).2 = k := by
  rw [addProcess] at h ⊢
  split
  · rfl
  next heq => rw [heq] at h; exact absurd rfl (h _)

/-- Without a child the process table stays as it is. -/
lemma spawn_failed {capSlot : ℕ} (h : ∀ pid, (k.spawn plat capSlot).1 ≠ .done pid) :
    (k.spawn plat capSlot).2.sched = k.sched := by
  rw [spawn] at h ⊢
  split
  · rfl
  · rfl
  next heq =>
    rw [heq] at h
    rw [addProcess_failed h]

/-- The frames of a child that fails are lost, but no process comes of it. -/
lemma spawnEnv_failed {envpPtr envpLen capSlot : ℕ}
    (h : ∀ pid, (k.spawnEnv plat envpPtr envpLen capSlot).1 ≠ .done pid) :
    (k.spawnEnv plat envpPtr envpLen capSlot).2.sched = k.sched := by
  rw [spawnEnv] at h ⊢
  split
  next hargs => rw [if_pos hargs] at h; exact spawn_failed h
  next hargs =>
    rw [if_neg hargs] at h
    split
    · rfl
    · rfl
    next heq =>
      rw [heq] at h
      dsimp only at h
      split
      · rfl
      next hend =>
        rw [if_neg hend] at h
        split
        · rfl
        next hrange =>
          rw [if_neg hrange] at h
          dsimp only
          split
          · rfl
          · rfl
          next hcopy =>
            rw [hcopy] at h
            rw [addProcess_failed h]

/-- If there is a new process after a spawn, the call has succeeded. -/
lemma child_of_orMax {r : Attempt ℕ × Kernel} {p : Process} (hcore : k'.core = (orMax r).1.core)
    (hfailed : (∀ pid, r.1 ≠ .done pid) → r.2.sched = k.sched)
    (hp : k'.sched.procs[k.sched.procs.length]? = some p) :
    ∃ pid k₁, r = (.done pid, k₁) ∧ k'.core = k₁.core := by
  obtain ⟨o, k₁⟩ := r
  cases o with
  | done pid => exact ⟨pid, k₁, rfl, hcore⟩
  | failed | panic =>
    have hsched : k'.sched = k₁.sched := congrArg Core.sched hcore
    rw [hsched, hfailed fun _ h => by cases h] at hp
    simp at hp

lemma addProcess_win (k : Kernel) (p : Process) (capSlot : ℕ) :
    (k.addProcess p capSlot).2.win = k.win := by
  rw [addProcess, installProcessCap]
  split
  · rfl
  next heq =>
    split at heq
    · obtain rfl := Option.some.inj heq; rfl
    · split at heq
      · cases heq
      · obtain rfl := Option.some.inj heq; rfl

lemma orMax_win (r : Attempt ℕ × Kernel) : (orMax r).1.win = r.2.win := by
  obtain ⟨_ | _ | _, k⟩ := r <;> rfl

/-- A child does not move the windows, which are the same for all processes. -/
lemma spawn_win (plat : Platform) (k : Kernel) (capSlot : ℕ) :
    (k.spawn plat capSlot).2.win = k.win := by
  rw [spawn]
  split
  · rfl
  · rfl
  next m _ => exact addProcess_win { k with mm := m } _ _

lemma spawnEnv_win (plat : Platform) (k : Kernel) (envpPtr envpLen capSlot : ℕ) :
    (k.spawnEnv plat envpPtr envpLen capSlot).2.win = k.win := by
  rw [spawnEnv]
  split
  · exact spawn_win ..
  split
  · rfl
  · rfl
  split
  · rfl
  split
  · rfl
  dsimp only
  split
  · rfl
  · rfl
  next m _ => exact addProcess_win { k with mm := m } _ _

/-- A `SPAWN_ENV` with these arguments passes its range check with an environment of more than 1 GiB,
which does not fit between `HEAP_START` and the windows. -/
def passesLongEnvironment (k : Kernel) (envpPtr envpLen : ℕ) : Bool :=
  envpPtr ≠ 0 && decide (0x4000_0000 < envpLen) && decide (envpPtr + envpLen < userAddrMax) &&
    k.mm.userRangeOk k.cpu.cr3 envpPtr envpLen false

end Kernel

/-- A check of a buffer looks at the entries of its own space. -/
lemma Mm.userRangeOk_congr {m m' : Mm} {l4 : ℕ} (h : m'.pt.leaf l4 = m.pt.leaf l4)
    (virt len : ℕ) (writable : Bool) :
    m'.userRangeOk l4 virt len writable = m.userRangeOk l4 virt len writable := by
  have hok : m'.userPageOk l4 writable = m.userPageOk l4 writable := by
    funext va
    rw [userPageOk, userPageOk, h]
  rw [userRangeOk, userRangeOk, hok]

/-- `create` leaves the spaces in use as they are. -/
lemma create_leaf {m : Mm} {l4 : ℕ} (pid : ℕ) (hdisj : plat.RegionsDisjoint)
    (hr : AllocatorRun plat.regions m.frames m.calls) (hup : Elf.UpperFilled plat.image m)
    (hlive : l4 ∈ handedOut m.calls) : (create plat m pid).2.pt.leaf l4 = m.pt.leaf l4 := by
  rcases create_builds plat m pid with ⟨m₁, ha, heq⟩ | ⟨space, m₁, ha, -, -, hb⟩
  · rw [heq]
    exact congrFun (Mm.frameAlloc_leaf ha) l4
  · have hne : l4 ≠ space := by
      rintro rfl
      exact (fresh_of_frameAlloc hdisj hr ha).1 hlive
    have hb := hb (.ofSpace space ∅) ⟨rfl, rfl, .inr hup⟩
    funext p
    rw [PageTables.leaf_eq_half, PageTables.leaf_eq_half, hb.same]
    rw [PageTables.home]
    split
    · exact fun h => hne (Option.some.inj h)
    · exact fun h => by cases h

namespace Kernel

section Child

variable (hplat : plat.WindowsClear) (hdisj : plat.RegionsDisjoint)
  (hr : AllocatorRun plat.regions k.mm.frames k.mm.calls)

include hplat hdisj hr

/-- The child that `spawn` adds finds its window for device memory empty. -/
lemma spawn_child {capSlot pid : ℕ} (h : k.spawn plat capSlot = (.done pid, k')) :
    ∃ p, k'.sched.procs[k.sched.procs.length]? = some p ∧ k'.mm.MmioClear p.space mmioStart := by
  rw [spawn] at h
  split at h
  · cases h
  · cases h
  next p m hcreate =>
    obtain ⟨hmm, -, hp⟩ := addProcess_last h
    exact ⟨p, hp, by rw [hmm]; exact create_mmioClear hplat hdisj hr hcreate⟩

/-- So does the child of `spawn_env`, unless its environment is too long. -/
lemma spawnEnv_child {envpPtr envpLen capSlot pid : ℕ} (hup : Elf.UpperFilled plat.image k.mm)
    (hlive : k.cpu.cr3 ∈ handedOut k.mm.calls)
    (hlong : k.passesLongEnvironment envpPtr envpLen = false)
    (h : k.spawnEnv plat envpPtr envpLen capSlot = (.done pid, k')) :
    ∃ p, k'.sched.procs[k.sched.procs.length]? = some p ∧ k'.mm.MmioClear p.space mmioStart := by
  rw [spawnEnv] at h
  split at h
  · exact spawn_child hplat hdisj hr h
  next hargs =>
    have hleaf := create_leaf k.sched.nextPid hdisj hr hup hlive
    split at h
    · cases h
    · cases h
    next p m hcreate =>
      rw [hcreate] at hleaf
      split at h
      · cases h
      split at h
      · cases h
      next hrange =>
        obtain ⟨haddr, hok⟩ := not_or.mp hrange
        have hok : k.mm.userRangeOk k.cpu.cr3 envpPtr envpLen false = true := by
          rw [← Mm.userRangeOk_congr hleaf]
          simpa using hok
        -- the environment was accepted, so it is not one of the long ones
        have hshort : envpLen ≤ 0x4000_0000 := by
          by_contra hlt
          have hptr : envpPtr ≠ 0 := (not_or.mp hargs).2
          have hlt : 0x4000_0000 < envpLen := Nat.lt_of_not_le hlt
          have haddr : envpPtr + envpLen < userAddrMax := Nat.lt_of_not_le haddr
          simp [passesLongEnvironment, hptr, hlt, haddr, hok] at hlong
        have hclear := create_mmioClear hplat hdisj hr hcreate
        have henv := copyEnv_outside k.cpu.cr3 p.space envpPtr envpLen (pagesFor envpLen) 0 m
        dsimp only at h
        split at h
        · cases h
        · cases h
        next m' hcopy =>
          obtain ⟨hmm, -, hp⟩ := addProcess_last h
          refine ⟨_, hp, ?_⟩
          rw [hcopy] at henv
          rw [hmm]
          refine hclear.outside henv (.inl ?_)
          simp only [heapStart, frameSize, pagesFor, mmioStart, Window.start]
          omega

end Child

end Kernel

/-! ## One step -/

/-- What a step does to page tables and cursors. -/
inductive MapStep (plat : Platform) (k k' : Kernel) (act : Activity) : Prop
  | same (h : k.SameMap k')
  | window {sys : Sys} {args : Args} {w : Window} (hact : act = .call sys args)
      (hw : sys.window = some w) (h : k.Advances k' w)
  | heap {args : Args} (hact : act = .call .sbrk args)
      (h : k.mm.SameOutside k'.mm 0 (heapMax / frameSize)) (hwin : k'.win = k.win)
  | framebuffer {args : Args} (hact : act = .call .fbInfo args)
      (h : k.mm.SameOutside k'.mm (fbUserVa / frameSize)
        (fbUserVa / frameSize + plat.framebufferFrames.length)) (hwin : k'.win = k.win)
  | child {args : Args} (hact : act = .call .spawn args ∨ act = .call .spawnEnv args)
      (hwin : k'.win = k.win)

/-- A system call from a reachable state is dispatched, and nothing around that touches page tables
or cursors. -/
lemma reachable_dispatch {e : Event} {sys : Sys} (hreach : Reachable (xernel plat) k)
    (hs : Xernel.step plat k e = some (k', out)) (hact : k.activity e = .call sys args) :
    ∃ nr hw r, Sys.decode nr = some sys ∧
      Kernel.dispatch plat { k with cpu := k.cpu.swapgs, exec := .kernel } nr args hw = r ∧
      r.1.SameMap k' ∧ k'.core = r.1.core ∧ out = r.2 := by
  obtain ⟨-, nr, hw, -, hd, heq⟩ := reachable_call hreach hs hact
  refine ⟨nr, hw, _, hd, rfl, ?_⟩
  have hsame := Kernel.syscallExit_sameMap
    (Kernel.dispatch plat { k with cpu := k.cpu.swapgs, exec := .kernel } nr args hw)
  obtain ⟨hcore, hout⟩ := Kernel.syscallExit_core
    (Kernel.dispatch plat { k with cpu := k.cpu.swapgs, exec := .kernel } nr args hw)
  rw [← heq] at hsame hcore hout
  exact ⟨hsame, hcore, hout⟩

/-- The list is complete. -/
theorem step_map {e : Event} (hreach : Reachable (xernel plat) k)
    (hs : Xernel.step plat k e = some (k', out)) : MapStep plat k k' (k.activity e) := by
  by_cases hmaps : ∀ sys args, k.activity e = .call sys args → sys.mapsPages = false
  · exact .same (step_sameMap hs hmaps)
  simp only [not_forall, Bool.not_eq_false] at hmaps
  obtain ⟨sys, args, hact, hsys⟩ := hmaps
  obtain ⟨nr, hw, r, hd, hr, hexit, -, -⟩ := reachable_dispatch hreach hs hact
  have henter : k.SameMap { k with cpu := k.cpu.swapgs, exec := .kernel } := ⟨rfl, rfl⟩
  rw [Kernel.dispatch, hd] at hr
  rw [hact]
  -- leaving the kernel keeps tables and cursors, so each call is looked at by itself
  cases sys with
  | sbrk =>
    subst hr
    obtain ⟨hout, hwin⟩ := Kernel.sbrk_outside { k with cpu := k.cpu.swapgs, exec := .kernel }
      (Kernel.asI64 args.rdi.toNat)
    exact .heap rfl (hout.trans (.of_pt hexit.pt)) (hexit.win.trans hwin)
  | fbInfo =>
    subst hr
    obtain ⟨hout, hwin⟩ := Kernel.sysFbInfo_outside plat
      { k with cpu := k.cpu.swapgs, exec := .kernel } args.rdi.toNat
    exact .framebuffer rfl (hout.trans (.of_pt hexit.pt)) (hexit.win.trans hwin)
  | iomap =>
    subst hr
    exact .window rfl rfl ((henter.advances (Kernel.sysIomap_advances ..)).sameMap hexit)
  | dmaAlloc =>
    subst hr
    exact .window rfl rfl ((henter.advances (Kernel.sysDmaAlloc_advances ..)).sameMap hexit)
  | frameAlloc =>
    subst hr
    exact .window rfl rfl ((henter.advances (Kernel.sysFrameAlloc_advances ..)).sameMap hexit)
  | mapFrame =>
    subst hr
    exact .window rfl rfl ((henter.advances (Kernel.sysMapFrame_advances ..)).sameMap hexit)
  | spawn =>
    subst hr
    refine .child (.inl rfl) (hexit.win.trans ?_)
    exact (Kernel.orMax_win _).trans (Kernel.spawn_win ..)
  | spawnEnv =>
    subst hr
    refine .child (.inr rfl) (hexit.win.trans ?_)
    exact (Kernel.orMax_win _).trans (Kernel.spawnEnv_win ..)
  | _ => cases hsys

end Xernel
