import Xernel.Isolation
import Xernel.Windows

/-!
# What a mapping call reports

`IOMAP`, `DMA_ALLOC`, `FRAME_ALLOC` and `MAP_FRAME` hand the caller the address of a run of pages. Such
a run starts at the cursor of its window, so it is new; `map_user` fails on pages that are mapped, so
what the last three report is mapped. `map_user_device_idempotent` takes a page that is mapped for a
success: what `IOMAP` reports holds as long as the pages from the cursor on are empty in every address
space (`WindowInv`), which a run that was abandoned midway breaks. And all of it holds as long as nothing
writes to the tables themselves (`Kernel.TablesApart`), which a frame that is freed while it is mapped
breaks.
-/

namespace Xernel

open Mm (Builds)

variable {plat : Platform} {k k' : Kernel} {out : Option ℕ} {args : Args} {e : Event}

/-! ## The invariant -/

/-- What happens next may leave pages mapped ahead of the cursor for device memory: an `IOMAP` that
stops midway, a `SPAWN_ENV` with an environment of more than 1 GiB, an `FB_INFO` with a framebuffer of
more than 512 MiB. -/
def Kernel.leavesStale (plat : Platform) (k : Kernel) (e : Event) : Bool :=
  match k.activity e with
  | .call .iomap args => k.iomapStops args.rdi.toNat args.rsi.toNat
  | .call .spawnEnv args => k.passesLongEnvironment args.rsi.toNat args.rdx.toNat
  | .call .fbInfo _ => decide (mmioStart < fbUserVa / frameSize + plat.framebufferFrames.length)
  | _ => false

structure WindowInv (k : Kernel) : Prop where
  cursor : ∀ w, w.start ≤ k.win.next w ∧ k.win.next w ≤ w.stop ∧ frameSize ∣ k.win.next w
  clear : ∀ (i : ℕ) (p : Process), k.sched.procs[i]? = some p →
    k.mm.MmioClear p.space (k.win.nextMmioVa / frameSize)
  aligned : k.mm.pt.Aligned

lemma aligned_boot (h : boot plat = some k) : k.mm.pt.Aligned := by
  obtain ⟨m₀, m, p, hint, hp, rfl⟩ := boot_cases h
  have haligned₀ : m₀.pt.Aligned :=
    (enableInterrupts_builds hint).aligned fun l p leaf hleaf => by cases hleaf
  rcases create_builds plat m₀ 0 with ⟨m₁, -, heq⟩ | ⟨space, m₁, -, -, -, hb⟩
  · rw [hp] at heq; cases heq
  · have hb := hb ⟨.univ, .univ, ∅⟩ ⟨trivial, trivial, .inl ⟨trivial, trivial⟩⟩
    rw [hp] at hb
    exact hb.aligned haligned₀

/-- At first the cursors stand at the start of their windows. -/
lemma first_cursor (w : Window) : w.start ≤ Windows.next ⟨0x5000_0000, 0x6000_0000, 0x7000_0000⟩ w ∧
    Windows.next ⟨0x5000_0000, 0x6000_0000, 0x7000_0000⟩ w ≤ w.stop ∧
    frameSize ∣ Windows.next ⟨0x5000_0000, 0x6000_0000, 0x7000_0000⟩ w := by
  cases w <;> decide

lemma windowInv_boot (hplat : plat.WindowsClear) (hdisj : plat.RegionsDisjoint)
    (h : boot plat = some k) : WindowInv k := by
  obtain ⟨m₀, m, p, hint, hp, rfl⟩ := boot_cases h
  have hrun₀ : AllocatorRun plat.regions m₀.frames m₀.calls :=
    (enableInterrupts_builds hint).run .new
  refine ⟨fun w => first_cursor w, fun i q hq => ?_, ?_⟩
  · have hi : i = 0 := by
      rcases i with _ | i
      · rfl
      · cases hq
    subst hi
    obtain rfl := Option.some.inj hq
    exact create_mmioClear hplat hdisj hrun₀ hp
  · exact aligned_boot h

/-- Every step keeps the entries of the lower halves aligned. -/
lemma MmStep.aligned {a b : Core} {cr3 : ℕ} {bad : Bool} {act : Activity}
    (h : MmStep plat a b cr3 bad act out) (ha : a.mm.pt.Aligned) : b.mm.pt.Aligned := by
  cases h with
  | built _ hb => exact hb.aligned ha
  | noSpace _ hal => rw [Builds.frameAlloc_pt hal]; exact ha
  | created _ _ _ hb => exact hb.aligned ha
  | frameRun _ _ _ hal hb => exact hb.aligned (by rw [(frameAllocContiguous_calls hal).2]; exact ha)
  | unmapped _ _ _ hal hb hm | unwound _ _ _ _ hal hb hm =>
    rw [hm, freeRun_pt]
    exact hb.aligned (by rw [(frameAllocContiguous_calls hal).2]; exact ha)

theorem aligned_run {ts : List KernelStep} (hdisj : plat.RegionsDisjoint)
    (h : Run (xernel plat) ts k) : k.mm.pt.Aligned := by
  refine h.invariant (I := fun k => k.mm.pt.Aligned) (fun _ hk => aligned_boot hk) ?_
  intro k e k' o hreach hal hs
  obtain ⟨ts, hrun⟩ := id hreach
  exact ((spaceInv_run hdisj hrun).mm hreach hs).aligned hal

/-- Creating a process leaves the spaces in use as they are. -/
lemma MmStep.leaf_same {a b : Core} {cr3 l : ℕ} {bad : Bool} {act : Activity}
    (h : MmStep plat a b cr3 bad act out) (hdisj : plat.RegionsDisjoint)
    (hr : AllocatorRun plat.regions a.mm.frames a.mm.calls)
    (hact : act = .call .spawn args ∨ act = .call .spawnEnv args)
    (hl : l ∈ Xernel.handedOut a.mm.calls) : b.mm.pt.leaf l = a.mm.pt.leaf l := by
  cases h with
  | built hplain => rcases hact with rfl | rfl <;> exact hplain.elim
  | noSpace _ ha => exact congrFun (Mm.frameAlloc_leaf ha) l
  | @created _ space m _ ha hlive hb =>
    have hne : l ≠ space := by
      rintro rfl
      exact (fresh_of_frameAlloc hdisj hr ha).1 hl
    funext p
    rw [PageTables.leaf_eq_half, PageTables.leaf_eq_half, hb.same]
    rw [PageTables.home]
    split
    · exact fun h => hne (Option.some.inj h)
    · exact fun h => by cases h
  | frameRun hact' => rcases hact with rfl | rfl <;> cases hact'
  | unmapped hact' => rcases hact with rfl | rfl <;> cases hact'
  | unwound hact' => rcases hact with rfl | rfl <;> cases hact'

namespace WindowInv

/-- The cursors move forward by whole pages, and not past the end of their window. -/
lemma cursor_step (hreach : Reachable (xernel plat) k)
    (hs : Xernel.step plat k e = some (k', out)) (w : Window) :
    ∃ n, k'.win.next w = k.win.next w + n * frameSize ∧ (n ≠ 0 → k'.win.next w ≤ w.stop) := by
  have hsame : k'.win = k.win → ∃ n, k'.win.next w = k.win.next w + n * frameSize ∧
      (n ≠ 0 → k'.win.next w ≤ w.stop) := fun hwin =>
    ⟨0, by rw [hwin, Nat.zero_mul, Nat.add_zero], fun h => absurd rfl h⟩
  cases step_map hreach hs with
  | same h => exact hsame h.win
  | @window sys args w' hact hw' h =>
    by_cases hw : w = w'
    · subst hw
      exact h.next
    · exact ⟨0, by rw [h.others w hw, Nat.zero_mul, Nat.add_zero], fun h => absurd rfl h⟩
  | heap _ _ hwin | framebuffer _ _ hwin | child _ hwin => exact hsame hwin

lemma cursor_le (hreach : Reachable (xernel plat) k) (hs : Xernel.step plat k e = some (k', out))
    (w : Window) : k.win.next w ≤ k'.win.next w := by
  obtain ⟨n, hn, -⟩ := cursor_step hreach hs w
  omega

/-- Every step keeps the cursors at pages of their windows. -/
lemma cursor_kept (hreach : Reachable (xernel plat) k)
    (hs : Xernel.step plat k e = some (k', out)) {w : Window}
    (h : w.start ≤ k.win.next w ∧ k.win.next w ≤ w.stop ∧ frameSize ∣ k.win.next w) :
    w.start ≤ k'.win.next w ∧ k'.win.next w ≤ w.stop ∧ frameSize ∣ k'.win.next w := by
  obtain ⟨hlo, hhi, hdvd⟩ := h
  obtain ⟨n, hn, hle⟩ := cursor_step hreach hs w
  refine ⟨by omega, ?_, ?_⟩
  · rcases Nat.eq_zero_or_pos n with rfl | hpos
    · omega
    · exact hle (Nat.pos_iff_ne_zero.mp hpos)
  · rw [hn]
    exact Nat.dvd_add hdvd (Nat.dvd_mul_left _ _)

/-- In the spaces in use the pages from the new cursor on stay as they are. -/
lemma ahead_same (hinv : WindowInv k) (hdisj : plat.RegionsDisjoint) (hspace : SpaceInv plat k)
    (hreach : Reachable (xernel plat) k) (hs : Xernel.step plat k e = some (k', out))
    (hstale : k.leavesStale plat e = false) {l p : ℕ} (hl : l ∈ handedOut k.mm.calls)
    (hlo : k'.win.nextMmioVa / frameSize ≤ p) (hp : p < mmioRegionEnd / frameSize) :
    k'.mm.pt.leaf l p = k.mm.pt.leaf l p := by
  have hstart : mmioStart ≤ p := by
    refine le_trans (Nat.div_le_div_right ?_) hlo
    exact (hinv.cursor .mmio).1.trans (cursor_le hreach hs .mmio)
  have hlower := mmio_lower hp
  cases step_map hreach hs with
  | same h => rw [h.pt]
  | @window sys args w hact hw h =>
    -- the other two windows lie after the one for device memory
    have hafter : ∀ w', w' ≠ .mmio → mmioRegionEnd ≤ k.win.next w' := by
      intro w' hw'
      refine le_trans ?_ (hinv.cursor w').1
      cases w' <;> first | exact absurd rfl hw' | decide
    by_cases hmmio : w = .mmio
    · subst hmmio
      have hsys : sys = .iomap := by
        cases sys <;> first | rfl | cases hw
      subst hsys
      obtain ⟨nr, hw', r, hd, rfl, hexit, -, -⟩ := reachable_dispatch hreach hs hact
      rw [Kernel.dispatch, hd] at hexit
      dsimp only at hexit
      rw [Kernel.leavesStale, hact] at hstale
      rw [hexit.pt]
      rw [hexit.win] at hlo
      exact Kernel.sysIomap_ahead (k := { k with cpu := k.cpu.swapgs, exec := .kernel }) hstale
        hlower hlo
    · refine h.outside l p hlower (.inl (lt_of_lt_of_le hp ?_))
      exact Nat.div_le_div_right (hafter w hmmio)
  | heap _ h => exact h l p hlower (.inr (le_trans (by decide) hstart))
  | framebuffer hact h =>
    rw [Kernel.leavesStale, hact] at hstale
    have hend := of_decide_eq_false hstale
    exact h l p hlower (.inr (by omega))
  | child hact =>
    exact congrFun ((hspace.mm hreach hs).leaf_same hdisj hspace.run hact hl) p

/-- A new process finds its window for device memory empty. -/
lemma child_clear (hplat : plat.WindowsClear) (hdisj : plat.RegionsDisjoint)
    (hspace : SpaceInv plat k) (hreach : Reachable (xernel plat) k)
    (hs : Xernel.step plat k e = some (k', out)) (hstale : k.leavesStale plat e = false)
    (hact : k.activity e = .call .spawn args ∨ k.activity e = .call .spawnEnv args) {p : Process}
    (hp : k'.sched.procs[k.sched.procs.length]? = some p) : k'.mm.MmioClear p.space mmioStart := by
  -- the child is there, so the call has created it
  have hchild : ∀ {r : Attempt ℕ × Kernel}, k'.core = (Kernel.orMax r).1.core →
      ((∀ pid, r.1 ≠ .done pid) → r.2.sched = k.sched) →
      (∀ pid k₁, r = (.done pid, k₁) → ∃ q, k₁.sched.procs[k.sched.procs.length]? = some q ∧
        k₁.mm.MmioClear q.space mmioStart) →
      k'.mm.MmioClear p.space mmioStart := by
    intro r hcore hfailed hdone
    obtain ⟨pid, k₁, hr, hcore₁⟩ := Kernel.child_of_orMax hcore hfailed hp
    have hsched : k'.sched = k₁.sched := congrArg Core.sched hcore₁
    have hmm : k'.mm = k₁.mm := congrArg Core.mm hcore₁
    obtain ⟨q, hq, hclear⟩ := hdone pid k₁ hr
    rw [hsched, hq] at hp
    obtain rfl := Option.some.inj hp
    rw [hmm]
    exact hclear
  have hcr3 : k.cpu.cr3 ∈ handedOut k.mm.calls := by
    rw [(reachable_onThread hreach hs).cr3]
    exact hspace.live _ _ (Scheduler.getElem?_current _)
  rcases hact with hact | hact
  · obtain ⟨nr, hw, r, hd, rfl, -, hcore, -⟩ := reachable_dispatch hreach hs hact
    rw [Kernel.dispatch, hd] at hcore
    exact hchild hcore Kernel.spawn_failed fun pid k₁ h =>
      Kernel.spawn_child (k := { k with cpu := k.cpu.swapgs, exec := .kernel }) hplat hdisj
        hspace.run h
  · obtain ⟨nr, hw, r, hd, rfl, -, hcore, -⟩ := reachable_dispatch hreach hs hact
    rw [Kernel.dispatch, hd] at hcore
    rw [Kernel.leavesStale, hact] at hstale
    exact hchild hcore Kernel.spawnEnv_failed fun pid k₁ h =>
      Kernel.spawnEnv_child (k := { k with cpu := k.cpu.swapgs, exec := .kernel }) hplat hdisj
        hspace.run hspace.filled hcr3 hstale h

theorem step (hinv : WindowInv k) (hplat : plat.WindowsClear) (hdisj : plat.RegionsDisjoint)
    (hspace : SpaceInv plat k) (hreach : Reachable (xernel plat) k)
    (hs : Xernel.step plat k e = some (k', out)) (hstale : k.leavesStale plat e = false) :
    WindowInv k' := by
  have hcore := reachable_core hreach hs
  have hmmio : k.win.nextMmioVa ≤ k'.win.nextMmioVa := cursor_le hreach hs .mmio
  refine ⟨fun w => cursor_kept hreach hs (hinv.cursor w), fun i p hp => ?_,
    (hspace.mm hreach hs).aligned hinv.aligned⟩
  · rcases hcore.proc hp with ⟨q, hq, hstep⟩ | ⟨hi, -⟩
    · intro pg hlo hpg
      rw [hstep.identity.space, hinv.ahead_same hdisj hspace hreach hs hstale (hspace.live i q hq) hlo
        hpg]
      exact hinv.clear i q hq pg (le_trans (Nat.div_le_div_right hmmio) hlo) hpg
    · rcases hcore.length with ⟨hlen, -⟩ | ⟨-, -, args, hact⟩
      · have hlt : i < k'.core.sched.procs.length := (List.getElem?_eq_some_iff.mp hp).1
        omega
      · have hi' : i = k.sched.procs.length := hi
        subst hi'
        have hclear := child_clear hplat hdisj hspace hreach hs hstale hact hp
        refine fun pg hlo hpg => hclear pg (le_trans ?_ hlo) hpg
        exact Nat.div_le_div_right ((hinv.cursor .mmio).1.trans hmmio)

end WindowInv

/-! ## Mapped runs -/

/-- The pages from `va` on are mapped to the frames from `phys` on, for ring 3, writable and not
executable. -/
def Mm.MapsRun (m : Mm) (space va phys pages : ℕ) : Prop :=
  ∀ i < pages, m.physOf space (va + i * frameSize) = some (phys + i * frameSize) ∧
    ∃ leaf, m.pt.leaf space ((va + i * frameSize) / frameSize) = some leaf ∧
      leaf.flags.userAccessible = true ∧ leaf.flags.writable = true ∧ leaf.flags.noExecute = true

namespace Mm.MapsRun

variable {m m' : Mm} {space va phys n : ℕ} {flags : PageFlags}

lemma of_pt (h : m.MapsRun space va phys n) (hpt : m'.pt = m.pt) : m'.MapsRun space va phys n := by
  intro i hi
  obtain ⟨hphys, hleaf⟩ := h i hi
  refine ⟨?_, by rw [hpt]; exact hleaf⟩
  rw [Mm.physOf, hpt]
  exact hphys

lemma of_leaf (hva : frameSize ∣ va) (huser : flags.userAccessible = true)
    (hwrite : flags.writable = true) (hexec : flags.noExecute = true)
    (h : ∀ i < n, m.pt.leaf space (va / frameSize + i) = some ⟨phys + i * frameSize, flags⟩) :
    m.MapsRun space va phys n := by
  intro i hi
  have hpage : (va + i * frameSize) / frameSize = va / frameSize + i :=
    Nat.add_mul_div_right _ _ frameSize_pos
  have hoff : (va + i * frameSize) % frameSize = 0 :=
    Nat.mod_eq_zero_of_dvd (Nat.dvd_add hva (Nat.dvd_mul_left _ _))
  rw [hpage]
  refine ⟨?_, _, h i hi, huser, hwrite, hexec⟩
  rw [Mm.physOf, hpage, h i hi, Option.map_some, hoff]
  rfl

end Mm.MapsRun

section MapRun

variable {m m' : Mm} {space va phys n stop : ℕ}

lemma page_run_le (hva : frameSize ∣ va) (hroom : va + n * frameSize ≤ stop)
    (hstop : stop ≤ sharedRegionEnd) : va / frameSize + n ≤ lowerHalfPages := by
  obtain ⟨q, rfl⟩ := hva
  rw [Nat.mul_div_cancel_left q frameSize_pos]
  simp only [frameSize, sharedRegionEnd, lowerHalfPages] at *
  omega

/-- A run of `map_user` that gets to the end. -/
lemma mapRun_mapUser_maps (hva : frameSize ∣ va) (hphys : frameSize ∣ phys)
    (hlow : va / frameSize + n ≤ lowerHalfPages)
    (h : mapRun (fun m va phys => m.mapUser space va phys true false) n va phys m = (.done (), m')) :
    m'.MapsRun space va phys n := by
  have hmap := fun m va phys => mapUser_atMost m space va phys
  have hleaf : ∀ (m : Mm) (va phys : ℕ) (m' : Mm), m.mapUser space va phys true false = (.done, m') →
      m.pt.leaf space (va / frameSize) = none ∧ m'.pt.leaf = setLeafAt m.pt.leaf space
        (va / frameSize) { phys := pageDown phys, flags := Mm.userFlags true false } := by
    intro m va phys m' heq
    have hcases := m.mapWithFlags_leaf space va phys (Mm.userFlags true false)
    rw [← Mm.mapUser_eq, heq] at hcases
    rcases hcases with ⟨-, hnone, hset⟩ | ⟨hne, -⟩
    · exact ⟨hnone, hset⟩
    · exact absurd rfl hne
  have hempty := mapRun_empty hmap (fun m va phys m' heq => (hleaf m va phys m' heq).1) hlow h
  exact .of_leaf hva rfl rfl rfl fun i hi => mapRun_fills hmap
    (fun m va phys m' heq _ => (hleaf m va phys m' heq).2) hlow hphys h i hi (hempty i hi)

/-- A run of device pages that gets to the end and finds its pages empty. -/
lemma mapRun_mapUserDevice_maps (hva : frameSize ∣ va) (hphys : frameSize ∣ phys)
    (hlow : va / frameSize + n ≤ lowerHalfPages)
    (hempty : ∀ i < n, m.pt.leaf space (va / frameSize + i) = none)
    (h : mapRun (fun m va phys => m.mapUserDevice space va phys) n va phys m = (.done (), m')) :
    m'.MapsRun space va phys n := by
  have hmap := fun m va phys => Mm.mapUserDevice_atMost m space va phys
  have hfill : FillsEmpty (fun m va phys => m.mapUserDevice space va phys) space Mm.deviceFlags := by
    intro m va phys m' heq hnone
    dsimp only at heq
    have hcases := m.mapUserDevice_leaf space va phys
    rw [heq] at hcases
    rcases hcases with ⟨-, -, hset⟩ | ⟨-, hused, -⟩ | ⟨hne, -⟩
    · exact hset
    · exact absurd hnone hused
    · exact absurd rfl hne
  exact .of_leaf hva rfl rfl rfl fun i hi =>
    mapRun_fills hmap hfill hlow hphys h i hi (hempty i hi)

end MapRun

/-! ## Results in user memory -/

lemma Mm.readUser_add (m : Mm) (l4 ptr a b : ℕ) :
    m.readUser l4 ptr (a + b) = m.readUser l4 ptr a ++ m.readUser l4 (ptr + a) b := by
  rw [readUser, readUser, readUser, List.range_add, List.map_append, List.map_map]
  congr 1
  exact List.map_congr_left fun i _ => by rw [Function.comp_apply, Nat.add_assoc]

/-- The caller reads back what the kernel has written to a buffer of its. -/
lemma Kernel.copyOut_readUser {ptr : ℕ} (bytes : List UInt8) (hal : k.mm.pt.Aligned)
    (hlen : bytes.length ≤ frameSize) (hok : k.userSliceMut ptr bytes.length = true) :
    (k.copyOut ptr bytes).mm.readUser k.cpu.cr3 ptr bytes.length = bytes := by
  rw [userSliceMut] at hok
  split at hok
  · cases hok
  rw [userBufferOk] at hok
  split at hok
  · cases hok
  split at hok
  · cases hok
  split at hok
  · cases hok
  next haddr =>
    have hleaf : ∀ i, ∃ leaf : Leaf, i < bytes.length → frameSize ∣ leaf.phys ∧
        k.mm.pt.leaf k.cpu.cr3 ((ptr + i) / frameSize) = some leaf := by
      intro i
      by_cases hi : i < bytes.length
      · obtain ⟨leaf, hleaf⟩ := Mm.userRangeOk_leaf hok hi
        refine ⟨leaf, fun _ => ⟨?_, hleaf⟩⟩
        have hlow : (ptr + i) / frameSize < lowerHalfPages := by
          simp only [userAddrMax, frameSize, lowerHalfPages] at haddr ⊢
          omega
        rw [PageTables.leaf, PageTables.tree, if_pos hlow] at hleaf
        exact hal _ _ _ hleaf
      · exact ⟨⟨0, Mm.deviceFlags⟩, fun h => absurd h hi⟩
    choose leaf hleaf using hleaf
    refine Mm.readUser_writeUser (fun i => (leaf i).phys + (ptr + i) % frameSize)
      (fun i hi => by rw [Mm.physOf, (hleaf i hi).2, Option.map_some]) fun i hi j hj heq => ?_
    -- frames are aligned, so the offset in the page tells two addresses of the buffer apart
    obtain ⟨a, ha⟩ := (hleaf i hi).1
    obtain ⟨b, hb⟩ := (hleaf j hj).1
    simp only [ha, hb, frameSize] at heq hlen
    omega

/-! ## Calls that succeed -/

namespace Kernel

lemma ne_zero_result {k₁ : Kernel} : (k₁, some u64Max) ≠ (k', some 0) := by
  intro h
  have hmax := Option.some.inj (Prod.mk.inj h).2
  simp [u64Max] at hmax

lemma mapShared_ok {phys pages va : ℕ} (h : k.mapShared phys pages = (.done va, k')) :
    va = k.win.nextSharedVa ∧ va + pages * frameSize ≤ sharedRegionEnd ∧
    mapRun (fun m va phys => m.mapUser k.cpu.cr3 va phys true false) pages va phys k.mm =
      (.done (), k'.mm) ∧
    k'.win.nextSharedVa = va + pages * frameSize ∧ k'.sched = k.sched ∧ k'.cpu = k.cpu := by
  rw [mapShared] at h
  dsimp only at h
  split at h
  · cases h
  next hroom =>
    split at h
    · cases h
    · cases h
    next m heq =>
      obtain ⟨hva, rfl⟩ := Prod.mk.inj h
      obtain rfl := Attempt.done.inj hva
      exact ⟨rfl, Nat.le_of_not_lt hroom, heq, rfl, rfl, rfl⟩

lemma sysMapFrame_ok {capSlot outPtr : ℕ} (h : k.sysMapFrame capSlot outPtr = (k', some 0)) :
    ∃ phys pages va k₁, k.sched.cur.caps.slot capSlot = some (.frame phys pages) ∧
      k.mapShared phys pages = (.done va, k₁) ∧ k₁.userSliceMut outPtr 8 = true ∧
      k' = k₁.copyOut outPtr (leBytes 8 va) := by
  rw [sysMapFrame] at h
  split at h
  · exact absurd h ne_zero_result
  next phys pages hcap =>
    split at h
    · cases h
    · exact absurd h ne_zero_result
    next va k₁ heq =>
      split at h
      next hok =>
        exact ⟨phys, pages, va, k₁, currentFrameCap_eq_some hcap, heq, hok, (Prod.mk.inj h).1.symm⟩
      next => exact absurd h ne_zero_result

lemma sysFrameAlloc_ok {pages capSlot outPtr : ℕ}
    (h : k.sysFrameAlloc pages capSlot outPtr = (k', some 0)) :
    pages ≠ 0 ∧ pages < 2 ^ 40 ∧
    ∃ phys m va, ∃ k₁ k₂ : Kernel, k.mm.frameAllocContiguous pages = (some phys, m) ∧
      k₁.mm.pt = k.mm.pt ∧ k₁.win = k.win ∧ k₁.cpu = k.cpu ∧
      k₁.mapShared phys pages = (.done va, k₂) ∧ k₂.userSliceMut outPtr 8 = true ∧
      k'.mm = (k₂.copyOut outPtr (leBytes 8 va)).mm ∧ k'.win = k₂.win ∧
      k'.sched.cur.caps.slot capSlot = some (.frame phys pages) := by
  have hunwind : ∀ {k₁ : Kernel} {phys : Option ℕ}, k₁.frameAllocUnwind phys pages ≠ (k', some 0) :=
    fun h => ne_zero_result h
  rw [sysFrameAlloc] at h
  split at h
  · exact absurd h ne_zero_result
  next hpages =>
    dsimp only at h
    split at h
    · exact absurd h ne_zero_result
    next k₁ hcharge =>
      obtain ⟨caps, -, rfl⟩ := currentChargeUntyped_eq_some hcharge
      split at h
      · exact absurd h hunwind
      next phys m ha =>
        split at h
        · cases h
        · exact absurd h hunwind
        next va k₂ hmap =>
          split at h
          next hok =>
            split at h
            · exact absurd h hunwind
            next k₃ hins =>
              obtain ⟨rfl, -⟩ := Prod.mk.inj h
              obtain ⟨caps', hins', rfl⟩ := currentCapInstall_eq_some hins
              have hmax : pages ≤ maxSharedPages := Nat.le_of_not_lt (not_or.mp hpages).2
              -- of all exits this is the one that reports success
              refine ⟨(not_or.mp hpages).1, lt_of_le_of_lt hmax (by decide), phys, m, va,
                { k with sched := k.sched.setCaps caps, mm := m.zero phys (pages * frameSize) }, k₂, ha,
                (frameAllocContiguous_calls ha).2, rfl, rfl, hmap, hok, rfl, rfl, ?_⟩
              show (Scheduler.setCaps _ caps').cur.caps.slot _ = _
              rw [Scheduler.setCaps, Scheduler.cur_modifyCur]
              exact (CNode.slot_insert hins').trans (if_pos rfl)
          next => exact absurd h hunwind

/-- A `DMA_ALLOC` that succeeds. -/
lemma sysDmaAlloc_ok {len outPtr : ℕ} (h : k.sysDmaAlloc len outPtr = (k', some 0)) :
    pagesFor len ≠ 0 ∧ pagesFor len < 2 ^ 40 ∧
    ∃ phys m, ∃ k₁ : Kernel, k.mm.frameAllocContiguous (pagesFor len) = (some phys, m) ∧
      k.win.nextDmaVa + pagesFor len * frameSize ≤ dmaRegionEnd ∧
      mapRun (fun m va phys => m.mapUser k.cpu.cr3 va phys true false) (pagesFor len) k.win.nextDmaVa
        phys (m.zero phys (pagesFor len * frameSize)) = (.done (), k₁.mm) ∧
      k₁.win.nextDmaVa = k.win.nextDmaVa + pagesFor len * frameSize ∧ k₁.cpu = k.cpu ∧
      k₁.userSliceMut outPtr 16 = true ∧
      k' = k₁.copyOut outPtr (leBytes 8 k.win.nextDmaVa ++ leBytes 8 phys) := by
  rw [sysDmaAlloc] at h
  split at h
  · exact absurd h ne_zero_result
  next hlen =>
    dsimp only at h
    split at h
    · exact absurd h ne_zero_result
    next k₀ hcharge =>
      obtain ⟨caps, -, rfl⟩ := currentChargeUntyped_eq_some hcharge
      rw [dmaAllocCharged] at h
      have hpos : pagesFor len ≠ 0 ∧ pagesFor len < 2 ^ 40 := by
        simp only [pagesFor, frameSize]
        omega
      -- from here on the length does not matter
      generalize pagesFor len = pages at h hpos ⊢
      refine ⟨hpos.1, hpos.2, ?_⟩
      dsimp only at h
      generalize ha : k.mm.frameAllocContiguous pages = got at h
      obtain ⟨_ | phys, m⟩ := got
      · exact absurd h ne_zero_result
      · dsimp only at h
        by_cases hroom : dmaRegionEnd < k.win.nextDmaVa + pages * frameSize
        · rw [if_pos hroom] at h
          exact absurd h ne_zero_result
        rw [if_neg hroom] at h
        generalize hmap : mapRun _ pages k.win.nextDmaVa phys _ = r at h
        obtain ⟨_ | _ | _, m₁⟩ := r
        · dsimp only at h
          generalize hok : Kernel.userSliceMut _ outPtr 16 = ok at h
          cases ok with
          | false => exact absurd h ne_zero_result
          | true =>
            obtain ⟨rfl, -⟩ := Prod.mk.inj h
            refine ⟨phys, m, { k with
              sched := k.sched.setCaps caps
              mm := m₁
              win := { k.win with nextDmaVa := k.win.nextDmaVa + pages * frameSize } }, rfl,
              Nat.le_of_not_lt hroom, hmap, rfl, rfl, hok, rfl⟩
        · exact absurd h ne_zero_result
        · cases h

end Kernel

/-! ## What is reported -/

/-- A run of `pages` pages from address `va` on, for the physical run from `phys` on. -/
structure MappedRun where
  va : ℕ
  phys : ℕ
  pages : ℕ
  deriving Repr, DecidableEq

/-- The word at user address `ptr`. -/
def Kernel.userWord (k : Kernel) (space ptr : ℕ) : ℕ := leNat (k.mm.readUser space ptr 8)

/-- The window and the run that a successful mapping call reports to its caller: `IOMAP` returns the
address, the others write it to the caller's buffer. The physical run is the one asked for, the one
written next to the address, or that of the `Frame` capability. -/
def reported (t : KernelStep) : Option (Window × MappedRun) :=
  let space := t.pre.sched.cur.space
  match t.pre.activity t.event, t.out with
  | .call .iomap args, some v =>
    let phys := args.rdi.toNat
    if v = u64Max then none
    else some (.mmio, ⟨pageDown v, pageDown phys,
      pagesFor (phys - pageDown phys + args.rsi.toNat)⟩)
  | .call .dmaAlloc args, some 0 =>
    some (.dma, ⟨t.post.userWord space args.rsi.toNat, t.post.userWord space (args.rsi.toNat + 8),
      pagesFor args.rdi.toNat⟩)
  | .call .frameAlloc args, some 0 =>
    some (.shared, ⟨t.post.userWord space args.rdx.toNat,
      (t.post.sched.cur.caps.slot args.rsi.toNat).elim 0 CapEntry.object, args.rdi.toNat⟩)
  | .call .mapFrame args, some 0 =>
    let cap := t.pre.sched.cur.caps.slot args.rdi.toNat
    some (.shared, ⟨t.post.userWord space args.rsi.toNat, cap.elim 0 CapEntry.object,
      cap.elim 0 CapEntry.badge⟩)
  | _, _ => none

/-- What the calls of a run report is so: the pages are mapped to the physical run in the caller's
address space, by tables that neither the report nor anybody else can write to; they lie inside the
window of the call, and no page was in a run reported earlier to the same process. -/
def MappingsHold (plat : Platform) (ts : List KernelStep) : Prop :=
  ∀ (n : ℕ) (t : KernelStep) (w : Window) (r : MappedRun), ts[n]? = some t →
    reported t = some (w, r) →
    (t.post.mm.MapsRun t.pre.sched.cur.space r.va r.phys r.pages ∧ t.post.TablesApart plat) ∧
    (w.start ≤ r.va ∧ r.va + r.pages * frameSize ≤ w.stop) ∧
    ∀ (n' : ℕ) (t' : KernelStep) (w' : Window) (r' : MappedRun), n' < n → ts[n']? = some t' →
      reported t' = some (w', r') →
      t'.pre.sched.cur.pid = t.pre.sched.cur.pid → ∀ i < r.pages,
        ¬ (r'.va ≤ r.va + i * frameSize ∧ r.va + i * frameSize < r'.va + r'.pages * frameSize)

/-- A call that reports a run took it at the cursor of its window and has mapped it. -/
structure Takes (k k' : Kernel) (w : Window) (r : MappedRun) : Prop where
  start : r.va = k.win.next w
  cursor : k'.win.next w = r.va + r.pages * frameSize
  room : r.va + r.pages * frameSize ≤ w.stop
  maps : k'.mm.MapsRun k.sched.cur.space r.va r.phys r.pages

/-- The addresses of the platform's memory map are 64-bit values. -/
def Platform.RegionsFit (plat : Platform) : Prop := ∀ r ∈ plat.regions, r.stop ≤ 2 ^ 64

lemma leNat_word {x : ℕ} (h : x < 2 ^ 64) : leNat (leBytes 8 x) = x := by
  rw [leNat_leBytes]
  exact Nat.mod_eq_of_lt h

/-- The word that a call wrote to the buffer of its caller. -/
lemma Kernel.copyOut_userWord {ptr x : ℕ} (hal : k.mm.pt.Aligned) (hx : x < 2 ^ 64)
    (hok : k.userSliceMut ptr 8 = true) :
    (k.copyOut ptr (leBytes 8 x)).userWord k.cpu.cr3 ptr = x := by
  have hread := copyOut_readUser (leBytes 8 x) hal (by rw [length_leBytes]; decide)
    (by rw [length_leBytes]; exact hok)
  rw [length_leBytes] at hread
  rw [userWord, hread, leNat_word hx]

/-- A run of frames that a call allocated. -/
lemma SpaceInv.contiguous {n phys : ℕ} {m : Mm} (hspace : SpaceInv plat k)
    (hdisj : plat.RegionsDisjoint) (hn : n ≠ 0) (hlt : n < 2 ^ 40)
    (ha : k.mm.frameAllocContiguous n = (some phys, m)) :
    IsRam plat.regions phys ∧ frameSize ∣ phys := by
  obtain ⟨n, rfl⟩ := Nat.exists_eq_succ_of_ne_zero hn
  have hmem : phys ∈ blockRun frameSize phys (n + 1) := by
    rw [blockRun_succ]
    exact List.mem_cons_self
  have hout := (fresh_of_contiguous hdisj hspace.run hlt ha phys hmem).2
  have hrun : AllocatorRun plat.regions m.frames m.calls := by
    obtain ⟨-, rfl⟩ := Prod.mk.inj ha
    exact hspace.run.allocContiguous hlt rfl
  exact hrun.isRam hdisj hout

/-- `map_shared` at the cursor of its window, with the address in the caller's buffer. -/
lemma WindowInv.takes_shared {k₁ k₂ k₃ : Kernel} {phys pages va outPtr : ℕ} (hinv : WindowInv k)
    (hwin : k₁.win = k.win) (hcr3 : k₁.cpu.cr3 = k.sched.cur.space)
    (hphys : pages ≠ 0 → frameSize ∣ phys) (hmap : k₁.mapShared phys pages = (.done va, k₂))
    (hok : k₂.userSliceMut outPtr 8 = true)
    (hmm : k₃.mm = (k₂.copyOut outPtr (leBytes 8 va)).mm) (hwin₃ : k₃.win = k₂.win)
    (hal : k₃.mm.pt.Aligned) :
    Takes k k₃ .shared ⟨k₃.userWord k.sched.cur.space outPtr, phys, pages⟩ := by
  obtain ⟨rfl, hroom, hrun, hnext, -, hcpu⟩ := Kernel.mapShared_ok hmap
  have hsame := Kernel.copyOut_sameMap k₂ outPtr (leBytes 8 k₁.win.nextSharedVa)
  have hpt : k₃.mm.pt = k₂.mm.pt := by rw [hmm, hsame.pt]
  have hdvd : frameSize ∣ k₁.win.nextSharedVa := by
    rw [hwin]
    exact (hinv.cursor .shared).2.2
  have hword : k₃.userWord k.sched.cur.space outPtr = k₁.win.nextSharedVa := by
    have hlt : k₁.win.nextSharedVa < 2 ^ 64 := by
      simp only [sharedRegionEnd] at hroom
      omega
    have hread := Kernel.copyOut_userWord (hpt ▸ hal) hlt hok
    rw [hcpu, hcr3] at hread
    rw [← hread, Kernel.userWord, hmm]
    rfl
  rw [hword]
  refine ⟨by rw [hwin]; rfl, by rw [hwin₃]; exact hnext, hroom, ?_⟩
  refine Mm.MapsRun.of_pt ?_ hpt
  by_cases hpages : pages = 0
  · subst hpages
    exact fun i hi => absurd hi (Nat.not_lt_zero i)
  · rw [← hcr3]
    exact mapRun_mapUser_maps hdvd (hphys hpages) (page_run_le hdvd hroom le_rfl) hrun

section Reported

variable (hinv : WindowInv k) (hal : k'.mm.pt.Aligned) (hreach : Reachable (xernel plat) k)
  (hs : Xernel.step plat k e = some (k', out))

include hinv hreach hs

lemma takes_iomap {v : ℕ} (hact : k.activity e = .call .iomap args) (hout : out = some v)
    (hv : v ≠ u64Max) :
    Takes k k' .mmio ⟨pageDown v, pageDown args.rdi.toNat,
      pagesFor (args.rdi.toNat - pageDown args.rdi.toNat + args.rsi.toNat)⟩ := by
  have hcr3 := (reachable_onThread hreach hs).cr3
  obtain ⟨nr, hw, r, hd, hr, hexit, -, hres⟩ := reachable_dispatch hreach hs hact
  rw [Kernel.dispatch, hd] at hr
  obtain ⟨k₁, o⟩ := r
  obtain rfl : o = some v := by rw [← hout, hres]
  obtain ⟨m, hmap, hroom, rfl, rfl, hcur⟩ := Kernel.sysIomap_ok hr hv
  generalize pagesFor _ = pages at hmap hroom hcur ⊢
  dsimp only at hmap hroom hcur hexit ⊢
  obtain ⟨hlo, -, hdvd⟩ := hinv.cursor .mmio
  have hdvd : frameSize ∣ k.win.nextMmioVa := hdvd
  have hva : pageDown (k.win.nextMmioVa + (args.rdi.toNat - pageDown args.rdi.toNat)) =
      k.win.nextMmioVa := by
    obtain ⟨q, hq⟩ := hdvd
    simp only [hq, pageDown, frameSize]
    omega
  rw [hva]
  have hlow := page_run_le hdvd hroom (by decide)
  refine ⟨rfl, ?_, hroom, ?_⟩
  · rw [hexit.win]
    exact hcur
  · refine Mm.MapsRun.of_pt ?_ hexit.pt
    rw [← hcr3]
    refine mapRun_mapUserDevice_maps hdvd (frameSize_dvd_pageDown _) hlow (fun i hi => ?_) hmap
    -- the pages from the cursor on are empty in the caller's space
    have hi : i < pages := hi
    dsimp only
    rw [hcr3]
    refine hinv.clear _ _ (Scheduler.getElem?_current _) _ (Nat.le_add_right _ _) ?_
    obtain ⟨q, hq⟩ := hdvd
    simp only [hq, frameSize, mmioRegionEnd] at hroom ⊢
    omega

include hal

lemma takes_mapFrame (hdisj : plat.RegionsDisjoint)
    (hact : k.activity e = .call .mapFrame args) (hout : out = some 0) :
    Takes k k' .shared ⟨k'.userWord k.sched.cur.space args.rsi.toNat,
      (k.sched.cur.caps.slot args.rdi.toNat).elim 0 CapEntry.object,
      (k.sched.cur.caps.slot args.rdi.toNat).elim 0 CapEntry.badge⟩ := by
  have hcr3 := (reachable_onThread hreach hs).cr3
  obtain ⟨nr, hw, r, hd, hr, hexit, hcore, hres⟩ := reachable_dispatch hreach hs hact
  rw [Kernel.dispatch, hd] at hr
  obtain ⟨k₁, o⟩ := r
  obtain rfl : o = some 0 := by rw [← hout, hres]
  obtain ⟨phys, pages, va, k₂, hcap, hmap, hok, rfl⟩ := Kernel.sysMapFrame_ok hr
  have hcap : k.sched.cur.caps.slot args.rdi.toNat = some (.frame phys pages) := hcap
  rw [hcap]
  obtain ⟨ts, hrun⟩ := hreach
  have hphys : pages ≠ 0 → frameSize ∣ phys := by
    intro hpages
    have hheld := framesHeld_run hdisj hrun _ (.inl ⟨_, _, Core.hasSlot_cur hcap⟩) rfl
    obtain ⟨n, rfl⟩ := Nat.exists_eq_succ_of_ne_zero hpages
    have hmem : phys ∈ blockRun frameSize phys (n + 1) := by
      rw [blockRun_succ]
      exact List.mem_cons_self
    exact ((spaceInv_run hdisj hrun).run.isRam hdisj (hheld.mem_handedOut hmem)).2
  have hwin : ({ k with cpu := k.cpu.swapgs, exec := .kernel } : Kernel).win = k.win := rfl
  exact hinv.takes_shared hwin hcr3 hphys hmap hok (congrArg Core.mm hcore) hexit.win hal

lemma takes_frameAlloc (hdisj : plat.RegionsDisjoint) (hspace : SpaceInv plat k)
    (hact : k.activity e = .call .frameAlloc args) (hout : out = some 0) :
    Takes k k' .shared ⟨k'.userWord k.sched.cur.space args.rdx.toNat,
      (k'.sched.cur.caps.slot args.rsi.toNat).elim 0 CapEntry.object, args.rdi.toNat⟩ := by
  have hcr3 := (reachable_onThread hreach hs).cr3
  obtain ⟨nr, hw, r, hd, hr, hexit, hcore, hres⟩ := reachable_dispatch hreach hs hact
  rw [Kernel.dispatch, hd] at hr
  obtain ⟨k₃, o⟩ := r
  obtain rfl : o = some 0 := by rw [← hout, hres]
  obtain ⟨hpages, hlt, phys, m, va, k₁, k₂, ha, -, hwin, hcpu, hmap, hok, hmm, hwin₃, hslot⟩ :=
    Kernel.sysFrameAlloc_ok hr
  have hsched : k'.sched = k₃.sched := congrArg Core.sched hcore
  rw [hsched, hslot]
  refine hinv.takes_shared hwin (by rw [hcpu]; exact hcr3) (fun _ => ?_) hmap hok
    ((congrArg Core.mm hcore).trans hmm) (hexit.win.trans hwin₃) hal
  exact (hspace.contiguous hdisj hpages hlt ha).2

omit hinv in
lemma takes_dmaAlloc (hdvd : frameSize ∣ k.win.nextDmaVa) (hdisj : plat.RegionsDisjoint)
    (hfit : plat.RegionsFit) (hspace : SpaceInv plat k)
    (hact : k.activity e = .call .dmaAlloc args) (hout : out = some 0) :
    Takes k k' .dma ⟨k'.userWord k.sched.cur.space args.rsi.toNat,
      k'.userWord k.sched.cur.space (args.rsi.toNat + 8), pagesFor args.rdi.toNat⟩ := by
  have hcr3 := (reachable_onThread hreach hs).cr3
  obtain ⟨nr, hw, r, hd, hr, hexit, hcore, hres⟩ := reachable_dispatch hreach hs hact
  rw [Kernel.dispatch, hd] at hr
  obtain ⟨k₂, o⟩ := r
  obtain rfl : o = some 0 := by rw [← hout, hres]
  obtain ⟨hpages, hlt, phys, m, k₁, ha, hroom, hmap, hcur, hcpu, hok, rfl⟩ :=
    Kernel.sysDmaAlloc_ok hr
  obtain ⟨⟨reg, hreg, -, hram⟩, hphys⟩ := hspace.contiguous hdisj hpages hlt ha
  generalize pagesFor args.rdi.toNat = pages at hroom hmap hcur ⊢
  have hpt : k'.mm.pt = k₁.mm.pt := by
    rw [hexit.pt]
    exact (Kernel.copyOut_sameMap ..).pt
  -- the buffer reads back as the two words
  have hread := Kernel.copyOut_readUser (k := k₁) (leBytes 8 k.win.nextDmaVa ++ leBytes 8 phys)
    (hpt ▸ hal)
    (by rw [List.length_append, length_leBytes, length_leBytes]; decide)
    (by rw [List.length_append, length_leBytes, length_leBytes]; exact hok)
  rw [List.length_append, length_leBytes, length_leBytes, Mm.readUser_add, hcpu] at hread
  obtain ⟨hva, hpa⟩ := List.append_inj hread (by rw [length_leBytes, Mm.readUser]; simp)
  have hmm : k'.mm = _ := congrArg Core.mm hcore
  have hva' : k'.userWord k.sched.cur.space args.rsi.toNat = k.win.nextDmaVa := by
    rw [Kernel.userWord, hmm, ← hcr3]
    refine (congrArg leNat hva).trans (leNat_word ?_)
    simp only [dmaRegionEnd] at hroom
    omega
  have hpa' : k'.userWord k.sched.cur.space (args.rsi.toNat + 8) = phys := by
    rw [Kernel.userWord, hmm, ← hcr3]
    refine (congrArg leNat hpa).trans (leNat_word ?_)
    have hend := hfit reg hreg
    simp only [frameSize] at hram
    omega
  rw [hva', hpa']
  refine ⟨rfl, by rw [hexit.win]; exact hcur, hroom, Mm.MapsRun.of_pt ?_ hpt⟩
  rw [← hcr3]
  exact mapRun_mapUser_maps hdvd hphys (page_run_le hdvd hroom (by decide)) hmap

end Reported

theorem reported_takes (hdisj : plat.RegionsDisjoint) (hfit : plat.RegionsFit) {t : KernelStep}
    {w : Window} {r : MappedRun} (hinv : WindowInv t.pre) (hspace : SpaceInv plat t.pre)
    (hreach : Reachable (xernel plat) t.pre)
    (hs : Xernel.step plat t.pre t.event = some (t.post, t.out)) (h : reported t = some (w, r)) :
    Takes t.pre t.post w r := by
  have hal := (hspace.mm hreach hs).aligned hinv.aligned
  rw [reported] at h
  dsimp only at h
  split at h
  next args v hact hout =>
    split at h
    · cases h
    next hv =>
      obtain ⟨rfl, rfl⟩ := Prod.mk.inj (Option.some.inj h)
      exact takes_iomap hinv hreach hs hact hout hv
  next args hact hout =>
    obtain ⟨rfl, rfl⟩ := Prod.mk.inj (Option.some.inj h)
    exact takes_dmaAlloc hal hreach hs (hinv.cursor .dma).2.2 hdisj hfit hspace hact hout
  next args hact hout =>
    obtain ⟨rfl, rfl⟩ := Prod.mk.inj (Option.some.inj h)
    exact takes_frameAlloc hinv hal hreach hs hdisj hspace hact hout
  next args hact hout =>
    obtain ⟨rfl, rfl⟩ := Prod.mk.inj (Option.some.inj h)
    exact takes_mapFrame hinv hal hreach hs hdisj hact hout
  next => cases h

/-- Two windows have no address in common. -/
lemma Window.disjoint {w w' : Window} (h : w ≠ w') : w.stop ≤ w'.start ∨ w'.stop ≤ w.start := by
  cases w <;> cases w' <;> first | exact absurd rfl h | decide

/-- In every run in which no step leaves pages mapped ahead of the cursor for device memory, and none
frees a frame that is mapped, what the mapping calls report is so. -/
theorem mappings_hold {ts : List KernelStep} (hplat : plat.WellFormed) (hclear : plat.WindowsClear)
    (hfit : plat.RegionsFit) (h : Run (xernel plat) ts k)
    (hts : ∀ t ∈ ts, t.pre.leavesStale plat t.event = false ∧ t.pre.freesMapped t.event = false) :
    MappingsHold plat ts := by
  have hdisj := hplat.regions
  have hinv : ∀ t ∈ ts, WindowInv t.pre ∧ WindowInv t.post := by
    refine h.invariant_of_mem (C := fun k e => k.leavesStale plat e = false)
      (fun _ hk => windowInv_boot hclear hdisj hk) ?_ fun t ht => (hts t ht).1
    rintro k e k' o ⟨ts', hrun⟩ hinv hstale hs
    exact hinv.step hclear hdisj (spaceInv_run hdisj hrun) ⟨ts', hrun⟩ hs hstale
  have htakes : ∀ {n : ℕ} {t : KernelStep} {w : Window} {r : MappedRun}, ts[n]? = some t →
      reported t = some (w, r) → Takes t.pre t.post w r ∧ w.start ≤ r.va := by
    intro n t w r ht hrep
    have hmem := List.mem_of_getElem? ht
    obtain ⟨⟨ts', hrun⟩, hs⟩ := h.mem_step hmem
    have htake := reported_takes hdisj hfit (hinv t hmem).1 (spaceInv_run hdisj hrun) ⟨ts', hrun⟩ hs hrep
    exact ⟨htake, htake.start ▸ ((hinv t hmem).1.cursor w).1⟩
  intro n t w r ht hrep
  obtain ⟨htake, hstart⟩ := htakes ht hrep
  have hapart : t.post.TablesApart plat := by
    obtain ⟨ts', -, -, -, hrun, hgood⟩ := h.split_of_mem
      (C := fun t => t.pre.freesMapped t.event = false) (fun t ht => (hts t ht).2)
      (List.mem_of_getElem? ht)
    exact tablesApart_run hplat hrun hgood
  refine ⟨⟨htake.maps, hapart⟩, ⟨hstart, htake.room⟩, fun n' t' w' r' hlt ht' hrep' _ i hi => ?_⟩
  obtain ⟨htake', hstart'⟩ := htakes ht' hrep'
  -- the cursor has only moved forward since the earlier run was taken
  have hcursor : r'.va + r'.pages * frameSize ≤ t.pre.win.next w' := by
    refine (h.preserved_between (P := fun k => r'.va + r'.pages * frameSize ≤ k.win.next w') hlt ht' ht
      (fun v _ hs hreach hle => hle.trans (WindowInv.cursor_le hreach hs w')) ?_).1
    rw [htake'.cursor]
  have hroom := htake.room
  have hroom' := htake'.room
  have hi' : i * frameSize + frameSize ≤ r.pages * frameSize := by
    rw [← Nat.succ_mul]
    exact Nat.mul_le_mul_right _ hi
  have hpos := frameSize_pos
  rintro ⟨hge, hle⟩
  by_cases hw : w = w'
  · subst hw
    have hva := htake.start
    omega
  · rcases Window.disjoint hw with hd | hd <;> omega

/-- An image without segments maps nothing. -/
lemma smallPlatform_windowsClear : smallPlatform.WindowsClear := by
  rintro page ⟨seg, hseg, -⟩
  rw [show Elf.loadSegments smallPlatform.image = [] by decide +kernel] at hseg
  cases hseg

/-- The first process makes one call of each kind. -/
theorem mappings_hold_each :
    ∃ ts k, Run (xernel smallPlatform) ts k ∧ MappingsHold smallPlatform ts ∧
      ts.filterMap reported = [(.mmio, ⟨0x5000_0000, 0xc000_0000, 2⟩),
        (.dma, ⟨0x6000_0000, 0x11_c000, 1⟩), (.shared, ⟨0x7000_0000, 0x11_e000, 2⟩),
        (.shared, ⟨0x7000_2000, 0x11_e000, 2⟩)] := by
  let es : List Event := [.resume, .call .iomap 0xc000_0010 0x1800, .call .dmaAlloc 0x1000 0x80_8000,
    .call .frameAlloc 2 7 0x80_8010, .call .mapFrame 7 0x80_8018]
  have hfacts : (trace smallPlatform es).map (fun r => (r.1.all fun t =>
      !t.pre.leavesStale smallPlatform t.event && !t.pre.freesMapped t.event,
      r.1.filterMap reported)) =
      some (true, [(.mmio, ⟨0x5000_0000, 0xc000_0000, 2⟩), (.dma, ⟨0x6000_0000, 0x11_c000, 1⟩),
        (.shared, ⟨0x7000_0000, 0x11_e000, 2⟩), (.shared, ⟨0x7000_2000, 0x11_e000, 2⟩)]) := by
    decide +kernel
  obtain ⟨r, hr, hfacts⟩ := Option.map_eq_some_iff.mp hfacts
  rw [Prod.mk.injEq] at hfacts
  have hfit : smallPlatform.RegionsFit := by
    intro reg hreg
    obtain rfl := List.mem_singleton.mp hreg
    decide
  refine ⟨r.1, r.2, trace_run hr, mappings_hold smallPlatform_wellFormed
    smallPlatform_windowsClear hfit (trace_run hr) fun t ht => ?_, hfacts.2⟩
  simpa using List.all_eq_true.mp hfacts.1 t ht

/-- A machine with 28 frames, of which booting takes 26. -/
def tightPlatform : Platform := { smallPlatform with regions := [⟨0x10_0000, 0x11_c000⟩] }

/-- An `IOMAP` of 513 pages finds no frame for the page table of the last one and fails. The next one
gets the same address, whose page still leads to the device memory of the first. -/
theorem mappings_not_hold :
    ¬ ∀ (plat : Platform) (ts : List KernelStep) (k : Kernel), plat.WellFormed →
      plat.WindowsClear → plat.RegionsFit → Run (xernel plat) ts k → MappingsHold plat ts := by
  intro hall
  let es : List Event :=
    [.resume, .call .iomap 0xc000_0000 0x20_1000, .call .iomap 0xd000_0000 0x1000]
  have hfacts : (trace tightPlatform es).map (fun r => (r.1[2]?).map fun t =>
      (reported t, t.post.mm.physOf t.pre.sched.cur.space 0x5000_0000)) =
      some (some (some (.mmio, ⟨0x5000_0000, 0xd000_0000, 1⟩), some 0xc000_0000)) := by
    decide +kernel
  obtain ⟨r, hr, hlast⟩ := Option.map_eq_some_iff.mp hfacts
  obtain ⟨t, ht, hfacts⟩ := Option.map_eq_some_iff.mp hlast
  obtain ⟨hrep, hphys⟩ := Prod.mk.inj hfacts
  have hplat : tightPlatform.WellFormed := smallPlatform_wellFormed_upTo (by decide)
  have hfit : tightPlatform.RegionsFit := by
    intro reg hreg
    obtain rfl := List.mem_singleton.mp hreg
    decide
  have hhold := hall tightPlatform r.1 r.2 hplat smallPlatform_windowsClear hfit (trace_run hr)
  obtain ⟨⟨hmaps, -⟩, -, -⟩ := hhold 2 t _ _ ht hrep
  have hmapped := (hmaps 0 Nat.one_pos).1
  rw [show 0x5000_0000 + 0 * frameSize = 0x5000_0000 from rfl, hphys] at hmapped
  exact absurd (Option.some.inj hmapped) (by decide)

end Xernel
