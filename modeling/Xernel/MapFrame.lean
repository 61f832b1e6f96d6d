import Xernel.Dma
import Xernel.Mappings

/-!
# What a failing `MAP_FRAME` leaves behind

`map_shared` maps the pages of a run one after the other and moves the cursor of the shared window behind
them at the end. When a page cannot be mapped it returns at once: the pages before it stay mapped and the
cursor stays in front of them. When `sys_map_frame` then refuses the buffer for its result, the whole run
stays mapped.
-/

namespace Xernel

variable {plat : Platform} {k k' : Kernel} {e : Event} {out : Option ℕ} {args : Args}

/-! ## The first page of a run -/

section MapRun

variable {space va phys n : ℕ} {m : Mm}

/-- The first page of a run decides whether the loop changes any entry: a page that was mapped stays so,
and if the first one cannot be mapped, nothing else is tried. -/
lemma mapRun_mapUser_first (hn : n ≠ 0) (space phys : ℕ) (m : Mm) (hva : va < 2 ^ 47) :
    (m.pt.leaf space (va / frameSize) = none ∧
        m.missingTables space {va / frameSize} ≤ m.frames.available →
      (mapRun (fun m va phys => m.mapUser space va phys true false) n va phys m).2.pt.leaf space
        (va / frameSize) ≠ none) ∧
    (¬ (m.pt.leaf space (va / frameSize) = none ∧
        m.missingTables space {va / frameSize} ≤ m.frames.available) →
      (mapRun (fun m va phys => m.mapUser space va phys true false) n va phys m).1 ≠ .done () ∧
      (mapRun (fun m va phys => m.mapUser space va phys true false) n va phys m).2.pt.leaf =
        m.pt.leaf) := by
  obtain ⟨n, rfl⟩ := Nat.exists_eq_succ_of_ne_zero hn
  have hattempt : (m.mapUser space va phys true false).1 = .done ↔
      (∀ p ∈ ({va / frameSize} : Finset ℕ), m.pt.leaf space p = none) ∧
        m.need space 0 {va / frameSize} ≤ m.frames.available :=
    (Mm.mapWithFlags_attempts hva).iff
  unfold Mm.need at hattempt
  rw [Nat.zero_mul, Nat.zero_add] at hattempt
  simp only [Finset.mem_singleton, forall_eq] at hattempt
  have hleaf := m.mapWithFlags_leaf space va phys (Mm.userFlags true false)
  rw [← Mm.mapUser_eq] at hleaf
  rw [← hattempt]
  unfold mapRun
  cases heq : m.mapUser space va phys true false with
  | mk o m₁ =>
    rw [heq] at hleaf
    cases o with
    | done =>
      refine ⟨fun _ => ?_, fun hne => absurd rfl hne⟩
      rcases hleaf with ⟨-, -, hset⟩ | ⟨hne, -⟩
      · -- the rest of the loop maps other pages
        have hrest : (mapRun (fun m va phys => m.mapUser space va phys true false) n (va + frameSize)
            (phys + frameSize) m₁).2.pt.leaf space (va / frameSize) =
            m₁.pt.leaf space (va / frameSize) := by
          apply mapRun_other fun m va phys => mapUser_atMost m space va phys
          · exact Mm.page_lower hva
          · rw [succ_page]
            omega
        show (mapRun _ n _ _ m₁).2.pt.leaf space (va / frameSize) ≠ none
        rw [hrest, hset, setLeafAt, if_pos ⟨rfl, rfl⟩]
        simp
      · exact absurd rfl hne
    | panic | failed =>
      refine ⟨fun h => (by cases h), fun _ => ⟨by simp, ?_⟩⟩
      rcases hleaf with ⟨hdone, -⟩ | ⟨-, hsame⟩
      · cases hdone
      · exact hsame

end MapRun

/-! ## No `Frame` capability is empty -/

/-- Every `Frame` capability in circulation names at least one frame. -/
def FramesNonempty (a : Core) : Prop := ∀ cap, a.Holds cap → cap.capType = .frame → cap.badge ≠ 0

lemma FramesNonempty.step {a b : Core} {act : Activity} (h : FramesNonempty a)
    (hs : CoreStep plat a b act out)
    (hpages : ∀ args, act = .call .frameAlloc args → out = some 0 → args.rdi.toNat ≠ 0) :
    FramesNonempty b := by
  intro cap hcap htype
  rcases hcap with ⟨i, slot, hslot⟩ | ⟨id, hq⟩
  · cases hs.slot hslot with
    | kept hold hsame =>
      obtain rfl := hsame.eq_of_right (by simp [htype])
      exact h cap (.inl ⟨i, slot, hold⟩) htype
    | seeded _ hseed => exact absurd htype (capType_seededCaps cap (seededSlot_mem hseed))
    | frame _ hact hout _ hcap =>
      rw [hcap]
      exact hpages _ hact hout
    | handle _ _ _ hcap =>
      rw [hcap] at htype
      cases htype
    | received _ _ hrecv hmsg => exact h cap (.inr ⟨_, Core.queued_of_tryRecv hrecv hmsg⟩) htype
    | granted _ _ _ hheld => exact h cap (.inl ⟨_, _, Core.hasSlot_cur hheld⟩) htype
  · rcases hs.queued hq with hold | ⟨args, -, -, -, -, hatt⟩
    · exact h cap (.inr ⟨id, hold⟩) htype
    · exact h cap (.inl ⟨_, _, Core.hasSlot_cur (Scheduler.slot_of_attached hatt)⟩) htype

theorem framesNonempty_run {ts : List KernelStep} (h : Run (xernel plat) ts k) :
    FramesNonempty k.core := by
  apply h.invariant (I := fun k => FramesNonempty k.core)
  · intro k hboot cap hcap htype
    exact absurd htype (capType_seededCaps cap (boot_holds hboot hcap).2)
  · intro k e k' out hreach hinv hs
    apply hinv.step (reachable_core hreach hs)
    -- a request for no page is refused
    intro args hact hout
    obtain ⟨nr, hw, r, hd, rfl, -, -, hres⟩ := reachable_dispatch hreach hs hact
    rw [Kernel.dispatch, hd, hout] at hres
    exact (Kernel.sysFrameAlloc_ok (Prod.ext rfl hres.symm)).1

namespace Kernel

variable {phys pages capSlot outPtr : ℕ}

/-! ## One call -/

/-- The pages that a `map_shared` of `pages` pages is to map. -/
def sharedRun (k : Kernel) (pages : ℕ) : Finset ℕ :=
  Finset.Ico (k.win.nextSharedVa / frameSize) (k.win.nextSharedVa / frameSize + pages)

/-- The shared window has room for `pages` pages. -/
def SharedRoom (k : Kernel) (pages : ℕ) : Prop :=
  k.win.nextSharedVa + pages * frameSize ≤ sharedRegionEnd

/-- The first page of the window that is not handed out. -/
def sharedFirst (k : Kernel) : ℕ := k.win.nextSharedVa / frameSize

/-- The first page of the run can be mapped. -/
def FirstMaps (k : Kernel) : Prop :=
  k.mm.pt.leaf k.cpu.cr3 k.sharedFirst = none ∧
    k.mm.missingTables k.cpu.cr3 {k.sharedFirst} ≤ k.mm.frames.available

/-- The run can be mapped. -/
def RunMaps (k : Kernel) (pages : ℕ) : Prop :=
  (∀ p ∈ k.sharedRun pages, k.mm.pt.leaf k.cpu.cr3 p = none) ∧
    k.mm.missingTables k.cpu.cr3 (k.sharedRun pages) ≤ k.mm.frames.available

/-- What a `MAP_FRAME` of `pages` pages can count on: room in the window, a buffer for its result and
frames for all page tables that are missing. -/
def MapFrameReady (k : Kernel) (pages outPtr : ℕ) : Prop :=
  k.SharedRoom pages ∧ k.userSliceMut outPtr 8 = true ∧
    k.mm.missingTables k.cpu.cr3 (k.sharedRun pages) ≤ k.mm.frames.available

/-- If the call fails, the mappings of the caller are as they were; and it does not fail if it has what
it can count on. -/
def MapFrameRetries (k k' : Kernel) (out : Option ℕ) (pages outPtr : ℕ) : Prop :=
  (out = some u64Max → k'.mm.pt.leaf k.cpu.cr3 = k.mm.pt.leaf k.cpu.cr3) ∧
  (k.MapFrameReady pages outPtr → out = some 0)

/-- The window has no room for the run; or the run can be mapped and the buffer will be there once it is;
or the first page cannot be mapped, for want of frames, or because it is in use while a frame or the
buffer is missing as well. -/
def MapFrameWhole (k : Kernel) (pages outPtr : ℕ) : Prop :=
  ¬ k.SharedRoom pages ∨
  (k.RunMaps pages ∧ k.WritableAfter (k.sharedRun pages) outPtr 8) ∨
  (k.mm.pt.leaf k.cpu.cr3 k.sharedFirst = none ∧
    k.mm.frames.available < k.mm.missingTables k.cpu.cr3 {k.sharedFirst}) ∨
  (k.mm.pt.leaf k.cpu.cr3 k.sharedFirst ≠ none ∧
    (k.mm.frames.available < k.mm.missingTables k.cpu.cr3 (k.sharedRun pages) ∨
      k.userSliceMut outPtr 8 = false))

lemma sharedFirst_mem (k : Kernel) (hpages : pages ≠ 0) : k.sharedFirst ∈ k.sharedRun pages := by
  unfold sharedFirst sharedRun
  rw [Finset.mem_Ico]
  omega

lemma missingTables_first_le (k : Kernel) (hpages : pages ≠ 0) :
    k.mm.missingTables k.cpu.cr3 {k.sharedFirst} ≤
      k.mm.missingTables k.cpu.cr3 (k.sharedRun pages) := by
  apply TableTree.missing_mono
  rw [Finset.singleton_subset_iff]
  exact k.sharedFirst_mem hpages

lemma RunMaps.first (h : k.RunMaps pages) (hpages : pages ≠ 0) : k.FirstMaps :=
  ⟨h.1 _ (k.sharedFirst_mem hpages), (k.missingTables_first_le hpages).trans h.2⟩

/-- Once the pages of the run are mapped, the buffer for the result is accepted or not. -/
lemma sysMapFrame_room (hcap : k.currentFrameCap capSlot = some (phys, pages)) (hpages : pages ≠ 0)
    (hroom : k.SharedRoom pages) (outPtr : ℕ) :
    (k.FirstMaps → (k.sysMapFrame capSlot outPtr).1.mm.pt.leaf k.cpu.cr3 k.sharedFirst ≠ none) ∧
    (¬ k.FirstMaps → (k.sysMapFrame capSlot outPtr).2 = some u64Max ∧
      (k.sysMapFrame capSlot outPtr).1.mm.pt.leaf = k.mm.pt.leaf) ∧
    ((k.sysMapFrame capSlot outPtr).2 = some 0 ∨ (k.sysMapFrame capSlot outPtr).2 = some u64Max) ∧
    ((k.sysMapFrame capSlot outPtr).2 = some 0 ↔
      k.RunMaps pages ∧ k.WritableAfter (k.sharedRun pages) outPtr 8) := by
  have hend : sharedRegionEnd ≤ 2 ^ 47 := by decide
  have hva : k.win.nextSharedVa + pages * frameSize ≤ 2 ^ 47 := le_trans hroom hend
  have hfirst : k.win.nextSharedVa < 2 ^ 47 := by
    simp only [frameSize] at hva
    omega
  have hlow : k.win.nextSharedVa / frameSize + pages ≤ lowerHalfPages := by
    simp only [frameSize, lowerHalfPages] at hva ⊢
    omega
  obtain ⟨hmapped, hstuck⟩ := mapRun_mapUser_first hpages k.cpu.cr3 phys k.mm hfirst
  have hattempts := mapRun_mapUser_attempts k.cpu.cr3 phys k.mm hva
  have hpanic := mapRun_mapUser_ne_panic k.cpu.cr3 phys k.mm hva
  have hiff : _ ↔ k.RunMaps pages := mapRun_mapUser_done_iff k.cpu.cr3 phys k.mm hva
  unfold sysMapFrame
  rw [hcap]
  dsimp only
  unfold mapShared
  dsimp only
  rw [if_neg (Nat.not_lt.mpr hroom)]
  cases hmap : mapRun (fun m va phys => m.mapUser k.cpu.cr3 va phys true false) pages
      k.win.nextSharedVa phys k.mm with
  | mk o m₁ =>
    rw [hmap] at hmapped hstuck hattempts hpanic hiff
    cases o with
    | panic => exact absurd rfl hpanic
    | failed =>
      refine ⟨hmapped, fun hnot => ⟨rfl, (hstuck hnot).2⟩, .inr rfl, ?_⟩
      refine iff_of_false (by simp [u64Max]) fun h => ?_
      cases hiff.mpr h.1
    | done _ =>
      have hruns := hiff.mp rfl
      generalize hk₁ : ({ k with mm := m₁, win := { k.win with
        nextSharedVa := k.win.nextSharedVa + pages * frameSize } } : Kernel) = k₁
      have hmm₁ : k₁.mm = m₁ := by rw [← hk₁]
      -- the buffer may lie in the run, which is mapped by now
      have hbuffer : k₁.userSliceMut outPtr 8 = true ↔
          k.WritableAfter (k.sharedRun pages) outPtr 8 := by
        apply userSliceMut_iff (by decide) (by decide) (by rw [← hk₁])
        · intro p hp
          rw [hmm₁]
          have hp := Finset.mem_Ico.mp hp
          exact mapRun_mapUser_gives hlow hmap p hp.1 hp.2
        · rw [hmm₁]
          exact (hattempts.fills rfl).others
      dsimp only
      rw [hk₁]
      by_cases hok : k₁.userSliceMut outPtr 8 = true
      · rw [if_pos hok]
        obtain ⟨mem, hmem⟩ := copyOut_mm k₁ outPtr (leBytes 8 k.win.nextSharedVa)
        refine ⟨?_, fun hnot => absurd (hruns.first hpages) hnot, .inl rfl, ?_⟩
        · rw [hmem, hmm₁]
          exact hmapped
        · exact iff_of_true rfl ⟨hruns, hbuffer.mp hok⟩
      · rw [if_neg hok]
        refine ⟨?_, fun hnot => absurd (hruns.first hpages) hnot, .inr rfl, ?_⟩
        · rw [hmm₁]
          exact hmapped
        · exact iff_of_false (by simp [u64Max]) fun h => hok (hbuffer.mpr h.2)

/-- One call can be retried exactly in the cases listed. -/
lemma sysMapFrame_retries_iff (hcap : k.currentFrameCap capSlot = some (phys, pages))
    (hpages : pages ≠ 0) (outPtr : ℕ) :
    k.MapFrameRetries (k.sysMapFrame capSlot outPtr).1 (k.sysMapFrame capSlot outPtr).2 pages outPtr ↔
      k.MapFrameWhole pages outPtr := by
  by_cases hroom : k.SharedRoom pages
  swap
  · -- nothing is tried without room
    have hnothing : k.sysMapFrame capSlot outPtr = (k, some u64Max) := by
      unfold sysMapFrame
      rw [hcap]
      dsimp only
      unfold mapShared
      dsimp only
      rw [if_pos (Nat.lt_of_not_le hroom)]
    rw [hnothing]
    exact iff_of_true ⟨fun _ => rfl, fun hready => absurd hready.1 hroom⟩ (.inl hroom)
  obtain ⟨hmapped, hstuck, hresult, hdone⟩ := sysMapFrame_room hcap hpages hroom outPtr
  have htables := k.missingTables_first_le hpages
  unfold MapFrameRetries MapFrameWhole
  generalize k.sysMapFrame capSlot outPtr = r at hmapped hstuck hresult hdone ⊢
  by_cases hfirst : k.FirstMaps
  · have hleaf := hmapped hfirst
    obtain ⟨hempty, havail⟩ := hfirst
    constructor
    · -- a failure would have left the first page mapped
      rintro ⟨hclean, -⟩
      rcases hresult with hout | hout
      · exact .inr (.inl (hdone.mp hout))
      · rw [hclean hout] at hleaf
        exact absurd hempty hleaf
    · rintro (hno | hruns | ⟨-, hshort⟩ | ⟨hused, -⟩)
      · exact absurd hroom hno
      · have hout := hdone.mpr hruns
        refine ⟨fun hfailed => ?_, fun _ => hout⟩
        rw [hout] at hfailed
        cases hfailed
      · omega
      · exact absurd hempty hused
  · obtain ⟨hout, hsame⟩ := hstuck hfirst
    have hclean : r.1.mm.pt.leaf k.cpu.cr3 = k.mm.pt.leaf k.cpu.cr3 := by rw [hsame]
    have hne : r.2 ≠ some 0 := by
      rw [hout]
      simp [u64Max]
    constructor
    · rintro ⟨-, hready⟩
      have hnot : ¬ k.MapFrameReady pages outPtr := fun h => hne (hready h)
      by_cases hempty : k.mm.pt.leaf k.cpu.cr3 k.sharedFirst = none
      · refine .inr (.inr (.inl ⟨hempty, Nat.lt_of_not_le fun hle => hfirst ⟨hempty, hle⟩⟩))
      · refine .inr (.inr (.inr ⟨hempty, ?_⟩))
        by_cases hframes : k.mm.missingTables k.cpu.cr3 (k.sharedRun pages) ≤ k.mm.frames.available
        · refine .inr (Bool.eq_false_iff.mpr fun hbuffer => hnot ⟨hroom, hbuffer, hframes⟩)
        · exact .inl (Nat.lt_of_not_le hframes)
    · intro hwhole
      refine ⟨fun _ => hclean, ?_⟩
      rintro ⟨-, hbuffer, hframes⟩
      rcases hwhole with hno | ⟨hruns, -⟩ | ⟨-, hshort⟩ | ⟨-, hshort | hbad⟩
      · exact absurd hroom hno
      · exact absurd (hruns.first hpages) hfirst
      · omega
      · omega
      · rw [hbuffer] at hbad
        cases hbad

end Kernel

/-! ## In a run -/

/-- In every run, a `MAP_FRAME` of a `Frame` capability can be retried exactly in the cases listed. -/
theorem mapFrame_retries_iff {ts : List KernelStep} {t : KernelStep} {phys pages : ℕ}
    (h : Run (xernel plat) ts k) (ht : t ∈ ts)
    (hact : t.pre.activity t.event = .call .mapFrame args)
    (hcap : t.pre.currentFrameCap args.rdi.toNat = some (phys, pages)) :
    t.pre.MapFrameRetries t.post t.out pages args.rsi.toNat ↔
      t.pre.MapFrameWhole pages args.rsi.toNat := by
  obtain ⟨hreach, hs⟩ := h.mem_step ht
  obtain ⟨nr, hw, r, hd, rfl, -, hcore, hout⟩ := reachable_dispatch hreach hs hact
  rw [Kernel.dispatch, hd] at hcore hout
  have hpages : pages ≠ 0 := by
    obtain ⟨ts', hrun⟩ := hreach
    have hslot : t.pre.core.HasSlot _ _ _ := Core.hasSlot_cur (Kernel.currentFrameCap_eq_some hcap)
    exact framesNonempty_run hrun _ (.inl ⟨_, _, hslot⟩) rfl
  have hiff := Kernel.sysMapFrame_retries_iff (k := t.pre.entered) hcap hpages args.rsi.toNat
  have hmm : t.post.mm = (t.pre.entered.sysMapFrame args.rdi.toNat args.rsi.toNat).1.mm :=
    congrArg Core.mm hcore
  have hretries : t.pre.MapFrameRetries t.post t.out pages args.rsi.toNat ↔
      t.pre.entered.MapFrameRetries (t.pre.entered.sysMapFrame args.rdi.toNat args.rsi.toNat).1
        (t.pre.entered.sysMapFrame args.rdi.toNat args.rsi.toNat).2 pages args.rsi.toNat := by
    unfold Kernel.MapFrameRetries
    rw [hmm, hout]
    exact Iff.rfl
  rw [hretries, hiff]
  exact Iff.rfl

/-- The first process maps a run that it holds a second time. -/
theorem mapFrame_retries_iff_second :
    ∃ ts k, Run (xernel smallPlatform) ts k ∧ ts.map Transition.out = [none, some 0, some 0] ∧
      ∃ t ∈ ts, t.pre.currentFrameCap 6 = some (0x11_a000, 2) ∧
        t.pre.MapFrameWhole 2 0x80_8000 := by
  have hfacts : (trace smallPlatform [.resume, .call .frameAlloc 2 6 0x80_8000,
      .call .mapFrame 6 0x80_8000]).map (fun r => (r.1.map Transition.out,
        (r.1[2]?).map fun t => (t.out, t.pre.currentFrameCap 6))) =
      some ([none, some 0, some 0], some (some 0, some (0x11_a000, 2))) := by decide +kernel
  obtain ⟨r, hr, hfacts⟩ := Option.map_eq_some_iff.mp hfacts
  obtain ⟨houts, hfacts⟩ := Prod.mk.inj hfacts
  obtain ⟨t, ht, hfacts⟩ := Option.map_eq_some_iff.mp hfacts
  obtain ⟨hout, hcap⟩ := Prod.mk.inj hfacts
  have hevent : t.event = .call .mapFrame 6 0x80_8000 := (Option.some.inj (trace_event hr ht)).symm
  have hmem := List.mem_of_getElem? ht
  have hact : t.pre.activity t.event = .call .mapFrame
      { rdi := 6, rsi := 0x80_8000, rdx := 0, r10 := 0, r8 := 0, r9 := 0 } := by
    rw [hevent]
    rfl
  refine ⟨r.1, r.2, trace_run hr, houts, t, hmem, hcap, ?_⟩
  apply (mapFrame_retries_iff (trace_run hr) hmem hact hcap).mp
  refine ⟨fun hfailed => ?_, fun _ => hout⟩
  rw [hout] at hfailed
  cases hfailed

/-- With a bad pointer for the result the call fails, but the run stays mapped. -/
theorem not_mapFrame_retries :
    ¬ ∀ (ts : List KernelStep) (k : Kernel), Run (xernel smallPlatform) ts k →
      ∀ t ∈ ts, ∀ args phys pages, t.pre.activity t.event = .call .mapFrame args →
        t.pre.currentFrameCap args.rdi.toNat = some (phys, pages) →
        t.pre.MapFrameRetries t.post t.out pages args.rsi.toNat := by
  intro hall
  have hfacts : (trace smallPlatform [.resume, .call .frameAlloc 2 6 0x80_8000,
      .call .mapFrame 6 0]).map (fun r => (r.1[2]?).map fun t =>
        ((t.out, t.pre.currentFrameCap 6), (t.pre.mm.pt.leaf t.pre.cpu.cr3 0x7_0002).isSome,
          (t.post.mm.pt.leaf t.pre.cpu.cr3 0x7_0002).isSome)) =
      some (some ((some u64Max, some (0x11_a000, 2)), false, true)) := by decide +kernel
  obtain ⟨r, hr, hfacts⟩ := Option.map_eq_some_iff.mp hfacts
  obtain ⟨t, ht, hfacts⟩ := Option.map_eq_some_iff.mp hfacts
  obtain ⟨hfirst, hfacts⟩ := Prod.mk.inj hfacts
  obtain ⟨hout, hcap⟩ := Prod.mk.inj hfirst
  obtain ⟨hbefore, hafter⟩ := Prod.mk.inj hfacts
  have hevent : t.event = .call .mapFrame 6 0 := (Option.some.inj (trace_event hr ht)).symm
  obtain ⟨hclean, -⟩ := hall r.1 r.2 (trace_run hr) t (List.mem_of_getElem? ht)
    { rdi := 6, rsi := 0, rdx := 0, r10 := 0, r8 := 0, r9 := 0 } 0x11_a000 2
    (by rw [hevent]; rfl) hcap
  rw [hclean hout, hbefore] at hafter
  cases hafter

end Xernel
