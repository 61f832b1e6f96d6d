import Xernel.Break

/-!
# What a caller of `sbrk` can rely on

Growing the heap succeeds if the new pages are all empty and there are frames for them. A page above
the break is not always empty: `sbrk` maps pages one by one and leaves them mapped when it fails and when
the heap shrinks, and it fails on pages that are mapped.
-/

namespace Xernel

variable {plat : Platform} {k k' : Kernel} {e : Event} {out : Option ℕ} {args : Args} {delta : ℤ}

/-! ## One call -/

namespace Kernel

lemma sbrk_zero (k : Kernel) : k.sbrk 0 = (.done k.sched.cur.heapBreak, k) := by
  unfold sbrk
  dsimp only
  rw [if_pos rfl]

/-- A call that shrinks the heap, or whose loop gets to the end, returns the old break and moves it. -/
lemma sbrk_succeeds (hfits : k.BreakFits delta)
    (h : delta ≤ 0 ∨ (k.growHeap delta).1 = .done ()) :
    (orMax (k.sbrk delta)).2 = some k.sched.cur.heapBreak ∧
      ((orMax (k.sbrk delta)).1.sched.cur.heapBreak : ℤ) = k.newBreak delta := by
  have hmoved : ∀ mm : Mm, (({ k with mm }.moveBreak delta).sched.cur.heapBreak : ℤ) =
      k.newBreak delta := by
    intro mm
    show (((k.sched.modifyCur _).cur.heapBreak : ℕ) : ℤ) = _
    rw [Scheduler.cur_modifyCur]
    show (((k.newBreak delta).toNat : ℕ) : ℤ) = _
    have hlo := hfits.1
    omega
  rcases lt_trichotomy delta 0 with hneg | rfl | hpos
  · rw [sbrk_shrink hneg hfits]
    exact ⟨rfl, hmoved k.mm⟩
  · rw [sbrk_zero]
    refine ⟨rfl, ?_⟩
    unfold newBreak
    rw [Int.add_zero]
    rfl
  · have hdone : (k.growHeap delta).1 = .done () := h.resolve_left (by omega)
    rw [sbrk_grow hpos hfits]
    cases hr : k.growHeap delta with
    | mk o mm =>
      rw [hr] at hdone
      obtain rfl : o = .done () := hdone
      exact ⟨rfl, hmoved mm⟩

/-- A call whose loop does not get to the end returns `u64::MAX`, with what the loop has done. -/
lemma sbrk_fails (hpos : 0 < delta) (hfits : k.BreakFits delta)
    (h : (k.growHeap delta).1 ≠ .done ()) :
    orMax (k.sbrk delta) = ({ k with mm := (k.growHeap delta).2 }, some u64Max) := by
  have hne := growHeap_ne_panic hpos hfits
  rw [sbrk_grow hpos hfits]
  cases hr : k.growHeap delta with
  | mk o mm =>
    rw [hr] at h hne
    cases o with
    | done _ => exact absurd rfl h
    | failed => rfl
    | panic => exact absurd rfl hne

end Kernel

/-! ## The contract -/

/-- The pages of the heap up to the new break that are not mapped yet. -/
def Kernel.unmappedHeap (k : Kernel) (delta : ℤ) : Finset ℕ :=
  (Finset.Ico (heapStart / frameSize) (pageUp (k.newBreak delta).toNat / frameSize)).filter
    fun p => k.mm.pt.leaf k.sched.cur.space p = none

/-- From `k` to `k'` the break moved by `delta`: the call returned the previous break, and all pages
below the new one are mapped for ring 3 to write to. -/
structure Kernel.MovesBreak (k k' : Kernel) (delta : ℤ) (out : Option ℕ) : Prop where
  result : out = some k.sched.cur.heapBreak
  moved : (k'.sched.cur.heapBreak : ℤ) = k.newBreak delta
  mapped : k'.mm.WritablePages k'.sched.cur.space (heapStart / frameSize)
    (pageUp k'.sched.cur.heapBreak / frameSize)

/-- In every run, an `SBRK` for which there are enough frames moves the break if and only if it shrinks
the heap or the pages it is to map are not mapped yet. -/
theorem sbrk_movesBreak_iff {ts : List KernelStep} (hdisj : plat.RegionsDisjoint)
    (h : Run (xernel plat) ts k) :
    ∀ t ∈ ts, ∀ args, t.pre.activity t.event = .call .sbrk args →
      t.pre.BreakFits (Kernel.asI64 args.rdi.toNat) →
      t.pre.mm.need t.pre.sched.cur.space 1 (t.pre.unmappedHeap (Kernel.asI64 args.rdi.toNat)) ≤
        t.pre.mm.frames.available →
      (t.pre.MovesBreak t.post (Kernel.asI64 args.rdi.toNat) t.out ↔
        Kernel.asI64 args.rdi.toNat ≤ 0 ∨
        ∀ p ∈ t.pre.growth (Kernel.asI64 args.rdi.toNat),
          t.pre.mm.pt.leaf t.pre.sched.cur.space p = none) := by
  intro t ht args hact hfits hframes
  obtain ⟨hreach, hs⟩ := h.mem_step ht
  obtain ⟨hcore, hout⟩ := sbrk_step hreach hs hact
  generalize Kernel.asI64 args.rdi.toNat = delta at hfits hframes hcore hout ⊢
  obtain ⟨ts₀, hrun⟩ := hreach
  have hheap : t.pre.sched.cur.HeapMapped t.pre.mm :=
    heapInv_run hdisj hrun _ _ (Scheduler.getElem?_current _)
  have hheap' : t.post.sched.cur.HeapMapped t.post.mm :=
    heapInv_run hdisj (hrun.next hs) _ _ (Scheduler.getElem?_current _)
  have hsched : t.post.sched = (Kernel.orMax (t.pre.entered.sbrk delta)).1.sched :=
    congrArg Core.sched hcore
  -- if the loop stops early, the call reports failure
  have hfails : 0 < delta → (t.pre.growHeap delta).1 ≠ .done () →
      ¬ t.pre.MovesBreak t.post delta t.out := by
    intro hpos hnot hmoves
    have hres := hmoves.result
    rw [hout, Kernel.sbrk_fails (k := t.pre.entered) hpos hfits hnot] at hres
    have hmax : u64Max = t.pre.sched.cur.heapBreak := Option.some.inj hres
    have hlower := hheap.lower
    simp only [u64Max] at hmax
    omega
  have hsucceeds : delta ≤ 0 ∨ (t.pre.growHeap delta).1 = .done () →
      t.pre.MovesBreak t.post delta t.out := by
    intro hdone
    obtain ⟨hres, hmoved⟩ := Kernel.sbrk_succeeds (k := t.pre.entered) hfits hdone
    rw [← hout] at hres
    rw [← hsched] at hmoved
    exact ⟨hres, hmoved, hheap'.mapped⟩
  by_cases hpos : 0 < delta
  · have hiff := (Kernel.growHeap_attempts hpos hfits).iff
    -- the new pages are among those that are not mapped yet
    have hneed : (∀ p ∈ t.pre.growth delta, t.pre.mm.pt.leaf t.pre.sched.cur.space p = none) →
        t.pre.mm.need t.pre.sched.cur.space 1 (t.pre.growth delta) ≤
          t.pre.mm.frames.available := by
      intro hempty
      refine le_trans (t.pre.mm.need_mono _ 1 fun p hp => ?_) hframes
      have hpages := Finset.mem_Ico.mp hp
      refine Finset.mem_filter.mpr ⟨Finset.mem_Ico.mpr ⟨?_, hpages.2⟩, hempty p hp⟩
      have hstart := hheap.start
      refine le_trans ?_ hpages.1
      simp only [pageUp, pageDown, frameSize]
      omega
    refine ⟨fun hmoves => .inr ?_, fun hcond => hsucceeds ?_⟩
    · by_contra hused
      exact hfails hpos (fun hdone => hused (hiff.mp hdone).1) hmoves
    · have hempty := hcond.resolve_left (by omega)
      exact .inr (hiff.mpr ⟨hempty, hneed hempty⟩)
  · exact iff_of_true (hsucceeds (.inl (by omega))) (.inl (by omega))

instance (k : Kernel) (delta : ℤ) : Decidable (k.BreakFits delta) :=
  inferInstanceAs (Decidable (_ ∧ _))

/-- A fresh heap grows by a page and a half: two pages, in a space that has the upper two tables. -/
theorem sbrk_movesBreak_iff_fresh :
    ∃ ts k, Run (xernel smallPlatform) ts k ∧ ∃ t ∈ ts, t.pre.BreakFits 6144 ∧
      t.pre.mm.need t.pre.sched.cur.space 1 (t.pre.unmappedHeap 6144) = 3 ∧
      t.pre.MovesBreak t.post 6144 t.out := by
  have hfacts : (trace smallPlatform [.resume, .call .sbrk 6144]).map (fun r => (r.1[1]?).map fun t =>
      (decide (t.pre.BreakFits 6144),
        t.pre.mm.need t.pre.sched.cur.space 1 (t.pre.unmappedHeap 6144),
        decide (3 ≤ t.pre.mm.frames.available),
        decide (∀ p ∈ t.pre.growth 6144, t.pre.mm.pt.leaf t.pre.sched.cur.space p = none))) =
      some (some (true, 3, true, true)) := by decide +kernel
  obtain ⟨r, hr, hfacts⟩ := Option.map_eq_some_iff.mp hfacts
  obtain ⟨t, ht, hfacts⟩ := Option.map_eq_some_iff.mp hfacts
  simp only [Prod.mk.injEq, decide_eq_true_eq] at hfacts
  obtain ⟨hfits, hneed, havail, hempty⟩ := hfacts
  have hevent : t.event = .call .sbrk 6144 := (Option.some.inj (trace_event hr ht)).symm
  have hmem := List.mem_of_getElem? ht
  refine ⟨r.1, r.2, trace_run hr, t, hmem, hfits, hneed, ?_⟩
  exact (sbrk_movesBreak_iff smallPlatform_regionsDisjoint (trace_run hr) t hmem
    { rdi := 6144, rsi := 0, rdx := 0, r10 := 0, r8 := 0, r9 := 0 } (by rw [hevent]; rfl) hfits
    (le_of_eq_of_le hneed havail)).mpr (.inr hempty)

/-- The heap grows by a page, shrinks by a page, and cannot grow again. -/
theorem not_sbrk_movesBreak :
    ¬ ∀ ts k, Run (xernel smallPlatform) ts k → ∀ t ∈ ts, ∀ args,
      t.pre.activity t.event = .call .sbrk args →
      t.pre.BreakFits (Kernel.asI64 args.rdi.toNat) →
      t.pre.mm.need t.pre.sched.cur.space 1 (t.pre.unmappedHeap (Kernel.asI64 args.rdi.toNat)) ≤
        t.pre.mm.frames.available →
      t.pre.MovesBreak t.post (Kernel.asI64 args.rdi.toNat) t.out := by
  have hfacts : (trace smallPlatform [.resume, .call .sbrk 4096, .call .sbrk 0xffff_ffff_ffff_f000,
      .call .sbrk 4096]).map (fun r => (r.1.map Transition.out, (r.1[3]?).map fun t =>
        (decide (t.pre.BreakFits 4096), t.pre.sched.cur.heapBreak,
          decide (t.pre.mm.need t.pre.sched.cur.space 1 (t.pre.unmappedHeap 4096) ≤
            t.pre.mm.frames.available)))) =
      some ([none, some heapStart, some (heapStart + 4096), some u64Max],
        some (true, heapStart, true)) := by decide +kernel
  intro hall
  obtain ⟨r, hr, hfacts⟩ := Option.map_eq_some_iff.mp hfacts
  obtain ⟨houts, hfacts⟩ := Prod.mk.inj hfacts
  obtain ⟨t, ht, hfacts⟩ := Option.map_eq_some_iff.mp hfacts
  simp only [Prod.mk.injEq, decide_eq_true_eq] at hfacts
  obtain ⟨hfits, hbreak, hframes⟩ := hfacts
  have hevent : t.event = .call .sbrk 4096 := (Option.some.inj (trace_event hr ht)).symm
  have hout : t.out = some u64Max := by
    have hmap := congrArg (fun l : List (Option ℕ) => l[3]?) houts
    simpa [ht] using hmap
  have hres := (hall r.1 r.2 (trace_run hr) t (List.mem_of_getElem? ht)
    { rdi := 4096, rsi := 0, rdx := 0, r10 := 0, r8 := 0, r9 := 0 } (by rw [hevent]; rfl) hfits
    hframes).result
  rw [hout, hbreak] at hres
  cases hres

/-! ## Failing without a trace -/

/-- If the call fails, it leaves the break, the mappings of the caller and the number of frames in use
as they were, and made again once enough frames are free it succeeds, unless the break it asks for is
out of range. -/
def Kernel.FailsClean (k k' : Kernel) (delta : ℤ) (out : Option ℕ) : Prop :=
  out = some u64Max →
    k'.sched.cur.heapBreak = k.sched.cur.heapBreak ∧
    k'.mm.pt.leaf k.sched.cur.space = k.mm.pt.leaf k.sched.cur.space ∧
    k'.mm.frames.inUse = k.mm.frames.inUse ∧
    (k.BreakFits delta → ∀ frames : PhysFrameAllocator,
      k.mm.need k.sched.cur.space 1 (k.growth delta) ≤ frames.available →
      ({ k' with mm := { k'.mm with frames } }.sbrk delta).1 = .done k.sched.cur.heapBreak)

/-- The pages that the heap is to grow by are all empty, and there is a frame for each of them and for
the tables they need, or no frame at all. -/
def Kernel.GrowsWhole (k : Kernel) (delta : ℤ) : Prop :=
  (∀ p ∈ k.growth delta, k.mm.pt.leaf k.sched.cur.space p = none) ∧
    (k.mm.frames.available = 0 ∨
      k.mm.need k.sched.cur.space 1 (k.growth delta) ≤ k.mm.frames.available)

namespace Kernel

/-- Without any frame left, the loop over the new pages changes nothing. -/
lemma growHeap_of_none (h : k.mm.frames.available = 0) (delta : ℤ) :
    (k.growHeap delta).2.pt = k.mm.pt ∧ (k.growHeap delta).2.frames.inUse = k.mm.frames.inUse :=
  allocMapPages_of_none h ..

/-- With a frame left, it takes one if there is a page to map. -/
lemma growHeap_inUse_lt (hpos : 0 < delta) (h : k.mm.frames.available ≠ 0)
    (hpages : (k.growth delta).Nonempty) :
    k.mm.frames.inUse < (k.growHeap delta).2.frames.inUse := by
  refine allocMapPages_inUse_lt h ?_
  obtain ⟨p, hp⟩ := hpages
  rw [growth_eq hpos] at hp
  have hp := Finset.mem_Ico.mp hp
  omega

/-- There are allocators with any number of frames left. -/
lemma exists_available (n : ℕ) : ∃ frames : PhysFrameAllocator, frames.available = n :=
  ⟨{ regions := [], regionIdx := 0, cursor := 0, freeList := List.replicate n 0, totalFrames := n,
     inUse := 0 }, by simp [PhysFrameAllocator.available, PhysFrameAllocator.rooms]⟩

/-- A second call, with the break and the page tables as they were and other frames. -/
lemma sbrk_again_iff (hpos : 0 < delta) (hfits : k.BreakFits delta)
    (hcur : k'.sched.cur = k.sched.cur) (hpt : k'.mm.pt = k.mm.pt) (frames : PhysFrameAllocator) :
    ({ k' with mm := { k'.mm with frames } }.sbrk delta).1 = .done k.sched.cur.heapBreak ↔
      (∀ p ∈ k.growth delta, k.mm.pt.leaf k.sched.cur.space p = none) ∧
        k.mm.need k.sched.cur.space 1 (k.growth delta) ≤ frames.available := by
  generalize hk₂ : ({ k' with mm := { k'.mm with frames } } : Kernel) = k₂
  have hcur₂ : k₂.sched.cur = k.sched.cur := by rw [← hk₂]; exact hcur
  have hpt₂ : k₂.mm.pt = k.mm.pt := by rw [← hk₂]; exact hpt
  have hframes₂ : k₂.mm.frames = frames := by rw [← hk₂]
  have hnew : k₂.newBreak delta = k.newBreak delta := by unfold newBreak; rw [hcur₂]
  have hfits₂ : k₂.BreakFits delta := by unfold BreakFits; rw [hnew]; exact hfits
  have hgrowth : k₂.growth delta = k.growth delta := by unfold growth; rw [hnew, hcur₂]
  have hneed : k₂.mm.need k.sched.cur.space 1 (k.growth delta) =
      k.mm.need k.sched.cur.space 1 (k.growth delta) := by
    unfold Mm.need Mm.missingTables
    rw [hpt₂]
  have hiff := (growHeap_attempts hpos hfits₂).iff
  rw [hgrowth, hcur₂, hpt₂, hneed, hframes₂] at hiff
  rw [← hiff, sbrk_grow hpos hfits₂]
  cases hr : k₂.growHeap delta with
  | mk o mm =>
    cases o with
    | done _ => simp [hcur₂]
    | failed => simp
    | panic => simp

end Kernel

/-- In every run, an `SBRK` fails without a trace if and only if it does not grow the heap, is out of
range, or finds its pages empty and frames for all of them or none at all. -/
theorem sbrk_failsClean_iff {ts : List KernelStep} (hdisj : plat.RegionsDisjoint)
    (h : Run (xernel plat) ts k) :
    ∀ t ∈ ts, ∀ args, t.pre.activity t.event = .call .sbrk args →
      (t.pre.FailsClean t.post (Kernel.asI64 args.rdi.toNat) t.out ↔
        Kernel.asI64 args.rdi.toNat ≤ 0 ∨ ¬ t.pre.BreakFits (Kernel.asI64 args.rdi.toNat) ∨
          t.pre.GrowsWhole (Kernel.asI64 args.rdi.toNat)) := by
  intro t ht args hact
  obtain ⟨hreach, hs⟩ := h.mem_step ht
  obtain ⟨hcore, hout⟩ := sbrk_step hreach hs hact
  generalize Kernel.asI64 args.rdi.toNat = delta at hcore hout ⊢
  obtain ⟨ts₀, hrun⟩ := hreach
  have hheap : t.pre.sched.cur.HeapMapped t.pre.mm :=
    heapInv_run hdisj hrun _ _ (Scheduler.getElem?_current _)
  have hsched : t.post.sched = (Kernel.orMax (t.pre.entered.sbrk delta)).1.sched :=
    congrArg Core.sched hcore
  have hmm : t.post.mm = (Kernel.orMax (t.pre.entered.sbrk delta)).1.mm := congrArg Core.mm hcore
  have hold : some t.pre.sched.cur.heapBreak ≠ some u64Max := by
    intro heq
    have hmax : t.pre.sched.cur.heapBreak = u64Max := Option.some.inj heq
    have hlower := hheap.lower
    simp only [u64Max] at hmax
    omega
  by_cases hfits : t.pre.BreakFits delta
  · -- a call that succeeds has nothing to undo
    have hsucceeds : delta ≤ 0 ∨ (t.pre.growHeap delta).1 = .done () →
        t.pre.FailsClean t.post delta t.out := by
      intro hdone hfailed
      obtain ⟨hres, -⟩ := Kernel.sbrk_succeeds (k := t.pre.entered) hfits hdone
      rw [← hout, hfailed] at hres
      exact absurd hres.symm hold
    by_cases hpos : 0 < delta
    · have hiff := (Kernel.growHeap_attempts hpos hfits).iff
      by_cases hdone : (t.pre.growHeap delta).1 = .done ()
      · exact iff_of_true (hsucceeds (.inr hdone))
          (.inr (.inr ⟨(hiff.mp hdone).1, .inr (hiff.mp hdone).2⟩))
      · have hfails := Kernel.sbrk_fails (k := t.pre.entered) hpos hfits hdone
        rw [hfails] at hsched hmm hout
        have hmm : t.post.mm = (t.pre.growHeap delta).2 := hmm
        have hcur : t.post.sched.cur = t.pre.sched.cur := by rw [hsched]; rfl
        have hnonempty : (t.pre.growth delta).Nonempty := by
          refine Finset.nonempty_iff_ne_empty.mpr fun hempty => hdone (hiff.mpr ?_)
          rw [hempty]
          exact ⟨fun p hp => absurd hp (Finset.notMem_empty p), Nat.zero_le _⟩
        by_cases havail : t.pre.mm.frames.available = 0
        · -- nothing was taken or mapped; a second call depends on the pages
          obtain ⟨hpt, huse⟩ := Kernel.growHeap_of_none havail delta
          rw [← hmm] at hpt huse
          have hagain := Kernel.sbrk_again_iff hpos hfits hcur hpt
          refine ⟨fun hclean => .inr (.inr ⟨?_, .inl havail⟩), fun hcond _ => ?_⟩
          · obtain ⟨frames, hframes⟩ := Kernel.exists_available
              (t.pre.mm.need t.pre.sched.cur.space 1 (t.pre.growth delta))
            obtain ⟨-, -, -, hretry⟩ := hclean hout
            exact ((hagain frames).mp (hretry hfits frames (le_of_eq hframes.symm))).1
          · have hwhole := (hcond.resolve_left (by omega)).resolve_left (not_not_intro hfits)
            refine ⟨by rw [hcur], by rw [hpt], huse, fun _ frames hframes => ?_⟩
            exact (hagain frames).mpr ⟨hwhole.1, hframes⟩
        · -- a frame was taken for the first page
          have huse := Kernel.growHeap_inUse_lt hpos havail hnonempty
          rw [← hmm] at huse
          refine iff_of_false (fun hclean => ?_) ?_
          · obtain ⟨-, -, hsame, -⟩ := hclean hout
            omega
          · rintro (hneg | hrange | ⟨hempty, hnone | henough⟩)
            · omega
            · exact hrange hfits
            · exact havail hnone
            · exact hdone (hiff.mpr ⟨hempty, henough⟩)
    · exact iff_of_true (hsucceeds (.inl (by omega))) (.inl (by omega))
  · refine iff_of_true (fun hfailed => ?_) (.inr (.inl hfits))
    by_cases hzero : delta = 0
    · rw [hzero, Kernel.sbrk_zero] at hout
      rw [hout] at hfailed
      exact absurd hfailed hold
    · rw [Kernel.sbrk_out_of_range (k := t.pre.entered) hzero hfits] at hsched hmm
      have hmm : t.post.mm = t.pre.mm := hmm
      have hsched : t.post.sched = t.pre.sched := hsched
      exact ⟨by rw [hsched], by rw [hmm], by rw [hmm], fun h => absurd h hfits⟩

/-- A machine with three frames left after boot. -/
def scarcePlatform : Platform := { smallPlatform with regions := [⟨0x10_0000, 0x11_d000⟩] }

/-- The heap takes the last frames; the call after that fails and leaves no trace. -/
theorem sbrk_failsClean_iff_spent :
    ∃ ts k, Run (xernel scarcePlatform) ts k ∧ ∃ t ∈ ts, t.out = some u64Max ∧
      t.pre.mm.frames.available = 0 ∧ t.pre.FailsClean t.post 4096 t.out := by
  have hfacts : (trace scarcePlatform [.resume, .call .sbrk 8192, .call .sbrk 4096]).map
      (fun r => (r.1[2]?).map fun t => (t.out, t.pre.mm.frames.available,
        decide (∀ p ∈ t.pre.growth 4096, t.pre.mm.pt.leaf t.pre.sched.cur.space p = none))) =
      some (some (some u64Max, 0, true)) := by decide +kernel
  obtain ⟨r, hr, hfacts⟩ := Option.map_eq_some_iff.mp hfacts
  obtain ⟨t, ht, hfacts⟩ := Option.map_eq_some_iff.mp hfacts
  simp only [Prod.mk.injEq, decide_eq_true_eq] at hfacts
  obtain ⟨hout, havail, hempty⟩ := hfacts
  have hevent : t.event = .call .sbrk 4096 := (Option.some.inj (trace_event hr ht)).symm
  have hmem := List.mem_of_getElem? ht
  have hdisj : scarcePlatform.RegionsDisjoint :=
    Platform.regionsDisjoint_of_pairwise (List.pairwise_singleton _ _)
  refine ⟨r.1, r.2, trace_run hr, t, hmem, hout, havail, ?_⟩
  exact (sbrk_failsClean_iff hdisj (trace_run hr) t hmem
    { rdi := 4096, rsi := 0, rdx := 0, r10 := 0, r8 := 0, r9 := 0 } (by rw [hevent]; rfl)).mpr
    (.inr (.inr ⟨hempty, .inl havail⟩))

/-- With three frames left, a call for three pages maps two of them and fails. -/
theorem not_sbrk_failsClean :
    ¬ ∀ ts k, Run (xernel scarcePlatform) ts k → ∀ t ∈ ts, ∀ args,
      t.pre.activity t.event = .call .sbrk args →
      t.pre.FailsClean t.post (Kernel.asI64 args.rdi.toNat) t.out := by
  have hfacts : (trace scarcePlatform [.resume, .call .sbrk 12288]).map (fun r => (r.1[1]?).map fun t =>
      (t.out, t.pre.mm.frames.inUse, t.post.mm.frames.inUse)) =
      some (some (some u64Max, 26, 29)) := by decide +kernel
  intro hall
  obtain ⟨r, hr, hfacts⟩ := Option.map_eq_some_iff.mp hfacts
  obtain ⟨t, ht, hfacts⟩ := Option.map_eq_some_iff.mp hfacts
  simp only [Prod.mk.injEq] at hfacts
  obtain ⟨hout, hbefore, hafter⟩ := hfacts
  have hevent : t.event = .call .sbrk 12288 := (Option.some.inj (trace_event hr ht)).symm
  obtain ⟨-, -, huse, -⟩ := hall r.1 r.2 (trace_run hr) t (List.mem_of_getElem? ht)
    { rdi := 12288, rsi := 0, rdx := 0, r10 := 0, r8 := 0, r9 := 0 } (by rw [hevent]; rfl) hout
  rw [hbefore, hafter] at huse
  cases huse

end Xernel
