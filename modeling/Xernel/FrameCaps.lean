import Xernel.Spaces

/-!
# Frame capabilities

Every `Frame` capability in circulation names a run that one `alloc_contiguous` call handed out, and
no frame of such a run is ever freed. So the runs of two capabilities are the same or disjoint.
-/

namespace Xernel

variable {plat : Platform} {k k' : Kernel} {a b : Core} {cr3 : ℕ} {bad : Bool} {act : Activity}
  {out : Option ℕ} {calls : List FrameCall} {phys pages : ℕ} {cap cap' : CapEntry}

/-- One `alloc_contiguous` call handed out the run, and none of its frames was freed since. -/
def HeldRun (calls : List FrameCall) (phys pages : ℕ) : Prop :=
  ∃ l₁ l₂, calls = l₁ ++ .allocContiguous pages (some phys) :: l₂ ∧
    ∀ f ∈ blockRun frameSize phys pages, .free f ∉ l₂

namespace HeldRun

/-- As a batch of the pool that the allocator is. -/
lemma heldFrom (h : HeldRun calls phys pages) :
    PoolOp.HeldFrom (calls.map FrameCall.poolOp) (blockRun frameSize phys pages) := by
  obtain ⟨l₁, l₂, rfl, hkeep⟩ := h
  exact ⟨l₁.map FrameCall.poolOp, l₂.map FrameCall.poolOp, by simp [FrameCall.poolOp],
    fun f hf hg => hkeep f hf (FrameCall.give_mem_poolOp.mp hg)⟩

lemma mem_handedOut (h : HeldRun calls phys pages) {f : ℕ}
    (hf : f ∈ blockRun frameSize phys pages) : f ∈ handedOut calls :=
  h.heldFrom.mem_outstanding hf

/-- Its frames are frames of contiguous runs. -/
lemma mem_runFrames (h : HeldRun calls phys pages) {f : ℕ}
    (hf : f ∈ blockRun frameSize phys pages) : f ∈ runFrames calls := by
  obtain ⟨l₁, l₂, rfl, hkeep⟩ := h
  have hrun : f ∈ runFrames (l₁ ++ [.allocContiguous pages (some phys)]) := by
    rw [runFrames_snoc]
    exact List.mem_append_left _ hf
  rw [List.append_cons]
  exact runFrames_append hrun (hkeep f hf)

/-- A held run stays held while only frames that are not handed out are freed. -/
lemma append {l : List FrameCall} (h : HeldRun calls phys pages)
    (hl : ∀ pa, .free pa ∈ l → pa ∉ handedOut calls) : HeldRun (calls ++ l) phys pages := by
  have hout : ∀ f ∈ blockRun frameSize phys pages, f ∈ handedOut calls :=
    fun f hf => h.mem_handedOut hf
  obtain ⟨l₁, l₂, rfl, hkeep⟩ := h
  refine ⟨l₁, l₂ ++ l, by simp, fun f hf hmem => ?_⟩
  rcases List.mem_append.mp hmem with hmem | hmem
  · exact hkeep f hf hmem
  · exact hl f hmem (hout f hf)

end HeldRun

/-- Every `Frame` capability in circulation names a held run. -/
def FramesHeld (a : Core) : Prop :=
  ∀ cap, a.Holds cap → cap.capType = .frame → HeldRun a.mm.calls cap.object cap.badge

/-- No process is seeded with a `Frame` capability. -/
lemma capType_seededCaps : ∀ cap ∈ seededCaps, cap.capType ≠ .frame := by decide

theorem FramesHeld.step (h : FramesHeld a) (hs : CoreStep plat a b act out)
    (hm : MmStep plat a b cr3 bad act out) (hdisj : plat.RegionsDisjoint)
    (hr : AllocatorRun plat.regions a.mm.frames a.mm.calls) : FramesHeld b := by
  intro cap hcap htype
  rcases hs.holds hcap with ⟨cap₀, hcap₀, hsame⟩ | ⟨slot, hseed⟩ | ⟨rfl, -⟩ |
    ⟨phys, pages, later, rfl, hcalls, hkeep⟩
  · obtain rfl := hsame.eq_of_right (by simp [htype])
    obtain ⟨l, hl, hfree⟩ := hm.calls hdisj hr
    rw [hl]
    exact (h cap hcap₀ htype).append hfree
  · exact absurd htype (capType_seededCaps cap (seededSlot_mem hseed))
  · cases htype
  · exact ⟨_, later, hcalls, fun f _ => hkeep f⟩

lemma framesHeld_boot (h : boot plat = some k) : FramesHeld k.core := by
  intro cap hcap htype
  exact absurd htype (capType_seededCaps cap (boot_holds h hcap).2)

theorem framesHeld_run {ts : List KernelStep} (hdisj : plat.RegionsDisjoint)
    (h : Run (xernel plat) ts k) : FramesHeld k.core := by
  refine h.invariant (I := fun k => FramesHeld k.core) (fun _ hk => framesHeld_boot hk) ?_
  intro k e k' o hreach hinv hs
  obtain ⟨ts, hrun⟩ := id hreach
  have hspace := spaceInv_run hdisj hrun
  exact hinv.step (reachable_core hreach hs) (hspace.mm hreach hs) hdisj hspace.run

/-- Two held runs are the same or have no frame in common. -/
lemma AllocatorRun.eq_or_disjoint {regions : List Region} {al : PhysFrameAllocator} {phys' pages' : ℕ}
    (h : AllocatorRun regions al calls)
    (hdisj : (regions.map Region.rounded).Pairwise Region.Disjoint)
    (hx : HeldRun calls phys pages) (hy : HeldRun calls phys' pages') :
    phys = phys' ∧ pages = pages' ∨
      ∀ f ∈ blockRun frameSize phys pages, f ∉ blockRun frameSize phys' pages' := by
  rcases (h.sound hdisj).eq_or_disjoint hx.heldFrom hy.heldFrom with heq | hne
  · have hlen : pages = pages' := by simpa using congrArg List.length heq
    subst hlen
    cases pages with
    | zero => exact .inr (by simp [blockRun])
    | succ n =>
      rw [blockRun_succ, blockRun_succ] at heq
      exact .inl ⟨(List.cons.inj heq).1, rfl⟩
  · exact .inr hne

/-- `Frame` capabilities in slots and queues never dangle: one `alloc_contiguous` call handed out the
run, nothing of it was freed since, and nothing of it is on the free list. Nor do they alias: the
runs of two of them are the same or disjoint. -/
theorem frameCaps_sound (hdisj : plat.RegionsDisjoint) (h : Reachable (xernel plat) k) :
    (∀ cap, k.core.Holds cap → cap.capType = .frame →
      HeldRun k.mm.calls cap.object cap.badge ∧
      ∀ f ∈ blockRun frameSize cap.object cap.badge,
        f ∈ handedOut k.mm.calls ∧ f ∉ k.mm.frames.freeList) ∧
    (∀ cap cap', k.core.Holds cap → k.core.Holds cap' → cap.capType = .frame →
      cap'.capType = .frame → cap.object = cap'.object ∧ cap.badge = cap'.badge ∨
        ∀ f ∈ blockRun frameSize cap.object cap.badge,
          f ∉ blockRun frameSize cap'.object cap'.badge) := by
  obtain ⟨ts, hrun⟩ := h
  have hheld := framesHeld_run hdisj hrun
  have hal := (spaceInv_run hdisj hrun).run
  refine ⟨fun cap hcap htype => ?_, fun cap cap' hcap hcap' htype htype' => ?_⟩
  · have hcaprun := hheld cap hcap htype
    refine ⟨hcaprun, fun f hf => ?_⟩
    have hout := hcaprun.mem_handedOut hf
    exact ⟨hout, (hal.tracks hdisj).apart f hout⟩
  · exact hal.eq_or_disjoint hdisj (hheld cap hcap htype) (hheld cap' hcap' htype')

/-- Two runs allocated by the first process, and a message that carries one of the capabilities. -/
theorem frameCaps_sound_message :
    ∃ k, Reachable (xernel smallPlatform) k ∧ k.core.Queued 0 (.frame 0x11_a000 2) ∧
      k.core.HasSlot 0 7 (.frame 0x11_e000 1) ∧
      HeldRun k.mm.calls 0x11_a000 2 ∧ 0x11_b000 ∉ k.mm.frames.freeList ∧
      ∀ f ∈ blockRun frameSize 0x11_a000 2, f ∉ blockRun frameSize 0x11_e000 1 := by
  have hfacts : (trace smallPlatform [.resume, .call .frameAlloc 2 6 0x80_8000,
      .call .frameAlloc 1 7 0x80_8000, .call .send 3 0 6]).map
      (fun r => (r.2.ipc.endpoints 0, (r.2.sched.procs[0]?).bind fun p => p.caps.slot 7)) =
      some ([(0, some (.frame 0x11_a000 2))], some (.frame 0x11_e000 1)) := by decide +kernel
  obtain ⟨r, hr, heq⟩ := Option.map_eq_some_iff.mp hfacts
  obtain ⟨hqueue, hslot⟩ := Prod.mk.inj heq
  obtain ⟨p, hp, hcap⟩ := Option.bind_eq_some_iff.mp hslot
  have hreach : Reachable (xernel smallPlatform) r.2 := ⟨r.1, trace_run hr⟩
  have hq : r.2.core.Queued 0 (.frame 0x11_a000 2) :=
    ⟨_, hqueue.symm ▸ List.mem_singleton.mpr rfl, rfl⟩
  have hs : r.2.core.HasSlot 0 7 (.frame 0x11_e000 1) := ⟨p, hp, hcap⟩
  obtain ⟨hheld, hapart⟩ := frameCaps_sound smallPlatform_regionsDisjoint hreach
  obtain ⟨hrun, hfree⟩ := hheld _ (.inr ⟨0, hq⟩) rfl
  refine ⟨r.2, hreach, hq, hs, hrun, (hfree 0x11_b000 (by decide)).2, ?_⟩
  rcases hapart _ _ (.inr ⟨0, hq⟩) (.inl ⟨0, 7, hs⟩) rfl rfl with ⟨-, hbadge⟩ | hne
  · cases hbadge
  · exact hne

end Xernel
