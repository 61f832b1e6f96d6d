import Xernel.FreeFrames

/-!
# Who shares memory

A frame that a `Frame` capability names is mapped by holders of such a capability only: it comes into
the address space of a process by `MAP_FRAME`, which asks for the capability, or by the `FRAME_ALLOC`
that installs it; and `Frame` capabilities stay in their slots. So memory is shared with nobody but
those to whom the capability was given.
-/

namespace Xernel

open Mm (Builds)

variable {plat : Platform} {k : Kernel} {a b : Core} {act : Activity} {out : Option ℕ} {args : Args}
  {f : ℕ} {x : Option ℕ}

/-! ## New mappings -/

/-- What building up memory maps for ring 3 was given, reserved, or not handed out before. -/
lemma Mm.Builds.userMaps_new {regions : List Region} {s : Scope} {m m' : Mm} {U V : Set ℕ}
    (h : Builds s m U m' V) (hdisj : (regions.map Region.rounded).Pairwise Region.Disjoint)
    (hr : AllocatorRun regions m.frames m.calls) (hU : ∀ f ∈ U, f ∈ Xernel.handedOut m.calls)
    (hf : m'.pt.UserMaps x f) :
    m.pt.UserMaps x f ∨ x ∈ s.userTrees ∧ ((∃ phys ∈ s.given, f = pageDown phys) ∨ f ∈ U ∨
      f ∉ Xernel.handedOut m.calls) := by
  -- a reserved frame is in use now, and it was reserved or free at the start
  have hreserved : ∀ {m' : Mm} {V : Set ℕ}, Builds s m U m' V →
      ∀ f ∈ V, f ∈ Xernel.handedOut m'.calls ∧ (f ∈ U ∨ f ∉ Xernel.handedOut m.calls) := by
    intro m' V h
    have hfresh : ∀ {m₁ m₂ : Mm} {V : Set ℕ} {got : Option ℕ}, Builds s m U m₁ V →
        m₁.frameAlloc = (got, m₂) → ∀ f, got = some f →
        f ∈ Xernel.handedOut m₂.calls ∧ (f ∈ U ∨ f ∉ Xernel.handedOut m.calls) := by
      rintro m₁ m₂ V got h ha f rfl
      obtain ⟨hnot, hout⟩ := fresh_of_frameAlloc hdisj (h.run hr) ha
      exact ⟨hout, .inr fun hold => hnot (h.handedOut hold)⟩
    induction h with
    | refl => exact fun f hf => ⟨hU f hf, .inl hf⟩
    | bytes _ _ ih => exact ih
    | leak _ hW ih | leaf _ _ _ hW _ ih => exact fun f hf => ih f (hW hf)
    | @alloc m₁ m₂ V got h ha ih =>
      have hb : Builds s m₁ V m₂ _ := Builds.refl.alloc ha
      rintro f (hf | hf)
      · exact (ih f hf).imp_left hb.handedOut
      · exact hfresh h ha f hf
    | @contiguous m₁ m₂ V n got h hn ha ih =>
      have hb : Builds s m₁ V m₂ _ := Builds.refl.contiguous hn ha
      rintro f (hf | ⟨base, rfl, hf⟩)
      · exact (ih f hf).imp_left hb.handedOut
      · obtain ⟨hnot, hout⟩ := fresh_of_contiguous hdisj (h.run hr) hn ha f hf
        exact ⟨hout, .inr fun hold => hnot (h.handedOut hold)⟩
    | @space m₁ m₂ V l4 h ha _ ih =>
      have hb : Builds s m₁ V m₂ _ := Builds.refl.alloc ha
      exact fun f hf => (ih f hf).imp_left hb.handedOut
    | @table m₁ m₂ V l4 page level idx frame h ha _ _ ih =>
      have hb : Builds s m₁ V m₂ _ := Builds.refl.alloc ha
      exact fun f hf => (ih f hf).imp_left hb.handedOut
  induction h with
  | refl => exact .inl hf
  | bytes _ _ ih | leak _ _ ih => exact ih hf
  | alloc _ ha ih => rw [Builds.frameAlloc_pt ha] at hf; exact ih hf
  | contiguous _ _ ha ih => rw [(frameAllocContiguous_calls ha).2] at hf; exact ih hf
  | space _ ha _ ih =>
    have hold := PageTables.userMaps_newSpace hf
    rw [Builds.frameAlloc_pt ha] at hold
    exact ih hold
  | table _ ha _ _ ih =>
    have hold := PageTables.userMaps_setTable hf
    rw [Builds.frameAlloc_pt ha] at hold
    exact ih hold
  | leaf h _ _ _ hown ih =>
    rcases PageTables.userMaps_setLeaf hf with hold | ⟨rfl, huser, hphys⟩
    · exact ih hold
    · obtain ⟨hx, hgiven | ⟨hV, -⟩⟩ := hown huser
      · exact .inr ⟨hx, .inl ⟨_, hgiven, hphys⟩⟩
      · obtain ⟨hout, hnew⟩ := hreserved h _ hV
        have hal := ((h.run hr).isRam hdisj hout).2
        rw [show f = pageDown _ from hphys, pageDown_of_dvd hal]
        exact .inr ⟨hx, .inr hnew⟩

/-- What a process may map besides its own frames is named by one of its `Frame` capabilities, or it
is not RAM. -/
lemma MemoryCaps.mayMap (h : MemoryCaps a) (hplat : plat.WellFormed) (hf : a.sched.MayMap plat f) :
    (∃ slot phys pages, a.sched.cur.caps.slot slot = some (.frame phys pages) ∧
      f ∈ blockRun frameSize phys pages) ∨ ¬ IsRam plat.regions (pageDown f) := by
  rcases hf with hframe | ⟨slot, cap, hslot, htype, hlo, hhi⟩ | hfb
  · exact .inl hframe
  · obtain rfl := h.ioMem cap (.inl ⟨_, slot, Core.hasSlot_cur hslot⟩) htype
    refine .inr ?_
    rintro ⟨r, hr, hlo', hhi'⟩
    have hpci := hplat.pci r hr
    simp only [CapEntry.ioMem, pciMmioBase, pciMmioLen, pageDown, frameSize] at *
    omega
  · unfold Platform.framebufferFrames at hfb
    cases hfb' : plat.framebuffer with
    | none => rw [hfb'] at hfb; cases hfb
    | some fb =>
      rw [hfb'] at hfb
      have hal : frameSize ∣ f := dvd_of_mem_blockRun (frameSize_dvd_pageDown _) hfb
      rw [pageDown_of_dvd hal]
      exact .inr (hplat.framebuffer f (by rw [Platform.framebufferFrames, hfb']; exact hfb))

/-! ## The invariant -/

/-- Where a shared frame is mapped, the process holds a `Frame` capability for it. -/
def HoldersOnly (a : Core) : Prop :=
  ∀ x f, a.mm.pt.UserMaps x f → f ∈ a.sharedFrames →
    ∃ (i : ℕ) (p : Process) (slot phys pages : ℕ), a.sched.procs[i]? = some p ∧ x = some p.space ∧
      p.caps.slot slot = some (.frame phys pages) ∧ f ∈ blockRun frameSize phys pages

/-- `FRAME_ALLOC` returns to its caller. -/
lemma CoreStep.frameAlloc_current (h : CoreStep plat a b (.call .frameAlloc args) out) :
    b.sched.current = a.sched.current := by
  cases h with
  | yielded hk | blocked hk => cases hk
  | exited code hact => rcases hact with hact | ⟨args, hact⟩ <;> cases hact
  | quiet hact hout hs | logged data hact hs | setBreak hact hs | charged hact hout h hs
  | refunded hact hout h hs | frameInstalled hact hout h hins hs | spawned hact hout hp hins hs
  | sent hact hout hid hsend hs | signalled hact hout hid hsig hs | received hact hrecv hins hs
  | taken hact hout htake hs | parked hk hkont hout hs | logTaken hact hpid hi hs
  | killed hact hpid hne hi halive hs | granted hact hres hpid hcap hi hins hs =>
    exact (congrArg Scheduler.current hs).trans rfl

/-- Every step keeps it, but for a `FRAME_ALLOC` that frees what it has mapped. -/
theorem HoldersOnly.step (h : HoldersOnly a)
    (huse : FrameUse plat.regions a.sharedFrames ∅ a.mm) (hplat : plat.WellFormed)
    (hcaps : MemoryCaps a) (hs : CoreStep plat a b act out)
    (hm : MmStep plat a b a.sched.cur.space false act out) : HoldersOnly b := by
  intro x f hx hf
  have hdisj := hplat.regions
  have hcur := Scheduler.getElem?_current a.sched
  -- a mapping that was there, of a frame that was shared
  have hold : a.mm.pt.UserMaps x f → f ∈ a.sharedFrames →
      ∃ (i : ℕ) (p : Process) (slot phys pages : ℕ), b.sched.procs[i]? = some p ∧ x = some p.space ∧
        p.caps.slot slot = some (.frame phys pages) ∧ f ∈ blockRun frameSize phys pages := by
    intro hx hf
    obtain ⟨i, p, slot, phys, pages, hp, rfl, hslot, hfp⟩ := h x f hx hf
    obtain ⟨p', hp', hstep⟩ := hs.stays hp
    obtain ⟨q, hq, hslot'⟩ := hs.frame_stays ⟨p, hp, hslot⟩
    obtain rfl : q = p' := Option.some.inj (hq.symm.trans hp')
    exact ⟨i, q, slot, phys, pages, hq, by rw [hstep.identity.space], hslot', hfp⟩
  -- a new mapping is one of the frames that the step was given
  have hnew : ∀ {s : Scope} {m m' : Mm} {U V : Set ℕ}, Builds s m U m' V →
      AllocatorRun plat.regions m.frames m.calls → (∀ f ∈ U, f ∈ handedOut m.calls ∧ f ∉ b.sharedFrames) →
      (∀ f ∈ b.sharedFrames, f ∈ handedOut m.calls) → m'.pt.UserMaps x f →
      m.pt.UserMaps x f ∨ x ∈ s.userTrees ∧ ∃ phys ∈ s.given, f = pageDown phys := by
    intro s m m' U V hb hr hU hout hx
    rcases hb.userMaps_new hdisj hr (fun f hf => (hU f hf).1) hx with hx | ⟨hs, hgiven | hfU | hnot⟩
    · exact .inl hx
    · exact .inr ⟨hs, hgiven⟩
    · exact absurd hf (hU f hfU).2
    · exact absurd (hout f hf) hnot
  have hnone : ∀ f ∈ (∅ : Set ℕ), f ∈ handedOut a.mm.calls ∧ f ∉ b.sharedFrames :=
    fun f hf => absurd hf (Set.notMem_empty f)
  cases hm with
  | built hact hb =>
    have hsame : b.sharedFrames = a.sharedFrames :=
      hs.sharedFrames_eq hcaps (by rintro args rfl; exact hact)
    rw [hsame] at hf
    rcases hnew hb huse.run hnone (fun f hf => huse.shared f (by rwa [hsame] at hf)) hx with
      hx | ⟨hxs, g, hg, hfg⟩
    · exact hold hx hf
    · rcases hcaps.mayMap hplat hg with ⟨slot, phys, pages, hslot, hgp⟩ | hram
      · have hshared : g ∈ a.sharedFrames := ⟨_, slot, phys, pages, Core.hasSlot_cur hslot, hgp⟩
        rw [pageDown_of_dvd (huse.run.isRam hdisj (huse.shared g hshared)).2] at hfg
        subst hfg
        obtain ⟨p', hp', hstep⟩ := hs.stays hcur
        obtain ⟨q, hq, hslot'⟩ := hs.frame_stays (Core.hasSlot_cur hslot)
        obtain rfl : q = p' := Option.some.inj (hq.symm.trans hp')
        refine ⟨_, q, slot, phys, pages, hq, ?_, hslot', hgp⟩
        rw [hstep.identity.space]
        exact hxs
      · rw [← hfg] at hram
        exact absurd (huse.run.isRam hdisj (huse.shared f hf)).1 hram
  | noSpace hact ha =>
    have hsame : b.sharedFrames = a.sharedFrames :=
      hs.sharedFrames_eq hcaps (by rintro args rfl; rcases hact with h | h <;> cases h)
    rw [Builds.frameAlloc_pt ha] at hx
    rw [hsame] at hf
    exact hold hx hf
  | created hact ha hlive hb =>
    have hsame : b.sharedFrames = a.sharedFrames :=
      hs.sharedFrames_eq hcaps (by rintro args rfl; rcases hact with h | h <;> cases h)
    rcases hnew hb huse.run hnone (fun f hf => huse.shared f (by rwa [hsame] at hf)) hx with
      hx | ⟨-, g, hg, -⟩
    · rw [hsame] at hf
      exact hold hx hf
    · exact absurd hg (Set.notMem_empty g)
  | @frameRun args phys m hact hout hn ha hb hcap =>
    have halloc : Builds ⟨∅, ∅, ∅⟩ a.mm ∅ m _ := Builds.refl.contiguous hn ha
    have hfresh := fresh_of_contiguous hdisj huse.run hn ha
    have hrun := halloc.run huse.run
    have hshared : ∀ g ∈ b.sharedFrames, g ∈ a.sharedFrames ∨
        g ∈ blockRun frameSize phys args.rdi.toNat := by
      intro g hg
      rcases hs.sharedFrames hcaps hg with hg | ⟨args', phys', later, hact', -, hg, hcalls⟩
      · exact .inl hg
      · -- the run of the new capability is the one that was allocated
        obtain rfl : args = args' := by
          rw [hact] at hact'
          exact (Activity.call.inj hact').2
        obtain ⟨l, hl, -⟩ := hb.calls
        rw [(frameAllocContiguous_calls ha).1, List.append_assoc, hcalls] at hl
        have hfirst := (List.cons.inj (List.append_cancel_left hl)).1
        obtain rfl := Option.some.inj (FrameCall.allocContiguous.inj hfirst).2
        exact .inr hg
    have hkeep : ∀ g ∈ b.sharedFrames, g ∈ handedOut m.calls := fun g hg =>
      (hshared g hg).elim (fun hg => halloc.handedOut (huse.shared g hg)) fun hg => (hfresh g hg).2
    rcases hnew hb hrun (fun g hg => absurd hg (Set.notMem_empty g)) hkeep hx with
      hx | ⟨hxs, g, hg, hfg⟩
    · rw [(frameAllocContiguous_calls ha).2] at hx
      rcases hshared f hf with hf | hf
      · exact hold hx hf
      · -- the new run was not in use before
        have hram := (hrun.isRam hdisj (hfresh f hf).2).1
        exact absurd (huse.mapped x f hx hram).1 (hfresh f hf).1
    · rw [pageDown_of_dvd (hrun.isRam hdisj (hfresh g hg).2).2] at hfg
      subst hfg
      subst hact
      obtain ⟨p', hp', hstep⟩ := hs.stays hcur
      obtain rfl : b.sched.cur = p' := by
        rw [Scheduler.cur_eq_iff, hs.frameAlloc_current]
        exact hp'
      refine ⟨_, _, _, phys, _, hp', ?_, hcap, hg⟩
      rw [hstep.identity.space]
      exact hxs
  | unmapped hact hout hn ha hb hm =>
    have hsame : b.sharedFrames = a.sharedFrames := hs.sharedFrames_eq hcaps fun _ _ => hout
    have halloc : Builds ⟨∅, ∅, ∅⟩ a.mm ∅ _ _ := Builds.refl.contiguous hn ha
    have hfresh := fresh_of_contiguous hdisj huse.run hn ha
    have hU : ∀ g ∈ {f | f ∈ blockRun frameSize _ _}, g ∈ handedOut _ ∧ g ∉ b.sharedFrames :=
      fun g hg => ⟨(hfresh g hg).2, fun hg' =>
        (hfresh g hg).1 (huse.shared g (by rwa [hsame] at hg'))⟩
    rw [hm, freeRun_pt] at hx
    rcases hnew hb (halloc.run huse.run) hU
      (fun g hg => halloc.handedOut (huse.shared g (by rwa [hsame] at hg))) hx with hx | ⟨-, g, hg, -⟩
    · rw [(frameAllocContiguous_calls ha).2] at hx
      rw [hsame] at hf
      exact hold hx hf
    · exact absurd hg (Set.notMem_empty g)
  | unwound hact hout hn hbad => cases hbad

lemma holdersOnly_boot (h : boot plat = some k) : HoldersOnly k.core := by
  rintro x f - ⟨i, slot, phys, pages, hslot, -⟩
  exact absurd rfl (capType_seededCaps _ (boot_holds h (.inl ⟨i, slot, hslot⟩)).2)

theorem holdersOnly_run {ts : List KernelStep} (hplat : plat.WellFormed) (h : Run (xernel plat) ts k)
    (hts : ∀ t ∈ ts, t.pre.freesMapped t.event = false) : HoldersOnly k.core := by
  -- the frames of a state are in their use, as its run so far meets the condition as well
  have hboth := h.invariant_of
    (I := fun k => HoldersOnly k.core ∧ FrameUse plat.regions k.core.sharedFrames ∅ k.mm)
    (C := fun k e => k.freesMapped e = false)
    (fun _ hk => ⟨holdersOnly_boot hk, frameUse_boot hplat hk⟩) ?_ hts
  · exact hboth.1
  rintro k e k' o hreach ⟨hinv, huse⟩ hgood hs
  obtain ⟨ts, hrun⟩ := id hreach
  have hcore := reachable_core hreach hs
  have hmm := (spaceInv_run hplat.regions hrun).mm hreach hs
  rw [hgood] at hmm
  have huse' := huse.step hplat (memoryCaps_run hrun) hcore hmm
  rw [(reachable_onThread hreach hs).cr3] at hmm
  exact ⟨hinv.step huse hplat (memoryCaps_run hrun) hcore hmm, huse'⟩

end Xernel
