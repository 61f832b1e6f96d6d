import Xernel.Holdings
import Xernel.Memory

/-!
# Frames and address spaces over whole runs

What a step frees it has allocated itself, so frames in use stay in use: `MmStep.calls`. It follows
that address spaces are never given away again and that two processes never share one (`SpaceInv`).
Both rest on the memory map of the bootloader: usable regions do not overlap.
-/

namespace Xernel

open Mm (Builds)

variable {plat : Platform} {k k' : Kernel} {a b : Core} {cr3 : ℕ} {bad : Bool} {act : Activity}
  {out : Option ℕ} {m m' : Mm}

/-- The usable regions of the bootloader's memory map do not overlap, as far as the allocator uses
them. -/
def Platform.RegionsDisjoint (plat : Platform) : Prop :=
  (plat.regions.map Region.rounded).Pairwise Region.Disjoint

lemma Platform.regionsDisjoint_of_pairwise (h : plat.regions.Pairwise Region.Disjoint) :
    plat.RegionsDisjoint :=
  List.pairwise_map.mpr (h.imp Region.Disjoint.rounded)

lemma smallPlatform_regionsDisjoint : smallPlatform.RegionsDisjoint :=
  Platform.regionsDisjoint_of_pairwise (List.pairwise_singleton _ _)

/-! ## Fresh frames -/

section Fresh

variable {regions : List Region} {f n phys : ℕ}

/-- The allocator is called once. -/
lemma frameAlloc_calls {got : Option ℕ} (ha : m.frameAlloc = (got, m')) :
    m'.calls = m.calls ++ [.alloc got] := by
  obtain ⟨rfl, rfl⟩ := Prod.mk.inj ha
  rfl

lemma frameAllocContiguous_calls {got : Option ℕ} (ha : m.frameAllocContiguous n = (got, m')) :
    m'.calls = m.calls ++ [.allocContiguous n got] ∧ m'.pt = m.pt := by
  obtain ⟨rfl, rfl⟩ := Prod.mk.inj ha
  exact ⟨rfl, rfl⟩

/-- The frame that is handed out was not in use. -/
lemma fresh_of_frameAlloc (hdisj : (regions.map Region.rounded).Pairwise Region.Disjoint)
    (hr : AllocatorRun regions m.frames m.calls) (ha : m.frameAlloc = (some f, m')) :
    f ∉ handedOut m.calls ∧ f ∈ handedOut m'.calls := by
  have hbuilds : Builds ⟨∅, ∅, ∅⟩ m ∅ m' _ := Builds.refl.alloc ha
  have hsound := (hbuilds.run hr).sound hdisj
  rw [frameAlloc_calls ha, List.map_append, List.map_singleton] at hsound
  rw [frameAlloc_calls ha, handedOut_snoc]
  exact ⟨(hsound _ [f] [] rfl).2 f (by simp), List.mem_cons_self⟩

/-- Nor was any frame of a run. -/
lemma fresh_of_contiguous (hdisj : (regions.map Region.rounded).Pairwise Region.Disjoint)
    (hr : AllocatorRun regions m.frames m.calls) (hn : n < 2 ^ 40)
    (ha : m.frameAllocContiguous n = (some phys, m')) :
    ∀ f ∈ blockRun frameSize phys n, f ∉ handedOut m.calls ∧ f ∈ handedOut m'.calls := by
  intro f hf
  have hbuilds : Builds ⟨∅, ∅, ∅⟩ m ∅ m' _ := Builds.refl.contiguous hn ha
  have hsound := (hbuilds.run hr).sound hdisj
  rw [(frameAllocContiguous_calls ha).1, List.map_append, List.map_singleton] at hsound
  rw [(frameAllocContiguous_calls ha).1, handedOut_snoc]
  exact ⟨(hsound _ (blockRun frameSize phys n) [] rfl).2 f hf, List.mem_append_left _ hf⟩

/-! ## Freeing a run -/

/-- A run is freed frame by frame. -/
lemma freeRun_calls (m : Mm) (phys n : ℕ) :
    (Kernel.freeRun m phys n).calls = m.calls ++ (blockRun frameSize phys n).map .free := by
  induction n generalizing m phys with
  | zero => simp [Kernel.freeRun, blockRun]
  | succ n ih => rw [Kernel.freeRun, ih, blockRun_succ]; simp [Mm.frameFree]

lemma freeRun_pt (m : Mm) (phys n : ℕ) : (Kernel.freeRun m phys n).pt = m.pt := by
  induction n generalizing m phys with
  | zero => rfl
  | succ n ih => rw [Kernel.freeRun, ih]; rfl

lemma freeRun_run (hr : AllocatorRun regions m.frames m.calls)
    (hrun : ∀ f ∈ blockRun frameSize phys n, f ∈ handedOut m.calls) :
    AllocatorRun regions (Kernel.freeRun m phys n).frames (Kernel.freeRun m phys n).calls := by
  induction n generalizing m phys with
  | zero => exact hr
  | succ n ih =>
    rw [blockRun_succ] at hrun
    refine ih (m := m.frameFree phys) (hr.free (hrun phys List.mem_cons_self)) fun f hf => ?_
    have hne : f ≠ phys := by
      have hle := (blockRun_bounds hf).1
      have hpos := frameSize_pos
      omega
    show f ∈ handedOut (m.calls ++ [.free phys])
    rw [handedOut_snoc]
    exact (List.mem_erase_of_ne hne).mpr (hrun f (List.mem_cons_of_mem _ hf))

end Fresh

/-! ## One step -/

namespace MmStep

variable (h : MmStep plat a b cr3 bad act out) (hdisj : plat.RegionsDisjoint)
  (hr : AllocatorRun plat.regions a.mm.frames a.mm.calls)

include h hdisj hr

/-- The frames that a step frees were not handed out before it. -/
lemma calls : ∃ l, b.mm.calls = a.mm.calls ++ l ∧ ∀ pa, .free pa ∈ l → pa ∉ handedOut a.mm.calls := by
  have hbuilt : ∀ {s : Scope} {m m' : Mm} {U V : Set ℕ} {l : List FrameCall},
      Builds s m U m' V → m.calls = a.mm.calls ++ l → (∀ pa, .free pa ∉ l) →
      ∃ l, m'.calls = a.mm.calls ++ l ∧ ∀ pa, .free pa ∉ l := by
    intro s m m' U V l hb hl hkeep
    obtain ⟨l', hl', hkeep'⟩ := hb.calls
    refine ⟨l ++ l', by rw [hl', hl, List.append_assoc], fun pa hpa => ?_⟩
    rcases List.mem_append.mp hpa with hpa | hpa
    · exact hkeep pa hpa
    · exact hkeep' pa hpa
  have hfreed : ∀ {n phys : ℕ} {m m' : Mm} {s : Scope} {U V : Set ℕ}, n < 2 ^ 40 →
      a.mm.frameAllocContiguous n = (some phys, m) → Builds s m U m' V →
      b.mm = Kernel.freeRun m' phys n →
      ∃ l, b.mm.calls = a.mm.calls ++ l ∧ ∀ pa, .free pa ∈ l → pa ∉ handedOut a.mm.calls := by
    intro n phys m m' s U V hn ha hb hm
    obtain ⟨l, hl, hkeep⟩ := hbuilt hb (frameAllocContiguous_calls ha).1 (by simp)
    refine ⟨l ++ (blockRun frameSize phys n).map .free, ?_, fun pa hpa => ?_⟩
    · rw [hm, freeRun_calls, hl, List.append_assoc]
    · rcases List.mem_append.mp hpa with hpa | hpa
      · exact absurd hpa (hkeep pa)
      · obtain ⟨f, hf, heq⟩ := List.mem_map.mp hpa
        obtain rfl := FrameCall.free.inj heq
        exact (fresh_of_contiguous hdisj hr hn ha f hf).1
  cases h with
  | built hact hb =>
    obtain ⟨l, hl, hkeep⟩ := hb.calls
    exact ⟨l, hl, fun pa hpa => absurd hpa (hkeep pa)⟩
  | noSpace hact ha => exact ⟨[.alloc none], frameAlloc_calls ha, by simp⟩
  | created hact ha hlive hb =>
    obtain ⟨l, hl, hkeep⟩ := hb.calls
    exact ⟨l, hl, fun pa hpa => absurd hpa (hkeep pa)⟩
  | frameRun hact hout hn ha hb hcap =>
    obtain ⟨l, hl, hkeep⟩ := hbuilt hb (frameAllocContiguous_calls ha).1 (by simp)
    exact ⟨l, hl, fun pa hpa => absurd hpa (hkeep pa)⟩
  | unmapped hact hout hn ha hb hm => exact hfreed hn ha hb hm
  | unwound hact hout hn hbad ha hb hm => exact hfreed hn ha hb hm

/-- Frames in use stay in use. -/
lemma handedOut {f : ℕ} (hf : f ∈ handedOut a.mm.calls) : f ∈ Xernel.handedOut b.mm.calls := by
  obtain ⟨l, hl, hfree⟩ := h.calls hdisj hr
  rw [hl]
  exact handedOut_append hf fun hmem => hfree f hmem hf

/-- Frames of contiguous runs stay in use as such. -/
lemma runFrames {f : ℕ} (hf : f ∈ runFrames a.mm.calls) : f ∈ Xernel.runFrames b.mm.calls := by
  obtain ⟨l, hl, hfree⟩ := h.calls hdisj hr
  rw [hl]
  exact runFrames_append hf fun hmem => hfree f hmem (handedOut_of_runFrames hf)

/-- The allocator is used as it expects: only frames in use are freed. -/
lemma run : AllocatorRun plat.regions b.mm.frames b.mm.calls := by
  have hfreed : ∀ {n phys : ℕ} {m m' : Mm} {s : Scope} {U V : Set ℕ}, n < 2 ^ 40 →
      a.mm.frameAllocContiguous n = (some phys, m) → Builds s m U m' V →
      b.mm = Kernel.freeRun m' phys n → AllocatorRun plat.regions b.mm.frames b.mm.calls := by
    intro n phys m m' s U V hn ha hb hm
    have hrun : AllocatorRun plat.regions m.frames m.calls := by
      obtain ⟨hgot, rfl⟩ := Prod.mk.inj ha
      exact hr.allocContiguous hn rfl
    rw [hm]
    exact freeRun_run (hb.run hrun) fun f hf =>
      hb.handedOut (fresh_of_contiguous hdisj hr hn ha f hf).2
  cases h with
  | built hact hb => exact hb.run hr
  | noSpace hact ha =>
    have hb : Builds ⟨∅, ∅, ∅⟩ a.mm ∅ b.mm _ := Builds.refl.alloc ha
    exact hb.run hr
  | created hact ha hlive hb => exact hb.run hr
  | frameRun hact hout hn ha hb hcap =>
    obtain ⟨hgot, rfl⟩ := Prod.mk.inj ha
    exact hb.run (hr.allocContiguous hn rfl)
  | unmapped hact hout hn ha hb hm => exact hfreed hn ha hb hm
  | unwound hact hout hn hbad ha hb hm => exact hfreed hn ha hb hm

omit hdisj hr in
/-- The upper half stays as it is. -/
lemma kernel_same : b.mm.pt.kernel = a.mm.pt.kernel := by
  have hsame : ∀ {space : ℕ} {given : Set ℕ} {m m' : Mm} {U V : Set ℕ},
      Builds (.ofSpace space given) m U m' V → m'.pt.kernel = m.pt.kernel := by
    intro space given m m' U V hb
    have hnone : none ∉ (Scope.ofSpace space given).trees := by simp [Scope.ofSpace]
    have hhalf := hb.same hnone
    exact hhalf
  cases h with
  | built hact hb => exact hsame hb
  | noSpace hact ha => rw [Builds.frameAlloc_pt ha]
  | created hact ha hlive hb => exact hsame hb
  | frameRun hact hout hn ha hb hcap => rw [hsame hb, (frameAllocContiguous_calls ha).2]
  | unmapped hact hout hn ha hb hm =>
    rw [hm, freeRun_pt, hsame hb, (frameAllocContiguous_calls ha).2]
  | unwound hact hout hn hbad ha hb hm =>
    rw [hm, freeRun_pt, hsame hb, (frameAllocContiguous_calls ha).2]

/-- The lower half of a space in use stays as it is unless the space is active. -/
lemma user_same {space : ℕ} (hspace : space ∈ Xernel.handedOut a.mm.calls) (hne : space ≠ cr3) :
    b.mm.pt.user space = a.mm.pt.user space := by
  have hsame : ∀ {space' : ℕ} {given : Set ℕ} {m m' : Mm} {U V : Set ℕ}, space ≠ space' →
      Builds (.ofSpace space' given) m U m' V → m'.pt.user space = m.pt.user space := by
    intro space' given m m' U V hne hb
    have hnot : some space ∉ (Scope.ofSpace space' given).trees :=
      fun hmem => hne (Option.some.inj hmem)
    have hhalf := hb.same hnot
    exact hhalf
  cases h with
  | built hact hb => exact hsame hne hb
  | noSpace hact ha => rw [Builds.frameAlloc_pt ha]
  | created hact ha hlive hb =>
    refine hsame ?_ hb
    rintro rfl
    exact (fresh_of_frameAlloc hdisj hr ha).1 hspace
  | frameRun hact hout hn ha hb hcap => rw [hsame hne hb, (frameAllocContiguous_calls ha).2]
  | unmapped hact hout hn ha hb hm =>
    rw [hm, freeRun_pt, hsame hne hb, (frameAllocContiguous_calls ha).2]
  | unwound hact hout hn hbad ha hb hm =>
    rw [hm, freeRun_pt, hsame hne hb, (frameAllocContiguous_calls ha).2]

end MmStep

/-! ## Boot -/

lemma mapMmio_upper {space virt phys : ℕ} (hv : 2 ^ 47 ≤ virt) :
    Builds ⟨{none}, ∅, ∅⟩ m ∅ (m.mapMmio space virt phys).2 ∅ := by
  refine Mm.mapWithFlags_builds le_rfl (fun _ => ?_) (by simp)
  rw [PageTables.home, if_neg]
  · rfl
  · simp only [lowerHalfPages, frameSize]
    omega

/-- Enabling interrupts only adds kernel pages to the upper half. -/
lemma enableInterrupts_builds (h : enableInterrupts plat m = some m') :
    Builds ⟨{none}, ∅, ∅⟩ m ∅ m' ∅ := by
  rw [enableInterrupts] at h
  split at h
  next m₁ heq =>
    have hlapic : Builds ⟨{none}, ∅, ∅⟩ m ∅ (m.mapMmio plat.bootSpace lapicVirt plat.lapicPhys).2 ∅ :=
      mapMmio_upper (by decide)
    rw [heq] at hlapic
    split at h
    next m₂ heq' =>
      obtain rfl := Option.some.inj h
      have hioapic : Builds ⟨{none}, ∅, ∅⟩ m₁ ∅
          (m₁.mapMmio plat.bootSpace ioapicVirt ioapicPhys).2 ∅ := mapMmio_upper (by decide)
      rw [heq'] at hioapic
      exact hlapic.trans hioapic
    next => cases h
  next => cases h

/-- The space of a new process is a new frame. -/
lemma Created.space {pid : ℕ} {p : Process} (h : Created plat m pid p) :
    ∃ m', m.frameAlloc = (some p.space, m') := by
  obtain ⟨hp⟩ := h
  rcases create_builds plat m pid with ⟨m₁, -, heq⟩ | ⟨space, m₁, ha, hspace, -, -⟩
  · rw [hp] at heq; cases heq
  · exact ⟨m₁, by rw [ha, ← hspace _ _ hp]⟩

/-! ## Whole runs -/

/-- Every process has a space of its own that is in use, and the loader cannot reach the upper half. -/
structure SpaceInv (plat : Platform) (k : Kernel) : Prop where
  run : AllocatorRun plat.regions k.mm.frames k.mm.calls
  filled : Elf.UpperFilled plat.image k.mm
  live : ∀ (i : ℕ) (p : Process), k.sched.procs[i]? = some p → p.space ∈ handedOut k.mm.calls
  distinct : ∀ (i j : ℕ) (p q : Process), k.sched.procs[i]? = some p → k.sched.procs[j]? = some q →
    p.space = q.space → i = j

/-- At boot the first process has its own space. -/
lemma spaceInv_boot (h : boot plat = some k) : SpaceInv plat k := by
  obtain ⟨m₀, m, p, hint, hp, rfl⟩ := boot_cases h
  have hrun₀ : AllocatorRun plat.regions m₀.frames m₀.calls :=
    (enableInterrupts_builds hint).run .new
  have hget : ∀ (i : ℕ) (q : Process), [p][i]? = some q → i = 0 ∧ q = p := by
    intro i q hq
    rcases i with _ | i
    · exact ⟨rfl, (Option.some.inj hq).symm⟩
    · simp at hq
  rcases create_builds plat m₀ 0 with ⟨m₁, -, heq⟩ | ⟨space, m₁, -, hspace, hlive, hb⟩
  · rw [hp] at heq; cases heq
  · have hb := hb ⟨.univ, .univ, ∅⟩ ⟨trivial, trivial, .inl ⟨trivial, trivial⟩⟩
    rw [hp] at hb hlive
    refine ⟨hb.run hrun₀, create_filled hp, fun i q hq => ?_, fun i j q q' hq hq' _ => ?_⟩
    · obtain ⟨-, rfl⟩ := hget i q hq
      rw [hspace _ _ hp]
      exact hlive
    · exact (hget i q hq).1.trans (hget j q' hq').1.symm

/-- From a state with the invariant, every step stays within the list of effects on memory. -/
lemma SpaceInv.mm {e : Event} (h : SpaceInv plat k) (hreach : Reachable (xernel plat) k)
    (hs : Xernel.step plat k e = some (k', out)) :
    MmStep plat k.core k'.core k.cpu.cr3 (k.freesMapped e) (k.activity e) out := by
  have hon := reachable_onThread hreach hs
  obtain ⟨ts, hrun⟩ := hreach
  exact step_mm hs (fun hexec => ((coherent_run hrun).user hexec).2) hon.cr3 h.filled

/-- The space of a new process was not in use before the step that created it, and is after it. -/
lemma MmStep.new_space {p : Process} {args : Args} (h : MmStep plat a b cr3 bad act out)
    (hdisj : plat.RegionsDisjoint) (hr : AllocatorRun plat.regions a.mm.frames a.mm.calls)
    (hact : act = .call .spawn args ∨ act = .call .spawnEnv args)
    (hp : Created plat a.mm a.sched.nextPid p) :
    p.space ∉ Xernel.handedOut a.mm.calls ∧ p.space ∈ Xernel.handedOut b.mm.calls := by
  obtain ⟨m, ha⟩ := hp.space
  refine ⟨(fresh_of_frameAlloc hdisj hr ha).1, ?_⟩
  cases h with
  | built hplain => rcases hact with rfl | rfl <;> exact hplain.elim
  | noSpace _ ha' => rw [ha] at ha'; cases ha'
  | created _ ha' hlive =>
    obtain ⟨heq, -⟩ := Prod.mk.inj (ha.symm.trans ha')
    rw [Option.some.inj heq]
    exact hlive
  | frameRun hact' => rcases hact with rfl | rfl <;> cases hact'
  | unmapped hact' => rcases hact with rfl | rfl <;> cases hact'
  | unwound hact' => rcases hact with rfl | rfl <;> cases hact'

/-- Every step keeps the spaces apart. -/
theorem SpaceInv.step {e : Event} (hdisj : plat.RegionsDisjoint) (h : SpaceInv plat k)
    (hreach : Reachable (xernel plat) k) (hs : Xernel.step plat k e = some (k', out)) :
    SpaceInv plat k' := by
  have hcore := reachable_core hreach hs
  have hmm := h.mm hreach hs
  -- a process was there before, or it is new and last in the table
  have hproc : ∀ {i : ℕ} {p : Process}, k'.sched.procs[i]? = some p →
      (∃ q, k.sched.procs[i]? = some q ∧ p.space = q.space) ∨
      (i = k.sched.procs.length ∧ p.space ∉ handedOut k.mm.calls ∧
        p.space ∈ handedOut k'.mm.calls) := by
    intro i p hp
    rcases hcore.proc hp with ⟨q, hq, hstep⟩ | ⟨hi, hnew⟩
    · exact .inl ⟨q, hq, hstep.identity.space⟩
    · refine .inr ⟨hi, ?_⟩
      rcases hcore.length with ⟨hlen, -⟩ | ⟨-, -, args, hact⟩
      · have hlt : i < k'.core.sched.procs.length := (List.getElem?_eq_some_iff.mp hp).1
        omega
      · exact hmm.new_space hdisj h.run hact hnew
  refine ⟨hmm.run hdisj h.run, fun p hp pg hpg hup => ?_, fun i p hp => ?_,
    fun i j p p' hp hp' heq => ?_⟩
  · have hkernel : k'.mm.pt.kernel = k.mm.pt.kernel := hmm.kernel_same
    have hfilled := h.filled p hp pg hpg hup
    rw [Mm.Filled, ← hkernel] at hfilled
    exact hfilled
  · rcases hproc hp with ⟨q, hq, hspace⟩ | ⟨-, -, hlive⟩
    · rw [hspace]
      exact hmm.handedOut hdisj h.run (h.live i q hq)
    · exact hlive
  · rcases hproc hp with ⟨q, hq, hspace⟩ | ⟨hi, hfresh, -⟩ <;>
      rcases hproc hp' with ⟨q', hq', hspace'⟩ | ⟨hj, hfresh', -⟩
    · exact h.distinct i j q q' hq hq' (hspace.symm.trans (heq.trans hspace'))
    · rw [← heq, hspace] at hfresh'
      exact absurd (h.live i q hq) hfresh'
    · rw [heq, hspace'] at hfresh
      exact absurd (h.live j q' hq') hfresh
    · exact hi.trans hj.symm

/-- It stays so in every run. -/
theorem spaceInv_run {ts : List KernelStep} (hdisj : plat.RegionsDisjoint)
    (h : Run (xernel plat) ts k) : SpaceInv plat k :=
  h.invariant (I := SpaceInv plat) (fun _ hk => spaceInv_boot hk)
    fun _ _ _ _ hreach hinv hs => hinv.step hdisj hreach hs

end Xernel
