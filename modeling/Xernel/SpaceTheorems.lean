import Xernel.Process
import Xernel.Arch.PagingTheorems

/-!
# Building address spaces

The loops that map runs of pages, the ELF loader and `create` all build memory up (`Mm.Builds`):
they allocate frames and add entries to the tree of one address space. The loader could reach the
upper half as well; it does not once the pages it would map there are in use.
-/

namespace Xernel

open Mm (Builds)

variable {plat : Platform} {m m' : Mm} {s : Scope} {space : ℕ}

/-! ## Runs of pages -/

/-- A loop that maps pages builds memory up if each page does: `Q` is what the loop knows about the
rest of the run, `R` the frames it has in reserve for it. -/
lemma mapRun_builds {map : Mm → ℕ → ℕ → Mm.MapOutcome × Mm} {Q : ℕ → ℕ → ℕ → Prop}
    {R : ℕ → ℕ → Set ℕ}
    (hmap : ∀ n m va phys, Q (n + 1) va phys →
      Builds s m (R (n + 1) phys) (map m va phys).2 (R n (phys + frameSize)))
    (hnext : ∀ n m va phys, Q (n + 1) va phys → (map m va phys).1 = .done →
      Q n (va + frameSize) (phys + frameSize)) :
    ∀ (n va phys : ℕ) (m : Mm), Q n va phys → Builds s m (R n phys) (mapRun map n va phys m).2 ∅ := by
  intro n
  induction n with
  | zero => intro va phys m _; exact Builds.refl.leak (Set.empty_subset _)
  | succ n ih =>
    intro va phys m hq
    have hone := hmap n m va phys hq
    have hq' := hnext n m va phys hq
    rw [mapRun]
    split
    next heq => rw [heq] at hone; exact hone.leak (Set.empty_subset _)
    next heq => rw [heq] at hone; exact hone.leak (Set.empty_subset _)
    next m₁ heq =>
      rw [heq] at hone hq'
      exact hone.trans (ih _ _ m₁ (hq' rfl))

/-- Neither does a loop that stays in the lower half. -/
lemma mapRun_ne_panic {map : Mm → ℕ → ℕ → Mm.MapOutcome × Mm} {n va phys : ℕ}
    (hmap : ∀ m va phys, va < 2 ^ 47 → (map m va phys).1 ≠ .panic)
    (hva : va + n * frameSize ≤ 2 ^ 47) : (mapRun map n va phys m).1 ≠ .panic := by
  induction n generalizing va phys m with
  | zero => simp [mapRun]
  | succ n ih =>
    have hsize : (n + 1) * frameSize = n * frameSize + frameSize := Nat.succ_mul _ _
    have hpos := frameSize_pos
    have hfirst := hmap m va phys (by omega)
    rw [mapRun]
    split
    next heq =>
      rw [heq] at hfirst
      exact absurd rfl hfirst
    next => simp
    next => exact ih (by omega)

section RunOfFrames

variable {map : Mm → ℕ → ℕ → Mm.MapOutcome × Mm} {flags : PageFlags}

/-- Mapping a run of frames that the scope gives away, at addresses below the upper half. -/
lemma mapRun_given (hmm : ∀ m va phys, (map m va phys).2 = (m.mapWithFlags space va phys flags).2)
    (hdone : ∀ m va phys, (map m va phys).1 = .done →
      (m.mapWithFlags space va phys flags).1 ≠ .panic)
    (hs : some space ∈ s.trees) (hu : some space ∈ s.userTrees) {n va phys : ℕ}
    (hv : va < 2 ^ 64 - 2 ^ 47) (hgiven : ∀ f ∈ blockRun frameSize phys n, f ∈ s.given) :
    Builds s m ∅ (mapRun map n va phys m).2 ∅ := by
  refine mapRun_builds (R := fun _ _ => ∅) (Q := fun n va phys => va < 2 ^ 64 - 2 ^ 47 ∧
    ∀ f ∈ blockRun frameSize phys n, f ∈ s.given) (fun n m va phys hq => ?_)
    (fun n m va phys hq hd => ?_) n va phys m ⟨hv, hgiven⟩
  · have hmem := hq.2 phys (by rw [blockRun_succ]; exact List.mem_cons_self)
    rw [hmm]
    exact Mm.mapWithFlags_lower hq.1 hs hu le_rfl (.inl hmem)
  · refine ⟨Mm.lt_of_mapWithFlags hq.1 (hdone m va phys hd), fun f hf => hq.2 f ?_⟩
    rw [blockRun_succ]
    exact List.mem_cons_of_mem _ hf

/-- Mapping a run of frames in reserve, at addresses below the upper half. -/
lemma mapRun_own (hmm : ∀ m va phys, (map m va phys).2 = (m.mapWithFlags space va phys flags).2)
    (hdone : ∀ m va phys, (map m va phys).1 = .done →
      (m.mapWithFlags space va phys flags).1 ≠ .panic)
    (hs : some space ∈ s.trees) (hu : some space ∈ s.userTrees) {n va phys : ℕ}
    (hv : va < 2 ^ 64 - 2 ^ 47) :
    Builds s m {f | f ∈ blockRun frameSize phys n} (mapRun map n va phys m).2 ∅ := by
  refine mapRun_builds (R := fun n phys => {f | f ∈ blockRun frameSize phys n})
    (Q := fun _ va _ => va < 2 ^ 64 - 2 ^ 47) (fun n m va phys hq => ?_)
    (fun n m va phys hq hd => Mm.lt_of_mapWithFlags hq (hdone m va phys hd)) n va phys m hv
  rw [hmm, blockRun_succ]
  refine Mm.mapWithFlags_lower hq hs hu (fun f hf => List.mem_cons_of_mem _ hf)
    (.inr ⟨List.mem_cons_self, fun hmem => ?_⟩)
  have hle := (blockRun_bounds hmem).1
  have hpos := frameSize_pos
  omega

end RunOfFrames

lemma mapRun_mapUser_given {n va phys : ℕ}
    (hs : some space ∈ s.trees) (hu : some space ∈ s.userTrees) (hv : va < 2 ^ 64 - 2 ^ 47)
    (hgiven : ∀ f ∈ blockRun frameSize phys n, f ∈ s.given) :
    Builds s m ∅
      (mapRun (fun m va phys => m.mapUser space va phys true false) n va phys m).2 ∅ :=
  mapRun_given (fun _ _ _ => rfl) (fun _ _ _ hd => ne_of_eq_of_ne hd (by simp)) hs hu hv hgiven

lemma mapRun_mapUser_own {n va phys : ℕ}
    (hs : some space ∈ s.trees) (hu : some space ∈ s.userTrees) (hv : va < 2 ^ 64 - 2 ^ 47) :
    Builds s m {f | f ∈ blockRun frameSize phys n}
      (mapRun (fun m va phys => m.mapUser space va phys true false) n va phys m).2 ∅ :=
  mapRun_own (fun _ _ _ => rfl) (fun _ _ _ hd => ne_of_eq_of_ne hd (by simp)) hs hu hv

lemma mapRun_mapUserDevice {n va phys : ℕ} (hs : some space ∈ s.trees)
    (hu : some space ∈ s.userTrees) (hv : va < 2 ^ 64 - 2 ^ 47)
    (hgiven : ∀ f ∈ blockRun frameSize phys n, f ∈ s.given) :
    Builds s m ∅ (mapRun (fun m va phys => m.mapUserDevice space va phys) n va phys m).2 ∅ :=
  mapRun_given (fun m va phys => m.mapUserDevice_eq space va phys)
    (fun _ _ _ => Mm.mapUserDevice_done) hs hu hv hgiven

/-- Fresh pages below the upper half. -/
lemma allocMapPages_builds (n : ℕ) {va : ℕ} (hv : va < 2 ^ 64 - 2 ^ 47) (hs : some space ∈ s.trees)
    (hu : some space ∈ s.userTrees) : Builds s m ∅ (allocMapPages space n va m).2 ∅ :=
  mapRun_builds (Q := fun _ va _ => va < 2 ^ 64 - 2 ^ 47) (R := fun _ _ => ∅)
    (fun _ _ _ _ hva => Mm.allocMapUser_builds hva hs hu)
    (fun _ _ _ _ hva hdone => Mm.lt_of_allocMapUser_done hva hdone) n va 0 m hv

/-! ## The loader -/

namespace Elf

lemma copySegment_eq (image : List UInt8) (frames : List (ℕ × ℕ)) (seg : Segment) (fuel : ℕ) :
    ∀ (copied : ℕ) (m : Mm), ∃ mem, (copySegment image frames seg fuel copied m).2 = { m with mem } := by
  induction fuel with
  | zero => exact fun copied m => ⟨m.mem, rfl⟩
  | succ fuel ih =>
    intro copied m
    rw [copySegment]
    split
    · exact ⟨m.mem, rfl⟩
    split
    · exact ⟨m.mem, rfl⟩
    dsimp only
    split
    · exact ⟨m.mem, rfl⟩
    split
    · exact ⟨m.mem, rfl⟩
    split
    · exact ⟨m.mem, rfl⟩
    next phys _ _ _ =>
      generalize hbytes : List.take _ _ = bytes
      generalize hdst : phys + _ = dst
      obtain ⟨mem, hmem⟩ := Mm.writePhys_eq m dst bytes
      rw [hmem]
      exact ih _ { m with mem }

/-- Pass 3 only writes bytes. -/
lemma copySegments_eq (image : List UInt8) (frames : List (ℕ × ℕ)) (segs : List Segment) (m : Mm) :
    ∃ mem, (copySegments image frames segs m).2 = { m with mem } := by
  induction segs generalizing m with
  | nil => exact ⟨m.mem, rfl⟩
  | cons seg segs ih =>
    obtain ⟨mem, hmem⟩ := copySegment_eq image frames seg seg.filesz 0 m
    rw [copySegments]
    split
    next heq => rw [heq] at hmem; exact ⟨mem, hmem⟩
    next m₁ heq =>
      rw [heq] at hmem
      obtain ⟨mem', hmem'⟩ := ih m₁
      have hm₁ : m₁ = { m with mem } := hmem
      exact ⟨mem', by rw [hmem', hm₁]⟩

/-- The pages that `image` asks for in the upper half are in use. -/
def UpperFilled (image : List UInt8) (m : Mm) : Prop :=
  ∀ p, plan image = .ok p → ∀ pg ∈ p.pages, lowerHalfPages ≤ pg.1 / frameSize →
    m.Filled (pg.1 / frameSize)

/-- The scope lets the loader set up `space`, and the upper half unless that is filled already. -/
structure Covers (s : Scope) (space : ℕ) (filled : Prop) : Prop where
  tree : some space ∈ s.trees
  userTree : some space ∈ s.userTrees
  upper : (none ∈ s.trees ∧ none ∈ s.userTrees) ∨ filled

lemma mapPages_builds {pages : List (ℕ × PageInfo)}
    (hs : Covers s space (∀ pg ∈ pages, lowerHalfPages ≤ pg.1 / frameSize →
      m.Filled (pg.1 / frameSize))) :
    Builds s m ∅ (mapPages space pages m).2 ∅ := by
  induction pages generalizing m with
  | nil => exact .refl
  | cons pg pages ih =>
    obtain ⟨page, info⟩ := pg
    rw [mapPages]
    split
    next m₁ ha => exact (Builds.refl.alloc ha).leak (Set.empty_subset _)
    next phys m₁ ha =>
      have halloc : Builds s m ∅ (m₁.zero phys frameSize) (∅ ∪ {f | some phys = some f}) :=
        (Builds.refl.alloc ha).bytes _
      have hmap : Builds s m ∅ ((m₁.zero phys frameSize).mapUser space page phys info.writable
          info.executable).2 ∅ := by
        by_cases hfilled : lowerHalfPages ≤ page / frameSize ∧ m.Filled (page / frameSize)
        · -- the page is taken: nothing is mapped
          rw [Mm.mapUser, Mm.mapWithFlags]
          split
          · rw [Mm.mapTo_filled hfilled.1 (hfilled.2.mono halloc.kernel_grows)]
            exact halloc.leak (Set.empty_subset _)
          · exact halloc.leak (Set.empty_subset _)
        · have hhome : PageTables.home space (page / frameSize) ∈ s.trees ∧
              PageTables.home space (page / frameSize) ∈ s.userTrees := by
            rw [PageTables.home]
            split
            · exact ⟨hs.tree, hs.userTree⟩
            next hup =>
              refine hs.upper.resolve_right fun hall => hfilled ⟨Nat.not_lt.mp hup, ?_⟩
              exact hall (page, info) List.mem_cons_self (Nat.not_lt.mp hup)
          exact halloc.trans (Mm.mapWithFlags_builds (Set.empty_subset _) (fun _ => hhome.1)
            fun _ _ => ⟨hhome.2, .inr ⟨.inr rfl, Set.notMem_empty _⟩⟩)
      split
      next heq => rw [heq] at hmap; exact hmap
      next heq => rw [heq] at hmap; exact hmap
      next m₂ heq =>
        rw [heq] at hmap
        have hrest := ih (m := m₂) ⟨hs.tree, hs.userTree, hs.upper.imp_right fun hall pg hpg hup =>
          (hall pg (List.mem_cons_of_mem _ hpg) hup).mono hmap.kernel_grows⟩
        split <;> (next heq' => rw [heq'] at hrest; exact hmap.trans hrest)

lemma load_builds {image : List UInt8} (hs : Covers s space (UpperFilled image m)) :
    Builds s m ∅ (load m image space).2 ∅ := by
  rw [load]
  split
  next => exact .refl
  next p hp =>
    have hpages : Builds s m ∅ (mapPages space p.pages m).2 ∅ :=
      mapPages_builds ⟨hs.tree, hs.userTree, hs.upper.imp_right fun hall => hall p hp⟩
    split
    next heq => rw [heq] at hpages; exact hpages
    next frames m₁ heq =>
      rw [heq] at hpages
      obtain ⟨mem, hmem⟩ := copySegments_eq image frames p.segments m₁
      have hbytes := hpages.bytes mem
      split <;> (next heq' => rw [heq'] at hmem; rw [show _ = _ from hmem]; exact hbytes)

/-- A load that succeeds has filled the pages of the upper half that it asked for. -/
lemma mapPages_filled {pages : List (ℕ × PageInfo)} {frames : List (ℕ × ℕ)}
    (h : mapPages space pages m = (.ok frames, m')) :
    ∀ pg ∈ pages, lowerHalfPages ≤ pg.1 / frameSize → m'.Filled (pg.1 / frameSize) := by
  induction pages generalizing m frames with
  | nil => simp
  | cons pg pages ih =>
    obtain ⟨page, info⟩ := pg
    rw [mapPages] at h
    split at h
    · cases h
    next phys m₁ ha =>
      split at h
      · cases h
      · cases h
      next m₂ hmap =>
        have hrest : Builds ⟨.univ, .univ, .univ⟩ m₂ ∅ (mapPages space pages m₂).2 ∅ :=
          mapPages_builds ⟨trivial, trivial, .inl ⟨trivial, trivial⟩⟩
        split at h
        · cases h
        next frames' m₃ heq =>
          obtain rfl := (Prod.mk.inj h).2
          rw [heq] at hrest
          intro pg hpg hup
          rcases List.mem_cons.mp hpg with rfl | hpg
          · rw [Mm.mapUser, Mm.mapWithFlags] at hmap
            split at hmap
            · split at hmap
              next m₄ hto =>
                obtain rfl := (Prod.mk.inj hmap).2
                exact (Mm.filled_of_mapTo hup hto).mono hrest.kernel_grows
              next => cases hmap
            · cases hmap
          · exact ih heq pg hpg hup

lemma load_filled {image : List UInt8} {entry : ℕ} (h : load m image space = (.ok entry, m')) :
    UpperFilled image m' := by
  intro p hp
  rw [load, hp] at h
  dsimp only at h
  split at h
  · cases h
  next frames m₁ heq =>
    obtain ⟨mem, hmem⟩ := copySegments_eq image frames p.segments m₁
    split at h
    · cases h
    next m₂ heq' =>
      obtain rfl := (Prod.mk.inj h).2
      rw [heq'] at hmem
      have hm₂ : m₂ = { m₁ with mem } := hmem
      have hfilled := mapPages_filled heq
      rw [hm₂]
      exact hfilled

/-- The image asks for pages of the lower half only. -/
def Low (image : List UInt8) : Prop :=
  ∀ p, plan image = .ok p → ∀ pg ∈ p.pages, pg.1 / frameSize < lowerHalfPages

lemma Low.upperFilled {image : List UInt8} (h : Low image) (m : Mm) : UpperFilled image m :=
  fun p hp pg hpg hup => absurd (h p hp pg hpg) (Nat.not_lt.mpr hup)

/-- A load cannot succeed with pages of the upper half that are filled already. -/
lemma mapPages_low {pages : List (ℕ × PageInfo)} {frames : List (ℕ × ℕ)}
    (h : mapPages space pages m = (.ok frames, m'))
    (hfilled : ∀ pg ∈ pages, lowerHalfPages ≤ pg.1 / frameSize → m.Filled (pg.1 / frameSize)) :
    ∀ pg ∈ pages, pg.1 / frameSize < lowerHalfPages := by
  induction pages generalizing m frames with
  | nil => simp
  | cons pg pages ih =>
    obtain ⟨page, info⟩ := pg
    rw [mapPages] at h
    split at h
    · cases h
    next phys m₁ ha =>
      have halloc : Builds ⟨.univ, .univ, .univ⟩ m ∅ (m₁.zero phys frameSize) _ :=
        (Builds.refl.alloc ha).bytes _
      have hmapped : Builds ⟨.univ, .univ, .univ⟩ (m₁.zero phys frameSize) ∅
          ((m₁.zero phys frameSize).mapUser space page phys info.writable info.executable).2 ∅ :=
        Mm.mapWithFlags_builds le_rfl (fun _ => trivial) fun _ _ => ⟨trivial, .inl trivial⟩
      split at h
      · cases h
      · cases h
      next m₂ hmap =>
        rw [hmap] at hmapped
        have hgrows := halloc.kernel_grows.trans hmapped.kernel_grows
        split at h
        · cases h
        next frames' m₃ heq =>
          obtain rfl := (Prod.mk.inj h).2
          intro pg hpg
          rcases List.mem_cons.mp hpg with rfl | hpg
          · by_contra hup
            have hup' := Nat.not_lt.mp hup
            have hold := (hfilled _ List.mem_cons_self hup').mono halloc.kernel_grows
            rw [Mm.mapUser, Mm.mapWithFlags, Mm.mapTo_filled hup' hold] at hmap
            split at hmap <;> cases hmap
          · exact ih heq (fun pg hpg hup =>
              (hfilled pg (List.mem_cons_of_mem _ hpg) hup).mono hgrows) pg hpg

lemma load_low {image : List UInt8} {entry : ℕ} (h : load m image space = (.ok entry, m'))
    (hfilled : UpperFilled image m) : Low image := by
  intro p hp
  rw [load, hp] at h
  dsimp only at h
  split at h
  · cases h
  next heq => exact mapPages_low heq (hfilled p hp)

end Elf

/-! ## Processes -/

lemma vspaceNew_cases (m : Mm) :
    (∃ m', m.frameAlloc = (none, m') ∧ m.vspaceNew = (none, m')) ∨
    ∃ space m' m'', m.frameAlloc = (some space, m') ∧ m.vspaceNew = (some space, m'') ∧
      space ∈ handedOut m''.calls ∧ ∀ s : Scope, some space ∈ s.trees → Builds s m ∅ m'' ∅ := by
  rw [Mm.vspaceNew]
  split
  next m₁ ha => exact .inl ⟨m₁, ha, rfl⟩
  next space m₁ ha =>
    refine .inr ⟨space, m₁, _, ha, rfl, ?_, fun s hs => Builds.refl.space ha hs⟩
    obtain ⟨hgot, rfl⟩ := Prod.mk.inj ha
    show space ∈ handedOut (m.calls ++ [.alloc m.frames.alloc.1])
    rw [hgot, handedOut_snoc]
    exact List.mem_cons_self

/-- From the empty space on, `create` builds that up, whatever the outcome. -/
lemma create_rest (hnew : m.vspaceNew = (some space, m'))
    (hs : Elf.Covers s space (Elf.UpperFilled plat.image m')) (pid : ℕ) :
    Builds s m' ∅ (create plat m pid).2 ∅ := by
  have hload := Elf.load_builds hs
  have hva : userStackVa < 2 ^ 64 - 2 ^ 47 := by decide
  rw [create, hnew]
  dsimp only
  split
  next heq => rw [heq] at hload; exact hload
  next heq => rw [heq] at hload; exact hload
  next entry m₃ heq =>
    rw [heq] at hload
    have hstack := hload.trans (allocMapPages_builds userStackPages hva hs.tree hs.userTree)
    split <;> (next heq' => rw [heq'] at hstack; exact hstack)

/-- `create` makes a new space, if a frame is left for it, and builds that up. -/
lemma create_builds (plat : Platform) (m : Mm) (pid : ℕ) :
    (∃ m', m.frameAlloc = (none, m') ∧ create plat m pid = (.failed, m')) ∨
    ∃ space m', m.frameAlloc = (some space, m') ∧
      (∀ p m'', create plat m pid = (.done p, m'') → p.space = space) ∧
      space ∈ handedOut (create plat m pid).2.calls ∧
      ∀ s, Elf.Covers s space (Elf.UpperFilled plat.image m) →
        Builds s m ∅ (create plat m pid).2 ∅ := by
  rcases vspaceNew_cases m with ⟨m₁, ha, hnew⟩ | ⟨space, m₁, m₂, ha, hnew, hlive, hspace⟩
  · exact .inl ⟨m₁, ha, by rw [create, hnew]⟩
  · have hrest : ∀ s, Elf.Covers s space (Elf.UpperFilled plat.image m₂) →
        Builds s m₂ ∅ (create plat m pid).2 ∅ := fun s hs => create_rest hnew hs pid
    refine .inr ⟨space, m₁, ha, fun p m'' hp => ?_, ?_, fun s hs => ?_⟩
    · rw [create, hnew] at hp
      dsimp only at hp
      split at hp
      · cases hp
      · cases hp
      · split at hp
        · cases hp
        · cases hp
        · obtain ⟨hp, -⟩ := Prod.mk.inj hp
          cases hp
          rfl
    · exact (hrest ⟨.univ, .univ, .univ⟩ ⟨trivial, trivial, .inl ⟨trivial, trivial⟩⟩).handedOut hlive
    · have hempty := hspace s hs.tree
      exact hempty.trans (hrest s ⟨hs.tree, hs.userTree, hs.upper.imp_right fun hall p hp pg hpg hup =>
        (hall p hp pg hpg hup).mono hempty.kernel_grows⟩)

/-- A process that was created has filled the pages of the upper half that the image asks for. -/
lemma create_filled {pid : ℕ} {p : Process} (h : create plat m pid = (.done p, m')) :
    Elf.UpperFilled plat.image m' := by
  rw [create] at h
  split at h
  · cases h
  next space m₁ _ =>
    split at h
    · cases h
    · cases h
    next entry m₂ heq =>
      have hstack : Builds ⟨.univ, .univ, .univ⟩ m₂ ∅
          (allocMapPages space userStackPages userStackVa m₂).2 ∅ :=
        allocMapPages_builds userStackPages (by decide) trivial trivial
      split at h
      · cases h
      · cases h
      next m₃ heq' =>
        obtain rfl := (Prod.mk.inj h).2
        rw [heq'] at hstack
        exact fun p hp pg hpg hup => (Elf.load_filled heq p hp pg hpg hup).mono hstack.kernel_grows

/-- Once the pages of the upper half are filled, only an image without such pages can be loaded. -/
lemma create_low {pid : ℕ} {p : Process} (h : create plat m pid = (.done p, m'))
    (hfilled : Elf.UpperFilled plat.image m) : Elf.Low plat.image := by
  rcases vspaceNew_cases m with ⟨m₁, -, hnew⟩ | ⟨space, m₁, m₂, -, hnew, -, hspace⟩
  · rw [create, hnew] at h
    cases h
  · have hempty := hspace ⟨.univ, .univ, .univ⟩ trivial
    rw [create, hnew] at h
    dsimp only at h
    split at h
    · cases h
    · cases h
    next heq =>
      exact Elf.load_low heq fun p hp pg hpg hup =>
        (hfilled p hp pg hpg hup).mono hempty.kernel_grows

namespace Kernel

lemma copyBytes_eq (cr3 : ℕ) (n : ℕ) : ∀ (src dst : ℕ) (m : Mm),
    ∃ mem, copyBytes cr3 n src dst m = { m with mem } := by
  induction n with
  | zero => exact fun src dst m => ⟨m.mem, rfl⟩
  | succ n ih =>
    intro src dst m
    obtain ⟨mem, hmem⟩ := ih (src + 1) (dst + 1) (m.setByte dst (m.readByte cr3 src))
    exact ⟨mem, by rw [copyBytes, hmem]; rfl⟩

lemma copyEnv_builds (cr3 envpPtr envpLen : ℕ) (hs : some space ∈ s.trees)
    (hu : some space ∈ s.userTrees) (n : ℕ) : ∀ (i : ℕ) (m : Mm),
    heapStart + i * frameSize < 2 ^ 64 - 2 ^ 47 →
      Builds s m ∅ (copyEnv cr3 space envpPtr envpLen n i m).2 ∅ := by
  induction n with
  | zero => exact fun _ _ _ => .refl
  | succ n ih =>
    intro i m hi
    have hmap : Builds s m ∅ (m.allocMapUser space (heapStart + i * frameSize) true false).2 ∅ :=
      Mm.allocMapUser_builds hi hs hu
    rw [copyEnv]
    dsimp only
    split
    next heq => rw [heq] at hmap; exact hmap
    next heq => rw [heq] at hmap; exact hmap
    next m₁ heq =>
      have hnext := Mm.lt_of_allocMapUser_done hi (by rw [heq])
      rw [heq] at hmap
      split
      · exact hmap
      next dst _ =>
        obtain ⟨mem, hmem⟩ := copyBytes_eq cr3 (min (envpLen - i * frameSize) frameSize)
          (envpPtr + i * frameSize) dst m₁
        rw [hmem]
        refine (hmap.bytes mem).trans (ih (i + 1) _ ?_)
        have hsucc : (i + 1) * frameSize = i * frameSize + frameSize := Nat.succ_mul _ _
        omega

end Kernel
end Xernel
