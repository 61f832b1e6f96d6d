import Xernel.Break
import Xernel.ElfTheorems

/-!
# What a new process takes

`create` allocates a PML4, maps the pages of the image and those of the stack; `spawn_env` goes on with
the pages of the environment. None of them undoes anything when it fails. The image is the same for
every process, so its headers and the copying of its segments cannot fail once the first process is
there; what is left are the frames, and all the needed ones can be counted beforehand.

The results: `SPAWN` and `SPAWN_ENV` fail without a trace if and only if no frame is left for the PML4
or there is everything the new process needs.
-/

namespace Xernel

open Mm (Builds)

variable {plat : Platform} {k k' : Kernel} {e : Event} {out : Option ℕ} {args : Args}
  {m m' : Mm} {space pid : ℕ}

/-! ## The loader -/

namespace Elf

variable {image : List UInt8} {pages : List (ℕ × PageInfo)} {frames frames' : List (ℕ × ℕ)}
  {seg : Segment}

/-- The numbers of the pages in a page map. -/
def pageNumbers (pages : List (ℕ × PageInfo)) : Finset ℕ :=
  (pages.map fun pg => pg.1 / frameSize).toFinset

/-- The pages of the image. -/
def imagePages (image : List UInt8) : Finset ℕ :=
  match plan image with
  | .ok p => pageNumbers p.pages
  | .error _ => ∅

/-- Pass 2 maps a page as `alloc_map_user` does, and notes the frame. -/
lemma mapPages_cons (space page : ℕ) (info : PageInfo) (rest : List (ℕ × PageInfo)) (m : Mm) :
    match m.allocMapUser space page info.writable info.executable with
    | (.panic, m₁) => mapPages space ((page, info) :: rest) m = (.error .panic, m₁)
    | (.failed _, m₁) => ∃ e, mapPages space ((page, info) :: rest) m = (.error (.elf e), m₁)
    | (.done, m₁) => ∃ phys, mapPages space ((page, info) :: rest) m =
        match mapPages space rest m₁ with
        | (.error e, m₂) => (.error e, m₂)
        | (.ok frames, m₂) => (.ok ((page, phys) :: frames), m₂) := by
  unfold Mm.allocMapUser
  rw [mapPages]
  cases ha : m.frameAlloc with
  | mk got m₁ =>
    cases got with
    | none => exact ⟨_, rfl⟩
    | some phys =>
      dsimp only
      cases hr : (m₁.zero phys frameSize).mapUser space page phys info.writable info.executable with
      | mk o m₂ =>
        cases o with
        | panic => rfl
        | failed e => exact ⟨_, rfl⟩
        | done => exact ⟨phys, rfl⟩

/-- Behind a page that was mapped, pass 2 ends as it does on the rest. -/
lemma mapPages_done (pages : List (ℕ × PageInfo)) {page : ℕ} {info : PageInfo}
    (h : (m.allocMapUser space page info.writable info.executable).1 = .done) :
    (mapPages space ((page, info) :: pages) m).2 =
      (mapPages space pages (m.allocMapUser space page info.writable info.executable).2).2 ∧
    ((∃ frames, (mapPages space ((page, info) :: pages) m).1 = .ok frames) ↔ ∃ frames,
      (mapPages space pages (m.allocMapUser space page info.writable info.executable).2).1 =
        .ok frames) ∧
    ((mapPages space ((page, info) :: pages) m).1 = .error .panic ↔
      (mapPages space pages (m.allocMapUser space page info.writable info.executable).2).1 =
        .error .panic) := by
  have hcons := mapPages_cons space page info pages m
  cases hr : m.allocMapUser space page info.writable info.executable with
  | mk o m₁ =>
    rw [hr] at hcons h
    obtain rfl : o = .done := h
    obtain ⟨phys, hcons⟩ := hcons
    rw [hcons]
    dsimp only
    cases mapPages space pages m₁ with
    | mk res m₂ => cases res <;> simp

/-- At a page that was not, it ends. -/
lemma mapPages_not_done (pages : List (ℕ × PageInfo)) {page : ℕ} {info : PageInfo}
    (h : (m.allocMapUser space page info.writable info.executable).1 ≠ .done) :
    (mapPages space ((page, info) :: pages) m).2 =
      (m.allocMapUser space page info.writable info.executable).2 ∧
    (¬ ∃ frames, (mapPages space ((page, info) :: pages) m).1 = .ok frames) ∧
    ((mapPages space ((page, info) :: pages) m).1 = .error .panic ↔
      (m.allocMapUser space page info.writable info.executable).1 = .panic) := by
  have hcons := mapPages_cons space page info pages m
  cases hr : m.allocMapUser space page info.writable info.executable with
  | mk o m₁ =>
    rw [hr] at hcons h
    cases o with
    | done => exact absurd rfl h
    | panic =>
      have hcons : mapPages space ((page, info) :: pages) m = (.error .panic, m₁) := hcons
      rw [hcons]
      simp
    | failed e =>
      obtain ⟨err, hcons⟩ := hcons
      rw [hcons]
      simp

/-- Pass 2 gets to the end if its pages are empty and the frames suffice. -/
lemma mapPages_attempts (hsorted : (pages.map Prod.fst).Pairwise (· < ·))
    (haligned : ∀ page ∈ pages.map Prod.fst, frameSize ∣ page)
    (hlow : ∀ pg ∈ pages, pg.1 / frameSize < lowerHalfPages) (space : ℕ) (m : Mm) :
    m.Attempts (mapPages space pages m).2 space 1 (pageNumbers pages)
      (∃ frames, (mapPages space pages m).1 = .ok frames) := by
  induction pages generalizing m with
  | nil => exact .nothing ⟨[], rfl⟩
  | cons pg rest ih =>
    obtain ⟨page, info⟩ := pg
    rw [List.map_cons, List.pairwise_cons] at hsorted
    have hva : page < 2 ^ 47 := by
      have hpage : page / frameSize < lowerHalfPages := hlow _ List.mem_cons_self
      simp only [frameSize, lowerHalfPages] at hpage
      omega
    have hlow' : ∀ pg ∈ rest, pg.1 / frameSize < lowerHalfPages :=
      fun pg hpg => hlow pg (List.mem_cons_of_mem _ hpg)
    have hfirst : m.Attempts (m.allocMapUser space page info.writable info.executable).2 space 1
        {page / frameSize} _ := Mm.allocMapUser_attempts hva
    have hset : pageNumbers ((page, info) :: rest) = {page / frameSize} ∪ pageNumbers rest := by
      unfold pageNumbers
      rw [List.map_cons, List.toFinset_cons, Finset.insert_eq]
    rw [hset]
    refine hfirst.next ?_ ?_ (fun hok => ?_) (fun hnot => ?_)
    · -- the addresses are distinct multiples of the page size
      rw [Finset.disjoint_singleton_left]
      intro hmem
      obtain ⟨pg, hpg, heq⟩ := List.mem_map.mp (List.mem_toFinset.mp hmem)
      have hlt := hsorted.1 pg.1 (List.mem_map_of_mem hpg)
      have hdvd := haligned page List.mem_cons_self
      have hdvd' := haligned pg.1 (List.mem_cons_of_mem _ (List.mem_map_of_mem hpg))
      have hnums : page / frameSize * frameSize = pg.1 / frameSize * frameSize := by rw [heq]
      rw [Nat.div_mul_cancel hdvd, Nat.div_mul_cancel hdvd'] at hnums
      omega
    · intro p hp
      obtain ⟨pg, hpg, rfl⟩ := List.mem_map.mp (List.mem_toFinset.mp hp)
      exact hlow' pg hpg
    · obtain ⟨hstate, hiff, -⟩ := mapPages_done rest hok
      rw [hstate, hiff]
      exact ih hsorted.2 (fun page hpage => haligned page (List.mem_cons_of_mem _ hpage)) hlow' _
    · exact (mapPages_not_done rest hnot).2.1

/-- The frames that pass 2 returns are those of the pages it was given. -/
lemma mapPages_keys (h : mapPages space pages m = (.ok frames, m')) :
    frames.map Prod.fst = pages.map Prod.fst := by
  induction pages generalizing m frames with
  | nil =>
    obtain rfl := Except.ok.inj (Prod.mk.inj h).1
    rfl
  | cons pg rest ih =>
    obtain ⟨page, info⟩ := pg
    have hcons := mapPages_cons space page info rest m
    cases hr : m.allocMapUser space page info.writable info.executable with
    | mk o m₁ =>
      rw [hr] at hcons
      cases o with
      | panic =>
        have hcons : mapPages space ((page, info) :: rest) m = (.error .panic, m₁) := hcons
        rw [hcons] at h
        cases h
      | failed =>
        obtain ⟨err, hcons⟩ := hcons
        rw [hcons] at h
        cases h
      | done =>
        obtain ⟨phys, hcons⟩ := hcons
        rw [hcons] at h
        cases hmap : mapPages space rest m₁ with
        | mk res m₂ =>
          rw [hmap] at h
          cases res with
          | error => cases h
          | ok frames₁ =>
            obtain ⟨hframes, rfl⟩ := Prod.mk.inj h
            obtain rfl := Except.ok.inj hframes
            rw [List.map_cons, List.map_cons, ih hmap]

/-- An address that `alloc_map_user` has mapped is canonical, and at one it does not panic. -/
lemma allocMapUser_canonical (m : Mm) (space virt : ℕ) (writable executable : Bool) :
    (Mm.canonical virt = true → (m.allocMapUser space virt writable executable).1 ≠ .panic) ∧
    ((m.allocMapUser space virt writable executable).1 = .done → Mm.canonical virt = true) := by
  rcases m.allocMapUser_cases space virt writable executable with
    ⟨-, e, he⟩ | ⟨-, hcan, he⟩ | ⟨-, hcan, hne⟩
  · rw [he]
    simp
  · rw [he, hcan]
    simp
  · exact ⟨fun _ => hne, fun _ => hcan⟩

/-- Pass 2 panics only at an address that is not canonical. -/
lemma mapPages_canonical (space : ℕ) : ∀ (pages : List (ℕ × PageInfo)) (m : Mm),
    ((∀ pg ∈ pages, Mm.canonical pg.1 = true) → (mapPages space pages m).1 ≠ .error .panic) ∧
    (∀ frames, (mapPages space pages m).1 = .ok frames → ∀ pg ∈ pages, Mm.canonical pg.1 = true) := by
  intro pages
  induction pages with
  | nil => exact fun m => ⟨fun _ => by simp [mapPages], fun _ _ pg hpg => by simp at hpg⟩
  | cons pg rest ih =>
    intro m
    obtain ⟨page, info⟩ := pg
    obtain ⟨hpanic, hcan⟩ := allocMapUser_canonical m space page info.writable info.executable
    by_cases hdone : (m.allocMapUser space page info.writable info.executable).1 = .done
    · obtain ⟨-, hok, hend⟩ := mapPages_done rest hdone
      -- this page is mapped: what happens next is up to the rest
      obtain ⟨hrest, hall⟩ := ih (m.allocMapUser space page info.writable info.executable).2
      rw [Ne, hend]
      refine ⟨fun h => hrest fun pg hpg => h pg (List.mem_cons_of_mem _ hpg), fun frames h => ?_⟩
      obtain ⟨frames', h'⟩ := hok.mp ⟨frames, h⟩
      exact List.forall_mem_cons.mpr ⟨hcan hdone, hall frames' h'⟩
    · obtain ⟨-, hok, hend⟩ := mapPages_not_done rest hdone
      rw [Ne, hend]
      exact ⟨fun h => hpanic (h _ List.mem_cons_self), fun frames h => absurd ⟨frames, h⟩ hok⟩

lemma lookup_ne_none_iff {page : ℕ} : frames.lookup page ≠ none ↔ page ∈ frames.map Prod.fst := by
  rw [Ne, List.lookup_eq_none_iff]
  constructor
  · intro h
    by_contra hmem
    refine h fun pg hpg => bne_iff_ne.mpr ?_
    rintro rfl
    exact hmem (List.mem_map_of_mem hpg)
  · intro hmem h
    obtain ⟨pg, hpg, rfl⟩ := List.mem_map.mp hmem
    exact bne_iff_ne.mp (h pg hpg) rfl

lemma lookup_eq_none_congr (hkeys : frames.map Prod.fst = frames'.map Prod.fst) (page : ℕ) :
    frames.lookup page = none ↔ frames'.lookup page = none := by
  rw [← not_iff_not, ← Ne, ← Ne, lookup_ne_none_iff, lookup_ne_none_iff, hkeys]

/-- Whether a segment can be copied does not depend on where its pages are. -/
lemma copySegment_congr (hkeys : frames.map Prod.fst = frames'.map Prod.fst) (fuel : ℕ) :
    ∀ (copied : ℕ) (m m' : Mm), (copySegment image frames seg fuel copied m).1 =
      (copySegment image frames' seg fuel copied m').1 := by
  induction fuel with
  | zero => exact fun _ _ _ => rfl
  | succ fuel ih =>
    intro copied m m'
    have hlookup := lookup_eq_none_congr hkeys (pageDown (seg.vaddr + copied))
    rw [copySegment, copySegment]
    split
    · rfl
    split
    · rfl
    dsimp only
    cases hl : frames.lookup (pageDown (seg.vaddr + copied)) with
    | none =>
      rw [hlookup.mp hl]
    | some phys =>
      cases hl' : frames'.lookup (pageDown (seg.vaddr + copied)) with
      | none =>
        rw [hlookup.mpr hl'] at hl
        cases hl
      | some phys' =>
        dsimp only
        split
        · rfl
        split
        · rfl
        exact ih _ _ _

lemma copySegments_congr (hkeys : frames.map Prod.fst = frames'.map Prod.fst) (segs : List Segment) :
    ∀ m m' : Mm, (copySegments image frames segs m).1 = (copySegments image frames' segs m').1 := by
  induction segs with
  | nil => exact fun _ _ => rfl
  | cons seg segs ih =>
    intro m m'
    have hone : (copySegment image frames seg seg.filesz 0 m).1 =
        (copySegment image frames' seg seg.filesz 0 m').1 := copySegment_congr hkeys _ _ _ _
    rw [copySegments, copySegments]
    cases hr : copySegment image frames seg seg.filesz 0 m with
    | mk res m₁ =>
      cases hr' : copySegment image frames' seg seg.filesz 0 m' with
      | mk res' m₁' =>
        rw [hr, hr'] at hone
        obtain rfl : res = res' := hone
        cases res with
        | error => rfl
        | ok => exact ih m₁ m₁'

/-- Nothing is wrong with the image itself: it can be loaded wherever its pages can be mapped. -/
structure Loads (image : List UInt8) (p : Plan) : Prop where
  plan : plan image = .ok p
  canonical : ∀ pg ∈ p.pages, Mm.canonical pg.1 = true
  copies : ∀ (frames : List (ℕ × ℕ)) (m : Mm), frames.map Prod.fst = p.pages.map Prod.fst →
    (copySegments image frames p.segments m).1 = .ok ()

/-- An image that was loaded once can be loaded. -/
lemma loads_of_load {entry : ℕ} (h : load m image space = (.ok entry, m')) :
    ∃ p, Loads image p := by
  rw [load] at h
  split at h
  · cases h
  next p hp =>
    split at h
    · cases h
    next frames m₁ hmap =>
      split at h
      · cases h
      next m₂ hcopy =>
        refine ⟨p, hp, ?_, fun frames' m hkeys => ?_⟩
        · exact (mapPages_canonical space p.pages m).2 frames (by rw [hmap])
        · rw [copySegments_congr (hkeys.trans (mapPages_keys hmap).symm) p.segments m m₁, hcopy]

section Loads

variable {p : Plan} (h : Loads image p)

include h

/-- The outcome of such a load is that of pass 2. -/
lemma Loads.load (m : Mm) (space : ℕ) :
    match mapPages space p.pages m with
    | (.error e, m₁) => load m image space = (.error e, m₁)
    | (.ok _, m₁) => ∃ mem, load m image space = (.ok p.entry, { m₁ with mem }) := by
  rw [Elf.load, h.plan]
  dsimp only
  cases hmap : mapPages space p.pages m with
  | mk res m₁ =>
    cases res with
    | error => rfl
    | ok frames =>
      have hcopies := h.copies frames m₁ (mapPages_keys hmap)
      obtain ⟨mem, hmem⟩ := copySegments_eq image frames p.segments m₁
      refine ⟨mem, ?_⟩
      dsimp only
      cases hcopy : copySegments image frames p.segments m₁ with
      | mk res m₂ =>
        rw [hcopy] at hcopies hmem
        obtain rfl : res = .ok () := hcopies
        obtain rfl : m₂ = { m₁ with mem } := hmem
        rfl

lemma Loads.ne_panic (m : Mm) (space : ℕ) : (Elf.load m image space).1 ≠ .error .panic := by
  have hload := h.load m space
  have hpanic := (mapPages_canonical space p.pages m).1 h.canonical
  cases hmap : mapPages space p.pages m with
  | mk res m₁ =>
    rw [hmap] at hload hpanic
    cases res with
    | error e =>
      have hload : Elf.load m image space = (.error e, m₁) := hload
      rw [hload]
      intro heq
      obtain rfl := Except.error.inj heq
      exact hpanic rfl
    | ok frames =>
      obtain ⟨mem, hload⟩ := hload
      rw [hload]
      simp

/-- An image without pages in the upper half is loaded if its pages are empty and the frames suffice. -/
lemma Loads.attempts (hlow : Low image) (m : Mm) (space : ℕ) :
    m.Attempts (Elf.load m image space).2 space 1 (imagePages image)
      (∃ entry, (Elf.load m image space).1 = .ok entry) := by
  have hmap :=
    mapPages_attempts (plan_touched h.plan).sorted (plan_aligned h.plan) (hlow p h.plan) space m
  have hload := h.load m space
  unfold imagePages
  rw [h.plan]
  dsimp only
  cases hr : mapPages space p.pages m with
  | mk res m₁ =>
    rw [hr] at hmap hload
    cases res with
    | error e =>
      have hload : Elf.load m image space = (.error e, m₁) := hload
      rw [hload]
      simpa using hmap
    | ok frames =>
      obtain ⟨mem, hload⟩ := hload
      rw [hload]
      rcases hmap with ⟨-, hempty, hfills⟩ | ⟨hnot, -⟩
      · exact .inl ⟨⟨_, rfl⟩, hempty, ⟨hfills.takes.available, hfills.takes.inUse⟩, hfills.tables,
          hfills.others⟩
      · exact absurd ⟨frames, rfl⟩ hnot

end Loads

/-- The pages of an image are in use after it was loaded. -/
lemma load_mapped {entry : ℕ} (hdisj : plat.RegionsDisjoint)
    (hr : AllocatorRun plat.regions m.frames m.calls)
    (h : load m image space = (.ok entry, m')) :
    ∀ p ∈ imagePages image, m'.pt.leaf space p ≠ none := by
  obtain ⟨-, pages, frames, m₁, htouched, hmapped, hpt, -⟩ := load_eq_ok hdisj hr h
  intro p hp
  unfold imagePages at hp
  split at hp
  next q hplan =>
    obtain ⟨pg, hpg, rfl⟩ := List.mem_map.mp (List.mem_toFinset.mp hp)
    have hkey : pg.1 ∈ pages.map Prod.fst := by
      rw [htouched.mem, ← (plan_touched hplan).mem]
      exact List.mem_map_of_mem hpg
    obtain ⟨⟨page, info⟩, hmem, heq⟩ := List.mem_map.mp hkey
    obtain ⟨phys, -, hleaf⟩ := hmapped.leaf page info hmem
    have heq : page = pg.1 := heq
    rw [hpt, ← heq, hleaf]
    simp
  next => exact absurd hp (Finset.notMem_empty p)

end Elf

/-! ## The address space of a new process -/

/-- The pages of the user stack. -/
def stackPages : Finset ℕ :=
  Finset.Ico (userStackVa / frameSize) (userStackVa / frameSize + userStackPages)

/-- The pages that every process starts with. -/
def Platform.childPages (plat : Platform) : Finset ℕ := Elf.imagePages plat.image ∪ stackPages

/-- The frames of an address space with the pages of `S`: its PML4, the pages and their tables. -/
def spaceFrames (S : Finset ℕ) : ℕ := 1 + (S.card + TableTree.empty.missing [3, 2, 1] S)

lemma spaceFrames_mono {S T : Finset ℕ} (h : S ⊆ T) : spaceFrames S ≤ spaceFrames T :=
  Nat.add_le_add_left
    (Nat.add_le_add (Finset.card_le_card h) (TableTree.missing_mono _ _ h)) 1

/-- A new address space is empty. -/
lemma vspaceNew_spec (h : m.vspaceNew = (some space, m')) :
    m.TakesFrames m' 1 ∧ (∀ p < lowerHalfPages, m'.pt.leaf space p = none) ∧
      ∀ S, m'.need space 1 S + 1 = spaceFrames S := by
  unfold Mm.vspaceNew at h
  split at h
  · cases h
  next l4 m₁ ha =>
    obtain ⟨hl4, rfl⟩ := Prod.mk.inj h
    obtain rfl := Option.some.inj hl4
    have htakes := Mm.frameAlloc_some ha
    refine ⟨⟨htakes.available, htakes.inUse⟩, fun p hp => ?_, fun S => ?_⟩
    · rw [PageTables.leaf, PageTables.tree, if_pos hp]
      simp [TableTree.empty, TableTree.setTable]
    · unfold Mm.need Mm.missingTables spaceFrames TableTree.missing TableTree.missingAt
      simp [TableTree.empty, TableTree.setTable]
      omega

lemma stackPages_lower : ∀ p ∈ stackPages, p < lowerHalfPages := by
  intro p hp
  have hlt := (Finset.mem_Ico.mp hp).2
  simp only [userStackVa, userStackPages, frameSize, lowerHalfPages] at hlt ⊢
  omega

/-- The stack of a new process is mapped if its pages are empty and the frames suffice. -/
lemma stack_attempts (m : Mm) (space : ℕ) :
    m.Attempts (allocMapPages space userStackPages userStackVa m).2 space 1 stackPages
      ((allocMapPages space userStackPages userStackVa m).1 = .done ()) :=
  mapRun_attempts (fun _ _ _ hva => Mm.allocMapUser_attempts hva) (by decide)

/-- The first process was created with the same image. -/
structure Platform.Starts (plat : Platform) (q : Elf.Plan) : Prop where
  loads : Elf.Loads plat.image q
  apart : Disjoint (Elf.imagePages plat.image) stackPages

lemma starts_of_create {p : Process} (hdisj : plat.RegionsDisjoint)
    (hr : AllocatorRun plat.regions m.frames m.calls) (h : create plat m pid = (.done p, m')) :
    ∃ q, plat.Starts q := by
  rcases vspaceNew_cases m with ⟨m₁, -, hnew⟩ | ⟨space, m₁, m₂, ha, hnew, -, hspace⟩
  · rw [create, hnew] at h
    cases h
  have hrun := (hspace ⟨.univ, .univ, .univ⟩ trivial).run hr
  rw [create, hnew] at h
  dsimp only at h
  split at h
  · cases h
  · cases h
  next entry m₃ hload =>
    obtain ⟨q, hq⟩ := Elf.loads_of_load hload
    refine ⟨q, hq, Finset.disjoint_left.mpr fun page himage hstack => ?_⟩
    have hstacks := stack_attempts m₃ space
    split at h
    · cases h
    · cases h
    next heq =>
      -- a page of the stack was empty after the load
      rw [heq] at hstacks
      exact Elf.load_mapped hdisj hrun hload page himage (hstacks.empty rfl page hstack)

lemma starts_run {ts : List KernelStep} (hdisj : plat.RegionsDisjoint) (h : Run (xernel plat) ts k) :
    ∃ q, plat.Starts q := by
  refine h.invariant (I := fun _ => ∃ q, plat.Starts q) (fun k hk => ?_) fun _ _ _ _ _ hq _ => hq
  obtain ⟨m₀, m₁, p, hint, hp, -⟩ := boot_cases hk
  exact starts_of_create hdisj ((enableInterrupts_builds hint).run .new) hp

section Create

variable {q : Elf.Plan} (h : plat.Starts q)

include h

lemma Platform.Starts.imagePages_lower (hlow : Elf.Low plat.image) :
    ∀ page ∈ Elf.imagePages plat.image, page < lowerHalfPages := by
  intro page hpage
  unfold Elf.imagePages at hpage
  rw [h.loads.plan] at hpage
  obtain ⟨pg, hpg, rfl⟩ := List.mem_map.mp (List.mem_toFinset.mp hpage)
  exact hlow q h.loads.plan pg hpg

/-- `create` gets to the end if the frames suffice. -/
lemma create_attempts (hlow : Elf.Low plat.image) (hnew : m.vspaceNew = (some space, m')) (pid : ℕ) :
    m'.Attempts (create plat m pid).2 space 1 plat.childPages
      (∃ p, (create plat m pid).1 = .done p) := by
  have hload := h.loads.attempts hlow m' space
  rw [create, hnew]
  dsimp only
  refine hload.next h.apart stackPages_lower (fun hok => ?_) (fun hnot => ?_)
  · obtain ⟨entry, hentry⟩ := hok
    cases hr : Elf.load m' plat.image space with
    | mk res m₁ =>
      rw [hr] at hentry
      obtain rfl : res = .ok entry := hentry
      have hstack := stack_attempts m₁ space
      dsimp only
      cases hs : allocMapPages space userStackPages userStackVa m₁ with
      | mk o m₂ =>
        rw [hs] at hstack
        cases o with
        | panic | failed => simpa using hstack
        | done => simpa using hstack
  · cases hr : Elf.load m' plat.image space with
    | mk res m₁ =>
      rw [hr] at hnot
      cases res with
      | ok entry => exact absurd ⟨entry, rfl⟩ hnot
      | error e => cases e <;> simp

lemma create_ne_panic (m : Mm) (pid : ℕ) : (create plat m pid).1 ≠ .panic := by
  unfold create
  split
  · simp
  next space m₁ _ =>
    have hload := h.loads.ne_panic m₁ space
    split
    next heq =>
      rw [heq] at hload
      exact absurd rfl hload
    · simp
    next m₂ _ =>
      have hstack : (allocMapPages space userStackPages userStackVa m₂).1 ≠ .panic :=
        mapRun_ne_panic (fun _ _ _ hva => Mm.allocMapUser_ne_panic hva) (by decide)
      split
      next heq =>
        rw [heq] at hstack
        exact absurd rfl hstack
      · simp
      · simp

/-- The pages of the image are in use in a new process. -/
lemma create_mapped {p : Process} (hdisj : plat.RegionsDisjoint) (hlow : Elf.Low plat.image)
    (hr : AllocatorRun plat.regions m.frames m.calls) (hcreate : create plat m pid = (.done p, m')) :
    ∀ page ∈ Elf.imagePages plat.image, m'.pt.leaf p.space page ≠ none := by
  rcases vspaceNew_cases m with ⟨m₁, -, hnew⟩ | ⟨space, m₁, m₂, -, hnew, -, hspace⟩
  · rw [create, hnew] at hcreate
    cases hcreate
  have hrun := (hspace ⟨.univ, .univ, .univ⟩ trivial).run hr
  rw [create, hnew] at hcreate
  dsimp only at hcreate
  split at hcreate
  · cases hcreate
  · cases hcreate
  next entry m₃ hload =>
    have hstack := stack_attempts m₃ space
    split at hcreate
    · cases hcreate
    · cases hcreate
    next heq =>
      obtain ⟨hp, rfl⟩ := Prod.mk.inj hcreate
      obtain rfl := Attempt.done.inj hp
      rw [heq] at hstack
      intro page hpage
      have hother : page ∉ stackPages := Finset.disjoint_left.mp h.apart hpage
      have hleaf := (hstack.fills rfl).others page (h.imagePages_lower hlow page hpage) hother
      rw [show (newProcess plat pid space entry).space = space from rfl, hleaf]
      exact Elf.load_mapped hdisj hrun hload page hpage

/-- Whether a process can be created is known beforehand. -/
lemma create_done_iff (hfilled : Elf.UpperFilled plat.image m) (pid : ℕ) :
    (∃ p, (create plat m pid).1 = .done p) ↔
      Elf.Low plat.image ∧ spaceFrames plat.childPages ≤ m.frames.available := by
  have hlow : (∃ p, (create plat m pid).1 = .done p) → Elf.Low plat.image := by
    rintro ⟨p, hp⟩
    have heq : create plat m pid = (.done p, (create plat m pid).2) := by rw [← hp]
    exact create_low heq hfilled
  rcases vspaceNew_cases m with ⟨m₁, ha, hnew⟩ | ⟨space, m₁, m₂, ha, hnew, -, -⟩
  · refine iff_of_false ?_ fun hall => ?_
    · rw [create, hnew]
      simp
    · have hnone := (Mm.frameAlloc_none ha).1
      have hle := hall.2
      unfold spaceFrames at hle
      omega
  · obtain ⟨htakes, hempty, hneed⟩ := vspaceNew_spec hnew
    have havail := htakes.available
    have hsum := hneed plat.childPages
    constructor
    · intro hok
      have hiff := (create_attempts h (hlow hok) hnew pid).iff.mp hok
      exact ⟨hlow hok, by omega⟩
    · rintro ⟨hl, hle⟩
      refine (create_attempts h hl hnew pid).iff.mpr ⟨fun p hp => hempty p ?_, by omega⟩
      rcases Finset.mem_union.mp hp with himage | hstack
      · exact h.imagePages_lower hl p himage
      · exact stackPages_lower p hstack

/-- What is left for the pages of `env` after a process was created. -/
lemma create_room {p : Process} {env : Finset ℕ} (hdisj : plat.RegionsDisjoint)
    (hr : AllocatorRun plat.regions m.frames m.calls) (hlow : Elf.Low plat.image)
    (hcreate : create plat m pid = (.done p, m'))
    (henv : ∀ page ∈ env, page < lowerHalfPages ∧ page ∉ stackPages) (spare : ℕ) :
    ((∀ page ∈ env, m'.pt.leaf p.space page = none) ∧
      m'.need p.space 1 env + spare ≤ m'.frames.available) ↔
    Disjoint plat.childPages env ∧
      spaceFrames (plat.childPages ∪ env) + spare ≤ m.frames.available := by
  have hmapped := create_mapped h hdisj hlow hr hcreate
  rcases vspaceNew_cases m with ⟨m₁, -, hnew⟩ | ⟨space, m₁, m₂, ha, hnew, -, -⟩
  · rw [create, hnew] at hcreate
    cases hcreate
  obtain rfl : p.space = space := by
    rcases create_builds plat m pid with ⟨m₃, ha', -⟩ | ⟨space', m₃, ha', hspace, -, -⟩
    · rw [ha'] at ha
      cases ha
    · rw [ha'] at ha
      obtain rfl := Option.some.inj (Prod.mk.inj ha).1
      exact hspace p m' hcreate
  obtain ⟨htakes, hempty, hneed⟩ := vspaceNew_spec hnew
  -- image and stack fill an empty space, so the pages of `env` are free where these are not
  have hfills : m₂.Fills m' p.space 1 plat.childPages := by
    have hattempts := create_attempts h hlow hnew pid
    rw [hcreate] at hattempts
    exact hattempts.fills ⟨p, rfl⟩
  have hleaf : ∀ page ∈ env, m'.pt.leaf p.space page = none ↔ page ∉ plat.childPages := by
    intro page hpage
    constructor
    · intro hnone hchild
      rcases Finset.mem_union.mp hchild with himage | hstack
      · exact hmapped page himage hnone
      · exact (henv page hpage).2 hstack
    · intro hnot
      rw [hfills.others page (henv page hpage).1 hnot]
      exact hempty page (henv page hpage).1
  have hapart : (∀ page ∈ env, m'.pt.leaf p.space page = none) ↔ Disjoint plat.childPages env := by
    rw [Finset.disjoint_right]
    exact forall₂_congr hleaf
  rw [hapart]
  refine and_congr_right fun hd => ?_
  -- what both need together is what the first took and the second still needs
  have hunion := hfills.need_union hd
  have havail := hfills.takes.available
  have havail₂ := htakes.available
  have hsum := hneed (plat.childPages ∪ env)
  omega

end Create

/-- Once there is a frame for the PML4, the call of `create` leaves a trace. -/
lemma create_inUse (plat : Platform) (m : Mm) (pid : ℕ) :
    (m.frames.available = 0 → (create plat m pid).1 = .failed ∧
      (create plat m pid).2.frames.inUse = m.frames.inUse) ∧
    (m.frames.available ≠ 0 → m.frames.inUse < (create plat m pid).2.frames.inUse) := by
  rcases vspaceNew_cases m with ⟨m₁, ha, hnew⟩ | ⟨space, m₁, m₂, ha, hnew, -, -⟩
  · obtain ⟨hnone, htakes⟩ := Mm.frameAlloc_none ha
    rw [create, hnew]
    exact ⟨fun _ => ⟨rfl, htakes.inUse⟩, fun hne => absurd hnone hne⟩
  · obtain ⟨htakes, -, -⟩ := vspaceNew_spec hnew
    have havail := htakes.available
    have huse := htakes.inUse
    refine ⟨fun hzero => by omega, fun _ => ?_⟩
    have hcovers : Elf.Covers ⟨.univ, .univ, .univ⟩ space (Elf.UpperFilled plat.image m₂) :=
      ⟨trivial, trivial, .inl ⟨trivial, trivial⟩⟩
    have hle := (create_rest hnew hcovers pid).inUse_le
    omega

/-! ## The environment -/

namespace Kernel

variable {cr3 envpPtr envpLen capSlot : ℕ}

/-- The page loop of `spawn_env` can be cut anywhere. -/
lemma copyEnv_append (a b : ℕ) : ∀ (i : ℕ) (m : Mm),
    copyEnv cr3 space envpPtr envpLen (a + b) i m =
      match copyEnv cr3 space envpPtr envpLen a i m with
      | (.done (), m₁) => copyEnv cr3 space envpPtr envpLen b (i + a) m₁
      | (.failed, m₁) => (.failed, m₁)
      | (.panic, m₁) => (.panic, m₁) := by
  induction a with
  | zero =>
    intro i m
    rw [Nat.zero_add]
    rfl
  | succ a ih =>
    intro i m
    rw [show a + 1 + b = a + b + 1 by omega, copyEnv, copyEnv]
    dsimp only
    cases hr : m.allocMapUser space (heapStart + i * frameSize) true false with
    | mk o m₁ =>
      cases o with
      | panic | failed => rfl
      | done =>
        dsimp only
        cases hd : m₁.physOf space (heapStart + i * frameSize) with
        | none => rfl
        | some dst =>
          dsimp only
          rw [ih, show i + 1 + a = i + (a + 1) by omega]

/-- Below the upper half the page loop does not panic. -/
lemma copyEnv_ne_panic : ∀ (n i : ℕ) (m : Mm), heapStart + (i + n) * frameSize ≤ 2 ^ 47 →
    (copyEnv cr3 space envpPtr envpLen n i m).1 ≠ .panic := by
  intro n
  induction n with
  | zero =>
    intro i m _
    simp [copyEnv]
  | succ n ih =>
    intro i m hfit
    have hva : heapStart + i * frameSize < 2 ^ 47 := by
      simp only [frameSize] at hfit ⊢
      omega
    have hmap : (m.allocMapUser space (heapStart + i * frameSize) true false).1 ≠ .panic :=
      Mm.allocMapUser_ne_panic hva
    unfold copyEnv
    dsimp only
    split
    next heq =>
      rw [heq] at hmap
      exact absurd rfl hmap
    · simp
    · split
      · simp
      · refine ih (i + 1) _ ?_
        rw [show i + 1 + n = i + (n + 1) by omega]
        exact hfit

/-- At the end of the lower half it does, if it still gets a frame. -/
lemma copyEnv_at_end {i : ℕ} (hi : heapStart + i * frameSize = 2 ^ 47) (n : ℕ) (m : Mm) :
    (copyEnv cr3 space envpPtr envpLen (n + 1) i m).1 =
      if m.frames.available = 0 then .failed else .panic := by
  unfold copyEnv Mm.allocMapUser
  dsimp only
  rw [hi]
  cases ha : m.frameAlloc with
  | mk got m₁ =>
    cases got with
    | none => rw [if_pos (Mm.frameAlloc_none ha).1]
    | some phys =>
      have havail := (Mm.frameAlloc_some ha).available
      rw [if_neg (by omega)]
      dsimp only
      rw [Mm.mapUser_eq, Mm.mapWithFlags, if_neg (by decide)]

/-- The pages of an environment of `envpLen` bytes. -/
def envPages (envpLen : ℕ) : Finset ℕ :=
  Finset.Ico (heapStart / frameSize) (heapStart / frameSize + pagesFor envpLen)

/-- All pages from `HEAP_START` to the end of the lower half. -/
def pagesAbove : Finset ℕ := Finset.Ico (heapStart / frameSize) lowerHalfPages

/-- The environment fits between `HEAP_START` and the end of the lower half. -/
def EnvFits (envpLen : ℕ) : Prop := heapStart + pagesFor envpLen * frameSize ≤ 2 ^ 47

/-- The stack lies below the heap. -/
lemma pagesAbove_lower : ∀ page ∈ pagesAbove, page < lowerHalfPages ∧ page ∉ stackPages := by
  intro page hpage
  obtain ⟨hlo, hhi⟩ := Finset.mem_Ico.mp hpage
  refine ⟨hhi, fun hstack => ?_⟩
  have hlt := (Finset.mem_Ico.mp hstack).2
  simp only [heapStart, userStackVa, userStackPages, frameSize] at hlo hlt
  omega

lemma envPages_lower (hfit : EnvFits envpLen) :
    ∀ page ∈ envPages envpLen, page < lowerHalfPages ∧ page ∉ stackPages := by
  intro page hpage
  obtain ⟨hlo, hhi⟩ := Finset.mem_Ico.mp hpage
  refine pagesAbove_lower page (Finset.mem_Ico.mpr ⟨hlo, ?_⟩)
  unfold EnvFits at hfit
  simp only [heapStart, frameSize, lowerHalfPages] at hfit hhi ⊢
  omega

lemma copyEnv_of_fits (cr3 space envpPtr : ℕ) (hfit : EnvFits envpLen) (m : Mm) :
    (copyEnv cr3 space envpPtr envpLen (pagesFor envpLen) 0 m).1 ≠ .panic ∧
    ((copyEnv cr3 space envpPtr envpLen (pagesFor envpLen) 0 m).1 = .done () ↔
      (∀ p ∈ envPages envpLen, m.pt.leaf space p = none) ∧
        m.need space 1 (envPages envpLen) + 0 ≤ m.frames.available) := by
  unfold EnvFits at hfit
  have hfit' : heapStart + (0 + pagesFor envpLen) * frameSize ≤ 2 ^ 47 := by
    rw [Nat.zero_add]
    exact hfit
  have hset : Finset.Ico (heapStart / frameSize + 0) (heapStart / frameSize + 0 + pagesFor envpLen) =
      envPages envpLen := by rw [Nat.add_zero, envPages]
  have hattempts := copyEnv_attempts cr3 space envpPtr envpLen (pagesFor envpLen) 0 m hfit'
  rw [hset] at hattempts
  refine ⟨copyEnv_ne_panic _ _ _ hfit', ?_⟩
  rw [Nat.add_zero]
  exact hattempts.iff

/-- A longer environment is never copied as a whole. -/
lemma copyEnv_of_not_fits (cr3 space envpPtr : ℕ) (hfit : ¬ EnvFits envpLen) (m : Mm) :
    (copyEnv cr3 space envpPtr envpLen (pagesFor envpLen) 0 m).1 ≠ .done () ∧
    ((copyEnv cr3 space envpPtr envpLen (pagesFor envpLen) 0 m).1 = .panic ↔
      (∀ p ∈ pagesAbove, m.pt.leaf space p = none) ∧
        m.need space 1 pagesAbove + 1 ≤ m.frames.available) := by
  unfold EnvFits at hfit
  -- the pages up to the end of the lower half, and at least one more
  obtain ⟨a, ha⟩ : ∃ a, heapStart + a * frameSize = 2 ^ 47 := ⟨lowerHalfPages - heapStart / frameSize,
    by decide⟩
  obtain ⟨b, hb⟩ : ∃ b, pagesFor envpLen = a + (b + 1) := by
    refine ⟨pagesFor envpLen - a - 1, ?_⟩
    simp only [frameSize] at ha hfit
    omega
  have hset : Finset.Ico (heapStart / frameSize + 0) (heapStart / frameSize + 0 + a) = pagesAbove := by
    unfold pagesAbove
    congr 1
    simp only [heapStart, frameSize, lowerHalfPages] at ha ⊢
    omega
  have hfit' : heapStart + (0 + a) * frameSize ≤ 2 ^ 47 := by rw [Nat.zero_add, ha]
  have hattempts := copyEnv_attempts cr3 space envpPtr envpLen a 0 m hfit'
  have hpanic : (copyEnv cr3 space envpPtr envpLen a 0 m).1 ≠ .panic := copyEnv_ne_panic a 0 m hfit'
  rw [hset] at hattempts
  have hiff := hattempts.iff
  rw [hb, copyEnv_append, Nat.zero_add]
  cases hr : copyEnv cr3 space envpPtr envpLen a 0 m with
  | mk o m₁ =>
    rw [hr] at hattempts hpanic hiff
    cases o with
    | panic => exact absurd rfl hpanic
    | failed =>
      refine ⟨by simp, iff_of_false (by simp) fun hall => ?_⟩
      exact absurd (hiff.mpr ⟨hall.1, by omega⟩) (by simp)
    | done =>
      obtain ⟨hempty, -⟩ := hiff.mp rfl
      have havail : m₁.frames.available + m.need space 1 pagesAbove = m.frames.available :=
        (hattempts.fills rfl).takes.available
      dsimp only
      rw [copyEnv_at_end ha]
      by_cases hzero : m₁.frames.available = 0
      · rw [if_pos hzero]
        exact ⟨by simp, iff_of_false (by simp) fun hall => by omega⟩
      · rw [if_neg hzero]
        exact ⟨by simp, iff_of_true rfl ⟨hempty, by omega⟩⟩

/-! ## The outcome of a spawn -/

/-- The caller wants no handle for its child, or the slot for it is empty. -/
def HandleFits (k : Kernel) (capSlot : ℕ) : Prop :=
  capSlot = u64Max ∨ k.sched.cur.caps.slots[capSlot]? = some none

/-- A child with the pages of `env` besides those that every process has can be set up, and `spare`
frames are left then. -/
structure ChildFits (plat : Platform) (m : Mm) (env : Finset ℕ) (spare : ℕ) : Prop where
  low : Elf.Low plat.image
  apart : Disjoint plat.childPages env
  frames : spaceFrames (plat.childPages ∪ env) + spare ≤ m.frames.available

/-- The environment at `envpPtr` can be read. -/
def EnvReadable (k : Kernel) (envpPtr envpLen : ℕ) : Prop :=
  envpPtr + envpLen < userAddrMax ∧ k.mm.userRangeOk k.cpu.cr3 envpPtr envpLen false = true

/-- The last thing that can go wrong is the handle. -/
lemma addProcess_outcome (k : Kernel) (p : Process) (capSlot : ℕ) :
    (k.addProcess p capSlot).1 = .done k.sched.nextPid ∧ k.HandleFits capSlot ∨
      (k.addProcess p capSlot).1 = .failed ∧ ¬ k.HandleFits capSlot := by
  unfold addProcess installProcessCap HandleFits
  by_cases hnone : capSlot = u64Max
  · rw [if_pos hnone]
    exact .inl ⟨rfl, .inl hnone⟩
  rw [if_neg hnone]
  unfold CNode.insert
  cases hslot : k.sched.cur.caps.slots[capSlot]? with
  | none =>
    refine .inr ⟨rfl, ?_⟩
    simp [hnone]
  | some slot =>
    cases slot with
    | none => exact .inl ⟨rfl, .inr rfl⟩
    | some cap =>
      refine .inr ⟨rfl, ?_⟩
      simp [hnone]

section Outcome

variable {q : Elf.Plan} (h : plat.Starts q) (hfilled : Elf.UpperFilled plat.image k.mm)

include h hfilled

lemma childFits_empty_iff :
    ChildFits plat k.mm ∅ 0 ↔ ∃ p, (create plat k.mm k.sched.nextPid).1 = .done p := by
  rw [create_done_iff h hfilled]
  constructor
  · intro hfits
    have hle := hfits.frames
    rw [Finset.union_empty] at hle
    exact ⟨hfits.low, hle⟩
  · rintro ⟨hlow, hle⟩
    refine ⟨hlow, Finset.disjoint_empty_right _, ?_⟩
    rw [Finset.union_empty]
    exact hle

lemma spawn_outcome (capSlot : ℕ) :
    (k.spawn plat capSlot).1 = .done k.sched.nextPid ∧
      (ChildFits plat k.mm ∅ 0 ∧ k.HandleFits capSlot) ∨
    (k.spawn plat capSlot).1 = .failed ∧ ¬ (ChildFits plat k.mm ∅ 0 ∧ k.HandleFits capSlot) := by
  have hiff := childFits_empty_iff h hfilled
  have hpanic := create_ne_panic h k.mm k.sched.nextPid
  unfold spawn
  cases hr : create plat k.mm k.sched.nextPid with
  | mk o mm =>
    rw [hr] at hiff hpanic
    cases o with
    | panic => exact absurd rfl hpanic
    | failed =>
      refine .inr ⟨rfl, fun hall => ?_⟩
      obtain ⟨p, hp⟩ := hiff.mp hall.1
      cases hp
    | done p =>
      have hfits := hiff.mpr ⟨p, rfl⟩
      rcases addProcess_outcome { k with mm } p capSlot with ⟨hdone, hhandle⟩ | ⟨hfailed, hhandle⟩
      · exact .inl ⟨hdone, hfits, hhandle⟩
      · exact .inr ⟨hfailed, fun hall => hhandle hall.2⟩

lemma spawnEnv_outcome (hdisj : plat.RegionsDisjoint)
    (hr : AllocatorRun plat.regions k.mm.frames k.mm.calls) (hlive : k.cpu.cr3 ∈ handedOut k.mm.calls)
    (hargs : ¬ (envpLen = 0 ∨ envpPtr = 0)) (capSlot : ℕ) :
    (k.spawnEnv plat envpPtr envpLen capSlot).1 = .done k.sched.nextPid ∧
      (k.EnvReadable envpPtr envpLen ∧ EnvFits envpLen ∧ ChildFits plat k.mm (envPages envpLen) 0 ∧
        k.HandleFits capSlot) ∨
    (k.spawnEnv plat envpPtr envpLen capSlot).1 = .panic ∧
      (k.EnvReadable envpPtr envpLen ∧ ¬ EnvFits envpLen ∧ ChildFits plat k.mm pagesAbove 1) ∨
    (k.spawnEnv plat envpPtr envpLen capSlot).1 = .failed ∧
      ¬ (k.EnvReadable envpPtr envpLen ∧ EnvFits envpLen ∧ ChildFits plat k.mm (envPages envpLen) 0 ∧
        k.HandleFits capSlot) ∧
      ¬ (k.EnvReadable envpPtr envpLen ∧ ¬ EnvFits envpLen ∧ ChildFits plat k.mm pagesAbove 1) := by
  have hiff := create_done_iff h hfilled k.sched.nextPid
  have hpanic := create_ne_panic h k.mm k.sched.nextPid
  have hleaf := create_leaf k.sched.nextPid hdisj hr hfilled hlive
  have hmono : ∀ {env spare}, ChildFits plat k.mm env spare →
      Elf.Low plat.image ∧ spaceFrames plat.childPages ≤ k.mm.frames.available := by
    intro env spare hfits
    have hle := hfits.frames
    have hsub : spaceFrames plat.childPages ≤ spaceFrames (plat.childPages ∪ env) :=
      spaceFrames_mono Finset.subset_union_left
    exact ⟨hfits.low, by omega⟩
  unfold spawnEnv
  rw [if_neg hargs]
  cases hcreate : create plat k.mm k.sched.nextPid with
  | mk o mm =>
    rw [hcreate] at hiff hpanic hleaf
    cases o with
    | panic => exact absurd rfl hpanic
    | failed =>
      have hnot : ∀ {env spare}, ¬ ChildFits plat k.mm env spare := by
        intro env spare hfits
        obtain ⟨p, hp⟩ := hiff.mpr (hmono hfits)
        cases hp
      exact .inr (.inr ⟨rfl, fun hall => hnot hall.2.2.1, fun hall => hnot hall.2.2⟩)
    | done p =>
      obtain ⟨hlow, -⟩ := hiff.mp ⟨p, rfl⟩
      have hread : k.EnvReadable envpPtr envpLen ↔ ¬ u64Max < envpPtr + envpLen ∧
          ¬ (userAddrMax ≤ envpPtr + envpLen ∨
            !mm.userRangeOk k.cpu.cr3 envpPtr envpLen false) := by
        have hmax : userAddrMax ≤ u64Max := by decide
        unfold EnvReadable
        rw [Mm.userRangeOk_congr hleaf, not_or]
        simp only [Bool.not_eq_true', Bool.not_eq_false, Nat.not_le]
        constructor
        · rintro ⟨hlt, hok⟩
          exact ⟨by omega, hlt, hok⟩
        · rintro ⟨-, hlt, hok⟩
          exact ⟨hlt, hok⟩
      dsimp only
      by_cases hreadable : k.EnvReadable envpPtr envpLen
      swap
      · -- one of the two checks fails
        refine .inr (.inr ⟨?_, fun hall => hreadable hall.1, fun hall => hreadable hall.1⟩)
        rw [hread, not_and_or, not_not, not_not] at hreadable
        split
        · rfl
        next hend =>
          rw [if_pos (hreadable.resolve_left hend)]
      rw [if_neg (hread.mp hreadable).1, if_neg (hread.mp hreadable).2]
      have hroom : ∀ {env : Finset ℕ} (spare : ℕ),
          (∀ page ∈ env, page < lowerHalfPages ∧ page ∉ stackPages) →
          (((∀ page ∈ env, mm.pt.leaf p.space page = none) ∧
            mm.need p.space 1 env + spare ≤ mm.frames.available) ↔ ChildFits plat k.mm env spare) := by
        intro env spare henv
        rw [create_room h hdisj hr hlow hcreate henv spare]
        exact ⟨fun hall => ⟨hlow, hall.1, hall.2⟩, fun hfits => ⟨hfits.apart, hfits.frames⟩⟩
      by_cases hfit : EnvFits envpLen
      · obtain ⟨hne, hdone⟩ := copyEnv_of_fits k.cpu.cr3 p.space envpPtr hfit mm
        rw [hroom 0 (envPages_lower hfit)] at hdone
        cases hcopy : copyEnv k.cpu.cr3 p.space envpPtr envpLen (pagesFor envpLen) 0 mm with
        | mk o mm' =>
          rw [hcopy] at hne hdone
          cases o with
          | panic => exact absurd rfl hne
          | failed =>
            refine .inr (.inr ⟨rfl, fun hall => ?_, fun hall => hall.2.1 hfit⟩)
            exact absurd (hdone.mpr hall.2.2.1) (by simp)
          | done =>
            have hfits := hdone.mp rfl
            dsimp only
            rcases addProcess_outcome { k with mm := mm' } { p with
              envpUser := heapStart
              envpLen
              heapBreak := heapStart + pagesFor envpLen * frameSize } capSlot with
              ⟨hdone, hhandle⟩ | ⟨hfailed, hhandle⟩
            · exact .inl ⟨hdone, hreadable, hfit, hfits, hhandle⟩
            · exact .inr (.inr ⟨hfailed, fun hall => hhandle hall.2.2.2, fun hall => hall.2.1 hfit⟩)
      · obtain ⟨hne, hpanics⟩ := copyEnv_of_not_fits k.cpu.cr3 p.space envpPtr hfit mm
        rw [hroom 1 pagesAbove_lower] at hpanics
        cases hcopy : copyEnv k.cpu.cr3 p.space envpPtr envpLen (pagesFor envpLen) 0 mm with
        | mk o mm' =>
          rw [hcopy] at hne hpanics
          cases o with
          | done => exact absurd rfl hne
          | failed =>
            refine .inr (.inr ⟨rfl, fun hall => hfit hall.2.1, fun hall => ?_⟩)
            exact absurd (hpanics.mpr hall.2.2) (by simp)
          | panic => exact .inr (.inl ⟨rfl, hreadable, hfit, hpanics.mp rfl⟩)

end Outcome

/-! ## The calls -/

/-- If the call fails, it leaves the process table with all capabilities, the next PID and the number of
frames in use as they were. -/
def SpawnFailsClean (k k' : Kernel) (out : Option ℕ) : Prop :=
  out = some u64Max → k'.sched.procs = k.sched.procs ∧ k'.sched.nextPid = k.sched.nextPid ∧
    k'.mm.frames.inUse = k.mm.frames.inUse

/-- No frame is left at all, or the child can be set up, its handle installed, and its PID told from the
error code. -/
def SpawnWhole (plat : Platform) (k : Kernel) (capSlot : ℕ) : Prop :=
  k.mm.frames.available = 0 ∨
  ChildFits plat k.mm ∅ 0 ∧ k.HandleFits capSlot ∧ k.sched.nextPid ≠ u64Max

/-- The same for a child with an environment, which must be readable too. One that does not fit below
the upper half makes the kernel panic, if there is so much memory. -/
def SpawnEnvWhole (plat : Platform) (k : Kernel) (envpPtr envpLen capSlot : ℕ) : Prop :=
  if envpLen = 0 ∨ envpPtr = 0 then k.SpawnWhole plat capSlot
  else
    k.mm.frames.available = 0 ∨ k.EnvReadable envpPtr envpLen ∧
      (EnvFits envpLen ∧ ChildFits plat k.mm (envPages envpLen) 0 ∧ k.HandleFits capSlot ∧
          k.sched.nextPid ≠ u64Max ∨
        ¬ EnvFits envpLen ∧ ChildFits plat k.mm pagesAbove 1)

/-- What a call leaves behind depends on its outcome only: it has taken a frame if there was one. -/
lemma spawnFailsClean_iff {r : Attempt ℕ × Kernel} (hcore : k'.core = (orMax r).1.core)
    (hout : out = (orMax r).2) (hsched : r.1 = .failed → r.2.sched = k.sched)
    (hzero : k.mm.frames.available = 0 → r.1 = .failed ∧ r.2.mm.frames.inUse = k.mm.frames.inUse)
    (hpos : k.mm.frames.available ≠ 0 → k.mm.frames.inUse < r.2.mm.frames.inUse) :
    k.SpawnFailsClean k' out ↔
      k.mm.frames.available = 0 ∨ r.1 ≠ .failed ∧ r.1 ≠ .done u64Max := by
  have hsched' : k'.sched = (orMax r).1.sched := congrArg Core.sched hcore
  have hmm' : k'.mm = (orMax r).1.mm := congrArg Core.mm hcore
  rw [orMax_mm] at hmm'
  unfold SpawnFailsClean
  rw [hout, hmm']
  by_cases havail : k.mm.frames.available = 0
  · obtain ⟨hfailed, huse⟩ := hzero havail
    refine iff_of_true (fun _ => ?_) (.inl havail)
    obtain ⟨o, k₁⟩ := r
    obtain rfl : o = .failed := hfailed
    rw [hsched', show (orMax (.failed, k₁)).1.sched = k.sched from hsched rfl]
    exact ⟨rfl, rfl, huse⟩
  · have hlt := hpos havail
    rw [or_iff_right havail]
    obtain ⟨o, k₁⟩ := r
    cases o with
    | panic => exact iff_of_true (fun h => by cases h) ⟨by simp, by simp⟩
    | failed =>
      refine iff_of_false (fun h => ?_) fun h => h.1 rfl
      exact absurd (h rfl).2.2 (Nat.ne_of_gt hlt)
    | done v =>
      by_cases hv : v = u64Max
      · refine iff_of_false (fun h => ?_) fun h => h.2 (by rw [hv])
        exact absurd (h (by rw [hv]; rfl)).2.2 (Nat.ne_of_gt hlt)
      · exact iff_of_true (fun h => absurd (Option.some.inj h) hv) ⟨by simp, by simpa using hv⟩

lemma spawn_clean_iff {q : Elf.Plan} (h : plat.Starts q) (hfilled : Elf.UpperFilled plat.image k.mm)
    (hcore : k'.core = (orMax (k.spawn plat capSlot)).1.core)
    (hout : out = (orMax (k.spawn plat capSlot)).2) :
    k.SpawnFailsClean k' out ↔ k.SpawnWhole plat capSlot := by
  have houtcome := spawn_outcome h hfilled capSlot
  obtain ⟨hzero, hpos⟩ := create_inUse plat k.mm k.sched.nextPid
  rw [spawnFailsClean_iff hcore hout]
  · unfold SpawnWhole
    refine or_congr_right ?_
    rcases houtcome with ⟨hdone, hfits, hhandle⟩ | ⟨hfailed, hnot⟩
    · rw [hdone]
      simp [hfits, hhandle]
    · rw [hfailed]
      exact iff_of_false (fun hall => hall.1 rfl) fun hall => hnot ⟨hall.1, hall.2.1⟩
  · exact fun hfailed => spawn_failed fun pid hdone => by rw [hfailed] at hdone; cases hdone
  · intro havail
    obtain ⟨hfailed, huse⟩ := hzero havail
    rw [spawn_mm]
    refine ⟨?_, huse⟩
    unfold spawn
    cases hr : create plat k.mm k.sched.nextPid with
    | mk o mm =>
      rw [hr] at hfailed
      obtain rfl : o = .failed := hfailed
      rfl
  · rw [spawn_mm]
    exact hpos

/-- The environment takes more frames. -/
lemma spawnEnv_inUse (plat : Platform) (k : Kernel) (hargs : ¬ (envpLen = 0 ∨ envpPtr = 0)) (capSlot : ℕ) :
    (create plat k.mm k.sched.nextPid).2.frames.inUse ≤
      (k.spawnEnv plat envpPtr envpLen capSlot).2.mm.frames.inUse ∧
    ((create plat k.mm k.sched.nextPid).1 = .failed →
      (k.spawnEnv plat envpPtr envpLen capSlot).1 = .failed ∧
      (k.spawnEnv plat envpPtr envpLen capSlot).2.mm = (create plat k.mm k.sched.nextPid).2) := by
  unfold spawnEnv
  rw [if_neg hargs]
  cases hr : create plat k.mm k.sched.nextPid with
  | mk o mm =>
    cases o with
    | panic => exact ⟨le_rfl, fun h => by cases h⟩
    | failed => exact ⟨le_rfl, fun _ => ⟨rfl, rfl⟩⟩
    | done p =>
      refine ⟨?_, fun h => by cases h⟩
      have htree : some p.space ∈ (Scope.ofSpace p.space ∅).trees := rfl
      have huser : some p.space ∈ (Scope.ofSpace p.space ∅).userTrees := rfl
      have hle := (copyEnv_builds k.cpu.cr3 envpPtr envpLen htree huser (pagesFor envpLen) 0 mm
        (by decide)).inUse_le
      dsimp only
      split
      · exact le_rfl
      split
      · exact le_rfl
      split
      next heq => rw [heq] at hle; exact hle
      next heq => rw [heq] at hle; exact hle
      next heq =>
        rw [heq] at hle
        rw [addProcess_mm]
        exact hle

lemma spawnEnv_clean_iff {q : Elf.Plan} (h : plat.Starts q) (hdisj : plat.RegionsDisjoint)
    (hspace : SpaceInv plat k) (hlive : k.cpu.cr3 ∈ handedOut k.mm.calls)
    (hcore : k'.core = (orMax (k.spawnEnv plat envpPtr envpLen capSlot)).1.core)
    (hout : out = (orMax (k.spawnEnv plat envpPtr envpLen capSlot)).2) :
    k.SpawnFailsClean k' out ↔ k.SpawnEnvWhole plat envpPtr envpLen capSlot := by
  unfold SpawnEnvWhole
  by_cases hargs : envpLen = 0 ∨ envpPtr = 0
  · rw [if_pos hargs]
    unfold spawnEnv at hcore hout
    rw [if_pos hargs] at hcore hout
    exact spawn_clean_iff h hspace.filled hcore hout
  rw [if_neg hargs]
  have houtcome := spawnEnv_outcome h hspace.filled hdisj hspace.run hlive hargs capSlot
  obtain ⟨hzero, hpos⟩ := create_inUse plat k.mm k.sched.nextPid
  obtain ⟨hle, hcreate⟩ := spawnEnv_inUse plat k hargs capSlot
  rw [spawnFailsClean_iff hcore hout]
  · refine or_congr_right ?_
    rcases houtcome with ⟨hdone, hread, hfit, hfits, hhandle⟩ | ⟨hpanic, hread, hfit, hfits⟩ |
      ⟨hfailed, hnot, hnot'⟩
    · rw [hdone]
      simp [hread, hfit, hfits, hhandle]
    · rw [hpanic]
      exact iff_of_true ⟨by simp, by simp⟩ ⟨hread, .inr ⟨hfit, hfits⟩⟩
    · rw [hfailed]
      refine iff_of_false (fun hall => hall.1 rfl) ?_
      rintro ⟨hread, ⟨hfit, hfits, hhandle, -⟩ | ⟨hfit, hfits⟩⟩
      · exact hnot ⟨hread, hfit, hfits, hhandle⟩
      · exact hnot' ⟨hread, hfit, hfits⟩
  · exact fun hfailed => spawnEnv_failed fun pid hdone => by rw [hfailed] at hdone; cases hdone
  · intro havail
    obtain ⟨hfailed, huse⟩ := hzero havail
    obtain ⟨hfailed', hmm⟩ := hcreate hfailed
    exact ⟨hfailed', by rw [hmm, huse]⟩
  · exact fun havail => lt_of_lt_of_le (hpos havail) hle

end Kernel

/-- In every run, `SPAWN` and `SPAWN_ENV` fail without a trace if and only if no frame is left, or
there is everything that the child needs. -/
theorem spawn_failsClean_iff {ts : List KernelStep} (hdisj : plat.RegionsDisjoint)
    (h : Run (xernel plat) ts k) (t : KernelStep) (ht : t ∈ ts) (args : Args) :
    (t.pre.activity t.event = .call .spawn args →
      (t.pre.SpawnFailsClean t.post t.out ↔ t.pre.SpawnWhole plat args.rsi.toNat)) ∧
    (t.pre.activity t.event = .call .spawnEnv args →
      (t.pre.SpawnFailsClean t.post t.out ↔
        t.pre.SpawnEnvWhole plat args.rsi.toNat args.rdx.toNat args.r10.toNat)) := by
  obtain ⟨q, hstarts⟩ := starts_run hdisj h
  obtain ⟨⟨ts', hpre⟩, hs⟩ := h.mem_step ht
  have hreach : Reachable (xernel plat) t.pre := ⟨ts', hpre⟩
  have hspace := spaceInv_run hdisj hpre
  have hlive : t.pre.cpu.cr3 ∈ handedOut t.pre.mm.calls := by
    rw [(reachable_onThread hreach hs).cr3]
    exact hspace.live _ _ (Scheduler.getElem?_current _)
  constructor
  · intro hact
    obtain ⟨nr, hw, r, hd, rfl, -, hcore, hout⟩ := reachable_dispatch hreach hs hact
    rw [Kernel.dispatch, hd] at hcore hout
    exact Kernel.spawn_clean_iff (k := t.pre.entered) hstarts hspace.filled hcore hout
  · intro hact
    obtain ⟨nr, hw, r, hd, rfl, -, hcore, hout⟩ := reachable_dispatch hreach hs hact
    rw [Kernel.dispatch, hd] at hcore hout
    have hspace' : SpaceInv plat t.pre.entered :=
      ⟨hspace.run, hspace.filled, hspace.live, hspace.distinct⟩
    exact Kernel.spawnEnv_clean_iff (k := t.pre.entered) hstarts hdisj hspace' hlive hcore hout

/-- The first process spawns a child, and then one with an environment of two pages. -/
theorem spawn_failsClean_iff_two :
    ∃ ts k, Run (xernel smallPlatform) ts k ∧ ts.map Transition.out = [none, some 1, some 2] ∧
      ∀ t ∈ ts, ∀ args,
        (t.pre.activity t.event = .call .spawn args →
          t.pre.SpawnWhole smallPlatform args.rsi.toNat) ∧
        (t.pre.activity t.event = .call .spawnEnv args →
          t.pre.SpawnEnvWhole smallPlatform args.rsi.toNat args.rdx.toNat args.r10.toNat) := by
  have hfacts : (trace smallPlatform [.resume, .call .spawn 0 0xffff_ffff_ffff_ffff,
      .call .spawnEnv 0 0x80_0000 5000 20]).map (fun r => (r.1.map Transition.out,
        r.1.all fun t => decide (t.out ≠ some u64Max))) =
      some ([none, some 1, some 2], true) := by decide +kernel
  obtain ⟨r, hr, hfacts⟩ := Option.map_eq_some_iff.mp hfacts
  obtain ⟨houts, hgood⟩ := Prod.mk.inj hfacts
  have hdisj : smallPlatform.RegionsDisjoint :=
    Platform.regionsDisjoint_of_pairwise (List.pairwise_singleton _ _)
  refine ⟨r.1, r.2, trace_run hr, houts, fun t ht args => ?_⟩
  have hclean : t.pre.SpawnFailsClean t.post t.out := fun hfailed =>
    absurd hfailed (of_decide_eq_true (List.all_eq_true.mp hgood t ht))
  obtain ⟨hspawn, hspawnEnv⟩ := spawn_failsClean_iff hdisj (trace_run hr) t ht args
  exact ⟨fun hact => (hspawn hact).mp hclean, fun hact => (hspawnEnv hact).mp hclean⟩

/-- A `SPAWN` with an occupied slot for the handle fails, but the frames of the child stay in use. -/
theorem not_spawn_failsClean :
    ¬ ∀ ts k, Run (xernel smallPlatform) ts k → ∀ t ∈ ts, ∀ args,
      t.pre.activity t.event = .call .spawn args → t.pre.SpawnFailsClean t.post t.out := by
  have hfacts : (trace smallPlatform [.resume, .call .spawn 0 0]).map (fun r => (r.1[1]?).map fun t =>
      (t.out, t.pre.mm.frames.inUse, t.post.mm.frames.inUse)) =
      some (some (some u64Max, 26, 46)) := by decide +kernel
  intro hall
  obtain ⟨r, hr, hfacts⟩ := Option.map_eq_some_iff.mp hfacts
  obtain ⟨t, ht, hfacts⟩ := Option.map_eq_some_iff.mp hfacts
  simp only [Prod.mk.injEq] at hfacts
  obtain ⟨hout, hbefore, hafter⟩ := hfacts
  have hevent : t.event = .call .spawn 0 0 := (Option.some.inj (trace_event hr ht)).symm
  obtain ⟨-, -, huse⟩ := hall r.1 r.2 (trace_run hr) t (List.mem_of_getElem? ht)
    { rdi := 0, rsi := 0, rdx := 0, r10 := 0, r8 := 0, r9 := 0 } (by rw [hevent]; rfl) hout
  rw [hbefore, hafter] at huse
  cases huse

end Xernel
