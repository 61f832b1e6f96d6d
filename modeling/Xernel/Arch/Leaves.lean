import Xernel.Arch.PagingTheorems
import Xernel.Process

/-!
# What mapping does to the leaf entries

A successful `map_to` fills one empty leaf entry; everything else the mapping functions do leaves the
leaf entries of all address spaces alone. The loop `mapRun` fills the pages of its run, and only these.
-/

namespace Xernel

/-- The leaf entries `leaves` with that of `page` in space `l4` set. -/
def setLeafAt (leaves : ℕ → ℕ → Option Leaf) (l4 page : ℕ) (leaf : Leaf) (l p : ℕ) : Option Leaf :=
  if PageTables.home l p = PageTables.home l4 page ∧ p = page then some leaf else leaves l p

namespace PageTables

variable {pt : PageTables} {l4 page : ℕ}

lemma leaf_setTable (pt : PageTables) (l4 page level idx frame : ℕ) :
    (pt.setTree l4 page ((pt.tree l4 page).setTable level idx frame)).leaf = pt.leaf := by
  funext l p
  rw [leaf_eq_half, leaf_eq_half, half_setTree]
  split
  next hhome => rw [hhome, ← tree_eq_half]; rfl
  next => rfl

lemma leaf_setLeaf (pt : PageTables) (l4 page : ℕ) (leaf : Leaf) :
    (pt.setTree l4 page ((pt.tree l4 page).setLeaf page leaf)).leaf =
      setLeafAt pt.leaf l4 page leaf := by
  funext l p
  rw [leaf_eq_half, half_setTree, setLeafAt]
  split
  next hhome =>
    rw [TableTree.setLeaf]
    by_cases hp : p = page
    · subst hp
      simp [hhome]
    · rw [if_neg fun h => hp h.2]
      simp only [Function.update_of_ne hp]
      rw [leaf_eq_half, hhome, tree_eq_half]
  next hhome =>
    rw [if_neg fun h => hhome h.1, leaf_eq_half]

end PageTables

/-- Setting a page of the lower half. -/
lemma setLeafAt_lower {leaves : ℕ → ℕ → Option Leaf} {l4 page l p : ℕ} {leaf : Leaf}
    (hpage : page < lowerHalfPages) :
    setLeafAt leaves l4 page leaf l p = if l = l4 ∧ p = page then some leaf else leaves l p := by
  rw [setLeafAt]
  congr 1
  refine propext ⟨?_, ?_⟩
  · rintro ⟨hhome, rfl⟩
    simpa [PageTables.home, hpage] using hhome
  · rintro ⟨rfl, rfl⟩
    exact ⟨rfl, rfl⟩

namespace Mm

variable {m m' : Mm} {l4 page virt phys : ℕ} {flags : PageFlags}

lemma createNextTable_leaf (m : Mm) (l4 page level : ℕ) :
    (m.createNextTable l4 page level).2.pt.leaf = m.pt.leaf := by
  rw [createNextTable]
  split
  · rfl
  · split
    next m₁ ha => rw [Builds.frameAlloc_pt ha]
    next frame m₁ ha =>
      rw [← Builds.frameAlloc_pt ha]
      exact PageTables.leaf_setTable ..

lemma createTables_leaf (l4 page : ℕ) (levels : List ℕ) (m : Mm) :
    (createTables l4 page levels m).2.pt.leaf = m.pt.leaf := by
  induction levels generalizing m with
  | nil => rfl
  | cons level levels ih =>
    have hnext := createNextTable_leaf m l4 page level
    rw [createTables]
    split
    next m₁ heq => rw [heq] at hnext; exact hnext
    next m₁ heq => rw [heq] at hnext; rw [ih, hnext]

/-- A successful `map_to` fills an empty entry. -/
lemma mapTo_done {leaf : Leaf} (h : m.mapTo l4 page leaf = (none, m')) :
    m.pt.leaf l4 page = none ∧ m'.pt.leaf = setLeafAt m.pt.leaf l4 page leaf := by
  have htables := createTables_leaf l4 page [3, 2, 1] m
  rw [mapTo] at h
  split at h
  · cases h
  next m₁ heq =>
    rw [heq] at htables
    split at h
    · cases h
    next hnone =>
      obtain ⟨-, rfl⟩ := Prod.mk.inj h
      rw [← htables]
      exact ⟨hnone, PageTables.leaf_setLeaf ..⟩

/-- A failing `map_to` leaves the entries alone; the one it was to set may be in use. -/
lemma mapTo_error {leaf : Leaf} {e : MapToError} (h : m.mapTo l4 page leaf = (some e, m')) :
    m'.pt.leaf = m.pt.leaf ∧ (e = .pageAlreadyMapped → m.pt.leaf l4 page ≠ none) := by
  have htables := createTables_leaf l4 page [3, 2, 1] m
  rw [mapTo] at h
  split at h
  next m₁ heq =>
    obtain ⟨he, rfl⟩ := Prod.mk.inj h
    obtain rfl := Option.some.inj he
    rw [heq] at htables
    exact ⟨htables, fun h => by cases h⟩
  next m₁ heq =>
    rw [heq] at htables
    split at h
    next old hold =>
      obtain ⟨-, rfl⟩ := Prod.mk.inj h
      have hold' : m.pt.leaf l4 page = some old := by rw [← htables]; exact hold
      exact ⟨htables, fun _ hnone => by rw [hnone] at hold'; cases hold'⟩
    · cases h

/-! ## One page -/

/-- Mapping a page fills its entry, which was empty, or fails and leaves all entries alone. -/
lemma mapWithFlags_leaf (m : Mm) (l4 virt phys : ℕ) (flags : PageFlags) :
    ((m.mapWithFlags l4 virt phys flags).1 = .done ∧ m.pt.leaf l4 (virt / frameSize) = none ∧
      (m.mapWithFlags l4 virt phys flags).2.pt.leaf =
        setLeafAt m.pt.leaf l4 (virt / frameSize) { phys := pageDown phys, flags }) ∨
    ((m.mapWithFlags l4 virt phys flags).1 ≠ .done ∧
      (m.mapWithFlags l4 virt phys flags).2.pt.leaf = m.pt.leaf) := by
  rw [mapWithFlags]
  split
  · split
    next m₁ heq => exact .inl ⟨rfl, mapTo_done heq⟩
    next e m₁ heq => exact .inr ⟨by simp, (mapTo_error heq).1⟩
  · exact .inr ⟨by simp, rfl⟩

/-- The flags of `map_user`. -/
def userFlags (writable executable : Bool) : PageFlags :=
  { userAccessible := true, writable, noExecute := !executable }

lemma mapUser_eq (m : Mm) (l4 virt phys : ℕ) (writable executable : Bool) :
    m.mapUser l4 virt phys writable executable =
      m.mapWithFlags l4 virt phys (userFlags writable executable) := rfl

/-! Mapping writes no bytes. -/

lemma createTables_mem (l4 page : ℕ) (levels : List ℕ) (m : Mm) :
    (createTables l4 page levels m).2.mem = m.mem := by
  induction levels generalizing m with
  | nil => rfl
  | cons level levels ih =>
    have hnext : (m.createNextTable l4 page level).2.mem = m.mem := by
      rw [createNextTable]
      split
      · rfl
      · split <;> (next ha => obtain ⟨-, rfl⟩ := Prod.mk.inj ha; rfl)
    rw [createTables]
    split
    next heq => rw [heq] at hnext; exact hnext
    next heq => rw [heq] at hnext; rw [ih, hnext]

lemma mapTo_mem (m : Mm) (l4 page : ℕ) (leaf : Leaf) : (m.mapTo l4 page leaf).2.mem = m.mem := by
  have htables := createTables_mem l4 page [3, 2, 1] m
  rw [mapTo]
  split
  next heq => rw [heq] at htables; exact htables
  next heq =>
    rw [heq] at htables
    split <;> exact htables

lemma mapWithFlags_mem (m : Mm) (l4 virt phys : ℕ) (flags : PageFlags) :
    (m.mapWithFlags l4 virt phys flags).2.mem = m.mem := by
  have hmap := mapTo_mem m l4 (virt / frameSize) { phys := pageDown phys, flags }
  rw [mapWithFlags]
  split
  · split <;> (next heq => rw [heq] at hmap; exact hmap)
  · rfl

/-- The flags of `map_user_device_idempotent`. -/
def deviceFlags : PageFlags :=
  { userAccessible := true, writable := true, noCache := true, writeThrough := true,
    noExecute := true }

/-- Mapping a device page fills its entry, finds it in use and counts as success, or fails; only the
first changes an entry. -/
lemma mapUserDevice_leaf (m : Mm) (l4 virt phys : ℕ) :
    ((m.mapUserDevice l4 virt phys).1 = .done ∧ m.pt.leaf l4 (virt / frameSize) = none ∧
      (m.mapUserDevice l4 virt phys).2.pt.leaf = setLeafAt m.pt.leaf l4 (virt / frameSize)
        { phys := pageDown phys, flags := deviceFlags }) ∨
    ((m.mapUserDevice l4 virt phys).1 = .done ∧ m.pt.leaf l4 (virt / frameSize) ≠ none ∧
      (m.mapUserDevice l4 virt phys).2.pt.leaf = m.pt.leaf) ∨
    ((m.mapUserDevice l4 virt phys).1 ≠ .done ∧
      (m.mapUserDevice l4 virt phys).2.pt.leaf = m.pt.leaf) := by
  have hflags := mapWithFlags_leaf m l4 virt phys deviceFlags
  rw [mapUserDevice]
  split
  next m₁ heq =>
    refine .inr (.inl ⟨rfl, ?_⟩)
    rw [mapWithFlags] at heq
    split at heq
    · split at heq
      · cases heq
      next e m₂ hmap =>
        obtain ⟨he, rfl⟩ := Prod.mk.inj heq
        obtain ⟨hsame, hused⟩ := mapTo_error hmap
        exact ⟨hused (MapOutcome.failed.inj he), hsame⟩
    · cases heq
  next => exact hflags.imp_right .inr

lemma frameAlloc_leaf {got : Option ℕ} (ha : m.frameAlloc = (got, m')) :
    m'.pt.leaf = m.pt.leaf := by
  rw [Builds.frameAlloc_pt ha]

/-- At most one page of space `l4` was mapped, to a leaf of `L`. -/
def MapsAtMost (l4 page : ℕ) (L : Set Leaf) (m m' : Mm) : Prop :=
  m'.pt.leaf = m.pt.leaf ∨ ∃ leaf ∈ L, m'.pt.leaf = setLeafAt m.pt.leaf l4 page leaf

lemma mapWithFlags_atMost (m : Mm) (l4 virt phys : ℕ) (flags : PageFlags) :
    MapsAtMost l4 (virt / frameSize) {⟨pageDown phys, flags⟩} m
      (m.mapWithFlags l4 virt phys flags).2 := by
  rcases mapWithFlags_leaf m l4 virt phys flags with ⟨-, -, hset⟩ | ⟨-, hsame⟩
  · exact .inr ⟨_, rfl, hset⟩
  · exact .inl hsame

lemma mapUserDevice_atMost (m : Mm) (l4 virt phys : ℕ) :
    MapsAtMost l4 (virt / frameSize) {⟨pageDown phys, deviceFlags⟩} m
      (m.mapUserDevice l4 virt phys).2 := by
  rw [mapUserDevice_eq]
  exact mapWithFlags_atMost ..

lemma allocMapUser_atMost (m : Mm) (l4 virt : ℕ) (writable executable : Bool) :
    MapsAtMost l4 (virt / frameSize) .univ m (m.allocMapUser l4 virt writable executable).2 := by
  rw [allocMapUser]
  split
  next m₁ ha => exact .inl (frameAlloc_leaf ha)
  next phys m₁ ha =>
    rw [MapsAtMost, ← frameAlloc_leaf ha]
    rcases mapWithFlags_atMost (m₁.zero phys frameSize) l4 virt phys
      (userFlags writable executable) with hsame | ⟨leaf, -, hset⟩
    · exact .inl hsame
    · exact .inr ⟨leaf, trivial, hset⟩

/-- Other pages of the lower half stay as they are. -/
lemma MapsAtMost.other {L : Set Leaf} {l p : ℕ} (h : MapsAtMost l4 page L m m')
    (hp : p < lowerHalfPages) (hne : l ≠ l4 ∨ p ≠ page) : m'.pt.leaf l p = m.pt.leaf l p := by
  rcases h with hsame | ⟨leaf, -, hset⟩
  · rw [hsame]
  · rw [hset, setLeafAt, if_neg]
    rintro ⟨hhome, rfl⟩
    rcases hne with hne | hne
    · exact hne (by simpa [PageTables.home, hp] using hhome)
    · exact hne rfl

/-- So do all pages with another number. -/
lemma MapsAtMost.of_ne {L : Set Leaf} {l p : ℕ} (h : MapsAtMost l4 page L m m') (hne : p ≠ page) :
    m'.pt.leaf l p = m.pt.leaf l p := by
  rcases h with hsame | ⟨leaf, -, hset⟩
  · rw [hsame]
  · rw [hset, setLeafAt, if_neg fun hat => hne hat.2]

end Mm

/-! ## A run of pages -/

section MapRun

open Mm

variable {map : Mm → ℕ → ℕ → MapOutcome × Mm} {L : ℕ → Set Leaf} {space n va phys : ℕ} {m m' : Mm}

/-- The number of the page after a page. -/
lemma succ_page (va : ℕ) : (va + frameSize) / frameSize = va / frameSize + 1 :=
  Nat.add_div_right va frameSize_pos

/-- The loop maps no page outside its run, whether it gets to the end or not. -/
lemma mapRun_other {l p : ℕ}
    (hmap : ∀ m va phys, MapsAtMost space (va / frameSize) (L phys) m (map m va phys).2)
    (hp : p < lowerHalfPages)
    (hne : l ≠ space ∨ p < va / frameSize ∨ va / frameSize + n ≤ p) :
    (mapRun map n va phys m).2.pt.leaf l p = m.pt.leaf l p := by
  induction n generalizing va phys m with
  | zero => rfl
  | succ n ih =>
    have hfirst : (map m va phys).2.pt.leaf l p = m.pt.leaf l p :=
      (hmap m va phys).other hp (by omega)
    rw [mapRun]
    split
    next m₁ heq => rw [heq] at hfirst; exact hfirst
    next m₁ heq => rw [heq] at hfirst; exact hfirst
    next m₁ heq =>
      rw [heq] at hfirst
      rw [ih (by rw [succ_page]; omega), hfirst]

/-- Every entry that the loop changes is one of its run and gets the frame of the same number of the
physical run. -/
lemma mapRun_new {l p : ℕ}
    (hmap : ∀ m va phys, MapsAtMost space (va / frameSize) (L phys) m (map m va phys).2)
    (hva : va / frameSize + n ≤ lowerHalfPages)
    (hnew : (mapRun map n va phys m).2.pt.leaf l p ≠ m.pt.leaf l p) :
    ∃ i < n, p = va / frameSize + i ∧ ∃ leaf ∈ L (phys + i * frameSize),
      (mapRun map n va phys m).2.pt.leaf l p = some leaf := by
  induction n generalizing va phys m with
  | zero => exact absurd rfl hnew
  | succ n ih =>
    -- the entry is changed by the first page or by the rest of the loop
    by_cases hfirst : (map m va phys).2.pt.leaf l p = m.pt.leaf l p
    · have hrest : ∀ m₁, map m va phys = (.done, m₁) →
          (mapRun map (n + 1) va phys m).2 =
            (mapRun map n (va + frameSize) (phys + frameSize) m₁).2 := by
        intro m₁ heq
        rw [mapRun, heq]
      cases hr : map m va phys with
      | mk o m₁ =>
        rw [hr] at hfirst
        cases o with
        | done =>
          rw [hrest m₁ hr] at hnew ⊢
          rw [← hfirst] at hnew
          obtain ⟨i, hi, hpage, leaf, hleaf, heq⟩ := ih (by rw [succ_page]; omega) hnew
          refine ⟨i + 1, by omega, by rw [hpage, succ_page]; omega, leaf, ?_, heq⟩
          rwa [show phys + (i + 1) * frameSize = phys + frameSize + i * frameSize by
            rw [Nat.succ_mul]; omega]
        | failed e =>
          rw [mapRun, hr] at hnew
          exact absurd hfirst hnew
        | panic =>
          rw [mapRun, hr] at hnew
          exact absurd hfirst hnew
    · have hset : p = va / frameSize ∧ ∃ leaf ∈ L phys,
          (map m va phys).2.pt.leaf l p = some leaf := by
        rcases hmap m va phys with hsame | ⟨leaf, hleaf, hset⟩
        · exact absurd (congrFun (congrFun hsame l) p) hfirst
        · rw [hset, setLeafAt] at hfirst ⊢
          split at hfirst
          next hat => exact ⟨hat.2, leaf, hleaf, by rw [if_pos hat]⟩
          next => exact absurd rfl hfirst
      obtain ⟨rfl, leaf, hleaf, heq⟩ := hset
      refine ⟨0, Nat.succ_pos n, rfl, leaf, by simpa using hleaf, ?_⟩
      rw [mapRun]
      split
      next m₁ hr => rw [hr] at heq; exact heq
      next m₁ hr => rw [hr] at heq; exact heq
      next m₁ hr =>
        rw [hr] at heq
        rw [mapRun_other hmap (by omega) (.inr (.inl (by rw [succ_page]; omega))), heq]

/-- `map` fills the entry of its page if that is empty, or fails. -/
def FillsEmpty (map : Mm → ℕ → ℕ → MapOutcome × Mm) (space : ℕ) (flags : PageFlags) : Prop :=
  ∀ m va phys m', map m va phys = (.done, m') → m.pt.leaf space (va / frameSize) = none →
    m'.pt.leaf = setLeafAt m.pt.leaf space (va / frameSize) { phys := pageDown phys, flags }

/-- If the loop gets to the end, every page of its run that was empty is mapped to the frame of the
same number of the physical run. -/
lemma mapRun_fills {flags : PageFlags}
    (hmap : ∀ m va phys, MapsAtMost space (va / frameSize) (L phys) m (map m va phys).2)
    (hfill : FillsEmpty map space flags) (hva : va / frameSize + n ≤ lowerHalfPages)
    (hphys : frameSize ∣ phys) (h : mapRun map n va phys m = (.done (), m')) :
    ∀ i < n, m.pt.leaf space (va / frameSize + i) = none →
      m'.pt.leaf space (va / frameSize + i) = some { phys := phys + i * frameSize, flags } := by
  induction n generalizing va phys m with
  | zero => exact fun i hi => absurd hi (Nat.not_lt_zero i)
  | succ n ih =>
    intro i hi hempty
    rw [mapRun] at h
    split at h
    · cases h
    · cases h
    next m₁ hr =>
      cases i with
      | zero =>
        have hrest : (mapRun map n (va + frameSize) (phys + frameSize) m₁).2.pt.leaf space
            (va / frameSize + 0) = m₁.pt.leaf space (va / frameSize + 0) :=
          mapRun_other hmap (by omega) (.inr (.inl (by rw [succ_page]; omega)))
        rw [h] at hrest
        rw [hrest, Nat.add_zero, hfill m va phys m₁ hr hempty, setLeafAt,
          if_pos ⟨rfl, rfl⟩, pageDown_of_dvd hphys]
        simp
      | succ i =>
        have hempty₁ : m₁.pt.leaf space (va / frameSize + (i + 1)) = none := by
          have hother := (hmap m va phys).other (l := space) (p := va / frameSize + (i + 1))
            (by omega) (.inr (by omega))
          rw [hr] at hother
          rw [hother, hempty]
        have hpage : (va + frameSize) / frameSize + i = va / frameSize + (i + 1) := by
          rw [succ_page]; omega
        rw [← hpage] at hempty₁ ⊢
        rw [ih (by rw [succ_page]; omega) (Nat.dvd_add hphys (Nat.dvd_refl _)) h i (by omega) hempty₁]
        congr 2
        rw [Nat.succ_mul]
        omega

/-- If `map` fails on pages that are mapped, a loop that gets to the end found its run empty. -/
lemma mapRun_empty
    (hmap : ∀ m va phys, MapsAtMost space (va / frameSize) (L phys) m (map m va phys).2)
    (hused : ∀ m va phys m', map m va phys = (.done, m') → m.pt.leaf space (va / frameSize) = none)
    (hva : va / frameSize + n ≤ lowerHalfPages) (h : mapRun map n va phys m = (.done (), m')) :
    ∀ i < n, m.pt.leaf space (va / frameSize + i) = none := by
  induction n generalizing va phys m with
  | zero => exact fun i hi => absurd hi (Nat.not_lt_zero i)
  | succ n ih =>
    intro i hi
    rw [mapRun] at h
    split at h
    · cases h
    · cases h
    next m₁ hr =>
      cases i with
      | zero => exact hused m va phys m₁ hr
      | succ i =>
        have hrest := ih (by rw [succ_page]; omega) h i (by omega)
        have hother := (hmap m va phys).other (l := space) (p := va / frameSize + (i + 1))
          (by omega) (.inr (by omega))
        rw [hr] at hother
        rw [← hother, ← hrest, succ_page]
        congr 1
        omega

/-- If `map` gives the page it maps a leaf of `Q`, a loop that gets to the end gives one to every page
of its run. -/
lemma mapRun_gives {Q : Set Leaf}
    (hmap : ∀ m va phys, MapsAtMost space (va / frameSize) (L phys) m (map m va phys).2)
    (hgives : ∀ m va phys m', map m va phys = (.done, m') →
      ∃ leaf ∈ Q, m'.pt.leaf space (va / frameSize) = some leaf)
    (hva : va / frameSize + n ≤ lowerHalfPages) (h : mapRun map n va phys m = (.done (), m')) :
    ∀ i < n, ∃ leaf ∈ Q, m'.pt.leaf space (va / frameSize + i) = some leaf := by
  induction n generalizing va phys m with
  | zero => exact fun i hi => absurd hi (Nat.not_lt_zero i)
  | succ n ih =>
    intro i hi
    rw [mapRun] at h
    split at h
    · cases h
    · cases h
    next m₁ hr =>
      cases i with
      | zero =>
        have hrest : (mapRun map n (va + frameSize) (phys + frameSize) m₁).2.pt.leaf space
            (va / frameSize + 0) = m₁.pt.leaf space (va / frameSize + 0) :=
          mapRun_other hmap (by omega) (.inr (.inl (by rw [succ_page]; omega)))
        rw [h] at hrest
        rw [hrest, Nat.add_zero]
        exact hgives m va phys m₁ hr
      | succ i =>
        have hrest := ih (by rw [succ_page]; omega) h i (by omega)
        rwa [succ_page, Nat.add_assoc, Nat.add_comm 1 i] at hrest

end MapRun

/-! ## Alignment -/

/-- The entries of all lower halves map whole frames. -/
def PageTables.Aligned (pt : PageTables) : Prop :=
  ∀ l p leaf, (pt.user l).leaves p = some leaf → frameSize ∣ leaf.phys

/-- Every mapping function rounds the physical address down. -/
lemma Mm.Builds.aligned {s : Scope} {m m' : Mm} {U V : Set ℕ} (h : Builds s m U m' V)
    (ha : m.pt.Aligned) : m'.pt.Aligned := by
  have hset : ∀ {pt : PageTables} {l4 page : ℕ} {t : TableTree}, pt.Aligned →
      (∀ p leaf, t.leaves p = some leaf →
        (pt.tree l4 page).leaves p = some leaf ∨ frameSize ∣ leaf.phys) →
      (pt.setTree l4 page t).Aligned := by
    intro pt l4 page t hpt ht l p leaf hleaf
    rw [PageTables.setTree] at hleaf
    rw [PageTables.tree] at ht
    split at hleaf
    next hpage =>
      rw [if_pos hpage] at ht
      by_cases hl : l = l4
      · subst hl
        dsimp only at hleaf
        rw [Function.update_self] at hleaf
        exact (ht p leaf hleaf).elim (hpt l p leaf) id
      · dsimp only at hleaf
        rw [Function.update_of_ne hl] at hleaf
        exact hpt l p leaf hleaf
    next => exact hpt l p leaf hleaf
  -- induction on how memory was built up; a tree is changed by a table or a leaf
  induction h with
  | refl => exact ha
  | bytes _ _ ih | leak _ _ ih => exact ih
  | alloc _ hal ih => rw [frameAlloc_pt hal]; exact ih
  | contiguous _ hn hal ih =>
    obtain ⟨rfl, rfl⟩ := Prod.mk.inj hal
    exact ih
  | @space m₁ m₂ V l4 _ hal hs ih =>
    rw [← frameAlloc_pt hal] at ih
    intro l p leaf hleaf
    by_cases hl : l = l4
    · subst hl
      simp [TableTree.empty, TableTree.setTable] at hleaf
    · dsimp only at hleaf
      rw [Function.update_of_ne hl] at hleaf
      exact ih l p leaf hleaf
  | table _ hal hs _ ih =>
    rw [← frameAlloc_pt hal] at ih
    exact hset ih fun p leaf hleaf => .inl hleaf
  | @leaf m₁ V W l4 page phys flags _ hs _ _ _ ih =>
    refine hset ih fun p leaf hleaf => ?_
    rw [TableTree.setLeaf] at hleaf
    by_cases hp : p = page
    · subst hp
      dsimp only at hleaf
      rw [Function.update_self] at hleaf
      obtain rfl := Option.some.inj hleaf
      exact .inr (frameSize_dvd_pageDown _)
    · dsimp only at hleaf
      rw [Function.update_of_ne hp] at hleaf
      exact .inl hleaf

/-! ## Reading back what was written -/

namespace Mm

variable {m : Mm} {l4 ptr : ℕ} {bytes : List UInt8}

lemma physOf_writeByte (m : Mm) (l4 va : ℕ) (b : UInt8) (l v : ℕ) :
    (m.writeByte l4 va b).physOf l v = m.physOf l v := by
  obtain ⟨mem, hmem⟩ := writeByte_eq m l4 va b
  rw [hmem]
  rfl

/-- Bytes that no address of the buffer leads to stay as they are. -/
lemma writeUser_mem_other {a : ℕ} (h : ∀ i < bytes.length, m.physOf l4 (ptr + i) ≠ some a) :
    (m.writeUser l4 ptr bytes).mem a = m.mem a := by
  induction bytes generalizing m ptr with
  | nil => rfl
  | cons b bytes ih =>
    rw [writeUser, ih]
    · have hne := h 0 (Nat.succ_pos _)
      rw [writeByte]
      cases hphys : m.physOf l4 ptr with
      | none => rfl
      | some x =>
        rw [Nat.add_zero, hphys] at hne
        exact Function.update_of_ne (fun heq => hne (by rw [heq])) _ _
    · intro i hi
      rw [physOf_writeByte, Nat.add_assoc, Nat.add_comm 1 i]
      exact h (i + 1) (Nat.succ_lt_succ hi)

/-- A mapped buffer whose addresses lead to different bytes reads back as written. -/
lemma readUser_writeUser (phys : ℕ → ℕ)
    (hmapped : ∀ i < bytes.length, m.physOf l4 (ptr + i) = some (phys i))
    (hinj : ∀ i < bytes.length, ∀ j < bytes.length, phys i = phys j → i = j) :
    (m.writeUser l4 ptr bytes).readUser l4 ptr bytes.length = bytes := by
  induction bytes generalizing m ptr phys with
  | nil => rfl
  | cons b bytes ih =>
    have hrest := @ih (m.writeByte l4 ptr b) (ptr + 1) (fun i => phys (i + 1))
      (fun i hi => by
        rw [physOf_writeByte, Nat.add_assoc, Nat.add_comm 1 i]
        exact hmapped (i + 1) (Nat.succ_lt_succ hi))
      (fun i hi j hj heq => Nat.succ.inj (hinj _ (Nat.succ_lt_succ hi) _ (Nat.succ_lt_succ hj) heq))
    have hpt : ∀ m' : Mm, m'.pt = m.pt → m'.physOf l4 ptr = some (phys 0) := by
      intro m' hm'
      rw [← hmapped 0 (Nat.succ_pos _), physOf, physOf, hm', Nat.add_zero]
    obtain ⟨mem, hmem⟩ := writeByte_eq m l4 ptr b
    obtain ⟨mem', hmem'⟩ := writeUser_eq (m.writeByte l4 ptr b) l4 (ptr + 1) bytes
    -- the first byte is written once, the others by the rest of the loop
    have hfirst : ((m.writeByte l4 ptr b).writeUser l4 (ptr + 1) bytes).readByte l4 ptr = b := by
      rw [readByte, hpt _ (by rw [hmem', hmem]), Option.elim_some, writeUser_mem_other]
      · rw [writeByte, hpt m rfl, Option.elim_some]
        exact Function.update_self ..
      · intro i hi heq
        rw [physOf_writeByte, Nat.add_assoc, Nat.add_comm 1 i,
          hmapped (i + 1) (Nat.succ_lt_succ hi)] at heq
        exact absurd (hinj _ (Nat.succ_lt_succ hi) _ (Nat.succ_pos _) (Option.some.inj heq))
          (Nat.succ_ne_zero i)
    rw [readUser, List.length_cons, List.range_succ_eq_map, List.map_cons, List.map_map, writeUser,
      show ptr + 0 = ptr from rfl, hfirst]
    congr 1
    rw [readUser] at hrest
    refine Eq.trans (List.map_congr_left fun i _ => ?_) hrest
    rw [Function.comp_apply, Nat.succ_eq_add_one, Nat.add_assoc ptr 1 i, Nat.add_comm 1 i]

/-- The walk of `user_range_ok` has seen every page of the range. -/
lemma userRangeWalk_ok {ok : ℕ → Bool} {last : ℕ} : ∀ {fuel page : ℕ},
    userRangeWalk ok last page fuel = true → ∀ j, page + j * frameSize < last + frameSize →
      ok (page + j * frameSize) = true := by
  intro fuel
  induction fuel with
  | zero => intro page h; cases h
  | succ fuel ih =>
    intro page h j hj
    rw [userRangeWalk] at h
    split at h
    next hok =>
      cases j with
      | zero => simpa using hok
      | succ j =>
        rw [Nat.succ_mul] at hj ⊢
        split at h
        · omega
        · have hnext := ih h j (by omega)
          rwa [show page + (j * frameSize + frameSize) = page + frameSize + j * frameSize by omega]
    next => cases h

/-- With enough iterations the walk succeeds if every page of the range is fine. -/
lemma userRangeWalk_of_ok {ok : ℕ → Bool} : ∀ {fuel d page : ℕ}, d < fuel →
    (∀ j ≤ d, ok (page + j * frameSize) = true) →
      userRangeWalk ok (page + d * frameSize) page fuel = true := by
  intro fuel
  induction fuel with
  | zero => exact fun hd _ => absurd hd (Nat.not_lt_zero _)
  | succ fuel ih =>
    intro d page hd hok
    have hpos := frameSize_pos
    have hfirst := hok 0 (Nat.zero_le d)
    rw [Nat.zero_mul, Nat.add_zero] at hfirst
    rw [userRangeWalk, if_pos hfirst]
    cases d with
    | zero => rw [if_pos (by omega)]
    | succ d =>
      have hlast : page + (d + 1) * frameSize = page + frameSize + d * frameSize := by
        rw [Nat.succ_mul]
        omega
      rw [if_neg (by omega), hlast]
      refine ih (by omega) fun j hj => ?_
      have hnext := hok (j + 1) (by omega)
      rwa [show page + (j + 1) * frameSize = page + frameSize + j * frameSize by
        rw [Nat.succ_mul]; omega] at hnext

/-- `user_range_ok` accepts a range if its last address fits a word and every page of it is mapped as
asked for. -/
lemma userRangeOk_iff {len : ℕ} {writable : Bool} (hlen : len ≠ 0) :
    m.userRangeOk l4 ptr len writable = true ↔ ptr + (len - 1) ≤ u64Max ∧
      ∀ i < len, m.userPageOk l4 writable (ptr + i) = true := by
  have hpage : ∀ va va', va / frameSize = va' / frameSize →
      m.userPageOk l4 writable va = m.userPageOk l4 writable va' := by
    intro va va' h
    rw [userPageOk, userPageOk, h]
  unfold userRangeOk
  rw [if_neg hlen]
  by_cases hword : u64Max < ptr + (len - 1)
  · rw [if_pos hword]
    exact iff_of_false (by simp) fun h => by omega
  · rw [if_neg hword]
    refine ⟨fun h => ⟨by omega, fun i hi => ?_⟩, fun h => ?_⟩
    · have hok := userRangeWalk_ok h ((ptr + i) / frameSize - ptr / frameSize) (by
        simp only [pageDown, frameSize]
        omega)
      rw [hpage _ (ptr + i)] at hok
      · exact hok
      · simp only [pageDown, frameSize]
        omega
    · -- the walk goes over whole pages, each of which holds an address of the range
      have hlast : pageDown (ptr + (len - 1)) = pageDown ptr +
          ((ptr + (len - 1)) / frameSize - ptr / frameSize) * frameSize := by
        simp only [pageDown, frameSize]
        omega
      dsimp only
      rw [hlast]
      refine userRangeWalk_of_ok ?_ fun j hj => ?_
      · simp only [pageDown, frameSize]
        omega
      · rw [hpage _ (ptr + min (len - 1) (pageDown ptr + j * frameSize - ptr))]
        · exact h.2 _ (by omega)
        · simp only [pageDown, frameSize] at hj ⊢
          omega

/-- Every address of a range that `user_range_ok` accepts is mapped. -/
lemma userRangeOk_leaf {len : ℕ} {writable : Bool} (h : m.userRangeOk l4 ptr len writable = true)
    {i : ℕ} (hi : i < len) : ∃ leaf, m.pt.leaf l4 ((ptr + i) / frameSize) = some leaf := by
  rw [userRangeOk, if_neg (by omega)] at h
  split at h
  · cases h
  · have hok := userRangeWalk_ok h ((ptr + i) / frameSize - ptr / frameSize) (by
      simp only [pageDown, frameSize]
      omega)
    have hpage : (pageDown ptr + ((ptr + i) / frameSize - ptr / frameSize) * frameSize) / frameSize =
        (ptr + i) / frameSize := by
      simp only [pageDown, frameSize]
      omega
    rw [userPageOk, hpage] at hok
    split at hok
    · cases hok
    next leaf hleaf => exact ⟨leaf, hleaf⟩

end Mm

end Xernel
