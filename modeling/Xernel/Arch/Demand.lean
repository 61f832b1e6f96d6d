import Mathlib.Algebra.Order.BigOperators.Group.List
import Mathlib.Data.Finset.Card
import Mathlib.Order.Interval.Finset.Nat
import Xernel.Arch.Leaves
import Xernel.Mm.Available
import Xernel.SpaceTheorems

/-!
# How many frames a mapping takes

Mapping a page takes a frame for each table that is missing on the path to it, and one for the page
itself where the page is to be a new one. For a set of pages the number is known beforehand: it is
`Mm.need`, whatever the order in which the pages are mapped. `Mm.Attempts` says that a loop over these
pages gets to the end exactly if all of them are empty and that many frames are available.
-/

namespace Xernel

namespace TableTree

variable {t t' : TableTree} {level page : ℕ} {levels : List ℕ} {S T : Finset ℕ}

/-- The tables of this level that are missing on the paths to the pages of `S`. -/
def missingAt (t : TableTree) (level : ℕ) (S : Finset ℕ) : Finset ℕ :=
  (S.image (· / 512 ^ level)).filter fun idx => t.tables level idx = none

/-- The number of tables of the given levels that are missing on the paths to the pages of `S`. -/
def missing (t : TableTree) (levels : List ℕ) (S : Finset ℕ) : ℕ :=
  (levels.map fun level => (t.missingAt level S).card).sum

/-- `t'` is `t` with the tables of the given levels on the paths to the pages of `S`. -/
def Reaches (t : TableTree) (levels : List ℕ) (S : Finset ℕ) (t' : TableTree) : Prop :=
  ∀ level ∈ levels, ∀ idx, t'.tables level idx = none ↔
    t.tables level idx = none ∧ idx ∉ S.image (· / 512 ^ level)

lemma missingAt_singleton (t : TableTree) (level page : ℕ) :
    (t.missingAt level {page}).card = if t.tables level (page / 512 ^ level) = none then 1 else 0 := by
  unfold missingAt
  rw [Finset.image_singleton, Finset.filter_singleton]
  split <;> rfl

/-- The tables that are missing on the paths to `T` once those on the paths to `S` are there. -/
lemma missingAt_union (h : t.Reaches levels S t') (hlevel : level ∈ levels) :
    (t.missingAt level (S ∪ T)).card = (t.missingAt level S).card + (t'.missingAt level T).card := by
  have hdisj : Disjoint (t.missingAt level S) (t'.missingAt level T) := by
    refine Finset.disjoint_left.mpr fun idx hS hT => ?_
    exact ((h level hlevel idx).mp (Finset.mem_filter.mp hT).2).2 (Finset.mem_filter.mp hS).1
  rw [← Finset.card_union_of_disjoint hdisj]
  congr 1
  ext idx
  unfold missingAt
  rw [Finset.mem_union, Finset.mem_filter, Finset.mem_filter, Finset.mem_filter, h level hlevel,
    Finset.image_union, Finset.mem_union]
  by_cases hS : idx ∈ S.image (· / 512 ^ level)
  · simp [hS]
  · simp [hS]

lemma missing_union (h : t.Reaches levels S t') :
    t.missing levels (S ∪ T) = t.missing levels S + t'.missing levels T := by
  unfold missing
  rw [← List.sum_map_add]
  congr 1
  exact List.map_congr_left fun level hlevel => missingAt_union h hlevel

lemma missing_mono (t : TableTree) (levels : List ℕ) (h : S ⊆ T) :
    t.missing levels S ≤ t.missing levels T := by
  unfold missing
  refine List.sum_le_sum fun level _ => Finset.card_le_card ?_
  exact Finset.filter_subset_filter _ (Finset.image_subset_image h)

lemma Reaches.trans {t'' : TableTree} (h : t.Reaches levels S t') (h' : t'.Reaches levels T t'') :
    t.Reaches levels (S ∪ T) t'' := by
  intro level hlevel idx
  rw [h' level hlevel, h level hlevel, Finset.image_union, Finset.mem_union]
  tauto

end TableTree

namespace Mm

variable {m m' m'' : Mm} {l4 page space c : ℕ} {S T : Finset ℕ} {ok ok' : Prop}

/-! ## Taking frames -/

/-- From `m` to `m'`, `n` frames were taken. -/
structure TakesFrames (m m' : Mm) (n : ℕ) : Prop where
  available : m'.frames.available + n = m.frames.available
  inUse : m'.frames.inUse = m.frames.inUse + n

lemma TakesFrames.refl (m : Mm) : m.TakesFrames m 0 := ⟨rfl, rfl⟩

lemma TakesFrames.trans {n n' : ℕ} (h : m.TakesFrames m' n) (h' : m'.TakesFrames m'' n') :
    m.TakesFrames m'' (n + n') :=
  ⟨by rw [← h.available, ← h'.available]; omega, by rw [h'.inUse, h.inUse]; omega⟩

lemma frameAlloc_some {frame : ℕ} (h : m.frameAlloc = (some frame, m')) : m.TakesFrames m' 1 := by
  obtain ⟨hgot, rfl⟩ := Prod.mk.inj h
  obtain ⟨-, -, hsome⟩ := PhysFrameAllocator.alloc_spec m.frames
  obtain ⟨havail, huse⟩ := hsome (by rw [hgot]; simp)
  exact ⟨havail, huse⟩

lemma frameAlloc_none (h : m.frameAlloc = (none, m')) :
    m.frames.available = 0 ∧ m.TakesFrames m' 0 := by
  obtain ⟨hgot, rfl⟩ := Prod.mk.inj h
  obtain ⟨hiff, hnone, -⟩ := PhysFrameAllocator.alloc_spec m.frames
  obtain ⟨havail, huse⟩ := hnone hgot
  exact ⟨hiff.mp hgot, by rw [Nat.add_zero, hiff.mp hgot]; exact havail, huse⟩

/-- Building up memory gives no frame back. -/
lemma Builds.inUse_le {s : Scope} {U V : Set ℕ} (h : Builds s m U m' V) :
    m.frames.inUse ≤ m'.frames.inUse := by
  have halloc : ∀ {m₁ m₂ : Mm} {got : Option ℕ}, m₁.frameAlloc = (got, m₂) →
      m₁.frames.inUse ≤ m₂.frames.inUse := by
    intro m₁ m₂ got ha
    cases got with
    | none => exact le_of_eq (frameAlloc_none ha).2.inUse.symm
    | some frame =>
      rw [(frameAlloc_some ha).inUse]
      omega
  induction h with
  | refl => exact le_rfl
  | bytes _ _ ih | leak _ _ ih | leaf _ _ _ _ _ ih => exact ih
  | alloc _ ha ih => exact ih.trans (halloc ha)
  | space _ ha _ ih | table _ ha _ _ ih =>
    have hnext := ih.trans (halloc ha)
    exact hnext
  | @contiguous m₁ m₂ V n got _ hn ha ih =>
    obtain ⟨-, rfl⟩ := Prod.mk.inj ha
    refine ih.trans ?_
    show m₁.frames.inUse ≤ (m₁.frames.allocContiguous n).2.inUse
    unfold PhysFrameAllocator.allocContiguous
    split
    · exact le_rfl
    next hne =>
      rw [(PhysFrameAllocator.bump_rooms (Nat.pos_of_ne_zero hne) _ m₁.frames le_rfl).2.2.2]
      omega

/-! ## The tables on the path to a page -/

/-- Making one table takes a frame if the table is missing. -/
lemma createNextTable_spec (m : Mm) (l4 page level : ℕ) :
    (∃ m', m.createNextTable l4 page level = (true, m') ∧
      m.TakesFrames m' ((m.pt.tree l4 page).missingAt level {page}).card ∧
      (∀ l idx, (m'.pt.tree l4 page).tables l idx = none ↔
        (m.pt.tree l4 page).tables l idx = none ∧ ¬ (l = level ∧ idx = page / 512 ^ level))) ∨
    (∃ m', m.createNextTable l4 page level = (false, m') ∧
      m.frames.available < ((m.pt.tree l4 page).missingAt level {page}).card) := by
  unfold createNextTable
  rw [TableTree.missingAt_singleton]
  dsimp only
  cases htable : (m.pt.tree l4 page).tables level (page / 512 ^ level) with
  | some frame =>
    refine .inl ⟨m, rfl, ?_, fun l idx => ?_⟩
    · rw [if_neg (by simp)]
      exact .refl m
    · refine ⟨fun h => ⟨h, ?_⟩, And.left⟩
      rintro ⟨rfl, rfl⟩
      rw [htable] at h
      cases h
  | none =>
    dsimp only
    rw [if_pos rfl]
    cases ha : m.frameAlloc with
    | mk got m₁ =>
      cases got with
      | none => exact .inr ⟨m₁, rfl, by rw [(frameAlloc_none ha).1]; exact Nat.one_pos⟩
      | some frame =>
        refine .inl ⟨_, rfl, ⟨(frameAlloc_some ha).available, (frameAlloc_some ha).inUse⟩,
          fun l idx => ?_⟩
        rw [PageTables.tree_setTree, Builds.frameAlloc_pt ha]
        dsimp only [TableTree.setTable]
        by_cases hat : l = level ∧ idx = page / 512 ^ level
        · simp [hat]
        · simp [hat]

/-- So does making the tables of several levels. -/
lemma createTables_spec (l4 page : ℕ) :
    ∀ (levels : List ℕ) (m : Mm), levels.Nodup →
    (∃ m', createTables l4 page levels m = (true, m') ∧
      m.TakesFrames m' ((m.pt.tree l4 page).missing levels {page}) ∧
      (∀ l idx, (m'.pt.tree l4 page).tables l idx = none ↔
        (m.pt.tree l4 page).tables l idx = none ∧ ¬ (l ∈ levels ∧ idx = page / 512 ^ l))) ∨
    (∃ m', createTables l4 page levels m = (false, m') ∧
      m.frames.available < (m.pt.tree l4 page).missing levels {page}) := by
  intro levels
  induction levels with
  | nil =>
    intro m _
    exact .inl ⟨m, rfl, .refl m, fun l idx => by simp⟩
  | cons level levels ih =>
    intro m hnodup
    obtain ⟨hnot, hnodup⟩ := List.nodup_cons.mp hnodup
    have hsum : (m.pt.tree l4 page).missing (level :: levels) {page} =
        ((m.pt.tree l4 page).missingAt level {page}).card +
          (m.pt.tree l4 page).missing levels {page} := rfl
    unfold createTables
    rcases createNextTable_spec m l4 page level with
      ⟨m₁, heq, htakes, htables⟩ | ⟨m₁, heq, hshort⟩
    · rw [heq]
      dsimp only
      -- the tables of the other levels are not touched
      have hmissing : (m₁.pt.tree l4 page).missing levels {page} =
          (m.pt.tree l4 page).missing levels {page} := by
        unfold TableTree.missing
        congr 1
        refine List.map_congr_left fun l hl => ?_
        have hne : l ≠ level := by
          rintro rfl
          exact hnot hl
        rw [TableTree.missingAt_singleton, TableTree.missingAt_singleton]
        simp only [htables, hne, false_and, not_false_eq_true, and_true]
      rcases ih m₁ hnodup with ⟨m₂, heq₂, htakes₂, htables₂⟩ | ⟨m₂, heq₂, hshort⟩
      · refine .inl ⟨m₂, heq₂, ?_, fun l idx => ?_⟩
        · rw [hsum, ← hmissing]
          exact htakes.trans htakes₂
        · rw [htables₂, htables, List.mem_cons]
          by_cases hl : l = level
          · subst hl
            simp only [true_and, true_or]
            tauto
          · simp only [hl, false_and, not_false_eq_true, and_true, false_or]
      · refine .inr ⟨m₂, heq₂, ?_⟩
        rw [hmissing] at hshort
        have havail := htakes.available
        omega
    · rw [heq]
      exact .inr ⟨m₁, rfl, by omega⟩

/-- Whether a page of either half can be mapped is decided by the state before. -/
lemma mapTo_eq_none_iff (m : Mm) (l4 page : ℕ) (leaf : Leaf) :
    (m.mapTo l4 page leaf).1 = none ↔ m.pt.leaf l4 page = none ∧
      (m.pt.tree l4 page).missing [3, 2, 1] {page} ≤ m.frames.available := by
  have hleaf := createTables_leaf l4 page [3, 2, 1] m
  unfold mapTo
  rcases createTables_spec l4 page [3, 2, 1] m (by decide) with
    ⟨m₁, heq, htakes, -⟩ | ⟨m₁, heq, hshort⟩
  · have havail := htakes.available
    rw [heq] at hleaf ⊢
    dsimp only at hleaf ⊢
    rw [hleaf]
    cases m.pt.leaf l4 page with
    | some old => exact iff_of_false (by simp) fun h => by cases h.1
    | none => exact iff_of_true rfl ⟨rfl, by omega⟩
  · rw [heq]
    exact iff_of_false (by simp) fun h => by omega

/-! ## Sets of pages -/

/-- The number of tables that are missing in space `space` on the paths to the pages of `S`. -/
def missingTables (m : Mm) (space : ℕ) (S : Finset ℕ) : ℕ := (m.pt.user space).missing [3, 2, 1] S

/-- The number of frames it takes to map the pages of `S`, with `c` frames for each page besides
those for the tables. -/
def need (m : Mm) (space c : ℕ) (S : Finset ℕ) : ℕ := c * S.card + m.missingTables space S

/-- From `m` to `m'` the pages of `S` were mapped. -/
structure Fills (m m' : Mm) (space c : ℕ) (S : Finset ℕ) : Prop where
  takes : m.TakesFrames m' (m.need space c S)
  tables : (m.pt.user space).Reaches [3, 2, 1] S (m'.pt.user space)
  others : ∀ p < lowerHalfPages, p ∉ S → m'.pt.leaf space p = m.pt.leaf space p

/-- Mapping the pages of `S` succeeded, and they were all empty; or it failed, and one of them was in
use or the frames did not suffice. -/
def Attempts (m m' : Mm) (space c : ℕ) (S : Finset ℕ) (ok : Prop) : Prop :=
  ok ∧ (∀ p ∈ S, m.pt.leaf space p = none) ∧ m.Fills m' space c S ∨
  ¬ ok ∧ ((∃ p ∈ S, m.pt.leaf space p ≠ none) ∨ m.frames.available < m.need space c S)

lemma Fills.need_union (h : m.Fills m' space c S) (hdisj : Disjoint S T) :
    m.need space c (S ∪ T) = m.need space c S + m'.need space c T := by
  unfold need missingTables
  rw [TableTree.missing_union h.tables, Finset.card_union_of_disjoint hdisj, Nat.mul_add]
  omega

lemma Fills.trans (h : m.Fills m' space c S) (h' : m'.Fills m'' space c T) (hdisj : Disjoint S T) :
    m.Fills m'' space c (S ∪ T) where
  takes := by
    rw [h.need_union hdisj]
    exact h.takes.trans h'.takes
  tables := h.tables.trans h'.tables
  others p hp hnot := by
    rw [Finset.mem_union, not_or] at hnot
    rw [h'.others p hp hnot.2, h.others p hp hnot.1]

/-- More pages take at least as many frames. -/
lemma need_mono (m : Mm) (space c : ℕ) (h : S ⊆ T) : m.need space c S ≤ m.need space c T := by
  exact Nat.add_le_add (Nat.mul_le_mul_left c (Finset.card_le_card h)) (TableTree.missing_mono _ _ h)

/-- Success is decided by the state before. -/
lemma Attempts.iff (h : m.Attempts m' space c S ok) :
    ok ↔ (∀ p ∈ S, m.pt.leaf space p = none) ∧ m.need space c S ≤ m.frames.available := by
  rcases h with ⟨hok, hempty, hfills⟩ | ⟨hnot, hused | hshort⟩
  · refine iff_of_true hok ⟨hempty, ?_⟩
    have havail := hfills.takes.available
    omega
  · obtain ⟨p, hp, hused⟩ := hused
    exact iff_of_false hnot fun h => hused (h.1 p hp)
  · exact iff_of_false hnot fun h => absurd h.2 (Nat.not_le.mpr hshort)

lemma Attempts.fills (h : m.Attempts m' space c S ok) (hok : ok) : m.Fills m' space c S := by
  rcases h with ⟨-, -, hfills⟩ | ⟨hnot, -⟩
  · exact hfills
  · exact absurd hok hnot

lemma Attempts.empty (h : m.Attempts m' space c S ok) (hok : ok) :
    ∀ p ∈ S, m.pt.leaf space p = none := (h.iff.mp hok).1

/-- No page takes no frame. -/
lemma Attempts.nothing (hok : ok) : m.Attempts m space c ∅ ok := by
  refine .inl ⟨hok, fun p hp => absurd hp (Finset.notMem_empty p), ⟨rfl, rfl⟩, ?_, fun _ _ _ => rfl⟩
  intro level _ idx
  simp

/-- Frames and page tables are all that counts. -/
lemma Attempts.of_eq (h : m'.Attempts m'' space c S ok) (hframes : m'.frames = m.frames)
    (hpt : m'.pt = m.pt) : m.Attempts m'' space c S ok := by
  have hneed : m'.need space c S = m.need space c S := by
    unfold need missingTables
    rw [hpt]
  unfold Attempts at h ⊢
  rw [← hframes, ← hpt, ← hneed]
  rcases h with ⟨hok, hempty, hfills⟩ | hnot
  swap
  · exact .inr hnot
  refine .inl ⟨hok, hempty, ⟨?_, ?_⟩, ?_, ?_⟩
  · rw [← hneed, ← hframes]
    exact hfills.takes.available
  · rw [← hneed, ← hframes]
    exact hfills.takes.inUse
  · rw [← hpt]
    exact hfills.tables
  · rw [← hpt]
    exact hfills.others

/-- The order of work: first the pages of `S`, and only if that succeeded those of `T`. -/
lemma Attempts.next (h : m.Attempts m' space c S ok) (hdisj : Disjoint S T)
    (hlower : ∀ p ∈ T, p < lowerHalfPages) (hnext : ok → m'.Attempts m'' space c T ok')
    (hstop : ¬ ok → ¬ ok') : m.Attempts m'' space c (S ∪ T) ok' := by
  rcases h with ⟨hok, hempty, hfills⟩ | ⟨hnot, hwhy⟩
  · have hsame : ∀ p ∈ T, m'.pt.leaf space p = m.pt.leaf space p := fun p hp =>
      hfills.others p (hlower p hp) (Finset.disjoint_right.mp hdisj hp)
    have havail := hfills.takes.available
    rcases hnext hok with ⟨hok', hempty', hfills'⟩ | ⟨hnot', hwhy'⟩
    · refine .inl ⟨hok', fun p hp => ?_, hfills.trans hfills' hdisj⟩
      rcases Finset.mem_union.mp hp with hp | hp
      · exact hempty p hp
      · rw [← hsame p hp]
        exact hempty' p hp
    · refine .inr ⟨hnot', ?_⟩
      rcases hwhy' with ⟨p, hp, hused⟩ | hshort
      · refine .inl ⟨p, Finset.mem_union_right S hp, ?_⟩
        rw [← hsame p hp]
        exact hused
      · rw [hfills.need_union hdisj]
        exact .inr (by omega)
  · refine .inr ⟨hstop hnot, ?_⟩
    rcases hwhy with ⟨p, hp, hused⟩ | hshort
    · exact .inl ⟨p, Finset.mem_union_left T hp, hused⟩
    · exact .inr (lt_of_lt_of_le hshort (m.need_mono space c Finset.subset_union_left))

/-! ## One page -/

lemma mapTo_attempts (leaf : Leaf) (hpage : page < lowerHalfPages) :
    m.Attempts (m.mapTo l4 page leaf).2 l4 0 {page} ((m.mapTo l4 page leaf).1 = none) := by
  have hneed : m.need l4 0 {page} = (m.pt.user l4).missing [3, 2, 1] {page} := by
    unfold need missingTables
    omega
  have hleaf := createTables_leaf l4 page [3, 2, 1] m
  have htree : ∀ m : Mm, m.pt.tree l4 page = m.pt.user l4 := fun m => if_pos hpage
  have hspec := createTables_spec l4 page [3, 2, 1] m (by decide)
  simp only [htree] at hspec
  unfold mapTo
  rcases hspec with ⟨m₁, heq, htakes, htables⟩ | ⟨m₁, heq, hshort⟩
  · rw [heq] at hleaf ⊢
    dsimp only at hleaf ⊢
    rw [hleaf]
    cases hold : m.pt.leaf l4 page with
    | some old =>
      refine .inr ⟨by simp, .inl ⟨page, Finset.mem_singleton_self page, ?_⟩⟩
      rw [hold]
      simp
    | none =>
      refine .inl ⟨rfl, ?_, ?_, fun level hlevel idx => ?_, fun p hp hne => ?_⟩
      · intro p hp
        rw [Finset.mem_singleton.mp hp, hold]
      · rw [hneed]
        exact ⟨htakes.available, htakes.inUse⟩
      · dsimp only [PageTables.setTree, PageTables.tree]
        rw [if_pos hpage, if_pos hpage]
        dsimp only
        rw [Function.update_self, Finset.image_singleton, Finset.mem_singleton]
        have hiff := htables level idx
        simp only [hlevel, true_and] at hiff
        exact hiff
      · dsimp only
        rw [PageTables.leaf_setLeaf, setLeafAt_lower hpage, if_neg, hleaf]
        exact fun h => hne (Finset.mem_singleton.mpr h.2)
  · rw [heq]
    exact .inr ⟨by simp, .inr (by rw [hneed]; exact hshort)⟩

variable {virt phys : ℕ} {flags : PageFlags}

lemma page_lower (h : virt < 2 ^ 47) : virt / frameSize < lowerHalfPages := by
  simp only [frameSize, lowerHalfPages]
  omega

lemma mapWithFlags_attempts (hvirt : virt < 2 ^ 47) :
    m.Attempts (m.mapWithFlags l4 virt phys flags).2 l4 0 {virt / frameSize}
      ((m.mapWithFlags l4 virt phys flags).1 = .done) := by
  have hmap : m.Attempts (m.mapTo l4 (virt / frameSize) { phys := pageDown phys, flags }).2 l4 0
      {virt / frameSize} _ := mapTo_attempts _ (page_lower hvirt)
  unfold mapWithFlags
  rw [if_pos (canonical_of_lt hvirt)]
  cases hr : m.mapTo l4 (virt / frameSize) { phys := pageDown phys, flags } with
  | mk e m₁ =>
    rw [hr] at hmap
    cases e with
    | none => simpa using hmap
    | some e => simpa using hmap

/-- A fresh page takes a frame more. -/
lemma allocMapUser_attempts {writable executable : Bool} (hvirt : virt < 2 ^ 47) :
    m.Attempts (m.allocMapUser l4 virt writable executable).2 l4 1 {virt / frameSize}
      ((m.allocMapUser l4 virt writable executable).1 = .done) := by
  have hneed : ∀ m : Mm, m.need l4 1 {virt / frameSize} = 1 + m.need l4 0 {virt / frameSize} := by
    intro m
    unfold need
    rw [Finset.card_singleton]
    omega
  unfold allocMapUser
  cases ha : m.frameAlloc with
  | mk got m₁ =>
    cases got with
    | none =>
      refine .inr ⟨by simp, .inr ?_⟩
      rw [(frameAlloc_none ha).1, hneed]
      omega
    | some phys =>
      -- the frame of the page itself is taken first; zeroing it changes no table
      have htakes := frameAlloc_some ha
      have hpt := Builds.frameAlloc_pt ha
      have hsame : m₁.need l4 0 {virt / frameSize} = m.need l4 0 {virt / frameSize} := by
        unfold need missingTables
        rw [hpt]
      have hmap : (m₁.zero phys frameSize).Attempts
          ((m₁.zero phys frameSize).mapWithFlags l4 virt phys (userFlags writable executable)).2
          l4 0 {virt / frameSize} _ := mapWithFlags_attempts hvirt
      rcases hmap with ⟨hok, hempty, hfills⟩ | ⟨hnot, hwhy⟩
      · refine .inl ⟨hok, ?_, ?_, ?_, ?_⟩
        · rw [← hpt]
          exact hempty
        · rw [hneed, ← hsame]
          exact htakes.trans ⟨hfills.takes.available, hfills.takes.inUse⟩
        · rw [← hpt]
          exact hfills.tables
        · rw [← hpt]
          exact hfills.others
      · refine .inr ⟨hnot, hwhy.imp ?_ ?_⟩
        · rw [← hpt]
          exact id
        · intro hshort
          have havail := htakes.available
          have hshort : m₁.frames.available < m₁.need l4 0 {virt / frameSize} := hshort
          rw [hneed, ← hsame]
          omega

lemma mapWithFlags_inUse_le (m : Mm) (l4 virt phys : ℕ) (flags : PageFlags) :
    m.frames.inUse ≤ (m.mapWithFlags l4 virt phys flags).2.frames.inUse := by
  have hbuilds : Builds ⟨.univ, .univ, .univ⟩ m ∅ (m.mapWithFlags l4 virt phys flags).2 ∅ :=
    mapWithFlags_builds le_rfl (fun _ => trivial) fun _ _ => ⟨trivial, .inl trivial⟩
  exact hbuilds.inUse_le

/-- A fresh page takes at least one frame, if there is one. -/
lemma allocMapUser_inUse (m : Mm) (l4 virt : ℕ) (writable executable : Bool) :
    m.frames.inUse ≤ (m.allocMapUser l4 virt writable executable).2.frames.inUse ∧
      (m.frames.available ≠ 0 →
        m.frames.inUse < (m.allocMapUser l4 virt writable executable).2.frames.inUse) := by
  unfold allocMapUser
  cases ha : m.frameAlloc with
  | mk got m₁ =>
    cases got with
    | none =>
      obtain ⟨hnone, htakes⟩ := frameAlloc_none ha
      exact ⟨le_of_eq htakes.inUse.symm, fun h => absurd hnone h⟩
    | some frame =>
      have huse : (m₁.zero frame frameSize).frames.inUse = m.frames.inUse + 1 :=
        (frameAlloc_some ha).inUse
      have hle := mapWithFlags_inUse_le (m₁.zero frame frameSize) l4 virt frame
        (userFlags writable executable)
      have hlt : m.frames.inUse <
          ((m₁.zero frame frameSize).mapUser l4 virt frame writable executable).2.frames.inUse :=
        lt_of_lt_of_le (by rw [huse]; exact Nat.lt_succ_self _) hle
      exact ⟨hlt.le, fun _ => hlt⟩

/-- The entry of the page that `alloc_map_user` has mapped. -/
lemma allocMapUser_done {writable executable : Bool}
    (h : m.allocMapUser l4 virt writable executable = (.done, m')) :
    ∃ phys, m'.pt.leaf l4 (virt / frameSize) = some { phys, flags := userFlags writable executable } := by
  unfold allocMapUser at h
  split at h
  · cases h
  next phys m₁ ha =>
    rw [mapUser_eq] at h
    rcases mapWithFlags_leaf (m₁.zero phys frameSize) l4 virt phys (userFlags writable executable) with
      ⟨-, -, hset⟩ | ⟨hnot, -⟩
    · rw [h] at hset
      refine ⟨pageDown phys, ?_⟩
      rw [hset, setLeafAt, if_pos ⟨rfl, rfl⟩]
    · rw [h] at hnot
      exact absurd rfl hnot

/-- Without a frame it fails, and with one it panics at an address that is not canonical. -/
lemma allocMapUser_cases (m : Mm) (l4 virt : ℕ) (writable executable : Bool) :
    (m.frames.available = 0 ∧
      ∃ e, (m.allocMapUser l4 virt writable executable).1 = .failed e) ∨
    (m.frames.available ≠ 0 ∧ canonical virt = false ∧
      (m.allocMapUser l4 virt writable executable).1 = .panic) ∨
    (m.frames.available ≠ 0 ∧ canonical virt = true ∧
      (m.allocMapUser l4 virt writable executable).1 ≠ .panic) := by
  unfold allocMapUser
  cases ha : m.frameAlloc with
  | mk got m₁ =>
    cases got with
    | none => exact .inl ⟨(frameAlloc_none ha).1, _, rfl⟩
    | some phys =>
      have havail := (frameAlloc_some ha).available
      have hframe : m.frames.available ≠ 0 := by omega
      dsimp only
      rw [mapUser_eq, mapWithFlags]
      cases hcan : canonical virt with
      | false => exact .inr (.inl ⟨hframe, rfl, rfl⟩)
      | true =>
        refine .inr (.inr ⟨hframe, rfl, ?_⟩)
        rw [if_pos rfl]
        split <;> simp

/-- If it maps nothing it changes no entry. -/
lemma allocMapUser_not_done {writable executable : Bool}
    (h : (m.allocMapUser l4 virt writable executable).1 ≠ .done) :
    (m.allocMapUser l4 virt writable executable).2.pt.leaf = m.pt.leaf := by
  unfold allocMapUser at h ⊢
  cases ha : m.frameAlloc with
  | mk got m₁ =>
    rw [ha] at h
    cases got with
    | none => exact frameAlloc_leaf ha
    | some phys =>
      dsimp only at h ⊢
      rw [mapUser_eq] at h ⊢
      rw [← frameAlloc_leaf ha]
      rcases mapWithFlags_leaf (m₁.zero phys frameSize) l4 virt phys (userFlags writable executable)
        with ⟨hdone, -, -⟩ | ⟨-, hsame⟩
      · exact absurd hdone h
      · exact hsame

/-- Whether it maps its page, in either half. -/
lemma allocMapUser_done_iff {writable executable : Bool} (hcan : canonical virt = true) :
    (m.allocMapUser l4 virt writable executable).1 = .done ↔
      m.pt.leaf l4 (virt / frameSize) = none ∧
        1 + (m.pt.tree l4 (virt / frameSize)).missing [3, 2, 1] {virt / frameSize} ≤
          m.frames.available := by
  unfold allocMapUser
  cases ha : m.frameAlloc with
  | mk got m₁ =>
    cases got with
    | none =>
      have hnone := (frameAlloc_none ha).1
      exact iff_of_false (by simp) fun h => by omega
    | some phys =>
      have havail := (frameAlloc_some ha).available
      have hmap := mapTo_eq_none_iff (m₁.zero phys frameSize) l4 (virt / frameSize)
        { phys := pageDown phys, flags := userFlags writable executable }
      have hpt : m₁.pt = m.pt := Builds.frameAlloc_pt ha
      have hzero : (m₁.zero phys frameSize).pt = m₁.pt := rfl
      have hframes : (m₁.zero phys frameSize).frames = m₁.frames := rfl
      rw [hzero, hpt, hframes] at hmap
      have hle : (m.pt.tree l4 (virt / frameSize)).missing [3, 2, 1] {virt / frameSize} ≤
          m₁.frames.available ↔ 1 + (m.pt.tree l4 (virt / frameSize)).missing [3, 2, 1]
            {virt / frameSize} ≤ m.frames.available := by omega
      dsimp only
      rw [mapUser_eq, mapWithFlags, if_pos hcan, ← hle, ← hmap]
      cases (m₁.zero phys frameSize).mapTo l4 (virt / frameSize)
          { phys := pageDown phys, flags := userFlags writable executable } with
      | mk e m₂ => cases e <;> simp

/-! ## Frames that are refused -/

/-- How often `frame::alloc` has found no frame. -/
def refusals (m : Mm) : ℕ := m.calls.count (.alloc none)

lemma frameAlloc_refusals {got : Option ℕ} (h : m.frameAlloc = (got, m')) :
    m'.refusals = m.refusals + if got = none then 1 else 0 := by
  obtain ⟨rfl, rfl⟩ := Prod.mk.inj h
  unfold refusals
  rw [List.count_append, List.count_singleton]
  simp

/-- Tables are made, or a frame was refused. -/
lemma createTables_refusals (l4 page : ℕ) : ∀ (levels : List ℕ) (m : Mm),
    m.refusals ≤ (createTables l4 page levels m).2.refusals ∧
    ((createTables l4 page levels m).1 = false →
      m.refusals < (createTables l4 page levels m).2.refusals) := by
  intro levels
  induction levels with
  | nil => exact fun m => ⟨le_rfl, fun h => by cases h⟩
  | cons level levels ih =>
    intro m
    unfold createTables createNextTable
    dsimp only
    cases (m.pt.tree l4 page).tables level (page / 512 ^ level) with
    | some frame => exact ih m
    | none =>
      dsimp only
      cases ha : m.frameAlloc with
      | mk got m₁ =>
        have hcount := frameAlloc_refusals ha
        cases got with
        | none =>
          rw [if_pos rfl] at hcount
          exact ⟨by dsimp only; omega, fun _ => by dsimp only; omega⟩
        | some frame =>
          rw [if_neg (by simp), Nat.add_zero] at hcount
          rw [← hcount]
          exact ih { m₁ with
            pt := m₁.pt.setTree l4 page ((m₁.pt.tree l4 page).setTable level _ frame) }

/-- What can stop `alloc_map_user` if it is refused no frame: an address that is not canonical, or a
page in use. -/
lemma allocMapUser_refusals (m : Mm) (l4 virt : ℕ) (writable executable : Bool) :
    m.refusals ≤ (m.allocMapUser l4 virt writable executable).2.refusals ∧
    ((m.allocMapUser l4 virt writable executable).2.refusals = m.refusals →
      (canonical virt = true ∧ m.pt.leaf l4 (virt / frameSize) = none ∧
        (m.allocMapUser l4 virt writable executable).1 = .done) ∨
      (canonical virt = true ∧ m.pt.leaf l4 (virt / frameSize) ≠ none ∧
        ∃ e, (m.allocMapUser l4 virt writable executable).1 = .failed e) ∨
      (canonical virt = false ∧ (m.allocMapUser l4 virt writable executable).1 = .panic)) := by
  unfold allocMapUser
  cases ha : m.frameAlloc with
  | mk got m₁ =>
    have hcount := frameAlloc_refusals ha
    cases got with
    | none =>
      rw [if_pos rfl] at hcount
      exact ⟨by dsimp only; omega, fun h => by dsimp only at h; omega⟩
    | some phys =>
      rw [if_neg (by simp), Nat.add_zero] at hcount
      have hleaf := frameAlloc_leaf ha
      dsimp only
      unfold mapUser mapWithFlags
      cases hcan : canonical virt with
      | false =>
        rw [if_neg (by simp)]
        refine ⟨?_, fun _ => .inr (.inr ⟨rfl, rfl⟩)⟩
        rw [← hcount]
        exact le_rfl
      | true =>
        rw [if_pos rfl]
        obtain ⟨hle, hfalse⟩ := createTables_refusals l4 (virt / frameSize) [3, 2, 1]
          (m₁.zero phys frameSize)
        have hsame := createTables_leaf l4 (virt / frameSize) [3, 2, 1] (m₁.zero phys frameSize)
        have hzero : (m₁.zero phys frameSize).refusals = m.refusals := hcount
        unfold mapTo
        cases hr : createTables l4 (virt / frameSize) [3, 2, 1] (m₁.zero phys frameSize) with
        | mk ok m₂ =>
          rw [hr, hzero] at hle hfalse
          rw [hr] at hsame
          cases ok with
          | false =>
            have hlt := hfalse rfl
            exact ⟨hle, fun h => absurd h (Nat.ne_of_gt hlt)⟩
          | true =>
            have hold : m₂.pt.leaf l4 (virt / frameSize) = m.pt.leaf l4 (virt / frameSize) := by
              rw [← hleaf]
              exact congrFun (congrFun hsame _) _
            dsimp only
            rw [hold]
            cases m.pt.leaf l4 (virt / frameSize) with
            | none => exact ⟨hle, fun _ => .inl ⟨rfl, rfl, rfl⟩⟩
            | some old => exact ⟨hle, fun _ => .inr (.inl ⟨rfl, by simp, _, rfl⟩)⟩

end Mm

/-! ## A run of pages -/

section MapRun

open Mm

variable {map : Mm → ℕ → ℕ → MapOutcome × Mm} {space c n va phys : ℕ} {m : Mm}

lemma Ico_page_succ (p n : ℕ) : Finset.Ico p (p + (n + 1)) = {p} ∪ Finset.Ico (p + 1) (p + 1 + n) := by
  ext x
  simp only [Finset.mem_Ico, Finset.mem_union, Finset.mem_singleton]
  omega

/-- The loop over a run of pages gets to the end if they are all empty and the frames suffice. -/
lemma mapRun_attempts
    (hmap : ∀ (m : Mm) (va phys : ℕ), va < 2 ^ 47 →
      m.Attempts (map m va phys).2 space c {va / frameSize} ((map m va phys).1 = .done))
    (hva : va + n * frameSize ≤ 2 ^ 47) :
    m.Attempts (mapRun map n va phys m).2 space c (Finset.Ico (va / frameSize) (va / frameSize + n))
      ((mapRun map n va phys m).1 = .done ()) := by
  induction n generalizing va phys m with
  | zero =>
    rw [Nat.add_zero, Finset.Ico_self]
    exact .nothing rfl
  | succ n ih =>
    have hsize : (n + 1) * frameSize = n * frameSize + frameSize := Nat.succ_mul _ _
    have hpos := frameSize_pos
    have hfirst := hmap m va phys (by omega)
    rw [Ico_page_succ]
    refine hfirst.next ?_ ?_ (fun hok => ?_) (fun hnot => ?_)
    · exact Finset.disjoint_singleton_left.mpr (by simp)
    · intro p hp
      have hlast := (Finset.mem_Ico.mp hp).2
      simp only [frameSize, lowerHalfPages] at hva hlast ⊢
      omega
    · have hrun : mapRun map (n + 1) va phys m =
          mapRun map n (va + frameSize) (phys + frameSize) (map m va phys).2 := by
        rw [mapRun, ← Prod.eta (map m va phys), hok]
      rw [hrun, ← succ_page]
      exact ih (by omega)
    · rw [mapRun]
      split <;> first | simp | (next heq => exact absurd (by rw [heq]) hnot)

lemma mapRun_inUse_le
    (hmap : ∀ (m : Mm) (va phys : ℕ), m.frames.inUse ≤ (map m va phys).2.frames.inUse) :
    m.frames.inUse ≤ (mapRun map n va phys m).2.frames.inUse := by
  induction n generalizing va phys m with
  | zero => exact le_rfl
  | succ n ih =>
    have hfirst := hmap m va phys
    rw [mapRun]
    split
    next heq => rw [heq] at hfirst; exact hfirst
    next heq => rw [heq] at hfirst; exact hfirst
    next m₁ heq =>
      rw [heq] at hfirst
      exact hfirst.trans ih

/-- Without any frame left, a loop over fresh pages ends at once and changes nothing. -/
lemma allocMapPages_of_none (h : m.frames.available = 0) (space n va : ℕ) :
    (allocMapPages space n va m).2.pt = m.pt ∧
      (allocMapPages space n va m).2.frames.inUse = m.frames.inUse := by
  cases n with
  | zero => exact ⟨rfl, rfl⟩
  | succ n =>
    cases ha : m.frameAlloc with
    | mk got m₁ =>
      cases got with
      | some frame =>
        have havail := (frameAlloc_some ha).available
        omega
      | none =>
        have hrun : allocMapPages space (n + 1) va m = (.failed, m₁) := by
          unfold allocMapPages mapRun allocMapUser
          rw [ha]
        rw [hrun]
        exact ⟨Builds.frameAlloc_pt ha, (frameAlloc_none ha).2.inUse⟩

/-- With a frame left, such a loop takes one. -/
lemma allocMapPages_inUse_lt (h : m.frames.available ≠ 0) (hn : n ≠ 0) :
    m.frames.inUse < (allocMapPages space n va m).2.frames.inUse := by
  cases n with
  | zero => exact absurd rfl hn
  | succ n =>
    have hfirst := (m.allocMapUser_inUse space va true false).2 h
    unfold allocMapPages mapRun
    split
    next heq => rw [heq] at hfirst; exact hfirst
    next heq => rw [heq] at hfirst; exact hfirst
    next m₁ heq =>
      rw [heq] at hfirst
      exact lt_of_lt_of_le hfirst (mapRun_inUse_le fun m va _ => (m.allocMapUser_inUse _ va _ _).1)

/-- So does the loop over the pages of an environment. -/
lemma copyEnv_attempts (cr3 space envpPtr envpLen : ℕ) : ∀ (n i : ℕ) (m : Mm),
    heapStart + (i + n) * frameSize ≤ 2 ^ 47 →
    m.Attempts (Kernel.copyEnv cr3 space envpPtr envpLen n i m).2 space 1
      (Finset.Ico (heapStart / frameSize + i) (heapStart / frameSize + i + n))
      ((Kernel.copyEnv cr3 space envpPtr envpLen n i m).1 = .done ()) := by
  intro n
  induction n with
  | zero =>
    intro i m _
    rw [Nat.add_zero, Finset.Ico_self]
    exact .nothing rfl
  | succ n ih =>
    intro i m hfit
    have hpage : (heapStart + i * frameSize) / frameSize = heapStart / frameSize + i :=
      Nat.add_mul_div_right _ _ frameSize_pos
    have hva : heapStart + i * frameSize < 2 ^ 47 := by
      simp only [frameSize] at hfit ⊢
      omega
    have hfirst : m.Attempts (m.allocMapUser space (heapStart + i * frameSize) true false).2 space 1
        {(heapStart + i * frameSize) / frameSize} _ := Mm.allocMapUser_attempts hva
    rw [hpage] at hfirst
    rw [Ico_page_succ]
    refine hfirst.next ?_ ?_ (fun hok => ?_) (fun hnot => ?_)
    · exact Finset.disjoint_singleton_left.mpr (by simp)
    · intro p hp
      have hlast := (Finset.mem_Ico.mp hp).2
      simp only [frameSize, heapStart, lowerHalfPages] at hfit hlast ⊢
      omega
    · cases hr : m.allocMapUser space (heapStart + i * frameSize) true false with
      | mk o m₁ =>
        rw [hr] at hok
        obtain rfl : o = .done := hok
        -- the page is there, so `phys_of` finds it and only bytes are written
        obtain ⟨phys, hleaf⟩ := Mm.allocMapUser_done hr
        have hphys : m₁.physOf space (heapStart + i * frameSize) =
            some (phys + (heapStart + i * frameSize) % frameSize) := by
          rw [Mm.physOf, hleaf, Option.map_some]
        unfold Kernel.copyEnv
        dsimp only
        rw [hr]
        dsimp only
        rw [hphys]
        dsimp only
        obtain ⟨mem, hmem⟩ := Kernel.copyBytes_eq cr3 (min (envpLen - i * frameSize) frameSize)
          (envpPtr + i * frameSize) (phys + (heapStart + i * frameSize) % frameSize) m₁
        rw [hmem]
        have hnext : heapStart + (i + 1 + n) * frameSize ≤ 2 ^ 47 := by
          rw [show i + 1 + n = i + (n + 1) by omega]
          exact hfit
        have hrest := ih (i + 1) { m₁ with mem } hnext
        rw [← Nat.add_assoc (heapStart / frameSize) i 1] at hrest
        exact hrest.of_eq rfl rfl
    · cases hr : m.allocMapUser space (heapStart + i * frameSize) true false with
      | mk o m₁ =>
        rw [hr] at hnot
        unfold Kernel.copyEnv
        dsimp only
        rw [hr]
        cases o with
        | done => exact absurd rfl hnot
        | failed e => simp
        | panic => simp

end MapRun

end Xernel
