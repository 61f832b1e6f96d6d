import Xernel.Arch.Paging
import Xernel.Mm.FrameTheorems

/-!
# Lemmas about page tables and mapping

The tables of the machine are a family of trees (`PageTables.half`): the shared upper half and the
lower half of each address space. `Mm.Builds` says that memory was built up by allocating frames and
adding entries to trees; every mapping function builds memory up, and the invariants on memory are
proved by going through the constructors of `Mm.Builds`.
-/

namespace Xernel

/-! ## The trees -/

/-- Entries are only added. -/
structure TableTree.Grows (t t' : TableTree) : Prop where
  tables : ∀ level idx frame, t.tables level idx = some frame → t'.tables level idx = some frame
  leaves : ∀ page leaf, t.leaves page = some leaf → t'.leaves page = some leaf

namespace TableTree

variable {t t' t'' : TableTree} {level idx frame page : ℕ} {leaf : Leaf}

lemma Grows.refl (t : TableTree) : Grows t t := ⟨fun _ _ _ h => h, fun _ _ h => h⟩

lemma Grows.trans (h : Grows t t') (h' : Grows t' t'') : Grows t t'' :=
  ⟨fun l i f hf => h'.tables l i f (h.tables l i f hf), fun p l hl => h'.leaves p l (h.leaves p l hl)⟩

/-- A table is added where there was none. -/
lemma grows_setTable (h : t.tables level idx = none) : Grows t (t.setTable level idx frame) := by
  refine ⟨fun l i f hf => ?_, fun _ _ hl => hl⟩
  show (if l = level ∧ i = idx then some frame else t.tables l i) = some f
  split
  next heq => rw [heq.1, heq.2, h] at hf; cases hf
  next => exact hf

/-- So is an entry. -/
lemma grows_setLeaf (h : t.leaves page = none) : Grows t (t.setLeaf page leaf) := by
  refine ⟨fun _ _ _ hf => hf, fun p l hl => ?_⟩
  have hne : p ≠ page := by rintro rfl; rw [h] at hl; cases hl
  show Function.update t.leaves page (some leaf) p = some l
  rw [Function.update_of_ne hne, hl]

end TableTree

namespace PageTables

/-- The upper half (`none`) or the lower half of a space. -/
def half (pt : PageTables) : Option ℕ → TableTree
  | none => pt.kernel
  | some l4 => pt.user l4

/-- The half that `page` of space `l4` lies in. -/
def home (l4 page : ℕ) : Option ℕ := if page < lowerHalfPages then some l4 else none

variable {pt : PageTables} {l4 page : ℕ} {h : Option ℕ}

/-- The upper half is the same in all spaces. -/
lemma tree_eq_half (pt : PageTables) (l4 page : ℕ) : pt.tree l4 page = pt.half (home l4 page) := by
  unfold tree home
  split <;> rfl

lemma leaf_eq_half (pt : PageTables) (l4 page : ℕ) :
    pt.leaf l4 page = (pt.half (home l4 page)).leaves page := by
  rw [leaf, tree_eq_half]

/-- Only the half that is set changes. -/
lemma half_setTree (pt : PageTables) (l4 page : ℕ) (t : TableTree) (h : Option ℕ) :
    (pt.setTree l4 page t).half h = if h = home l4 page then t else pt.half h := by
  unfold setTree home
  split
  · cases h with
    | none => rfl
    | some l => simp [half, Function.update_apply]
  · cases h <;> rfl

lemma tree_setTree (pt : PageTables) (l4 page : ℕ) (t : TableTree) :
    (pt.setTree l4 page t).tree l4 page = t := by
  rw [tree_eq_half, half_setTree, if_pos rfl]

end PageTables

/-- What building up memory may touch: the trees that may get new entries, those among them that may
get user-accessible leaves, and the frames such leaves may map besides newly allocated ones. -/
structure Scope where
  trees : Set (Option ℕ)
  userTrees : Set (Option ℕ)
  given : Set ℕ

namespace Mm

variable {m m' m'' : Mm} {s s' : Scope} {U V W : Set ℕ} {l4 page virt phys : ℕ}

/-! ## Building up memory -/

/-- From `m` on, memory was built up within the scope `s`. The sets are the frames that were allocated
and are not in use yet, before and after. -/
inductive Builds (s : Scope) (m : Mm) (U : Set ℕ) : Mm → Set ℕ → Prop
  | refl : Builds s m U m U
  | bytes {m' : Mm} {V : Set ℕ} (h : Builds s m U m' V) (mem : ℕ → UInt8) :
      Builds s m U { m' with mem } V
  | leak {m' : Mm} {V W : Set ℕ} (h : Builds s m U m' V) (hW : W ⊆ V) : Builds s m U m' W
  | alloc {m' m'' : Mm} {V : Set ℕ} {got : Option ℕ} (h : Builds s m U m' V)
      (ha : m'.frameAlloc = (got, m'')) : Builds s m U m'' (V ∪ {f | got = some f})
  | contiguous {m' m'' : Mm} {V : Set ℕ} {n : ℕ} {got : Option ℕ} (h : Builds s m U m' V)
      (hn : n < 2 ^ 40) (ha : m'.frameAllocContiguous n = (got, m'')) :
      Builds s m U m'' (V ∪ {f | ∃ base, got = some base ∧ f ∈ blockRun frameSize base n})
  | space {m' m'' : Mm} {V : Set ℕ} {l4 : ℕ} (h : Builds s m U m' V)
      (ha : m'.frameAlloc = (some l4, m'')) (hs : some l4 ∈ s.trees) :
      Builds s m U { m'' with
        pt := { m''.pt with
          user := Function.update m''.pt.user l4 (TableTree.empty.setTable 4 0 l4) } } V
  | table {m' m'' : Mm} {V : Set ℕ} {l4 page level idx frame : ℕ} (h : Builds s m U m' V)
      (ha : m'.frameAlloc = (some frame, m'')) (hs : PageTables.home l4 page ∈ s.trees)
      (hnone : (m''.pt.tree l4 page).tables level idx = none) :
      Builds s m U
        { m'' with pt := m''.pt.setTree l4 page ((m''.pt.tree l4 page).setTable level idx frame) } V
  | leaf {m' : Mm} {V W : Set ℕ} {l4 page phys : ℕ} {flags : PageFlags} (h : Builds s m U m' V)
      (hs : PageTables.home l4 page ∈ s.trees) (hnone : m'.pt.leaf l4 page = none) (hW : W ⊆ V)
      (hown : flags.userAccessible = true → PageTables.home l4 page ∈ s.userTrees ∧
        (phys ∈ s.given ∨ phys ∈ V ∧ phys ∉ W)) :
      Builds s m U { m' with
        pt := m'.pt.setTree l4 page
          ((m'.pt.tree l4 page).setLeaf page { phys := pageDown phys, flags }) } W

namespace Builds

/-- What is built in two parts. -/
lemma trans (h : Builds s m U m' V) (h' : Builds s m' V m'' W) : Builds s m U m'' W := by
  induction h' with
  | refl => exact h
  | bytes _ mem ih => exact ih.bytes mem
  | leak _ hW ih => exact ih.leak hW
  | alloc _ ha ih => exact ih.alloc ha
  | contiguous _ hn ha ih => exact ih.contiguous hn ha
  | space _ ha hs ih => exact ih.space ha hs
  | table _ ha hs hnone ih => exact ih.table ha hs hnone
  | leaf _ hs hnone hW hown ih => exact ih.leaf hs hnone hW hown

/-- More may be touched in a wider scope. -/
lemma mono (h : Builds s m U m' V) (ht : s.trees ⊆ s'.trees) (hu : s.userTrees ⊆ s'.userTrees)
    (hg : s.given ⊆ s'.given) : Builds s' m U m' V := by
  induction h with
  | refl => exact .refl
  | bytes _ mem ih => exact ih.bytes mem
  | leak _ hW ih => exact ih.leak hW
  | alloc _ ha ih => exact ih.alloc ha
  | contiguous _ hn ha ih => exact ih.contiguous hn ha
  | space _ ha hs ih => exact ih.space ha (ht hs)
  | table _ ha hs hnone ih => exact ih.table ha (ht hs) hnone
  | leaf _ hs hnone hW hown ih =>
    refine ih.leaf (ht hs) hnone hW fun huser => ?_
    obtain ⟨htree, hphys⟩ := hown huser
    exact ⟨hu htree, hphys.imp_left fun hgiven => hg hgiven⟩

/-- The calls made on the way are answered as the allocator answers them. -/
lemma run (h : Builds s m U m' V) {regions : List Region}
    (hr : AllocatorRun regions m.frames m.calls) : AllocatorRun regions m'.frames m'.calls := by
  have halloc : ∀ {m m' : Mm} {got : Option ℕ}, m.frameAlloc = (got, m') →
      AllocatorRun regions m.frames m.calls → AllocatorRun regions m'.frames m'.calls := by
    intro m m' got ha hr
    obtain ⟨rfl, rfl⟩ := Prod.mk.inj ha
    exact hr.alloc rfl
  induction h with
  | refl => exact hr
  | bytes _ _ ih | leak _ _ ih | leaf _ _ _ _ _ ih => exact ih
  | alloc _ ha ih | space _ ha _ ih | table _ ha _ _ ih =>
    have hnext := halloc ha ih
    exact hnext
  | contiguous _ hn ha ih =>
    obtain ⟨rfl, rfl⟩ := Prod.mk.inj ha
    exact ih.allocContiguous hn rfl

/-- No frame is freed. -/
lemma calls (h : Builds s m U m' V) : ∃ l, m'.calls = m.calls ++ l ∧ ∀ pa, .free pa ∉ l := by
  have hsnoc : ∀ {calls : List FrameCall} {c : FrameCall}, (∀ pa, c ≠ .free pa) →
      (∃ l, calls = m.calls ++ l ∧ ∀ pa, .free pa ∉ l) →
      ∃ l, calls ++ [c] = m.calls ++ l ∧ ∀ pa, .free pa ∉ l := by
    rintro calls c hc ⟨l, rfl, hkeep⟩
    refine ⟨l ++ [c], by simp, fun pa hpa => ?_⟩
    rcases List.mem_append.mp hpa with hpa | hpa
    · exact hkeep pa hpa
    · exact hc pa (List.mem_singleton.mp hpa).symm
  have halloc : ∀ {m₁ m₂ : Mm} {got : Option ℕ}, m₁.frameAlloc = (got, m₂) →
      (∃ l, m₁.calls = m.calls ++ l ∧ ∀ pa, .free pa ∉ l) →
      ∃ l, m₂.calls = m.calls ++ l ∧ ∀ pa, .free pa ∉ l := by
    intro m₁ m₂ got ha h₁
    obtain ⟨rfl, rfl⟩ := Prod.mk.inj ha
    exact hsnoc (by simp) h₁
  induction h with
  | refl => exact ⟨[], by simp⟩
  | bytes _ _ ih | leak _ _ ih | leaf _ _ _ _ _ ih => exact ih
  | alloc _ ha ih | space _ ha _ ih | table _ ha _ _ ih =>
    have hnext := halloc ha ih
    exact hnext
  | contiguous _ hn ha ih =>
    obtain ⟨rfl, rfl⟩ := Prod.mk.inj ha
    exact hsnoc (by simp) ih

/-- Frames handed out before are still handed out. -/
lemma handedOut (h : Builds s m U m' V) {f : ℕ} (hf : f ∈ handedOut m.calls) :
    f ∈ Xernel.handedOut m'.calls := by
  obtain ⟨l, hl, hkeep⟩ := h.calls
  rw [hl, Xernel.handedOut, List.map_append]
  refine PoolOp.mem_outstanding_of_not_given hf fun hg => ?_
  obtain ⟨c, hc, hop⟩ := List.mem_map.mp hg
  cases c with
  | free pa => exact hkeep pa hc
  | alloc got => simp [FrameCall.poolOp] at hop
  | allocContiguous n got => simp [FrameCall.poolOp] at hop

lemma frameAlloc_pt {got : Option ℕ} (ha : m.frameAlloc = (got, m')) : m'.pt = m.pt := by
  obtain ⟨rfl, rfl⟩ := Prod.mk.inj ha
  rfl

/-- Trees outside the scope stay as they are. -/
lemma same (h : Builds s m U m' V) {x : Option ℕ} (hx : x ∉ s.trees) :
    m'.pt.half x = m.pt.half x := by
  have hset : ∀ {pt : PageTables} {l4 page : ℕ} {t : TableTree},
      PageTables.home l4 page ∈ s.trees → (pt.setTree l4 page t).half x = pt.half x := by
    intro pt l4 page t hs
    rw [PageTables.half_setTree, if_neg]
    rintro rfl
    exact hx hs
  induction h with
  | refl => rfl
  | bytes _ _ ih | leak _ _ ih => exact ih
  | alloc _ ha ih => rw [frameAlloc_pt ha, ih]
  | contiguous _ hn ha ih =>
    obtain ⟨rfl, rfl⟩ := Prod.mk.inj ha
    exact ih
  | @space m₁ m₂ V l4 _ ha hs ih =>
    rw [← ih, ← frameAlloc_pt ha]
    cases x with
    | none => rfl
    | some l =>
      have hne : l ≠ l4 := by rintro rfl; exact hx hs
      exact Function.update_of_ne hne _ _
  | table _ ha hs _ ih => rw [hset hs, frameAlloc_pt ha, ih]
  | leaf _ hs _ _ _ ih => rw [hset hs, ih]

/-- The upper half only gains entries. -/
lemma kernel_grows (h : Builds s m U m' V) : m.pt.kernel.Grows m'.pt.kernel := by
  have hset : ∀ {pt : PageTables} {l4 page : ℕ} {t : TableTree}, (pt.tree l4 page).Grows t →
      m.pt.kernel.Grows pt.kernel → m.pt.kernel.Grows (pt.setTree l4 page t).kernel := by
    intro pt l4 page t hg hk
    rw [PageTables.setTree]
    split
    · exact hk
    next hp => rw [PageTables.tree, if_neg hp] at hg; exact hk.trans hg
  induction h with
  | refl => exact .refl _
  | bytes _ _ ih | leak _ _ ih => exact ih
  | alloc _ ha ih => rw [frameAlloc_pt ha]; exact ih
  | space _ ha _ ih => rw [← frameAlloc_pt ha] at ih; exact ih
  | contiguous _ hn ha ih =>
    obtain ⟨rfl, rfl⟩ := Prod.mk.inj ha
    exact ih
  | table _ ha _ hnone ih =>
    exact hset (TableTree.grows_setTable hnone) (by rw [frameAlloc_pt ha]; exact ih)
  | leaf _ _ hnone _ _ ih => exact hset (TableTree.grows_setLeaf hnone) ih

end Builds

/-! ## Writing -/

/-- A write to a user address changes bytes only. -/
lemma writeByte_eq (m : Mm) (l4 va : ℕ) (b : UInt8) :
    ∃ mem, m.writeByte l4 va b = { m with mem } := by
  rw [writeByte]
  cases m.physOf l4 va with
  | none => exact ⟨m.mem, rfl⟩
  | some phys => exact ⟨_, rfl⟩

/-- Writing to user memory only changes bytes. -/
lemma writeUser_eq (m : Mm) (l4 ptr : ℕ) (bytes : List UInt8) :
    ∃ mem, m.writeUser l4 ptr bytes = { m with mem } := by
  induction bytes generalizing m ptr with
  | nil => exact ⟨m.mem, rfl⟩
  | cons b bytes ih =>
    obtain ⟨mem, hmem⟩ := writeByte_eq m l4 ptr b
    obtain ⟨mem', hmem'⟩ := ih { m with mem } (ptr + 1)
    exact ⟨mem', by rw [writeUser, hmem, hmem']⟩

/-- So does a write to a physical address. -/
lemma writePhys_eq (m : Mm) (phys : ℕ) (bytes : List UInt8) :
    ∃ mem, m.writePhys phys bytes = { m with mem } := by
  induction bytes generalizing m phys with
  | nil => exact ⟨m.mem, rfl⟩
  | cons b bytes ih =>
    obtain ⟨mem, hmem⟩ := ih (m.setByte phys b) (phys + 1)
    exact ⟨mem, by rw [writePhys, hmem]; rfl⟩

/-! ## Mapping functions -/

/-- A table takes a frame of its own. -/
lemma createNextTable_builds (level : ℕ) (hs : PageTables.home l4 page ∈ s.trees) :
    Builds s m U (m.createNextTable l4 page level).2 U := by
  rw [createNextTable]
  split
  next => exact .refl
  next hnone =>
    split
    next m₁ ha => exact (Builds.refl.alloc ha).leak Set.subset_union_left
    next frame m₁ ha =>
      refine Builds.refl.table ha hs ?_
      rw [Builds.frameAlloc_pt ha]
      exact hnone

/-- So do all tables on the way. -/
lemma createTables_builds (m : Mm) (levels : List ℕ) (hs : PageTables.home l4 page ∈ s.trees) :
    Builds s m U (createTables l4 page levels m).2 U := by
  induction levels generalizing m with
  | nil => exact .refl
  | cons level levels ih =>
    have hnext : Builds s m U (m.createNextTable l4 page level).2 U :=
      createNextTable_builds level hs
    rw [createTables]
    split
    next m₁ heq => rw [heq] at hnext; exact hnext
    next m₁ heq => rw [heq] at hnext; exact hnext.trans (ih m₁)

/-- An entry for ring 3 names a frame that was given, or one taken for it. -/
lemma mapTo_builds {flags : PageFlags} (hs : PageTables.home l4 page ∈ s.trees) (hV : V ⊆ U)
    (hown : flags.userAccessible = true → PageTables.home l4 page ∈ s.userTrees ∧
      (phys ∈ s.given ∨ phys ∈ U ∧ phys ∉ V)) :
    Builds s m U (m.mapTo l4 page { phys := pageDown phys, flags }).2 V := by
  have htables : Builds s m U (createTables l4 page [3, 2, 1] m).2 U := createTables_builds m _ hs
  rw [mapTo]
  split
  next m₁ heq => rw [heq] at htables; exact htables.leak hV
  next m₁ heq =>
    rw [heq] at htables
    split
    next => exact htables.leak hV
    next hnone => exact htables.leaf hs hnone hV hown

/-- A failed mapping may have made tables, but maps nothing. -/
lemma mapTo_failed {leaf : Leaf} (hs : PageTables.home l4 page ∈ s.trees)
    (h : (m.mapTo l4 page leaf).1 ≠ none) : Builds s m U (m.mapTo l4 page leaf).2 U := by
  have htables : Builds s m U (createTables l4 page [3, 2, 1] m).2 U := createTables_builds m _ hs
  rw [mapTo] at h ⊢
  split
  next m₁ heq => rw [heq] at htables; exact htables
  next m₁ heq =>
    rw [heq] at htables h
    dsimp only at h
    split
    next => exact htables
    next hnone => rw [hnone] at h; exact absurd rfl h

/-- An address below the upper half is either not canonical or in the lower half. -/
lemma home_of_canonical (hv : virt < 2 ^ 64 - 2 ^ 47) (hc : canonical virt = true) :
    PageTables.home l4 (virt / frameSize) = some l4 := by
  simp only [canonical, Bool.or_eq_true, decide_eq_true_eq] at hc
  rw [PageTables.home, if_pos]
  simp only [lowerHalfPages, frameSize] at *
  omega

/-- So it does when the tables have been made on the way. -/
lemma mapWithFlags_builds {flags : PageFlags} (hV : V ⊆ U)
    (hs : canonical virt = true → PageTables.home l4 (virt / frameSize) ∈ s.trees)
    (hown : canonical virt = true → flags.userAccessible = true →
      PageTables.home l4 (virt / frameSize) ∈ s.userTrees ∧
      (phys ∈ s.given ∨ phys ∈ U ∧ phys ∉ V)) :
    Builds s m U (m.mapWithFlags l4 virt phys flags).2 V := by
  rw [mapWithFlags]
  split
  next hc =>
    have hmap : Builds s m U (m.mapTo l4 (virt / frameSize) { phys := pageDown phys, flags }).2 V :=
      mapTo_builds (hs hc) hV (hown hc)
    split <;> (next heq => rw [heq] at hmap; exact hmap)
  next => exact Builds.refl.leak hV

/-- Below the upper half, mapping only touches the space it maps in. -/
lemma mapWithFlags_lower {flags : PageFlags} (hv : virt < 2 ^ 64 - 2 ^ 47)
    (hs : some l4 ∈ s.trees) (hu : some l4 ∈ s.userTrees) (hV : V ⊆ U)
    (hown : phys ∈ s.given ∨ phys ∈ U ∧ phys ∉ V) :
    Builds s m U (m.mapWithFlags l4 virt phys flags).2 V :=
  mapWithFlags_builds hV (fun hc => by rw [home_of_canonical hv hc]; exact hs)
    fun hc _ => ⟨by rw [home_of_canonical hv hc]; exact hu, hown⟩

/-- A frame that could not be mapped is still unused. -/
lemma mapWithFlags_failed {flags : PageFlags} (hv : virt < 2 ^ 64 - 2 ^ 47)
    (hs : some l4 ∈ s.trees) (h : (m.mapWithFlags l4 virt phys flags).1 ≠ .done) :
    Builds s m U (m.mapWithFlags l4 virt phys flags).2 U := by
  rw [mapWithFlags] at h ⊢
  split
  next hc =>
    rw [if_pos hc] at h
    have hmap : (m.mapTo l4 (virt / frameSize) { phys := pageDown phys, flags }).1 ≠ none →
        Builds s m U (m.mapTo l4 (virt / frameSize) { phys := pageDown phys, flags }).2 U :=
      mapTo_failed (by rw [home_of_canonical hv hc]; exact hs)
    split
    next heq => rw [heq] at h; exact absurd rfl h
    next heq => rw [heq] at hmap; exact hmap (by simp)
  next => exact .refl

lemma mapUserDevice_eq (m : Mm) (l4 virt phys : ℕ) :
    (m.mapUserDevice l4 virt phys).2 = (m.mapWithFlags l4 virt phys
      { userAccessible := true, writable := true, noCache := true, writeThrough := true,
        noExecute := true }).2 := by
  rw [mapUserDevice]
  split
  next heq => rw [heq]
  next => rfl

lemma mapUserDevice_done (h : (m.mapUserDevice l4 virt phys).1 = .done) :
    (m.mapWithFlags l4 virt phys
      { userAccessible := true, writable := true, noCache := true, writeThrough := true,
        noExecute := true }).1 ≠ .panic := by
  intro hp
  rw [mapUserDevice] at h
  split at h
  next heq => rw [heq] at hp; cases hp
  next => rw [hp] at h; cases h

/-- A frame of its own for one page of the lower half. -/
lemma allocMapUser_builds {writable executable : Bool} (hv : virt < 2 ^ 64 - 2 ^ 47)
    (hs : some l4 ∈ s.trees) (hu : some l4 ∈ s.userTrees) :
    Builds s m ∅ (m.allocMapUser l4 virt writable executable).2 ∅ := by
  rw [allocMapUser]
  split
  next m₁ ha => exact (Builds.refl.alloc ha).leak (Set.empty_subset _)
  next phys m₁ ha =>
    exact ((Builds.refl.alloc ha).bytes _).trans
      (mapWithFlags_lower hv hs hu (Set.empty_subset _) (.inr ⟨.inr rfl, Set.notMem_empty _⟩))

/-- If an address below the upper half is canonical, the next page is below the upper half, too. -/
lemma lt_of_mapWithFlags {flags : PageFlags} (hv : virt < 2 ^ 64 - 2 ^ 47)
    (h : (m.mapWithFlags l4 virt phys flags).1 ≠ .panic) : virt + frameSize < 2 ^ 64 - 2 ^ 47 := by
  rw [mapWithFlags] at h
  split at h
  next hc =>
    simp only [canonical, Bool.or_eq_true, decide_eq_true_eq] at hc
    simp only [frameSize]
    omega
  next => exact absurd rfl h

/-- A page that was mapped lies below the upper half. -/
lemma lt_of_allocMapUser_done {writable executable : Bool} (hv : virt < 2 ^ 64 - 2 ^ 47)
    (h : (m.allocMapUser l4 virt writable executable).1 = .done) :
    virt + frameSize < 2 ^ 64 - 2 ^ 47 := by
  rw [allocMapUser] at h
  split at h
  · cases h
  · exact lt_of_mapWithFlags hv (ne_of_eq_of_ne h (by simp))

/-! ## The upper half after boot -/

/-- A page of the upper half that is mapped, with all tables on the path to it. -/
def Filled (m : Mm) (page : ℕ) : Prop :=
  (∀ level ∈ [3, 2, 1], (m.pt.kernel.tables level (page / 512 ^ level)).isSome) ∧
    (m.pt.kernel.leaves page).isSome

/-- Tables of the upper half stay. -/
lemma Filled.mono (h : m.Filled page) (hg : m.pt.kernel.Grows m'.pt.kernel) : m'.Filled page := by
  refine ⟨fun level hl => ?_, ?_⟩
  · obtain ⟨f, hf⟩ := Option.isSome_iff_exists.mp (h.1 level hl)
    rw [hg.tables _ _ _ hf]; rfl
  · obtain ⟨l, hl⟩ := Option.isSome_iff_exists.mp h.2
    rw [hg.leaves _ _ hl]; rfl

lemma tree_of_upper (hp : lowerHalfPages ≤ page) (pt : PageTables) (l4 : ℕ) :
    pt.tree l4 page = pt.kernel := by
  rw [PageTables.tree, if_neg (Nat.not_lt.mpr hp)]

/-- Mapping a filled page fails and changes nothing. -/
lemma mapTo_filled (hp : lowerHalfPages ≤ page) (hf : m.Filled page) (leaf : Leaf) :
    m.mapTo l4 page leaf = (some .pageAlreadyMapped, m) := by
  have htree := tree_of_upper hp m.pt l4
  have hnext : ∀ level ∈ [3, 2, 1], m.createNextTable l4 page level = (true, m) := by
    intro level hl
    obtain ⟨f, hf⟩ := Option.isSome_iff_exists.mp (hf.1 level hl)
    simp only [createNextTable, htree, hf]
  obtain ⟨l, hl⟩ := Option.isSome_iff_exists.mp hf.2
  simp only [mapTo, createTables, hnext 3 (by simp), hnext 2 (by simp), hnext 1 (by simp),
    PageTables.leaf, htree, hl]

/-- A table of the upper half is there afterwards. -/
lemma createNextTable_kernel {level : ℕ} (hp : lowerHalfPages ≤ page)
    (h : m.createNextTable l4 page level = (true, m')) :
    (m'.pt.kernel.tables level (page / 512 ^ level)).isSome := by
  rw [createNextTable] at h
  split at h
  next f hf =>
    obtain rfl := (Prod.mk.inj h).2
    rw [← tree_of_upper hp _ l4, hf]
    rfl
  next =>
    split at h
    · cases h
    · obtain rfl := (Prod.mk.inj h).2
      simp [PageTables.setTree, Nat.not_lt.mpr hp, TableTree.setTable]

lemma createTables_kernel {levels : List ℕ} (hp : lowerHalfPages ≤ page)
    (h : createTables l4 page levels m = (true, m')) :
    ∀ level ∈ levels, (m'.pt.kernel.tables level (page / 512 ^ level)).isSome := by
  induction levels generalizing m with
  | nil => simp
  | cons level levels ih =>
    rw [createTables] at h
    split at h
    · cases h
    next m₁ heq =>
      have hrest : Builds ⟨.univ, .univ, .univ⟩ m₁ ∅ (createTables l4 page levels m₁).2 ∅ :=
        createTables_builds m₁ levels trivial
      rw [h] at hrest
      intro level' hl
      rcases List.mem_cons.mp hl with rfl | hl
      · obtain ⟨f, hf⟩ := Option.isSome_iff_exists.mp (createNextTable_kernel hp heq)
        rw [hrest.kernel_grows.tables _ _ _ hf]
        rfl
      · exact ih h level' hl

/-- Mapping a page of the upper half fills it. -/
lemma filled_of_mapTo {leaf : Leaf} (hp : lowerHalfPages ≤ page)
    (h : m.mapTo l4 page leaf = (none, m')) : m'.Filled page := by
  rw [mapTo] at h
  split at h
  · cases h
  next m₁ heq =>
    split at h
    · cases h
    · obtain rfl := (Prod.mk.inj h).2
      have htables := createTables_kernel hp heq
      refine ⟨fun level hl => ?_, ?_⟩
      · simpa [PageTables.setTree, Nat.not_lt.mpr hp, tree_of_upper hp, TableTree.setLeaf]
          using htables level hl
      · simp [PageTables.setTree, Nat.not_lt.mpr hp, TableTree.setLeaf]

/-! ## Addresses of the lower half -/

/-- Addresses of the lower half are canonical. -/
lemma canonical_of_lt (h : virt < 2 ^ 47) : canonical virt = true := by
  unfold canonical
  simp only [h, decide_true, Bool.true_or]

/-- The addresses between the halves. -/
lemma canonical_eq_false_iff : canonical virt = false ↔ 2 ^ 47 ≤ virt ∧ virt < 2 ^ 64 - 2 ^ 47 := by
  unfold canonical
  rw [Bool.or_eq_false_iff, decide_eq_false_iff_not, decide_eq_false_iff_not]
  omega

/-- They are mapped, or not, without a panic. -/
lemma mapWithFlags_ne_panic {flags : PageFlags} (hvirt : virt < 2 ^ 47) :
    (m.mapWithFlags l4 virt phys flags).1 ≠ .panic := by
  unfold mapWithFlags
  rw [if_pos (canonical_of_lt hvirt)]
  split <;> simp

/-- Mapping in the lower half does not panic. -/
lemma allocMapUser_ne_panic {writable executable : Bool} (hvirt : virt < 2 ^ 47) :
    (m.allocMapUser l4 virt writable executable).1 ≠ .panic := by
  unfold allocMapUser
  split
  · simp
  · exact mapWithFlags_ne_panic hvirt

end Mm
end Xernel
