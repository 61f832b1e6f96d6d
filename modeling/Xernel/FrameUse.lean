import Xernel.Spaces

/-!
# What frames are used for

A frame that is handed out is in one use: it is reserved by the step that allocated it, it holds a
table, it is mapped for ring 3 in one half of an address space, or it is shared and may be mapped in
several. `FrameUse` says so, and it is kept by everything that builds memory up as long as only shared
frames and frames outside RAM are mapped besides new ones.
-/

namespace Xernel

open Mm (Builds)

/-- The frame lies in a usable region of the memory map. -/
def IsRam (regions : List Region) (f : ℕ) : Prop :=
  ∃ r ∈ regions, r.start ≤ f ∧ f + frameSize ≤ r.stop

/-- A frame that is handed out is a frame of RAM. -/
lemma AllocatorRun.isRam {regions : List Region} {al : PhysFrameAllocator} {calls : List FrameCall}
    {f : ℕ} (h : AllocatorRun regions al calls)
    (hdisj : (regions.map Region.rounded).Pairwise Region.Disjoint) (hf : f ∈ handedOut calls) :
    IsRam regions f ∧ frameSize ∣ f := by
  obtain ⟨hal, ⟨r, hr, hlo, hhi⟩, -⟩ := (h.tracks hdisj).settled f (.inr hf)
  obtain ⟨r₀, hr₀, rfl⟩ := h.mem_regions hr
  exact ⟨⟨r₀, hr₀, Nat.le_trans (le_pageUp _) hlo, Nat.le_trans hhi (pageDown_le _)⟩, hal⟩

/-! ## Tables and mapped frames -/

namespace PageTables

/-- The frame holds a table of some half. -/
def IsTable (pt : PageTables) (f : ℕ) : Prop :=
  ∃ x level idx, (pt.half x).tables level idx = some f

/-- The half maps the frame for ring 3. -/
def UserMaps (pt : PageTables) (x : Option ℕ) (f : ℕ) : Prop :=
  ∃ page leaf, (pt.half x).leaves page = some leaf ∧ leaf.flags.userAccessible = true ∧
    leaf.phys = f

variable {pt : PageTables} {l4 page level idx frame f : ℕ} {x : Option ℕ} {leaf : Leaf}

lemma isTable_setTable
    (h : (pt.setTree l4 page ((pt.tree l4 page).setTable level idx frame)).IsTable f) :
    pt.IsTable f ∨ f = frame := by
  obtain ⟨x, l, i, hx⟩ := h
  rw [half_setTree, tree_eq_half] at hx
  split at hx
  · simp only [TableTree.setTable] at hx
    split at hx
    · exact .inr (Option.some.inj hx).symm
    · exact .inl ⟨_, l, i, hx⟩
  · exact .inl ⟨x, l, i, hx⟩

lemma userMaps_setTable
    (h : (pt.setTree l4 page ((pt.tree l4 page).setTable level idx frame)).UserMaps x f) :
    pt.UserMaps x f := by
  obtain ⟨pg, leaf, hx, huser⟩ := h
  rw [half_setTree, tree_eq_half] at hx
  split at hx
  next heq => exact ⟨pg, leaf, by rw [heq]; exact hx, huser⟩
  next => exact ⟨pg, leaf, hx, huser⟩

lemma isTable_setLeaf (h : (pt.setTree l4 page ((pt.tree l4 page).setLeaf page leaf)).IsTable f) :
    pt.IsTable f := by
  obtain ⟨x, l, i, hx⟩ := h
  rw [half_setTree, tree_eq_half] at hx
  split at hx
  · exact ⟨_, l, i, hx⟩
  · exact ⟨x, l, i, hx⟩

lemma userMaps_setLeaf
    (h : (pt.setTree l4 page ((pt.tree l4 page).setLeaf page leaf)).UserMaps x f) :
    pt.UserMaps x f ∨ x = home l4 page ∧ leaf.flags.userAccessible = true ∧ f = leaf.phys := by
  obtain ⟨pg, leaf', hx, huser, hphys⟩ := h
  rw [half_setTree, tree_eq_half] at hx
  split at hx
  next heq =>
    simp only [TableTree.setLeaf, Function.update_apply] at hx
    split at hx
    · obtain rfl := Option.some.inj hx
      exact .inr ⟨heq, huser, hphys.symm⟩
    · exact .inl ⟨pg, leaf', by rw [heq]; exact hx, huser, hphys⟩
  next => exact .inl ⟨pg, leaf', hx, huser, hphys⟩

/-- The tables with a new address space. -/
lemma half_newSpace (pt : PageTables) (l4 : ℕ) (x : Option ℕ) :
    ({ pt with user := Function.update pt.user l4 (TableTree.empty.setTable 4 0 l4) } :
      PageTables).half x =
      if x = some l4 then TableTree.empty.setTable 4 0 l4 else pt.half x := by
  cases x with
  | none => rfl
  | some l => simp [half, Function.update_apply]

lemma isTable_newSpace
    (h : ({ pt with user := Function.update pt.user l4 (TableTree.empty.setTable 4 0 l4) } :
      PageTables).IsTable f) : pt.IsTable f ∨ f = l4 := by
  obtain ⟨x, l, i, hx⟩ := h
  rw [half_newSpace] at hx
  split at hx
  · simp only [TableTree.setTable, TableTree.empty] at hx
    split at hx
    · exact .inr (Option.some.inj hx).symm
    · cases hx
  · exact .inl ⟨x, l, i, hx⟩

lemma userMaps_newSpace
    (h : ({ pt with user := Function.update pt.user l4 (TableTree.empty.setTable 4 0 l4) } :
      PageTables).UserMaps x f) : pt.UserMaps x f := by
  obtain ⟨pg, leaf, hx, huser⟩ := h
  rw [half_newSpace] at hx
  split at hx
  · cases hx
  · exact ⟨pg, leaf, hx, huser⟩

end PageTables

/-- Only trees for user pages get mappings for ring 3. -/
lemma Mm.Builds.userMaps {s : Scope} {m m' : Mm} {U V : Set ℕ} {x : Option ℕ} {f : ℕ}
    (h : Builds s m U m' V) (hx : x ∉ s.userTrees) (hf : m'.pt.UserMaps x f) :
    m.pt.UserMaps x f := by
  induction h with
  | refl => exact hf
  | bytes _ _ ih | leak _ _ ih => exact ih hf
  | alloc _ ha ih => rw [Builds.frameAlloc_pt ha] at hf; exact ih hf
  | contiguous _ _ ha ih => rw [(frameAllocContiguous_calls ha).2] at hf; exact ih hf
  | space _ ha _ ih =>
    have hold := PageTables.userMaps_newSpace hf
    rw [Builds.frameAlloc_pt ha] at hold
    exact ih hold
  | table _ ha _ _ ih =>
    have hold := PageTables.userMaps_setTable hf
    rw [Builds.frameAlloc_pt ha] at hold
    exact ih hold
  | leaf _ _ _ _ hown ih =>
    rcases PageTables.userMaps_setLeaf hf with hold | ⟨rfl, huser, -⟩
    · exact ih hold
    · exact absurd (hown huser).1 hx

/-! ## The invariant -/

/-- How frames are used in `m`: those in `S` are shared, they may be mapped in several halves; those
in `U` are reserved, they are allocated and not in use yet. -/
structure FrameUse (regions : List Region) (S U : Set ℕ) (m : Mm) : Prop where
  run : AllocatorRun regions m.frames m.calls
  shared : ∀ f ∈ S, f ∈ handedOut m.calls
  reserved : ∀ f ∈ U, f ∈ handedOut m.calls ∧ f ∉ S ∧ ¬ m.pt.IsTable f ∧ ∀ x, ¬ m.pt.UserMaps x f
  table : ∀ f, m.pt.IsTable f → IsRam regions f →
    f ∈ handedOut m.calls ∧ f ∉ S ∧ f ∉ runFrames m.calls
  mapped : ∀ x f, m.pt.UserMaps x f → IsRam regions f → f ∈ handedOut m.calls ∧ ¬ m.pt.IsTable f
  alone : ∀ x y f, m.pt.UserMaps x f → m.pt.UserMaps y f → IsRam regions f → x ≠ y → f ∈ S

namespace FrameUse

variable {regions : List Region} {S U V : Set ℕ} {m m' : Mm} {pt : PageTables} {s : Scope}

lemma leak (h : FrameUse regions S U m) (hV : V ⊆ U) : FrameUse regions S V m :=
  { h with reserved := fun f hf => h.reserved f (hV hf) }

/-- Reserved frames become shared ones. -/
lemma share (h : FrameUse regions S U m) : FrameUse regions (S ∪ U) ∅ m where
  run := h.run
  shared f hf := hf.elim (h.shared f) fun hU => (h.reserved f hU).1
  reserved _ hf := hf.elim
  table f ht hram :=
    ⟨(h.table f ht hram).1, fun hf => hf.elim (h.table f ht hram).2.1 fun hU =>
      (h.reserved f hU).2.2.1 ht, (h.table f ht hram).2.2⟩
  mapped := h.mapped
  alone x y f hx hy hram hne := .inl (h.alone x y f hx hy hram hne)

/-- Frames that were just handed out are reserved. -/
lemma take (h : FrameUse regions S U m)
    (hdisj : (regions.map Region.rounded).Pairwise Region.Disjoint)
    (hrun : AllocatorRun regions m'.frames m'.calls) (hpt : m'.pt = m.pt)
    (hkeep : ∀ f ∈ handedOut m.calls, f ∈ handedOut m'.calls)
    (hnew : ∀ f ∈ V, f ∉ handedOut m.calls ∧ f ∈ handedOut m'.calls)
    (hruns : ∀ f ∈ runFrames m'.calls, f ∈ runFrames m.calls ∨ f ∉ handedOut m.calls) :
    FrameUse regions S (U ∪ V) m' where
  run := hrun
  shared f hf := hkeep f (h.shared f hf)
  reserved f hf := by
    rw [hpt]
    rcases hf with hU | hV
    · exact (h.reserved f hU).imp_left (hkeep f)
    · obtain ⟨hfresh, hout⟩ := hnew f hV
      have hram := (hrun.isRam hdisj hout).1
      exact ⟨hout, fun hS => hfresh (h.shared f hS), fun ht => hfresh (h.table f ht hram).1,
        fun x hx => hfresh (h.mapped x f hx hram).1⟩
  table f ht hram := by
    rw [hpt] at ht
    obtain ⟨hout, hS, hrun⟩ := h.table f ht hram
    exact ⟨hkeep f hout, hS, fun hf => (hruns f hf).elim hrun fun hfresh => hfresh hout⟩
  mapped x f hx hram := by
    rw [hpt] at hx ⊢
    exact (h.mapped x f hx hram).imp_left (hkeep f)
  alone x y f hx hy := by
    rw [hpt] at hx hy
    exact h.alone x y f hx hy

/-- Reserved frames are used for tables. -/
lemma useTables (h : FrameUse regions S U m) (hV : V ⊆ U)
    (htables : ∀ f, pt.IsTable f → m.pt.IsTable f ∨ (f ∈ U ∧ f ∉ V) ∧ f ∉ runFrames m.calls)
    (hmaps : ∀ x f, pt.UserMaps x f → m.pt.UserMaps x f) :
    FrameUse regions S V { m with pt } where
  run := h.run
  shared := h.shared
  reserved f hf := by
    obtain ⟨hout, hS, ht, hx⟩ := h.reserved f (hV hf)
    refine ⟨hout, hS, fun ht' => ?_, fun x hx' => hx x (hmaps x f hx')⟩
    exact (htables f ht').elim ht fun hU => hU.1.2 hf
  table f ht hram := by
    rcases htables f ht with hold | ⟨⟨hU, -⟩, hrun⟩
    · exact h.table f hold hram
    · exact ⟨(h.reserved f hU).1, (h.reserved f hU).2.1, hrun⟩
  mapped x f hx hram := by
    obtain ⟨hout, hnot⟩ := h.mapped x f (hmaps x f hx) hram
    refine ⟨hout, fun ht => ?_⟩
    rcases htables f ht with hold | ⟨⟨hU, -⟩, -⟩
    · exact hnot hold
    · exact (h.reserved f hU).2.2.2 x (hmaps x f hx)
  alone x y f hx hy := h.alone x y f (hmaps x f hx) (hmaps y f hy)

/-- A frame gets mapped in half `y`: a shared one, one outside RAM, or a reserved one. -/
lemma useLeaf (h : FrameUse regions S U m)
    (hdisj : (regions.map Region.rounded).Pairwise Region.Disjoint) (hV : V ⊆ U) (y : Option ℕ)
    (htables : ∀ f, pt.IsTable f → m.pt.IsTable f)
    (hmaps : ∀ x f, pt.UserMaps x f → m.pt.UserMaps x f ∨
      x = y ∧ (f ∈ S ∨ ¬ IsRam regions f ∨ f ∈ U ∧ f ∉ V)) :
    FrameUse regions S V { m with pt } where
  run := h.run
  shared := h.shared
  reserved f hf := by
    obtain ⟨hout, hS, ht, hx⟩ := h.reserved f (hV hf)
    refine ⟨hout, hS, fun ht' => ht (htables f ht'), fun x hx' => ?_⟩
    rcases hmaps x f hx' with hold | ⟨-, hshared | hdev | ⟨-, hnot⟩⟩
    · exact hx x hold
    · exact hS hshared
    · exact hdev (h.run.isRam hdisj hout).1
    · exact hnot hf
  table f ht := h.table f (htables f ht)
  mapped x f hx hram := by
    have hnot : ¬ m.pt.IsTable f → ¬ pt.IsTable f := fun hnot ht => hnot (htables f ht)
    rcases hmaps x f hx with hold | ⟨-, hshared | hdev | ⟨hU, -⟩⟩
    · exact (h.mapped x f hold hram).imp_right hnot
    · exact ⟨h.shared f hshared, hnot fun ht => (h.table f ht hram).2.1 hshared⟩
    · exact absurd hram hdev
    · exact ⟨(h.reserved f hU).1, hnot (h.reserved f hU).2.2.1⟩
  alone x z f hx hz hram hne := by
    rcases hmaps x f hx with hold | ⟨rfl, hshared | hdev | ⟨hU, -⟩⟩
    · rcases hmaps z f hz with hold' | ⟨-, hshared | hdev | ⟨hU, -⟩⟩
      · exact h.alone x z f hold hold' hram hne
      · exact hshared
      · exact absurd hram hdev
      · exact absurd hold ((h.reserved f hU).2.2.2 x)
    · exact hshared
    · exact absurd hram hdev
    · rcases hmaps z f hz with hold' | ⟨rfl, -⟩
      · exact absurd hold' ((h.reserved f hU).2.2.2 z)
      · exact absurd rfl hne

/-- Giving frames back adds nothing to the contiguous runs. -/
lemma runFrames_freeRun {phys n f : ℕ} (hf : f ∈ runFrames (Kernel.freeRun m phys n).calls) :
    f ∈ runFrames m.calls := by
  induction n generalizing m phys with
  | zero => exact hf
  | succ n ih =>
    have hfree := ih hf
    rw [Mm.frameFree, runFrames_snoc] at hfree
    exact List.mem_of_mem_erase hfree

/-- The free list takes back frames that were not in use. -/
lemma freeRun {phys n : ℕ} (h : FrameUse regions S {f | f ∈ blockRun frameSize phys n} m) :
    FrameUse regions S ∅ (Kernel.freeRun m phys n) := by
  have hkeep : ∀ f ∈ handedOut m.calls, f ∉ blockRun frameSize phys n →
      f ∈ handedOut (Kernel.freeRun m phys n).calls := by
    intro f hf hnot
    rw [freeRun_calls, handedOut, List.map_append]
    refine PoolOp.mem_outstanding_of_not_given hf fun hg => hnot ?_
    simpa [FrameCall.poolOp] using hg
  have hpt := freeRun_pt m phys n
  refine ⟨freeRun_run h.run fun f hf => (h.reserved f hf).1, fun f hf => ?_,
    fun _ hf => absurd hf (Set.notMem_empty _),
    fun f ht hram => ?_, fun x f hx hram => ?_, fun x y f hx hy => ?_⟩
  · exact hkeep f (h.shared f hf) fun hrun => (h.reserved f hrun).2.1 hf
  · rw [hpt] at ht
    obtain ⟨hout, hS, hrun⟩ := h.table f ht hram
    exact ⟨hkeep f hout fun hrun => (h.reserved f hrun).2.2.1 ht, hS,
      fun hf => hrun (runFrames_freeRun hf)⟩
  · rw [hpt] at hx ⊢
    obtain ⟨hout, ht⟩ := h.mapped x f hx hram
    exact ⟨hkeep f hout fun hrun => (h.reserved f hrun).2.2.2 x hx, ht⟩
  · rw [hpt] at hx hy
    exact h.alone x y f hx hy

/-- Building memory up keeps the invariant. -/
theorem builds (h : FrameUse regions S U m)
    (hdisj : (regions.map Region.rounded).Pairwise Region.Disjoint) (hb : Builds s m U m' V)
    (hgiven : ∀ f ∈ s.given, pageDown f ∈ S ∨ ¬ IsRam regions (pageDown f)) :
    FrameUse regions S V m' := by
  have halloc : ∀ {m m' : Mm} {V : Set ℕ} {got : Option ℕ}, FrameUse regions S V m →
      m.frameAlloc = (got, m') →
      FrameUse regions S (V ∪ {f | got = some f}) m' ∧
        ∀ f, got = some f → f ∉ V ∧ f ∉ runFrames m'.calls := by
    intro m m' V got h ha
    have hb : Builds ⟨∅, ∅, ∅⟩ m ∅ m' _ := Builds.refl.alloc ha
    have hnew : ∀ f, got = some f → f ∉ handedOut m.calls ∧ f ∈ handedOut m'.calls := by
      rintro f rfl
      exact fresh_of_frameAlloc hdisj h.run ha
    have hruns : runFrames m'.calls = runFrames m.calls := by
      rw [frameAlloc_calls ha, runFrames_snoc]
      rfl
    refine ⟨h.take hdisj (hb.run h.run) (Builds.frameAlloc_pt ha) (fun f hf => hb.handedOut hf) hnew
      fun f hf => .inl (hruns ▸ hf), fun f hf => ⟨fun hV => (hnew f hf).1 (h.reserved f hV).1, ?_⟩⟩
    rw [hruns]
    exact fun hrun => (hnew f hf).1 (handedOut_of_runFrames hrun)
  induction hb with
  | refl => exact h
  | bytes _ mem ih => exact { ih with }
  | leak _ hW ih => exact ih.leak hW
  | alloc _ ha ih => exact (halloc ih ha).1
  | @contiguous m₁ m₂ V n got _ hn ha ih =>
    have hb : Builds ⟨∅, ∅, ∅⟩ m₁ ∅ m₂ _ := Builds.refl.contiguous hn ha
    have hfresh : ∀ f, (∃ base, got = some base ∧ f ∈ blockRun frameSize base n) →
        f ∉ handedOut m₁.calls ∧ f ∈ handedOut m₂.calls := by
      rintro f ⟨base, rfl, hf⟩
      exact fresh_of_contiguous hdisj ih.run hn ha f hf
    refine ih.take hdisj (hb.run ih.run) (frameAllocContiguous_calls ha).2
      (fun f hf => hb.handedOut hf) hfresh fun f hf => ?_
    rw [(frameAllocContiguous_calls ha).1, runFrames_snoc] at hf
    refine (List.mem_append.mp hf).symm.imp_right fun hnew => (hfresh f ?_).1
    cases got with
    | none => cases hnew
    | some base => exact ⟨base, rfl, hnew⟩
  | space _ ha hs ih =>
    obtain ⟨hnext, hnot⟩ := halloc ih ha
    refine hnext.useTables Set.subset_union_left (fun f hf => ?_)
      fun x f hx => PageTables.userMaps_newSpace hx
    rcases PageTables.isTable_newSpace hf with hold | rfl
    · exact .inl hold
    · exact .inr ⟨⟨.inr rfl, (hnot _ rfl).1⟩, (hnot _ rfl).2⟩
  | table _ ha hs hnone ih =>
    obtain ⟨hnext, hnot⟩ := halloc ih ha
    refine hnext.useTables Set.subset_union_left (fun f hf => ?_)
      fun x f hx => PageTables.userMaps_setTable hx
    rcases PageTables.isTable_setTable hf with hold | rfl
    · exact .inl hold
    · exact .inr ⟨⟨.inr rfl, (hnot _ rfl).1⟩, (hnot _ rfl).2⟩
  | @leaf m₁ V W l4 page phys flags _ hs hnone hW hown ih =>
    refine ih.useLeaf hdisj hW (PageTables.home l4 page)
      (fun f hf => PageTables.isTable_setLeaf hf) fun x f hx => ?_
    rcases PageTables.userMaps_setLeaf hx with hold | ⟨rfl, huser, rfl⟩
    · exact .inl hold
    · refine .inr ⟨rfl, ?_⟩
      rcases (hown huser).2 with hg | ⟨hV, hnot⟩
      · exact (hgiven phys hg).imp_right .inl
      · -- a reserved frame is aligned, so the leaf maps that very frame
        rw [pageDown_of_dvd (ih.run.isRam hdisj (ih.reserved phys hV).1).2]
        exact .inr (.inr ⟨hV, hnot⟩)

end FrameUse
end Xernel
