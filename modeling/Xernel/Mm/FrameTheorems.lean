import Xernel.Mm.Frame
import Mathlib.Algebra.BigOperators.Group.List.Basic

/-!
# Soundness of the frame allocator

The representation invariant `Tracks a live` relates an allocator to the frames it has handed
out: both these and the frames on the free list lie behind the bump cursor, so a frame taken at
the cursor is new, and the two lists never meet, so a frame taken from the free list is new too.
Every call keeps it (`Tracks.alloc`, `Tracks.allocContiguous`, `Tracks.free`).
-/

namespace Xernel

namespace PhysFrameAllocator

variable {a a' : PhysFrameAllocator} {n fuel base f : ℕ}

/-- The frame at `f` is a frame of one of the regions. -/
def InRegion (a : PhysFrameAllocator) (f : ℕ) : Prop :=
  ∃ r ∈ a.regions, r.start ≤ f ∧ f + frameSize ≤ r.stop

lemma Ahead.inRegion (h : a.Ahead f) : a.InRegion f := by
  obtain ⟨j, r, hr, hlo, hhi, -⟩ := h
  exact ⟨r, List.mem_of_getElem? hr, hlo, hhi⟩

/-! ## The cursor -/

/-- Regions are aligned and disjoint, and the cursor is an aligned address of its region. -/
structure Laid (a : PhysFrameAllocator) : Prop where
  aligned : ∀ r ∈ a.regions, frameSize ∣ r.start
  disjoint : a.regions.Pairwise Region.Disjoint
  cursor : ∀ r, a.regions[a.regionIdx]? = some r → r.start ≤ a.cursor ∧ frameSize ∣ a.cursor

/-- What moving the bump cursor leaves alone, and that it only moves forward. -/
structure Advances (a a' : PhysFrameAllocator) : Prop where
  regions : a'.regions = a.regions
  freeList : a'.freeList = a.freeList
  totalFrames : a'.totalFrames = a.totalFrames
  ahead : ∀ f, a'.Ahead f → a.Ahead f

lemma Advances.refl (a : PhysFrameAllocator) : Advances a a :=
  ⟨rfl, rfl, rfl, fun _ h => h⟩

lemma Advances.trans {a'' : PhysFrameAllocator} (h : Advances a a') (h' : Advances a' a'') :
    Advances a a'' :=
  ⟨h'.regions.trans h.regions, h'.freeList.trans h.freeList, h'.totalFrames.trans h.totalFrames,
    fun f hf => h.ahead f (h'.ahead f hf)⟩

lemma Laid.nextRegion (h : a.Laid) : a.nextRegion.Laid := by
  refine ⟨h.aligned, h.disjoint, fun r hr => ?_⟩
  have hr' : a.regions[a.regionIdx + 1]? = some r := hr
  have hcur : a.nextRegion.cursor = r.start := by
    simp [PhysFrameAllocator.nextRegion, hr']
  rw [hcur]
  exact ⟨le_rfl, h.aligned r (List.mem_of_getElem? hr')⟩

lemma advances_nextRegion (a : PhysFrameAllocator) : Advances a a.nextRegion := by
  refine ⟨rfl, rfl, rfl, fun f hf => ?_⟩
  obtain ⟨j, r, hr, hlo, hhi, hpos⟩ := hf
  refine ⟨j, r, hr, hlo, hhi, Or.inl ?_⟩
  simp only [PhysFrameAllocator.nextRegion] at hpos
  omega

/-- Two regions of a laid-out allocator that share a frame are the same one. -/
lemma Laid.index_eq (h : a.Laid) {i j : ℕ} {r r' : Region} (hi : a.regions[i]? = some r)
    (hj : a.regions[j]? = some r') (hr : r.start ≤ f) (hr2 : f < r.stop) (hr' : r'.start ≤ f)
    (hr2' : f < r'.stop) : i = j := by
  obtain ⟨hi', rfl⟩ := List.getElem?_eq_some_iff.mp hi
  obtain ⟨hj', rfl⟩ := List.getElem?_eq_some_iff.mp hj
  have hpw := List.pairwise_iff_getElem.mp h.disjoint
  rcases Nat.lt_trichotomy i j with hlt | heq | hgt
  · have := hpw i j hi' hj' hlt f hr hr2 hr'
    omega
  · exact heq
  · have := hpw j i hj' hi' hgt f hr' hr2' hr
    omega

/-- A run taken at the cursor: it lies in one region, was ahead of the cursor and is not
any more. -/
structure TakesRun (a a' : PhysFrameAllocator) (base n : ℕ) : Prop where
  advances : Advances a a'
  inUse : a'.inUse = a.inUse + n
  aligned : frameSize ∣ base
  region : ∃ r ∈ a.regions, r.start ≤ base ∧ base + n * frameSize ≤ r.stop
  was_ahead : ∀ f ∈ blockRun frameSize base n, a.Ahead f
  not_ahead : ∀ f ∈ blockRun frameSize base n, ¬ a'.Ahead f

/-- The loop either takes a run at the cursor, or finds no room and hands out nothing. -/
lemma bump_spec (h : a.Laid) : ∀ {got}, bump n fuel a = (got, a') → a'.Laid ∧
    (∀ base, got = some base → TakesRun a a' base n) ∧
    (got = none → Advances a a' ∧ a'.inUse = a.inUse) := by
  induction fuel generalizing a with
  | zero =>
    intro got hb
    obtain ⟨rfl, rfl⟩ := Prod.mk.inj hb
    exact ⟨h, by simp, fun _ => ⟨.refl _, rfl⟩⟩
  | succ fuel ih =>
    intro got hb
    rw [bump] at hb
    split at hb
    · obtain ⟨rfl, rfl⟩ := Prod.mk.inj hb
      exact ⟨h, by simp, fun _ => ⟨.refl _, rfl⟩⟩
    next region hr =>
    have hmem : region ∈ a.regions := List.mem_of_getElem? hr
    obtain ⟨hlo, hal⟩ := h.cursor region hr
    split at hb
    next hroom =>
      obtain ⟨rfl, rfl⟩ := Prod.mk.inj hb
      have hal' : frameSize ∣ a.cursor + n * frameSize := Nat.dvd_add hal (Nat.dvd_mul_left _ _)
      refine ⟨⟨h.aligned, h.disjoint, fun r hr' => ?_⟩, fun base hbase => ?_, by simp⟩
      · obtain rfl : region = r := Option.some.inj (hr.symm.trans hr')
        exact ⟨Nat.le_trans hlo (Nat.le_add_right _ _), hal'⟩
      obtain rfl : a.cursor = base := Option.some.inj hbase
      refine ⟨⟨rfl, rfl, rfl, fun f hf => ?_⟩, rfl, hal, ⟨region, hmem, hlo, hroom⟩,
        fun f hf => ?_, fun f hf hahead => ?_⟩
      · obtain ⟨j, r, hj, hl, hh, hpos⟩ := hf
        refine ⟨j, r, hj, hl, hh, ?_⟩
        simp only at hpos
        omega
      · obtain ⟨hl, hh⟩ := blockRun_bounds hf
        exact ⟨a.regionIdx, region, hr, by omega, by omega, Or.inr ⟨rfl, hl⟩⟩
      · -- a frame of the run lies in the current region only, and there behind the cursor
        obtain ⟨hl, hh⟩ := blockRun_bounds hf
        obtain ⟨j, r, hj, hjl, hjh, hpos⟩ := hahead
        have hfs := frameSize_pos
        have hidx : a.regionIdx = j :=
          h.index_eq hr hj (f := f) (by omega) (by omega) hjl (by omega)
        simp only at hpos
        omega
    next =>
      obtain ⟨hlaid, hsome, hnone⟩ := ih h.nextRegion hb
      have hadv := advances_nextRegion a
      refine ⟨hlaid, fun base hbase => ?_, fun hno => ?_⟩
      · obtain ⟨hadv', hin, hal', hreg, hwas, hnot⟩ := hsome base hbase
        exact ⟨hadv.trans hadv', hin, hal', hreg, fun f hf => hadv.ahead f (hwas f hf), hnot⟩
      · obtain ⟨hadv', hin⟩ := hnone hno
        exact ⟨hadv.trans hadv', hin⟩

/-! ## The representation invariant -/

/-- `a` represents a pool that has handed out `live`. -/
structure Tracks (a : PhysFrameAllocator) (live : List ℕ) : Prop where
  laid : a.Laid
  free_nodup : a.freeList.Nodup
  live_nodup : live.Nodup
  apart : ∀ f ∈ live, f ∉ a.freeList
  settled : ∀ f, f ∈ a.freeList ∨ f ∈ live → frameSize ∣ f ∧ a.InRegion f ∧ ¬ a.Ahead f
  inUse : a.inUse = live.length

variable {live : List ℕ}

/-- A run taken at the cursor is new to the pool. -/
lemma Tracks.takesRun (h : a.Tracks live) (hlaid : a'.Laid) (hrun : TakesRun a a' base n) :
    a'.Tracks (blockRun frameSize base n ++ live) := by
  have hnew : ∀ f ∈ blockRun frameSize base n, f ∉ a.freeList ∧ f ∉ live := by
    intro f hf
    have hah := hrun.was_ahead f hf
    exact ⟨fun hfree => (h.settled f (Or.inl hfree)).2.2 hah,
      fun hlive => (h.settled f (Or.inr hlive)).2.2 hah⟩
  have hsettled : ∀ f, f ∈ a.freeList ∨ f ∈ live →
      frameSize ∣ f ∧ a'.InRegion f ∧ ¬ a'.Ahead f := by
    intro f hf
    obtain ⟨hal, hin, hna⟩ := h.settled f hf
    refine ⟨hal, ?_, fun hah => hna (hrun.advances.ahead f hah)⟩
    rwa [InRegion, hrun.advances.regions]
  refine ⟨hlaid, by rw [hrun.advances.freeList]; exact h.free_nodup, ?_, ?_, ?_, ?_⟩
  · exact List.Nodup.append (nodup_blockRun frameSize_pos) h.live_nodup
      fun f hf hlive => (hnew f hf).2 hlive
  · intro f hf
    rw [hrun.advances.freeList]
    rcases List.mem_append.mp hf with hf | hf
    · exact (hnew f hf).1
    · exact h.apart f hf
  · intro f hf
    rw [hrun.advances.freeList, List.mem_append] at hf
    rcases hf with hf | hf | hf
    · exact hsettled f (Or.inl hf)
    · refine ⟨dvd_of_mem_blockRun hrun.aligned hf, ?_, hrun.not_ahead f hf⟩
      rw [InRegion, hrun.advances.regions]
      exact (hrun.was_ahead f hf).inRegion
    · exact hsettled f (Or.inr hf)
  · rw [hrun.inUse, h.inUse, List.length_append, length_blockRun, Nat.add_comm]

/-- Moving the cursor without taking anything keeps the invariant. -/
lemma Tracks.advances (h : a.Tracks live) (hlaid : a'.Laid) (hadv : Advances a a')
    (hin : a'.inUse = a.inUse) : a'.Tracks live := by
  refine ⟨hlaid, by rw [hadv.freeList]; exact h.free_nodup, h.live_nodup, fun f hf => ?_,
    fun f hf => ?_, hin.trans h.inUse⟩
  · rw [hadv.freeList]; exact h.apart f hf
  · rw [hadv.freeList] at hf
    obtain ⟨hal, hreg, hna⟩ := h.settled f hf
    exact ⟨hal, by rwa [InRegion, hadv.regions], fun hah => hna (hadv.ahead f hah)⟩

/-- The loop hands out `n` new frames, or nothing. -/
lemma Tracks.bump (h : a.Tracks live) {got : Option ℕ} (hb : bump n fuel a = (got, a')) :
    a'.Tracks (got.elim [] (fun base => blockRun frameSize base n) ++ live) := by
  obtain ⟨hlaid, hsome, hnone⟩ := bump_spec h.laid hb
  cases got with
  | none =>
    obtain ⟨hadv, hin⟩ := hnone rfl
    exact h.advances hlaid hadv hin
  | some base => exact h.takesRun hlaid (hsome base rfl)

lemma Tracks.alloc (h : a.Tracks live) {got : Option ℕ} (ha : a.alloc = (got, a')) :
    a'.Tracks (got.toList ++ live) := by
  unfold PhysFrameAllocator.alloc at ha
  split at ha
  next pa rest hfree =>
    -- the head of the free list moves to the handed-out frames
    obtain ⟨rfl, rfl⟩ := Prod.mk.inj ha
    obtain ⟨hpa, hrest⟩ := List.nodup_cons.mp (hfree ▸ h.free_nodup)
    have hmem : pa ∈ a.freeList := by simp [hfree]
    refine ⟨⟨h.laid.aligned, h.laid.disjoint, h.laid.cursor⟩, hrest, ?_, ?_, ?_, ?_⟩
    · exact List.nodup_cons.mpr ⟨fun hl => h.apart pa hl hmem, h.live_nodup⟩
    · intro f hf hrestf
      rcases List.mem_cons.mp hf with rfl | hf
      · exact hpa hrestf
      · exact h.apart f hf (by simp [hfree, hrestf])
    · intro f hf
      refine h.settled f ?_
      rcases hf with hf | hf
      · exact Or.inl (by simp [hfree, hf])
      · rcases List.mem_cons.mp hf with rfl | hf
        · exact Or.inl hmem
        · exact Or.inr hf
    · simp [h.inUse]
  next =>
    have hb := h.bump ha
    cases got with
    | none => exact hb
    | some base => simpa [blockRun_one] using hb

lemma Tracks.allocContiguous (h : a.Tracks live) {got : Option ℕ}
    (ha : a.allocContiguous n = (got, a')) :
    a'.Tracks (got.elim [] (fun base => blockRun frameSize base n) ++ live) := by
  unfold PhysFrameAllocator.allocContiguous at ha
  split at ha
  · obtain ⟨rfl, rfl⟩ := Prod.mk.inj ha
    exact h
  · exact h.bump ha

lemma Tracks.free (h : a.Tracks live) {pa : ℕ} (hpa : pa ∈ live) :
    (a.free pa).Tracks (live.erase pa) := by
  have hsub : ∀ f ∈ live.erase pa, f ∈ live := fun f hf => List.mem_of_mem_erase hf
  refine ⟨⟨h.laid.aligned, h.laid.disjoint, h.laid.cursor⟩, ?_, h.live_nodup.erase pa, ?_, ?_, ?_⟩
  · exact List.nodup_cons.mpr ⟨h.apart pa hpa, h.free_nodup⟩
  · intro f hf hfree
    rcases List.mem_cons.mp hfree with rfl | hfree
    · exact h.live_nodup.not_mem_erase hf
    · exact h.apart f (hsub f hf) hfree
  · intro f hf
    refine h.settled f ?_
    rcases hf with hf | hf
    · rcases List.mem_cons.mp hf with rfl | hf
      · exact Or.inr hpa
      · exact Or.inl hf
    · exact Or.inr (hsub f hf)
  · show a.inUse - 1 = _
    rw [List.length_erase_of_mem hpa, h.inUse]

/-! ## Counting frames -/

/-- All frames of the allocator's regions. -/
def allFrames (a : PhysFrameAllocator) : List ℕ :=
  a.regions.flatMap fun r => blockRun frameSize r.start ((r.stop - r.start) / frameSize)

lemma length_allFrames (a : PhysFrameAllocator) :
    a.allFrames.length = (a.regions.map fun r => (r.stop - r.start) / frameSize).sum := by
  simp [allFrames, List.length_flatMap]

lemma mem_allFrames (hal : ∀ r ∈ a.regions, frameSize ∣ r.start) (hf : frameSize ∣ f)
    (hin : a.InRegion f) : f ∈ a.allFrames := by
  obtain ⟨r, hr, hlo, hhi⟩ := hin
  refine List.mem_flatMap.mpr ⟨r, hr, ?_⟩
  refine mem_blockRun_of_bounds frameSize_pos (hal r hr) hf hlo ?_
  have hfs := frameSize_pos
  obtain ⟨k, hk⟩ := hal r hr
  obtain ⟨m, hm⟩ := hf
  have hkm : k ≤ m := Nat.le_of_mul_le_mul_left (by rw [← hk, ← hm]; exact hlo) hfs
  obtain ⟨d, rfl⟩ := Nat.exists_eq_add_of_le hkm
  have hfd : f = r.start + d * frameSize := by rw [hk, hm]; ring
  -- `d + 1` whole frames fit between `r.start` and `f + frameSize`
  have hcount : d + 1 ≤ (r.stop - r.start) / frameSize := by
    rw [Nat.le_div_iff_mul_le hfs, Nat.add_mul, Nat.one_mul]
    omega
  have hmul := Nat.mul_le_mul_right frameSize hcount
  rw [Nat.add_mul, Nat.one_mul] at hmul
  omega

/-- No more frames are handed out than the regions have. -/
lemma Tracks.length_le (h : a.Tracks live) : live.length ≤ a.allFrames.length := by
  have hsub : live ⊆ a.allFrames := fun f hf => by
    obtain ⟨hal, hin, -⟩ := h.settled f (Or.inr hf)
    exact mem_allFrames h.laid.aligned hal hin
  exact (h.live_nodup.subperm hsub).length_le

end PhysFrameAllocator

/-! ## Runs of the allocator -/

open PhysFrameAllocator

lemma handedOut_snoc (calls : List FrameCall) (c : FrameCall) :
    handedOut (calls ++ [c]) = PoolOp.apply (handedOut calls) c.poolOp := by
  simp [handedOut]

lemma runFrames_snoc (calls : List FrameCall) (c : FrameCall) :
    runFrames (calls ++ [c]) = PoolOp.apply (runFrames calls) c.runOp := by
  simp [runFrames]

/-- What is handed out in contiguous runs is handed out. -/
lemma runFrames_sublist (calls : List FrameCall) :
    (runFrames calls).Sublist (handedOut calls) := by
  induction calls using List.reverseRecOn with
  | nil => exact List.Sublist.slnil
  | append_singleton calls c ih =>
    rw [runFrames_snoc, handedOut_snoc]
    cases c with
    | alloc got => exact ih.trans (List.sublist_append_right _ _)
    | allocContiguous n got => exact (List.Sublist.refl _).append ih
    | free pa => exact ih.erase pa

lemma handedOut_of_runFrames {calls : List FrameCall} {f : ℕ} (h : f ∈ runFrames calls) :
    f ∈ handedOut calls := (runFrames_sublist calls).subset h

lemma FrameCall.give_mem_poolOp {calls : List FrameCall} {pa : ℕ} :
    .give pa ∈ calls.map FrameCall.poolOp ↔ .free pa ∈ calls := by
  refine ⟨fun h => ?_, fun h => List.mem_map_of_mem h⟩
  obtain ⟨c, hc, hop⟩ := List.mem_map.mp h
  cases c <;> cases hop
  exact hc

lemma FrameCall.give_mem_runOp {calls : List FrameCall} {pa : ℕ} :
    .give pa ∈ calls.map FrameCall.runOp ↔ .free pa ∈ calls := by
  refine ⟨fun h => ?_, fun h => List.mem_map_of_mem h⟩
  obtain ⟨c, hc, hop⟩ := List.mem_map.mp h
  cases c <;> cases hop
  exact hc

/-- A frame stays in use until it is freed. -/
lemma handedOut_append {calls later : List FrameCall} {f : ℕ} (hf : f ∈ handedOut calls)
    (hkeep : .free f ∉ later) : f ∈ handedOut (calls ++ later) := by
  rw [handedOut, List.map_append]
  exact PoolOp.mem_outstanding_of_not_given hf (mt FrameCall.give_mem_poolOp.mp hkeep)

/-- A frame of a contiguous run stays one until it is freed. -/
lemma runFrames_append {calls later : List FrameCall} {f : ℕ} (hf : f ∈ runFrames calls)
    (hkeep : .free f ∉ later) : f ∈ runFrames (calls ++ later) := by
  rw [runFrames, List.map_append]
  exact PoolOp.mem_outstanding_of_not_given hf (mt FrameCall.give_mem_runOp.mp hkeep)

/-- New frames in contiguous runs come from `alloc_contiguous`. -/
lemma runFrames_new {calls later : List FrameCall} {f : ℕ} (hf : f ∈ runFrames (calls ++ later))
    (hnot : f ∉ runFrames calls) : ∃ n base, .allocContiguous n (some base) ∈ later ∧
      f ∈ blockRun frameSize base n := by
  induction later using List.reverseRecOn with
  | nil => exact absurd (by simpa using hf) hnot
  | append_singleton later c ih =>
    have hlater : f ∈ runFrames (calls ++ later) → ∃ n base,
        .allocContiguous n (some base) ∈ later ++ [c] ∧ f ∈ blockRun frameSize base n := by
      intro hmem
      obtain ⟨n, base, hc, hin⟩ := ih hmem
      exact ⟨n, base, List.mem_append_left _ hc, hin⟩
    rw [← List.append_assoc, runFrames_snoc] at hf
    cases c with
    | alloc got => exact hlater hf
    | free pa => exact hlater (List.mem_of_mem_erase hf)
    | allocContiguous n got =>
      rcases List.mem_append.mp hf with hf | hf
      · cases got with
        | none => cases hf
        | some base => exact ⟨n, base, by simp, hf⟩
      · exact hlater hf

lemma Region.Disjoint.symm {r r' : Region} (h : r.Disjoint r') : r'.Disjoint r := by
  intro x hlo hhi hlo'
  by_contra hlt
  have := h x hlo' (Nat.lt_of_not_le hlt) hlo
  omega

/-- Rounding shrinks a region, so disjoint regions stay disjoint. -/
lemma Region.Disjoint.rounded {r r' : Region} (h : r.Disjoint r') :
    r.rounded.Disjoint r'.rounded := by
  intro x hlo hhi hlo'
  by_contra hlt
  have h₁ := Nat.le_trans (le_pageUp r.start) hlo
  have h₂ := Nat.lt_of_lt_of_le hhi (pageDown_le r.stop)
  have h₃ := Nat.le_trans (le_pageUp r'.start) hlo'
  have h₄ := Nat.lt_of_lt_of_le (Nat.lt_of_not_le hlt) (pageDown_le r'.stop)
  have := h x h₁ h₂ h₃
  omega

section AllocatorRun

variable {regions : List Region} {a : PhysFrameAllocator} {calls : List FrameCall}

/-- A fresh allocator has handed out nothing. -/
lemma tracks_new (hdisj : (regions.map Region.rounded).Pairwise Region.Disjoint) :
    (PhysFrameAllocator.new regions).Tracks [] := by
  have hal : ∀ r ∈ (PhysFrameAllocator.new regions).regions, frameSize ∣ r.start := by
    intro r hr
    obtain ⟨r₀, -, rfl⟩ := List.mem_map.mp (List.mem_filter.mp hr).1
    exact frameSize_dvd_pageUp _
  refine ⟨⟨hal, hdisj.filter _, fun r hr => ?_⟩, List.nodup_nil, List.nodup_nil, by simp,
    by simp [PhysFrameAllocator.new], rfl⟩
  have hr' : (PhysFrameAllocator.new regions).regions[0]? = some r := hr
  have hcur : (PhysFrameAllocator.new regions).cursor = r.start := by
    show ((PhysFrameAllocator.new regions).regions.head?).elim 0 Region.start = r.start
    rw [List.head?_eq_getElem?, hr']
    rfl
  rw [hcur]
  exact ⟨le_rfl, hal r (List.mem_of_getElem? hr')⟩

/-- Every reachable allocator represents the frames its callers hold. -/
theorem AllocatorRun.tracks (h : AllocatorRun regions a calls)
    (hdisj : (regions.map Region.rounded).Pairwise Region.Disjoint) :
    a.Tracks (handedOut calls) := by
  induction h with
  | new => exact tracks_new hdisj
  | @alloc a a' calls got _ ha ih =>
    rw [handedOut_snoc]
    exact ih.alloc ha
  | @allocContiguous a a' calls n got _ _ ha ih =>
    rw [handedOut_snoc]
    exact ih.allocContiguous ha
  | @free a calls pa _ hpa ih =>
    rw [handedOut_snoc]
    exact ih.free hpa

/-- The calls of a reachable allocator are a sound pool history: what it hands out is new. -/
theorem AllocatorRun.sound (h : AllocatorRun regions a calls)
    (hdisj : (regions.map Region.rounded).Pairwise Region.Disjoint) :
    PoolOp.Sound (calls.map FrameCall.poolOp) := by
  -- after a `take` the outstanding frames are the batch and the old ones, without duplicates
  have htake : ∀ {calls : List FrameCall} {c : FrameCall} {xs : List ℕ} {a' : PhysFrameAllocator},
      PoolOp.Sound (calls.map FrameCall.poolOp) → c.poolOp = .take xs →
      a'.Tracks (handedOut (calls ++ [c])) →
      PoolOp.Sound ((calls ++ [c]).map FrameCall.poolOp) := by
    intro calls c xs a' hs hc ht
    rw [handedOut_snoc, hc] at ht
    have hnd : (xs ++ handedOut calls).Nodup := ht.live_nodup
    rw [List.map_append, List.map_singleton, hc]
    exact hs.take hnd.of_append_left fun x hx hout => List.disjoint_of_nodup_append hnd hx hout
  induction h with
  | new => exact PoolOp.sound_nil
  | alloc h ha ih => exact htake ih rfl ((h.alloc ha).tracks hdisj)
  | allocContiguous h hn ha ih => exact htake ih rfl ((h.allocContiguous hn ha).tracks hdisj)
  | free h hpa ih =>
    rw [List.map_append, List.map_singleton]
    exact ih.give _

lemma bump_static (n fuel : ℕ) (a : PhysFrameAllocator) :
    (bump n fuel a).2.regions = a.regions ∧ (bump n fuel a).2.totalFrames = a.totalFrames := by
  induction fuel generalizing a with
  | zero => exact ⟨rfl, rfl⟩
  | succ fuel ih =>
    rw [bump]
    split
    · exact ⟨rfl, rfl⟩
    · split
      · exact ⟨rfl, rfl⟩
      · exact ih a.nextRegion

/-- The regions and their size are fixed at creation. -/
lemma AllocatorRun.static (h : AllocatorRun regions a calls) :
    a.regions = (PhysFrameAllocator.new regions).regions ∧
      a.totalFrames = a.allFrames.length := by
  have hkey : a.regions = (PhysFrameAllocator.new regions).regions ∧
      a.totalFrames = (PhysFrameAllocator.new regions).totalFrames := by
    induction h with
    | new => exact ⟨rfl, rfl⟩
    | @alloc a a' calls got _ ha ih =>
      obtain rfl : a.alloc.2 = a' := by rw [ha]
      unfold PhysFrameAllocator.alloc
      split
      · exact ih
      · obtain ⟨h₁, h₂⟩ := bump_static 1 (a.regions.length - a.regionIdx) a
        exact ⟨h₁.trans ih.1, h₂.trans ih.2⟩
    | @allocContiguous a a' calls n got _ _ ha ih =>
      obtain rfl : (a.allocContiguous n).2 = a' := by rw [ha]
      unfold PhysFrameAllocator.allocContiguous
      split
      · exact ih
      · obtain ⟨h₁, h₂⟩ := bump_static n (a.regions.length - a.regionIdx) a
        exact ⟨h₁.trans ih.1, h₂.trans ih.2⟩
    | free _ _ ih => exact ih
  refine ⟨hkey.1, ?_⟩
  rw [length_allFrames, hkey.1, hkey.2]
  rfl

/-- A region of a reachable allocator is the rounded form of an input region. -/
lemma AllocatorRun.mem_regions (h : AllocatorRun regions a calls) {r : Region}
    (hr : r ∈ a.regions) : ∃ r₀ ∈ regions, r₀.rounded = r := by
  rw [h.static.1] at hr
  exact List.mem_map.mp (List.mem_filter.mp hr).1

/-- The cursor never leaves the address range of the regions. -/
lemma bump_cursor_le (bound n fuel : ℕ) (a : PhysFrameAllocator)
    (hreg : ∀ r ∈ a.regions, r.start ≤ bound ∧ r.stop ≤ bound) (hc : a.cursor ≤ bound) :
    (bump n fuel a).2.cursor ≤ bound := by
  induction fuel generalizing a with
  | zero => exact hc
  | succ fuel ih =>
    rw [bump]
    split
    · exact hc
    next region hr =>
    split
    next hroom => exact Nat.le_trans hroom (hreg region (List.mem_of_getElem? hr)).2
    next =>
      refine ih a.nextRegion hreg ?_
      show (a.regions[a.regionIdx + 1]?).elim a.cursor Region.start ≤ bound
      cases hnext : a.regions[a.regionIdx + 1]? with
      | none => exact hc
      | some r => exact (hreg r (List.mem_of_getElem? hnext)).1

lemma AllocatorRun.cursor_le (h : AllocatorRun regions a calls) {bound : ℕ}
    (hreg : ∀ r ∈ regions, r.rounded.start ≤ bound ∧ r.rounded.stop ≤ bound) :
    a.cursor ≤ bound := by
  have hreg' : ∀ {a : PhysFrameAllocator} {calls : List FrameCall},
      AllocatorRun regions a calls → ∀ r ∈ a.regions, r.start ≤ bound ∧ r.stop ≤ bound := by
    intro a calls h r hr
    obtain ⟨r₀, hr₀, rfl⟩ := h.mem_regions hr
    exact hreg r₀ hr₀
  induction h with
  | new =>
    show ((PhysFrameAllocator.new regions).regions.head?).elim 0 Region.start ≤ bound
    cases hd : (PhysFrameAllocator.new regions).regions.head? with
    | none => exact Nat.zero_le _
    | some r => exact (hreg' .new r (List.mem_of_mem_head? hd)).1
  | @alloc a a' calls got h ha ih =>
    obtain rfl : a.alloc.2 = a' := by rw [ha]
    unfold PhysFrameAllocator.alloc
    split
    · exact ih
    · exact bump_cursor_le bound 1 _ a (hreg' h) ih
  | @allocContiguous a a' calls n got h _ ha ih =>
    obtain rfl : (a.allocContiguous n).2 = a' := by rw [ha]
    unfold PhysFrameAllocator.allocContiguous
    split
    · exact ih
    · exact bump_cursor_le bound n _ a (hreg' h) ih
  | free _ _ ih => exact ih

/-- With input addresses below `2 ^ 52` no sum the allocator forms reaches `2 ^ 64`. -/
theorem AllocatorRun.no_overflow (h : AllocatorRun regions a calls)
    (hbound : ∀ r ∈ regions, r.start < 2 ^ 52 ∧ r.stop < 2 ^ 52) {n : ℕ} (hn : n < 2 ^ 40) :
    a.cursor + n * frameSize < 2 ^ 64 := by
  have hcur : a.cursor ≤ 2 ^ 52 := by
    refine h.cursor_le fun r hr => ?_
    obtain ⟨hs, he⟩ := hbound r hr
    simp only [Region.rounded, pageUp, pageDown, frameSize]
    omega
  simp only [frameSize]
  omega

/-- A contiguous run that was handed out lies inside one region. -/
lemma AllocatorRun.contiguous_region (h : AllocatorRun regions a calls)
    (hdisj : (regions.map Region.rounded).Pairwise Region.Disjoint) {n base : ℕ}
    (hmem : FrameCall.allocContiguous n (some base) ∈ calls) :
    frameSize ∣ base ∧
      ∃ r ∈ regions, r.rounded.start ≤ base ∧ base + n * frameSize ≤ r.rounded.stop := by
  induction h with
  | new => simp at hmem
  | alloc _ _ ih => exact ih (by simpa using hmem)
  | @allocContiguous a a' calls m got h _ ha ih =>
    rcases List.mem_append.mp hmem with hold | hnew
    · exact ih hold
    · obtain ⟨rfl, rfl⟩ : n = m ∧ some base = got := by simpa using hnew
      unfold PhysFrameAllocator.allocContiguous at ha
      split at ha
      · simp at ha
      · have hrun := (bump_spec (h.tracks hdisj).laid ha).2.1 base rfl
        obtain ⟨r, hr, hlo, hhi⟩ := hrun.region
        obtain ⟨r₀, hr₀, rfl⟩ := h.mem_regions hr
        exact ⟨hrun.aligned, r₀, hr₀, hlo, hhi⟩
  | free _ _ ih => exact ih (by simpa using hmem)

/-- **Frame allocator soundness.** Whatever the order of calls, the frames currently handed out
are distinct, aligned and each inside one rounded region, contiguous runs lie in one region,
no handed-out frame is on the free list, `stats` counts the handed-out frames exactly, and no
sum the allocator forms overflows. -/
theorem frameAllocator_sound (hbound : ∀ r ∈ regions, r.start < 2 ^ 52 ∧ r.stop < 2 ^ 52)
    (hdisj : (regions.map Region.rounded).Pairwise Region.Disjoint)
    (h : AllocatorRun regions a calls) :
    (handedOut calls).Nodup ∧
    (∀ f ∈ handedOut calls, frameSize ∣ f ∧
      ∃ r ∈ regions, r.rounded.start ≤ f ∧ f + frameSize ≤ r.rounded.stop) ∧
    (∀ n base, FrameCall.allocContiguous n (some base) ∈ calls → frameSize ∣ base ∧
      ∃ r ∈ regions, r.rounded.start ≤ base ∧ base + n * frameSize ≤ r.rounded.stop) ∧
    (∀ f ∈ handedOut calls, f ∉ a.freeList) ∧
    a.stats.1 = (handedOut calls).length ∧ a.stats.1 ≤ a.stats.2 ∧
    (∀ n < 2 ^ 40, a.cursor + n * frameSize < 2 ^ 64) := by
  have ht := h.tracks hdisj
  refine ⟨ht.live_nodup, fun f hf => ?_, fun n base hmem => h.contiguous_region hdisj hmem,
    ht.apart, ht.inUse, ?_, fun n hn => h.no_overflow hbound hn⟩
  · obtain ⟨hal, ⟨r, hr, hlo, hhi⟩, -⟩ := ht.settled f (Or.inr hf)
    obtain ⟨r₀, hr₀, rfl⟩ := h.mem_regions hr
    exact ⟨hal, r₀, hr₀, hlo, hhi⟩
  · show a.inUse ≤ a.totalFrames
    rw [ht.inUse, h.static.2]
    exact ht.length_le

end AllocatorRun

/-- Two regions, one of them ragged; three frames handed out, one given back. -/
theorem frameAllocator_sound_two_regions :
    ((handedOut [.alloc (some 4096), .allocContiguous 2 (some 0x10000), .free 4096]).Nodup ∧
      0x11000 ∈ handedOut [.alloc (some 4096), .allocContiguous 2 (some 0x10000), .free 4096]) := by
  have hrun : AllocatorRun [⟨100, 0x2000⟩, ⟨0x10000, 0x20000⟩] _
      [.alloc (some 4096), .allocContiguous 2 (some 0x10000), .free 4096] :=
    .free (.allocContiguous (.alloc .new rfl) (by decide) rfl) (by decide)
  refine ⟨(frameAllocator_sound ?_ ?_ hrun).1, by decide⟩
  · decide
  · simp only [List.map_cons, List.map_nil, List.pairwise_cons, Region.Disjoint, Region.rounded,
      pageUp, pageDown, frameSize]
    refine ⟨fun r hr x hlo hhi hlo' => ?_, by simp⟩
    obtain rfl : r = _ := by simpa using hr
    simp only at hlo hhi hlo' ⊢
    omega

end Xernel
