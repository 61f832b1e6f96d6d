import Mathlib.Data.List.TakeWhile
import Xernel.Lib.Run
import Xernel.Mm.FrameTheorems

/-!
# The frames that are left

What the allocator can still hand out is a list of rooms: the frames that the bump cursor has not reached,
region by region from the current one on. `alloc` leaves a room only when it is empty;
`alloc_contiguous` also leaves rooms that are too small for it, and the frames in them are lost to every
later call.
-/

namespace Xernel

/-- The number of whole frames in a region. -/
def Region.frames (r : Region) : ℕ := (r.stop - r.start) / frameSize

namespace PhysFrameAllocator

variable {a a' b : PhysFrameAllocator} {n fuel pa : ℕ} {got : Option ℕ}

/-- The frames that the bump cursor has not reached, region by region from the current one on. -/
def rooms (a : PhysFrameAllocator) : List ℕ :=
  match a.regions[a.regionIdx]? with
  | none => []
  | some r =>
    (r.stop - a.cursor) / frameSize :: (a.regions.drop (a.regionIdx + 1)).map Region.frames

/-- The number of frames that `alloc` can still hand out. -/
def available (a : PhysFrameAllocator) : ℕ := a.freeList.length + a.rooms.sum

/-- The rooms after `n` frames were taken from the first room with that many, the rooms before it left
behind. -/
def takeRoom (n : ℕ) (rooms : List ℕ) : List ℕ :=
  match rooms.dropWhile (· < n) with
  | [] => []
  | m :: rest => (m - n) :: rest

lemma takeRoom_of_le {m : ℕ} {rest : List ℕ} (h : n ≤ m) :
    takeRoom n (m :: rest) = (m - n) :: rest := by
  unfold takeRoom
  rw [List.dropWhile_cons_of_neg (by simpa using h)]

lemma takeRoom_of_lt {m : ℕ} {rest : List ℕ} (h : m < n) :
    takeRoom n (m :: rest) = takeRoom n rest := by
  unfold takeRoom
  rw [List.dropWhile_cons_of_pos (by simpa using h)]

/-- The first room with a frame left has at least `n` of them, if there is one. -/
def FirstFits (n : ℕ) (rooms : List ℕ) : Prop := ∀ m ∈ (rooms.dropWhile (· < 1)).head?, n ≤ m

/-- When the first room fits, only empty rooms are left behind. -/
lemma sum_takeRoom (rooms : List ℕ) (hn : 1 ≤ n) (hfits : FirstFits n rooms) :
    (rooms.dropWhile (· < n) = [] → rooms.sum = 0) ∧
      (rooms.dropWhile (· < n) ≠ [] → (takeRoom n rooms).sum + n = rooms.sum) := by
  induction rooms with
  | nil => exact ⟨fun _ => rfl, fun h => absurd rfl h⟩
  | cons m rest ih =>
    by_cases hzero : m < 1
    · -- an empty room is passed by
      have hm : m = 0 := by omega
      have hfits' : FirstFits n rest := by
        unfold FirstFits at hfits ⊢
        rwa [List.dropWhile_cons_of_pos (by simpa using hm)] at hfits
      obtain ⟨hnone, hsome⟩ := ih hfits'
      rw [takeRoom_of_lt (by omega), List.dropWhile_cons_of_pos (by simp; omega), List.sum_cons, hm]
      exact ⟨fun h => by rw [hnone h], fun h => by rw [hsome h, Nat.zero_add]⟩
    · have hle : n ≤ m := by
        refine hfits m ?_
        rw [List.dropWhile_cons_of_neg (by simpa using hzero)]
        rfl
      rw [takeRoom_of_le hle, List.dropWhile_cons_of_neg (by simpa using hle), List.sum_cons,
        List.sum_cons]
      exact ⟨fun h => absurd h (by simp), fun _ => by omega⟩

/-- Taking frames one at a time always fits. -/
lemma firstFits_one (rooms : List ℕ) : FirstFits 1 rooms := by
  intro m hm
  have hne := List.head?_dropWhile_not (fun m => decide (m < 1)) rooms
  rw [Option.mem_def.mp hm] at hne
  simpa [Nat.one_le_iff_ne_zero] using hne

/-! ## What the calls do to the rooms -/

lemma rooms_nextRegion {r : Region} (hr : a.regions[a.regionIdx]? = some r) :
    a.nextRegion.rooms = a.rooms.tail := by
  unfold rooms
  rw [hr]
  dsimp only [nextRegion, List.tail_cons]
  cases hnext : a.regions[a.regionIdx + 1]? with
  | none =>
    rw [List.drop_eq_nil_of_le (List.getElem?_eq_none_iff.mp hnext)]
    rfl
  | some r' =>
    obtain ⟨hlt, rfl⟩ := List.getElem?_eq_some_iff.mp hnext
    rw [List.drop_eq_getElem_cons hlt]
    rfl

/-- The loop that moves the bump cursor, as it acts on the rooms. -/
lemma bump_rooms (hn : 1 ≤ n) : ∀ (fuel : ℕ) (a : PhysFrameAllocator),
    a.regions.length - a.regionIdx ≤ fuel →
    (bump n fuel a).2.rooms = takeRoom n a.rooms ∧
      ((bump n fuel a).1 = none ↔ a.rooms.dropWhile (· < n) = []) ∧
      (bump n fuel a).2.freeList = a.freeList ∧
      (bump n fuel a).2.inUse = a.inUse + ((bump n fuel a).1.elim 0 fun _ => n) := by
  intro fuel
  induction fuel with
  | zero =>
    intro a hfuel
    have hnone : a.regions[a.regionIdx]? = none := List.getElem?_eq_none_iff.mpr (by omega)
    have hrooms : a.rooms = [] := by
      unfold rooms
      rw [hnone]
    rw [bump, hrooms]
    exact ⟨rfl, iff_of_true rfl rfl, rfl, rfl⟩
  | succ fuel ih =>
    intro a hfuel
    unfold bump
    cases hr : a.regions[a.regionIdx]? with
    | none =>
      have hrooms : a.rooms = [] := by
        unfold rooms
        rw [hr]
      dsimp only
      rw [hrooms]
      exact ⟨rfl, iff_of_true rfl rfl, rfl, rfl⟩
    | some r =>
      have hrooms : a.rooms = (r.stop - a.cursor) / frameSize ::
          (a.regions.drop (a.regionIdx + 1)).map Region.frames := by
        unfold rooms
        rw [hr]
      have hfs := frameSize_pos
      -- the check of the code, counted in frames
      have hroom : a.cursor + n * frameSize ≤ r.stop ↔ n ≤ (r.stop - a.cursor) / frameSize := by
        rw [Nat.le_div_iff_mul_le hfs]
        have hpos : frameSize ≤ n * frameSize := Nat.le_mul_of_pos_left _ hn
        omega
      dsimp only
      by_cases hfits : a.cursor + n * frameSize ≤ r.stop
      · rw [if_pos hfits]
        have hle := hroom.mp hfits
        refine ⟨?_, ?_, rfl, rfl⟩
        · rw [hrooms, takeRoom_of_le hle]
          unfold rooms
          rw [hr]
          dsimp only
          rw [Nat.sub_add_eq, Nat.mul_comm, Nat.sub_mul_div]
        · rw [hrooms, List.dropWhile_cons_of_neg (by simpa using hle)]
          exact iff_of_false (by simp) (by simp)
      · rw [if_neg hfits]
        -- the rest of this region is skipped for good
        have hlt : (r.stop - a.cursor) / frameSize < n := Nat.lt_of_not_le fun h => hfits (hroom.mpr h)
        have hlen : a.regions.length - (a.regionIdx + 1) ≤ fuel := by omega
        obtain ⟨htake, hnone, hfree, hin⟩ := ih a.nextRegion hlen
        rw [rooms_nextRegion hr, hrooms, List.tail_cons] at htake hnone
        rw [hrooms, takeRoom_of_lt hlt, List.dropWhile_cons_of_pos (by simpa using hlt)]
        exact ⟨htake, hnone, hfree, hin⟩

/-- `alloc` hands out a frame as long as one is available. -/
lemma alloc_spec (a : PhysFrameAllocator) :
    (a.alloc.1 = none ↔ a.available = 0) ∧
      (a.alloc.1 = none → a.alloc.2.available = 0 ∧ a.alloc.2.inUse = a.inUse) ∧
      (a.alloc.1 ≠ none → a.alloc.2.available + 1 = a.available ∧ a.alloc.2.inUse = a.inUse + 1) := by
  unfold alloc available
  cases hfree : a.freeList with
  | cons pa rest =>
    dsimp only
    refine ⟨iff_of_false (by simp) (by simp), fun h => absurd h (by simp), fun _ => ⟨?_, rfl⟩⟩
    have hrooms : ({ a with freeList := rest, inUse := a.inUse + 1 } : PhysFrameAllocator).rooms =
        a.rooms := rfl
    rw [hrooms, List.length_cons]
    omega
  | nil =>
    obtain ⟨htake, hnone, hfree', hin⟩ := bump_rooms le_rfl _ a le_rfl
    obtain ⟨hempty, htaken⟩ := sum_takeRoom a.rooms le_rfl (firstFits_one _)
    dsimp only
    rw [htake, hfree', hfree, List.length_nil, Nat.zero_add, Nat.zero_add]
    cases hgot : (bump 1 (a.regions.length - a.regionIdx) a).1 with
    | none =>
      rw [hgot] at hnone hin
      have hdrop := hnone.mp rfl
      have hsum := hempty hdrop
      have htake' : takeRoom 1 a.rooms = [] := by
        unfold takeRoom
        rw [hdrop]
      rw [htake']
      exact ⟨iff_of_true rfl hsum, fun _ => ⟨rfl, hin⟩, fun h => absurd rfl h⟩
    | some base =>
      rw [hgot] at hnone hin
      have hsum := htaken fun h => by cases hnone.mpr h
      exact ⟨iff_of_false (by simp) (by omega), fun h => absurd h (by simp), fun _ => ⟨hsum, hin⟩⟩

/-! ## What callers see -/

end PhysFrameAllocator

/-- A call of the allocator. -/
inductive FrameOp
  | alloc
  | allocContiguous (n : ℕ)
  | free (pa : ℕ)
  deriving Repr, DecidableEq

/-- The call with its result. -/
def FrameOp.returning : FrameOp → Option ℕ → FrameCall
  | alloc, got => .alloc got
  | allocContiguous n, got => .allocContiguous n got
  | free pa, _ => .free pa

namespace PhysFrameAllocator

variable {a a' b : PhysFrameAllocator} {n fuel pa : ℕ} {got : Option ℕ} {op : FrameOp}

/-- What a call returns, and the allocator after it. -/
def call (a : PhysFrameAllocator) : FrameOp → Option ℕ × PhysFrameAllocator
  | .alloc => a.alloc
  | .allocContiguous n => a.allocContiguous n
  | .free pa => (none, a.free pa)

/-- What callers see of a sequence of calls: the result of each and the statistics after it. -/
def observe (a : PhysFrameAllocator) : List FrameOp → List (Option ℕ × ℕ × ℕ)
  | [] => []
  | op :: ops => ((a.call op).1, (a.call op).2.stats) :: (a.call op).2.observe ops

/-- No sequence of calls tells the two apart. -/
def SameToCallers (a b : PhysFrameAllocator) : Prop :=
  a.stats = b.stats ∧ ∀ ops, a.observe ops = b.observe ops

/-- Two allocators with the same free list, neither of which has a frame ahead of its cursor. -/
structure BothSpent (a b : PhysFrameAllocator) : Prop where
  freeList : a.freeList = b.freeList
  stats : a.stats = b.stats
  left : a.rooms.sum = 0
  right : b.rooms.sum = 0

/-- Without a frame ahead, the loop finds nothing and stays without. -/
lemma bump_of_spent (hn : 1 ≤ n) (h : a.rooms.sum = 0) :
    (bump n (a.regions.length - a.regionIdx) a).1 = none ∧
      (bump n (a.regions.length - a.regionIdx) a).2.rooms.sum = 0 ∧
      (bump n (a.regions.length - a.regionIdx) a).2.freeList = a.freeList ∧
      (bump n (a.regions.length - a.regionIdx) a).2.stats = a.stats := by
  obtain ⟨htake, hnone, hfree, hin⟩ := bump_rooms hn _ a le_rfl
  have hdrop : a.rooms.dropWhile (· < n) = [] := by
    rw [List.dropWhile_eq_nil_iff]
    intro m hm
    have hzero := List.sum_eq_zero_iff_forall_eq_nat.mp h m hm
    simp only [decide_eq_true_eq]
    omega
  have hgot := hnone.mpr hdrop
  rw [hgot] at hin
  refine ⟨hgot, ?_, hfree, Prod.ext hin (bump_static n _ a).2⟩
  rw [htake, takeRoom, hdrop]
  rfl

lemma BothSpent.call (h : BothSpent a b) (op : FrameOp) :
    (a.call op).1 = (b.call op).1 ∧ BothSpent (a.call op).2 (b.call op).2 := by
  have hstats := Prod.mk.inj h.stats
  cases op with
  | free pa =>
    refine ⟨rfl, congrArg (pa :: ·) h.freeList, ?_, h.left, h.right⟩
    show (a.inUse - 1, a.totalFrames) = (b.inUse - 1, b.totalFrames)
    rw [hstats.1, hstats.2]
  | allocContiguous n =>
    dsimp only [PhysFrameAllocator.call]
    unfold allocContiguous
    by_cases hn : n = 0
    · rw [if_pos hn, if_pos hn]
      exact ⟨rfl, h⟩
    · rw [if_neg hn, if_neg hn]
      obtain ⟨ha, haleft, hafree, hastats⟩ := bump_of_spent (n := n) (by omega) h.left
      obtain ⟨hb, hbleft, hbfree, hbstats⟩ := bump_of_spent (n := n) (by omega) h.right
      exact ⟨ha.trans hb.symm, hafree.trans (h.freeList.trans hbfree.symm),
        hastats.trans (h.stats.trans hbstats.symm), haleft, hbleft⟩
  | alloc =>
    dsimp only [PhysFrameAllocator.call]
    unfold alloc
    rw [← h.freeList]
    cases hfree : a.freeList with
    | cons pa rest =>
      refine ⟨rfl, rfl, ?_, h.left, h.right⟩
      show (a.inUse + 1, a.totalFrames) = (b.inUse + 1, b.totalFrames)
      rw [hstats.1, hstats.2]
    | nil =>
      obtain ⟨ha, haleft, hafree, hastats⟩ := bump_of_spent le_rfl h.left
      obtain ⟨hb, hbleft, hbfree, hbstats⟩ := bump_of_spent le_rfl h.right
      exact ⟨ha.trans hb.symm, hafree.trans (h.freeList.trans hbfree.symm),
        hastats.trans (h.stats.trans hbstats.symm), haleft, hbleft⟩

lemma BothSpent.sameToCallers (h : BothSpent a b) : SameToCallers a b := by
  refine ⟨h.stats, fun ops => ?_⟩
  induction ops generalizing a b with
  | nil => rfl
  | cons op ops ih =>
    obtain ⟨hgot, hnext⟩ := h.call op
    rw [observe, observe, hgot, hnext.stats, ih hnext]

/-- Asking for `m` frames one by one gets as many as are available. -/
lemma count_observe_alloc (m : ℕ) : ∀ a : PhysFrameAllocator,
    (a.observe (List.replicate m .alloc)).countP (fun r => r.1.isSome) = min m a.available := by
  induction m with
  | zero =>
    intro a
    simp [observe]
  | succ m ih =>
    intro a
    obtain ⟨hiff, hnone, hsome⟩ := a.alloc_spec
    rw [List.replicate_succ, observe, List.countP_cons, ih]
    show min m a.alloc.2.available + (if a.alloc.1.isSome = true then 1 else 0) = _
    cases hgot : a.alloc.1 with
    | none =>
      have hzero := hiff.mp hgot
      have hzero' := (hnone hgot).1
      rw [hzero, hzero']
      simp
    | some base =>
      have hless := (hsome (by rw [hgot]; exact Option.some_ne_none _)).1
      rw [← hless, Option.isSome_some, if_pos rfl]
      omega

/-- Allocators with different numbers of frames available can be told apart. -/
lemma SameToCallers.available_eq (h : SameToCallers a b) : a.available = b.available := by
  have hcount : ∀ m, min m a.available = min m b.available := by
    intro m
    rw [← count_observe_alloc, h.2, count_observe_alloc]
  have hleft := hcount a.available
  have hright := hcount b.available
  omega

/-- A contiguous request that fails goes unnoticed exactly if it was for nothing, or there was no frame
ahead of the cursor. -/
lemma allocContiguous_unnoticed_iff (h : (a.allocContiguous n).1 = none) :
    SameToCallers a (a.allocContiguous n).2 ↔ n = 0 ∨ a.rooms.sum = 0 := by
  by_cases hn : n = 0
  · refine iff_of_true ?_ (.inl hn)
    unfold allocContiguous
    rw [if_pos hn]
    exact ⟨rfl, fun _ => rfl⟩
  unfold allocContiguous at h ⊢
  rw [if_neg hn] at h ⊢
  obtain ⟨htake, hnone, hfree, hin⟩ := @bump_rooms n (by omega) _ a le_rfl
  rw [h] at hin
  -- the request has left every room behind
  have hspent : (bump n (a.regions.length - a.regionIdx) a).2.rooms.sum = 0 := by
    rw [htake, takeRoom, hnone.mp h]
    rfl
  constructor
  · intro hsame
    have heq := hsame.available_eq
    unfold available at heq
    rw [hfree, hspent] at heq
    exact .inr (by omega)
  · intro hor
    have hstats : a.stats = (bump n (a.regions.length - a.regionIdx) a).2.stats :=
      Prod.ext hin.symm (bump_static n _ a).2.symm
    exact BothSpent.sameToCallers ⟨hfree.symm, hstats, hor.resolve_left hn, hspent⟩

/-! ## Runs that leave nothing behind -/

/-- The call leaves no frame behind: a contiguous request is for nothing, or fits in the first room with
a frame left, if there is one. -/
def Careful (a : PhysFrameAllocator) : FrameOp → Prop
  | .allocContiguous n => n = 0 ∨ FirstFits n a.rooms
  | _ => True

instance (n : ℕ) (rooms : List ℕ) : Decidable (FirstFits n rooms) := by
  unfold FirstFits
  infer_instance

instance (a : PhysFrameAllocator) (op : FrameOp) : Decidable (a.Careful op) := by
  cases op <;> (unfold Careful; infer_instance)

end PhysFrameAllocator

/-- The allocator for `regions`, with the calls made so far. Contiguous requests are below `2 ^ 40`
frames, and only frames that are handed out are freed. -/
def allocator (regions : List Region) :
    TransitionSystem (PhysFrameAllocator × List FrameCall) FrameOp (Option ℕ) where
  init s := s = (PhysFrameAllocator.new regions, [])
  step s op :=
    let r := s.1.call op
    let next := some ((r.2, s.2 ++ [op.returning r.1]), r.1)
    match op with
    | .alloc => next
    | .allocContiguous n => if n < 2 ^ 40 then next else none
    | .free pa => if pa ∈ handedOut s.2 then next else none

namespace PhysFrameAllocator

variable {a : PhysFrameAllocator} {n pa : ℕ} {op : FrameOp}

/-- Every frame is in use or available. -/
structure Accounted (s : PhysFrameAllocator × List FrameCall) : Prop where
  all : s.1.inUse + s.1.available = s.1.totalFrames
  inUse : s.1.inUse = (handedOut s.2).length

lemma accounted_new (regions : List Region) : Accounted (PhysFrameAllocator.new regions, []) := by
  refine ⟨?_, rfl⟩
  show 0 + (0 + (PhysFrameAllocator.new regions).rooms.sum) = _
  rw [Nat.zero_add, Nat.zero_add]
  unfold rooms
  show (match (PhysFrameAllocator.new regions).regions[0]? with
    | none => []
    | some r => (r.stop - (PhysFrameAllocator.new regions).cursor) / frameSize ::
        ((PhysFrameAllocator.new regions).regions.drop 1).map Region.frames).sum =
      ((PhysFrameAllocator.new regions).regions.map Region.frames).sum
  have hcursor : (PhysFrameAllocator.new regions).cursor =
      ((PhysFrameAllocator.new regions).regions.head?).elim 0 Region.start := rfl
  rw [hcursor]
  cases (PhysFrameAllocator.new regions).regions with
  | nil => rfl
  | cons r rest => rfl

lemma alloc_static (a : PhysFrameAllocator) : a.alloc.2.totalFrames = a.totalFrames := by
  unfold alloc
  split
  · rfl
  · exact (bump_static 1 _ a).2

/-- A careful contiguous request takes what it gets from what is available. -/
lemma allocContiguous_spec (hcareful : a.Careful (.allocContiguous n)) :
    (a.allocContiguous n).2.totalFrames = a.totalFrames ∧
    (a.allocContiguous n).2.inUse = a.inUse + ((a.allocContiguous n).1.elim 0 fun _ => n) ∧
    (a.allocContiguous n).2.inUse + (a.allocContiguous n).2.available = a.inUse + a.available := by
  unfold allocContiguous
  by_cases hn : n = 0
  · rw [if_pos hn]
    exact ⟨rfl, rfl, rfl⟩
  rw [if_neg hn]
  obtain ⟨htake, hnone, hfree, hin⟩ := @bump_rooms n (by omega) _ a le_rfl
  obtain ⟨hempty, htaken⟩ := sum_takeRoom a.rooms (by omega) (hcareful.resolve_left hn)
  refine ⟨(bump_static n _ a).2, hin, ?_⟩
  unfold available
  rw [htake, hfree, hin]
  cases hgot : (bump n (a.regions.length - a.regionIdx) a).1 with
  | none =>
    have hdrop := hnone.mp hgot
    have htake' : takeRoom n a.rooms = [] := by
      unfold takeRoom
      rw [hdrop]
    rw [htake', hempty hdrop]
    rfl
  | some base =>
    rw [hgot] at hnone
    have hsum := htaken fun h => Option.some_ne_none _ (hnone.mpr h)
    dsimp only [Option.elim_some]
    omega

lemma Accounted.step {regions : List Region} {s s' : PhysFrameAllocator × List FrameCall}
    (h : Accounted s) (hcareful : s.1.Careful op) (hs : (allocator regions).step s op = some (s', got)) :
    Accounted s' := by
  cases op with
  | alloc =>
    obtain ⟨rfl, rfl⟩ := Prod.mk.inj (Option.some.inj hs)
    obtain ⟨hiff, hnone, hsome⟩ := s.1.alloc_spec
    have htotal := s.1.alloc_static
    have hall := h.all
    have hinUse := h.inUse
    refine ⟨?_, ?_⟩
    · show s.1.alloc.2.inUse + s.1.alloc.2.available = s.1.alloc.2.totalFrames
      by_cases hgot : s.1.alloc.1 = none
      · have hzero := hiff.mp hgot
        obtain ⟨havail, hin⟩ := hnone hgot
        omega
      · obtain ⟨havail, hin⟩ := hsome hgot
        omega
    · show s.1.alloc.2.inUse = (handedOut (s.2 ++ [.alloc s.1.alloc.1])).length
      rw [handedOut_snoc]
      show _ = (s.1.alloc.1.toList ++ handedOut s.2).length
      rw [List.length_append, ← hinUse]
      cases hgot : s.1.alloc.1 with
      | none => simp [(hnone hgot).2]
      | some base =>
        have hin := (hsome (by rw [hgot]; exact Option.some_ne_none _)).2
        rw [hin, Option.toList_some, List.length_singleton, Nat.add_comm]
  | allocContiguous n =>
    simp only [allocator] at hs
    split at hs
    · obtain ⟨rfl, rfl⟩ := Prod.mk.inj (Option.some.inj hs)
      obtain ⟨htotal, hin, hsum⟩ := allocContiguous_spec hcareful
      have hall := h.all
      have hinUse := h.inUse
      refine ⟨?_, ?_⟩
      · show (s.1.allocContiguous n).2.inUse + (s.1.allocContiguous n).2.available =
          (s.1.allocContiguous n).2.totalFrames
        omega
      · show (s.1.allocContiguous n).2.inUse =
          (handedOut (s.2 ++ [.allocContiguous n (s.1.allocContiguous n).1])).length
        rw [handedOut_snoc, hin]
        show _ = (((s.1.allocContiguous n).1.elim [] fun base => blockRun frameSize base n) ++
          handedOut s.2).length
        rw [List.length_append, ← hinUse]
        cases (s.1.allocContiguous n).1 with
        | none => simp
        | some base => rw [Option.elim_some, Option.elim_some, length_blockRun, Nat.add_comm]
    · cases hs
  | free pa =>
    simp only [allocator] at hs
    split at hs
    next hpa =>
      obtain ⟨rfl, rfl⟩ := Prod.mk.inj (Option.some.inj hs)
      have hpos := List.length_pos_of_mem hpa
      have hall := h.all
      have hinUse := h.inUse
      refine ⟨?_, ?_⟩
      · show s.1.inUse - 1 + ((pa :: s.1.freeList).length + s.1.rooms.sum) = s.1.totalFrames
        unfold available at hall
        rw [List.length_cons]
        omega
      · show s.1.inUse - 1 = (handedOut (s.2 ++ [.free pa])).length
        rw [handedOut_snoc]
        show _ = ((handedOut s.2).erase pa).length
        rw [List.length_erase_of_mem hpa, hinUse]
    next => cases hs

end PhysFrameAllocator

open PhysFrameAllocator

/-- In every run of the allocator whose calls leave no frame behind: `alloc` fails only when every frame is
in use, and a contiguous request that fails goes unnoticed. -/
theorem allocator_complete {regions : List Region}
    {ts : List (Transition (PhysFrameAllocator × List FrameCall) FrameOp (Option ℕ))}
    {s : PhysFrameAllocator × List FrameCall} (hrun : Run (allocator regions) ts s)
    (hcareful : ∀ t ∈ ts, t.pre.1.Careful t.event) :
    (s.1.alloc.1 = none → s.1.inUse = s.1.totalFrames) ∧
      ∀ t ∈ ts, ∀ n, t.event = .allocContiguous n → t.out = none →
        SameToCallers t.pre.1 t.post.1 := by
  refine ⟨fun hnone => ?_, fun t ht n hevent hout => ?_⟩
  · have hinit : ∀ s, (allocator regions).init s → Accounted s := by
      rintro s rfl
      exact accounted_new regions
    have hinv : Accounted s := hrun.invariant_of (C := fun s op => s.1.Careful op) hinit
      (fun _ _ _ _ _ h hc hs => h.step hc hs) hcareful
    have hall := hinv.all
    have hzero := s.1.alloc_spec.1.mp hnone
    omega
  · have hs := (hrun.mem_step ht).2
    have hc := hcareful t ht
    rw [hevent] at hs hc
    simp only [allocator] at hs
    split at hs
    next =>
      obtain ⟨hpost, hgot⟩ := Prod.mk.inj (Option.some.inj hs)
      rw [hout] at hgot
      rw [← hpost]
      refine (allocContiguous_unnoticed_iff hgot).mpr ?_
      rcases hc with hn | hfits
      · exact .inl hn
      · -- a request that fits and fails finds all rooms empty
        by_cases hn : n = 0
        · exact .inl hn
        have hnone : (t.pre.1.allocContiguous n).1 = none := hgot
        unfold allocContiguous at hnone
        rw [if_neg hn] at hnone
        have hdrop := (bump_rooms (n := n) (by omega) _ t.pre.1 le_rfl).2.1.mp hnone
        exact .inr ((sum_takeRoom _ (by omega) hfits).1 hdrop)
    next => cases hs

/-- Two frames are taken one by one, and a third is asked for in vain. -/
theorem allocator_complete_two :
    ∃ ts s, Run (allocator [⟨0x1000, 0x3000⟩]) ts s ∧
      ts.map Transition.out = [some 0x1000, some 0x2000, none] ∧ s.1.alloc.1 = none ∧
      s.1.inUse = s.1.totalFrames := by
  have hfacts : ((allocator [⟨0x1000, 0x3000⟩]).replay (PhysFrameAllocator.new [⟨0x1000, 0x3000⟩], [])
      [.alloc, .allocContiguous 1, .allocContiguous 3]).map (fun r => (r.1.map Transition.out,
        r.2.1.alloc.1, r.1.all fun t => t.pre.1.Careful t.event)) =
      some ([some 0x1000, some 0x2000, none], none, true) := by decide +kernel
  obtain ⟨⟨ts, s⟩, hreplay, hfacts⟩ := Option.map_eq_some_iff.mp hfacts
  simp only [Prod.mk.injEq, List.all_eq_true, decide_eq_true_eq] at hfacts
  obtain ⟨hout, hnone, hcareful⟩ := hfacts
  have hrun := (Run.start (T := allocator [⟨0x1000, 0x3000⟩]) rfl).append_replay hreplay
  exact ⟨ts, s, hrun, hout, hnone, (allocator_complete hrun hcareful).1 hnone⟩

/-- Of two frames, three are asked for at once: nothing is in use, but nothing can be had any more. -/
theorem not_allocator_complete :
    ∃ ts s, Run (allocator [⟨0x1000, 0x3000⟩]) ts s ∧ s.1.alloc.1 = none ∧ s.1.inUse = 0 ∧
      s.1.totalFrames = 2 ∧ ∃ t ∈ ts, t.event = .allocContiguous 3 ∧ t.out = none ∧
        ¬ SameToCallers t.pre.1 t.post.1 := by
  have hfacts : ((allocator [⟨0x1000, 0x3000⟩]).replay (PhysFrameAllocator.new [⟨0x1000, 0x3000⟩], [])
      [.allocContiguous 3]).map (fun r => (r.1.map fun t => (t.event, t.out),
        (r.1.map fun t => (t.pre.1.available, t.post.1.available)), r.2.1.alloc.1, r.2.1.stats)) =
      some ([(.allocContiguous 3, none)], [(2, 0)], none, 0, 2) := by decide +kernel
  obtain ⟨⟨ts, s⟩, hreplay, hfacts⟩ := Option.map_eq_some_iff.mp hfacts
  obtain ⟨hts, hfacts⟩ := Prod.mk.inj hfacts
  obtain ⟨hleft, hfacts⟩ := Prod.mk.inj hfacts
  obtain ⟨hnone, hstats⟩ := Prod.mk.inj hfacts
  obtain ⟨t, rfl, ht⟩ := List.map_eq_singleton_iff.mp hts
  obtain ⟨hevent, hout⟩ := Prod.mk.inj ht
  obtain ⟨hbefore, hafter⟩ := Prod.mk.inj (List.singleton_inj.mp hleft)
  obtain ⟨hinUse, htotal⟩ := Prod.mk.inj hstats
  have hrun := (Run.start (T := allocator [⟨0x1000, 0x3000⟩]) rfl).append_replay hreplay
  refine ⟨[t], s, hrun, hnone, hinUse, htotal, t, List.mem_singleton_self t, hevent, hout, ?_⟩
  intro hsame
  have heq := hsame.available_eq
  omega

end Xernel
