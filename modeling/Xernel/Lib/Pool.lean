import Mathlib.Data.List.Induction
import Mathlib.Data.List.Nodup
import Mathlib.Data.List.Perm.Subperm
import Mathlib.Tactic.Common
import Mathlib.Tactic.Ring
import Xernel.Lib.Run

/-!
# Resource pools with a history

A pool hands out items and takes them back. Its history is a list of `PoolOp`s, oldest first;
`outstanding h` are the items handed out by `h` and not returned since. A history is
`Sound` when every `take` hands out items that are distinct and not outstanding at that time.
The second half is about the items a memory pool deals in: runs of equally sized blocks.
-/

/-- One operation of a pool: a batch of items handed out, or one item returned. -/
inductive PoolOp (α : Type*)
  | take (xs : List α)
  | give (x : α)

namespace PoolOp

variable {α : Type*} [DecidableEq α]

/-- The effect of one operation on the outstanding items. -/
def apply (l : List α) : PoolOp α → List α
  | take xs => xs ++ l
  | give x => l.erase x

/-- The items handed out by `h` and not returned since. -/
def outstanding (h : List (PoolOp α)) : List α :=
  h.foldl apply []

@[simp]
lemma outstanding_nil : outstanding ([] : List (PoolOp α)) = [] := rfl

@[simp]
lemma outstanding_snoc (h : List (PoolOp α)) (op : PoolOp α) :
    outstanding (h ++ [op]) = apply (outstanding h) op := by
  simp [outstanding]

/-- Every batch is handed out fresh: no duplicates, and nothing that is still outstanding. -/
def Sound (h : List (PoolOp α)) : Prop :=
  ∀ h₁ xs h₂, h = h₁ ++ take xs :: h₂ → xs.Nodup ∧ ∀ x ∈ xs, x ∉ outstanding h₁

lemma sound_nil : Sound ([] : List (PoolOp α)) := by
  intro h₁ xs h₂ h
  simp at h

/-- Appending a fresh batch keeps a history sound. -/
lemma Sound.take {h : List (PoolOp α)} (hs : Sound h) {xs : List α} (hnd : xs.Nodup)
    (hfresh : ∀ x ∈ xs, x ∉ outstanding h) : Sound (h ++ [take xs]) := by
  intro h₁ ys h₂ heq
  rcases List.snoc_eq_append_cons heq with ⟨rfl, hxs, -⟩ | ⟨b, -, heq'⟩
  · obtain rfl : xs = ys := by simpa using hxs
    exact ⟨hnd, hfresh⟩
  · exact hs h₁ ys b heq'

/-- Returning an item keeps a history sound. -/
lemma Sound.give {h : List (PoolOp α)} (hs : Sound h) (x : α) : Sound (h ++ [give x]) := by
  intro h₁ ys h₂ heq
  rcases List.snoc_eq_append_cons heq with ⟨-, hx, -⟩ | ⟨b, -, heq'⟩
  · simp at hx
  · exact hs h₁ ys b heq'

/-- A prefix of a sound history is sound. -/
lemma Sound.left {h h' : List (PoolOp α)} (hs : Sound (h ++ h')) : Sound h := by
  intro h₁ xs h₂ heq
  exact hs h₁ xs (h₂ ++ h') (by simp [heq])

/-- In a sound history nothing is outstanding twice. -/
theorem Sound.nodup {h : List (PoolOp α)} (hs : Sound h) : (outstanding h).Nodup := by
  induction h using List.reverseRecOn with
  | nil => simp
  | append_singleton h op ih =>
    have ih' := ih hs.left
    rw [outstanding_snoc]
    cases op with
    | take xs =>
      obtain ⟨hnd, hfresh⟩ := hs h xs [] rfl
      exact List.Nodup.append hnd ih' fun x hx hx' => hfresh x hx hx'
    | give x => exact ih'.erase x

/-- An item stays outstanding until it is returned. -/
theorem mem_outstanding_of_not_given {h₁ h₂ : List (PoolOp α)} {x : α}
    (hx : x ∈ outstanding h₁) (hkeep : give x ∉ h₂) : x ∈ outstanding (h₁ ++ h₂) := by
  induction h₂ using List.reverseRecOn with
  | nil => simpa using hx
  | append_singleton h₂ op ih =>
    have ih' := ih fun hg => hkeep (by simp [hg])
    rw [← List.append_assoc, outstanding_snoc]
    cases op with
    | take xs => exact List.mem_append_right _ ih'
    | give y =>
      have hne : x ≠ y := by rintro rfl; exact hkeep (by simp)
      exact (List.mem_erase_of_ne hne).mpr ih'

/-- The batch `xs` was handed out as a whole and none of it has been returned since. -/
def HeldFrom (h : List (PoolOp α)) (xs : List α) : Prop :=
  ∃ h₁ h₂, h = h₁ ++ take xs :: h₂ ∧ ∀ x ∈ xs, give x ∉ h₂

/-- A held batch is outstanding. -/
lemma HeldFrom.mem_outstanding {h : List (PoolOp α)} {xs : List α} (hh : HeldFrom h xs)
    {x : α} (hx : x ∈ xs) : x ∈ outstanding h := by
  obtain ⟨h₁, h₂, rfl, hkeep⟩ := hh
  have hmem : x ∈ outstanding (h₁ ++ [take xs]) := by
    rw [outstanding_snoc]; exact List.mem_append_left _ hx
  simpa using mem_outstanding_of_not_given hmem (hkeep x hx)

/-- Two held batches of a sound history are the same one or have nothing in common. -/
theorem Sound.eq_or_disjoint {h : List (PoolOp α)} (hs : Sound h) {xs ys : List α}
    (hx : HeldFrom h xs) (hy : HeldFrom h ys) : xs = ys ∨ ∀ z ∈ xs, z ∉ ys := by
  -- the later of the two batches is fresh, and the earlier one is outstanding at that time
  have hfresh : ∀ {h₁ h₂ mid : List (PoolOp α)} {xs ys : List α},
      h = h₁ ++ PoolOp.take xs :: (mid ++ PoolOp.take ys :: h₂) →
      (∀ x ∈ xs, PoolOp.give x ∉ mid ++ PoolOp.take ys :: h₂) → ∀ z ∈ xs, z ∉ ys := by
    intro h₁ h₂ mid xs ys heq hkeep z hz hzy
    have hold : HeldFrom (h₁ ++ PoolOp.take xs :: mid) xs :=
      ⟨h₁, mid, rfl, fun x hx hg => hkeep x hx (List.mem_append_left _ hg)⟩
    have hsplit : h = (h₁ ++ PoolOp.take xs :: mid) ++ PoolOp.take ys :: h₂ := by simp [heq]
    exact (hs _ ys h₂ hsplit).2 z hzy (hold.mem_outstanding hz)
  obtain ⟨h₁, h₂, heq, hkeep⟩ := hx
  obtain ⟨g₁, g₂, heq', hkeep'⟩ := hy
  rcases List.append_eq_append_iff.mp (heq.symm.trans heq') with ⟨mid, hg, hmid⟩ | ⟨mid, hg, hmid⟩
  · rcases mid with _ | ⟨op, mid⟩
    · exact .inl (PoolOp.take.inj (List.cons.inj hmid).1)
    · obtain ⟨rfl, rfl⟩ := List.cons.inj hmid
      exact .inr (hfresh heq hkeep)
  · rcases mid with _ | ⟨op, mid⟩
    · exact .inl (PoolOp.take.inj (List.cons.inj hmid).1).symm
    · obtain ⟨rfl, rfl⟩ := List.cons.inj hmid
      exact .inr fun z hz hzy => hfresh heq' hkeep' z hzy hz

end PoolOp

/-! ## Runs of blocks -/

/-- The base addresses of `n` consecutive blocks of `size` bytes from `base`. -/
def blockRun (size base n : ℕ) : List ℕ :=
  (List.range n).map fun i => base + i * size

section BlockRun

variable {size base n : ℕ}

lemma mem_blockRun {f : ℕ} : f ∈ blockRun size base n ↔ ∃ i < n, base + i * size = f := by
  simp [blockRun]

@[simp]
lemma length_blockRun : (blockRun size base n).length = n := by
  simp [blockRun]

lemma blockRun_one : blockRun size base 1 = [base] := by
  simp [blockRun]

lemma blockRun_succ : blockRun size base (n + 1) = base :: blockRun size (base + size) n := by
  simp only [blockRun, List.range_succ_eq_map, List.map_cons, List.map_map, Function.comp_def,
    Nat.zero_mul, Nat.add_zero, List.cons.injEq, true_and, Nat.succ_eq_add_one]
  exact List.map_congr_left fun i _ => by ring

lemma nodup_blockRun (hsize : 0 < size) : (blockRun size base n).Nodup := by
  refine List.Nodup.map (fun i j hij => ?_) List.nodup_range
  have hmul : i * size = j * size := Nat.add_left_cancel hij
  exact Nat.eq_of_mul_eq_mul_right hsize hmul

/-- A block of the run lies inside the run. -/
lemma blockRun_bounds {f : ℕ} (hf : f ∈ blockRun size base n) :
    base ≤ f ∧ f + size ≤ base + n * size := by
  obtain ⟨i, hi, rfl⟩ := mem_blockRun.mp hf
  refine ⟨Nat.le_add_right _ _, ?_⟩
  calc base + i * size + size = base + (i + 1) * size := by ring
    _ ≤ base + n * size := Nat.add_le_add_left (Nat.mul_le_mul_right _ hi) _

lemma dvd_of_mem_blockRun {f : ℕ} (hbase : size ∣ base) (hf : f ∈ blockRun size base n) :
    size ∣ f := by
  obtain ⟨i, _, rfl⟩ := mem_blockRun.mp hf
  exact Nat.dvd_add hbase (Dvd.intro_left i rfl)

/-- The aligned addresses inside a run are exactly its blocks. -/
lemma mem_blockRun_of_bounds {f : ℕ} (hsize : 0 < size) (hbase : size ∣ base)
    (hf : size ∣ f) (hlo : base ≤ f) (hhi : f < base + n * size) :
    f ∈ blockRun size base n := by
  obtain ⟨a, rfl⟩ := hbase
  obtain ⟨b, rfl⟩ := hf
  have hab : a ≤ b := Nat.le_of_mul_le_mul_left hlo hsize
  have hbn : b < a + n := by
    have : size * b < size * (a + n) := by
      calc size * b < size * a + n * size := hhi
        _ = size * (a + n) := by ring
    exact Nat.lt_of_mul_lt_mul_left this
  refine mem_blockRun.mpr ⟨b - a, by omega, ?_⟩
  have hsplit : b = a + (b - a) := by omega
  calc size * a + (b - a) * size = size * (a + (b - a)) := by ring
    _ = size * b := by rw [← hsplit]

end BlockRun
