import Mathlib.Logic.Function.Basic
import Mathlib.Data.List.Basic

/-!
# Queues in a circle of cells

`n` cells, the elements of the queue from cell `head` up to the one before cell `tail`, around the end if
need be. One cell stays free, so that `head = tail` means empty. `contents` is the queue, oldest element
first; `Fifo` is the queue by itself, with the capacity that is left.
-/

/-! ## Bounded queues -/

namespace Fifo

/-- What is done to a queue. -/
inductive Op (α : Type*)
  | push (x : α)
  | pop

variable {α : Type*} {cap : ℕ}

/-- The queue after an operation: a full one takes no more elements. -/
def Op.apply (cap : ℕ) (q : List α) : Op α → List α
  | .push x => if q.length < cap then q ++ [x] else q
  | .pop => q.tail

/-- What an operation hands out. -/
def Op.out (q : List α) : Op α → Option α
  | .push _ => none
  | .pop => q.head?

/-- The queue after operations on `q`, and what they hand out. -/
def run (cap : ℕ) : List (Op α) → List α → List (Option α) × List α
  | [], q => ([], q)
  | op :: ops, q => (op.out q :: (run cap ops (op.apply cap q)).1, (run cap ops (op.apply cap q)).2)

end Fifo

/-! ## The circle -/

namespace Circular

variable {α : Type*} {n head tail : ℕ} {data : ℕ → α} {x : α}

/-- How many elements there are. -/
def size (n head tail : ℕ) : ℕ := (tail + n - head) % n

/-- The elements, oldest first. -/
def contents (n : ℕ) (data : ℕ → α) (head tail : ℕ) : List α :=
  (List.range (size n head tail)).map fun i => data ((head + i) % n)

@[simp] theorem length_contents : (contents n data head tail).length = size n head tail := by
  unfold contents
  rw [List.length_map, List.length_range]

/-- Without the modulus: either the elements end at `tail` in one piece, or they go around. -/
theorem size_eq (hhead : head < n) (htail : tail < n) :
    size n head tail = if head ≤ tail then tail - head else tail + n - head := by
  unfold size
  by_cases h : head ≤ tail
  · rw [if_pos h, show tail + n - head = tail - head + n by omega, Nat.add_mod_right]
    apply Nat.mod_eq_of_lt
    omega
  · rw [if_neg h]
    apply Nat.mod_eq_of_lt
    omega

/-- Going on by one, around the end. -/
theorem succ_mod (htail : tail < n) :
    (tail + 1) % n = if tail + 1 = n then 0 else tail + 1 := by
  by_cases h : tail + 1 = n
  · rw [if_pos h, h, Nat.mod_self]
  · rw [if_neg h]
    apply Nat.mod_eq_of_lt
    omega

theorem size_lt (hhead : head < n) : size n head tail < n := Nat.mod_lt _ (by omega)

/-- A queue is empty if both ends meet. -/
theorem size_eq_zero_iff (hhead : head < n) (htail : tail < n) :
    size n head tail = 0 ↔ head = tail := by
  rw [size_eq hhead htail]
  split <;> omega

/-- The cell before `head` is the one that stays free. -/
theorem succ_eq_iff (hhead : head < n) (htail : tail < n) :
    (tail + 1) % n = head ↔ size n head tail + 1 = n := by
  rw [succ_mod htail, size_eq hhead htail]
  split <;> split <;> omega

/-- One more, unless it is full. -/
theorem size_push (hhead : head < n) (htail : tail < n) (hfree : (tail + 1) % n ≠ head) :
    size n head ((tail + 1) % n) = size n head tail + 1 := by
  have hnext : (tail + 1) % n < n := Nat.mod_lt _ (by omega)
  rw [size_eq hhead hnext, size_eq hhead htail]
  rw [succ_mod htail] at hfree ⊢
  by_cases hlast : tail + 1 = n
  · rw [if_pos hlast] at hfree ⊢
    split <;> split <;> omega
  · rw [if_neg hlast] at hfree ⊢
    split <;> split <;> omega

/-- One less, unless it is empty. -/
theorem size_pop (hhead : head < n) (htail : tail < n) (hne : head ≠ tail) :
    size n ((head + 1) % n) tail + 1 = size n head tail := by
  have hnext : (head + 1) % n < n := Nat.mod_lt _ (by omega)
  rw [size_eq hnext htail, size_eq hhead htail, succ_mod hhead]
  split <;> split <;> split <;> omega

/-- The cell `tail` is none of those in use. -/
theorem cell_ne_tail (hhead : head < n) (htail : tail < n) {i : ℕ} (hi : i < size n head tail) :
    (head + i) % n ≠ tail := by
  rw [size_eq hhead htail] at hi
  intro heq
  by_cases hwrap : head + i < n
  · rw [Nat.mod_eq_of_lt hwrap] at heq
    split at hi <;> omega
  · rw [show head + i = head + i - n + n by omega, Nat.add_mod_right,
      Nat.mod_eq_of_lt (by split at hi <;> omega)] at heq
    split at hi <;> omega

/-- The cell behind the last one in use. -/
theorem cell_size (hhead : head < n) (htail : tail < n) : (head + size n head tail) % n = tail := by
  rw [size_eq hhead htail]
  by_cases h : head ≤ tail
  · rw [if_pos h, show head + (tail - head) = tail by omega, Nat.mod_eq_of_lt htail]
  · rw [if_neg h, show head + (tail + n - head) = tail + n by omega, Nat.add_mod_right,
      Nat.mod_eq_of_lt htail]

theorem contents_eq_nil_iff (hhead : head < n) (htail : tail < n) :
    contents n data head tail = [] ↔ head = tail := by
  rw [← List.length_eq_zero_iff, length_contents, size_eq_zero_iff hhead htail]

/-- An element is added at the back. -/
theorem contents_push (hhead : head < n) (htail : tail < n) (hfree : (tail + 1) % n ≠ head) :
    contents n (Function.update data tail x) head ((tail + 1) % n) =
      contents n data head tail ++ [x] := by
  unfold contents
  rw [size_push hhead htail hfree, List.range_succ, List.map_append, List.map_singleton]
  congr 1
  · apply List.map_congr_left
    intro i hi
    have hne := cell_ne_tail hhead htail (List.mem_range.mp hi)
    exact Function.update_of_ne hne x data
  · rw [cell_size hhead htail, Function.update_self]

/-- An element is taken from the front. -/
theorem contents_pop (hhead : head < n) (htail : tail < n) (hne : head ≠ tail) :
    contents n data head tail = data head :: contents n data ((head + 1) % n) tail := by
  unfold contents
  rw [← size_pop hhead htail hne, List.range_succ_eq_map, List.map_cons, List.map_map,
    Nat.add_zero, Nat.mod_eq_of_lt hhead]
  congr 1
  apply List.map_congr_left
  intro i _
  show data ((head + (i + 1)) % n) = data (((head + 1) % n + i) % n)
  rw [Nat.mod_add_mod]
  congr 2
  omega

end Circular
