import Mathlib.Algebra.Ring.Nat
import Mathlib.Data.List.Range
import Mathlib.Tactic.Common

/-!
# Serial numbers

Numbers of 32 bits that count on around the end, as the sequence numbers of a byte stream do. Of two
such numbers the later one is told by the shorter way round.
-/

namespace Serial

/-- How far `b` lies after `a`. -/
def diff (a b : ℕ) : ℕ := (b + (2 ^ 32 - a % 2 ^ 32)) % 2 ^ 32

variable {a s p n k : ℕ}

theorem diff_lt (a b : ℕ) : diff a b < 2 ^ 32 := Nat.mod_lt _ (by decide)

/-- A number within `p` of the start of a run of `p` lies as far before its end. -/
theorem diff_add_of_le (h : diff s a ≤ p) (hp : p < 2 ^ 32) : diff a (s + p) = p - diff s a := by
  unfold diff at h ⊢
  omega

/-- Any other number lies outside, and the end of the run is further from it than the run is long. -/
theorem diff_add_of_lt (h : p < diff s a) : diff a (s + p) = 2 ^ 32 - diff s a + p := by
  unfold diff at h ⊢
  omega

theorem diff_eq_iff {c b : ℕ} (hc : c < 2 ^ 32) :
    diff a b = c ↔ (a + c) % 2 ^ 32 = b % 2 ^ 32 := by
  unfold diff
  omega

/-- `b` is not before `a`. -/
def NotBefore (a b : ℕ) : Prop := diff a b < 2 ^ 31

instance (a b : ℕ) : Decidable (NotBefore a b) := inferInstanceAs (Decidable (_ < _))

/-- In a run from `s` on, the numbers before `a` are the ones before its place in the run. -/
theorem notBefore_add_iff (h : diff s a ≤ p) (hp : p < 2 ^ 31) (hk : k ≤ p) :
    NotBefore a (s + k) ↔ diff s a ≤ k := by
  unfold NotBefore
  by_cases hle : diff s a ≤ k
  · rw [diff_add_of_le hle (by omega)]
    omega
  · rw [diff_add_of_lt (by omega)]
    omega

/-- If none of the run has been reached, only what lies more than half the way round counts as after it. -/
theorem notBefore_add_iff_of_lt (h : p < diff s a) (hk : k ≤ p) :
    NotBefore a (s + k) ↔ k + 2 ^ 31 < diff s a := by
  have hlt := diff_lt s a
  unfold NotBefore
  rw [diff_add_of_lt (by omega)]
  omega

/-- How many of the first `n` numbers are not below `c` and below `b`. -/
theorem countP_range_between (c b n : ℕ) :
    (List.range n).countP (fun k => decide (c ≤ k ∧ k < b)) = min n b - c := by
  induction n with
  | zero => simp
  | succ n ih =>
    rw [List.range_succ, List.countP_append, ih, List.countP_singleton]
    by_cases h : c ≤ n ∧ n < b
    · rw [if_pos (decide_eq_true h)]
      omega
    · rw [if_neg (by rw [decide_eq_false h]; exact Bool.false_ne_true)]
      omega

/-- How many of the first `n` numbers are not below `c`. -/
theorem countP_range_le (c n : ℕ) : (List.range n).countP (fun k => decide (c ≤ k)) = n - c := by
  have hall := countP_range_between c n n
  rw [Nat.min_self] at hall
  rw [← hall]
  refine List.countP_congr fun k hk => ?_
  have hlt := List.mem_range.mp hk
  simp [hlt]

end Serial
