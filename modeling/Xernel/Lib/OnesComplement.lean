import Mathlib.Algebra.Ring.Nat
import Mathlib.Algebra.BigOperators.Group.List.Basic
import Mathlib.Tactic.Common

/-!
# Ones-complement sums of 16-bit words

The Internet checksum adds 16-bit words in ones-complement arithmetic, where a carry out of the top comes
back in at the bottom and both `0` and `2 ^ 16 - 1` stand for zero. `norm` gives the ones-complement sum
of words by their sum as numbers, which is what makes it possible to add first and fold the carries
later.
-/

namespace OnesComplement

/-- The sum of two words, with the carry added at the bottom. -/
def add (a b : ℕ) : ℕ := if a + b < 2 ^ 16 then a + b else a + b - (2 ^ 16 - 1)

/-- The sum of words, one after the other. -/
def sum (words : List ℕ) : ℕ := words.foldl add 0

/-- The word that stands for the number `s`: `0` for zero only. -/
def norm (s : ℕ) : ℕ := if s = 0 then 0 else (s - 1) % (2 ^ 16 - 1) + 1

variable {a b s : ℕ}

theorem norm_lt (s : ℕ) : norm s < 2 ^ 16 := by
  unfold norm
  split <;> omega

theorem norm_of_lt (h : s < 2 ^ 16) : norm s = s := by
  unfold norm
  split <;> omega

theorem norm_add_mul (hpos : 0 < s) (q : ℕ) : norm (s + q * (2 ^ 16 - 1)) = norm s := by
  unfold norm
  rw [if_neg (by omega), if_neg (by omega), show s + q * (2 ^ 16 - 1) - 1 =
    s - 1 + q * (2 ^ 16 - 1) by omega, Nat.add_mul_mod_self_right]

theorem add_norm (hb : b < 2 ^ 16) : add (norm s) b = norm (s + b) := by
  have hlt := norm_lt s
  unfold add
  by_cases hs : s = 0
  · subst hs
    rw [show norm 0 = 0 from rfl, Nat.zero_add, if_pos hb, norm_of_lt hb]
  · have hnorm : norm s = (s - 1) % (2 ^ 16 - 1) + 1 := if_neg hs
    have hsum : norm (s + b) = (s + b - 1) % (2 ^ 16 - 1) + 1 := if_neg (by omega)
    rw [hsum, hnorm]
    split <;> omega

/-- The words may be added as numbers first. -/
theorem sum_eq (words : List ℕ) (h : ∀ w ∈ words, w < 2 ^ 16) : sum words = norm words.sum := by
  have hfold : ∀ s, words.foldl add (norm s) = norm (s + words.sum) := by
    induction words with
    | nil => exact fun s => rfl
    | cons w words ih =>
      intro s
      have hrest := ih fun w' hw' => h w' (List.mem_cons_of_mem _ hw')
      rw [List.foldl_cons, add_norm (h w List.mem_cons_self), hrest, List.sum_cons, Nat.add_assoc]
  have hzero := hfold 0
  rw [Nat.zero_add] at hzero
  exact hzero

/-- Adding the carries of a sum at the bottom does not change the word it stands for. -/
theorem norm_fold (s : ℕ) : norm (s % 2 ^ 16 + s / 2 ^ 16) = norm s := by
  by_cases hs : s < 2 ^ 16
  · rw [Nat.mod_eq_of_lt hs, Nat.div_eq_of_lt hs, Nat.add_zero]
  · have hsplit : s = s % 2 ^ 16 + s / 2 ^ 16 + s / 2 ^ 16 * (2 ^ 16 - 1) := by omega
    have hpos : 0 < s % 2 ^ 16 + s / 2 ^ 16 := by omega
    conv_rhs => rw [hsplit]
    exact (norm_add_mul hpos _).symm

/-- Words that are not all zero and the complement of their sum add up to a zero. -/
theorem norm_add_compl (hpos : 0 < s) : norm (s + (2 ^ 16 - 1 - norm s)) = 2 ^ 16 - 1 := by
  unfold norm
  rw [if_neg (by omega), if_neg (by omega)]
  omega

/-! ## Words of a buffer -/

/-- The big-endian words of a buffer; a last odd byte is the high byte of a word. -/
def words : List UInt8 → List ℕ
  | a :: b :: buf => (a.toNat * 256 + b.toNat) :: words buf
  | [a] => [a.toNat * 256]
  | [] => []

theorem words_lt (buf : List UInt8) : ∀ w ∈ words buf, w < 2 ^ 16 := by
  fun_induction words buf with
  | case1 a b buf ih =>
    have ha := a.toNat_lt
    have hb := b.toNat_lt
    intro w hw
    rcases List.mem_cons.mp hw with rfl | hw
    · omega
    · exact ih w hw
  | case2 a =>
    have ha := a.toNat_lt
    intro w hw
    rw [List.mem_singleton.mp hw]
    omega
  | case3 => exact fun w hw => absurd hw List.not_mem_nil

/-- What the words add up to at most. -/
theorem sum_words_le (buf : List UInt8) : 2 * (words buf).sum ≤ (buf.length + 1) * (2 ^ 16 - 1) := by
  fun_induction words buf with
  | case1 a b buf ih =>
    have ha := a.toNat_lt
    have hb := b.toNat_lt
    rw [List.sum_cons, List.length_cons, List.length_cons]
    omega
  | case2 a =>
    have ha := a.toNat_lt
    rw [List.sum_singleton, List.length_singleton]
    omega
  | case3 => exact Nat.zero_le _

/-- Behind an even number of bytes the words start anew. -/
theorem words_append (buf buf' : List UInt8) (h : buf.length % 2 = 0) :
    words (buf ++ buf') = words buf ++ words buf' := by
  fun_induction words buf with
  | case1 a b buf ih =>
    have heven : buf.length % 2 = 0 := by
      simp only [List.length_cons] at h
      omega
    rw [List.cons_append, List.cons_append, words, ih heven, List.cons_append]
  | case2 a => cases h
  | case3 => rfl

theorem sum_words_append (buf buf' : List UInt8) (h : buf.length % 2 = 0) :
    (words (buf ++ buf')).sum = (words buf).sum + (words buf').sum := by
  rw [words_append buf buf' h, List.sum_append]

end OnesComplement
