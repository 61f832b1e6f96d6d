import Mathlib.Algebra.Group.Nat.Defs
import Mathlib.Data.Nat.Log
import Mathlib.Order.MinMax
import Xernel.Lib.Run

/-!
# Buffers that grow and never shrink

A growable buffer doubles its room when an element does not fit, from a least room of four on. What it
has room for depends on the most elements it has ever held, which is a maximum over the whole run. So does
what it has ever asked for, which also counts the buffers that it outgrew and gave back.
-/

/-- The room of a buffer that has held up to `n` elements. -/
def bufferRoom (n : ℕ) : ℕ := if n = 0 then 0 else max 4 (2 ^ Nat.clog 2 n)

@[simp]
lemma bufferRoom_zero : bufferRoom 0 = 0 := rfl

/-- What a buffer has held fits its room. -/
lemma le_bufferRoom (n : ℕ) : n ≤ bufferRoom n := by
  rw [bufferRoom]
  split
  · omega
  · exact le_max_of_le_right (Nat.le_pow_clog Nat.one_lt_two n)

lemma bufferRoom_mono {m n : ℕ} (h : m ≤ n) : bufferRoom m ≤ bufferRoom n := by
  by_cases hm : m = 0
  · rw [hm, bufferRoom_zero]
    exact Nat.zero_le _
  · have hn : n ≠ 0 := by omega
    rw [bufferRoom, bufferRoom, if_neg hm, if_neg hn]
    exact max_le_max_left 4 (Nat.pow_le_pow_right Nat.two_pos (Nat.clog_mono_right 2 h))

/-- The room of the new buffer that `n` elements need, while the old one has held up to `m`; none is
made if they fit. -/
def newRoom (m n : ℕ) : ℕ := if bufferRoom m < n then bufferRoom n else 0

lemma newRoom_le (m n : ℕ) : newRoom m n ≤ bufferRoom n := by
  rw [newRoom]
  split
  · exact le_rfl
  · exact Nat.zero_le _

lemma bufferRoom_succ_le (n : ℕ) : bufferRoom (n + 1) ≤ bufferRoom n + newRoom n (n + 1) := by
  rw [newRoom]
  split
  next => exact Nat.le_add_left _ _
  next hfits =>
    have hn : n ≠ 0 := by
      rintro rfl
      exact hfits (by decide)
    rw [bufferRoom, if_neg hn] at hfits
    rw [bufferRoom, bufferRoom, if_neg hn, if_neg (Nat.succ_ne_zero n), Nat.add_zero]
    rcases le_max_iff.mp (not_lt.mp hfits) with hfour | hpow
    · -- up to four elements the room stays the least
      have hclog : 2 ^ Nat.clog 2 (n + 1) ≤ 2 ^ 2 :=
        Nat.pow_le_pow_right Nat.two_pos (Nat.clog_le_of_le_pow hfour)
      exact max_le (le_max_left _ _) (hclog.trans (le_max_left _ _))
    · exact max_le_max_left 4 (Nat.pow_le_pow_right Nat.two_pos (Nat.clog_le_of_le_pow hpow))

/-- The rooms of all buffers that were made while one grew to `n` elements, one after the other. -/
def bufferSpent : ℕ → ℕ
  | 0 => 0
  | n + 1 => bufferSpent n + newRoom n (n + 1)

lemma bufferSpent_mono {m n : ℕ} (h : m ≤ n) : bufferSpent m ≤ bufferSpent n :=
  monotone_nat_of_le_succ (f := bufferSpent) (fun _ => Nat.le_add_right _ _) h

/-- The last buffer is one of them. -/
lemma bufferRoom_le_spent (n : ℕ) : bufferRoom n ≤ bufferSpent n := by
  induction n with
  | zero => exact le_rfl
  | succ n ih =>
    rw [bufferSpent]
    exact (bufferRoom_succ_le n).trans (Nat.add_le_add_right ih _)

namespace Run

variable {σ ε ο : Type*} {T : TransitionSystem σ ε ο} {ts : List (Transition σ ε ο)} {s : σ}

/-- The largest value of a measure in the states of a run that ends in `s`. -/
def peak (f : σ → ℕ) (ts : List (Transition σ ε ο)) (s : σ) : ℕ :=
  ts.foldr (fun t most => max (f t.pre) most) (f s)

lemma peak_le_iff {f : σ → ℕ} {n : ℕ} :
    peak f ts s ≤ n ↔ (∀ t ∈ ts, f t.pre ≤ n) ∧ f s ≤ n := by
  induction ts with
  | nil => simp [peak]
  | cons t ts ih =>
    -- the first state of the run comes off the maximum
    have hcons : peak f (t :: ts) s = max (f t.pre) (peak f ts s) := rfl
    rw [hcons, max_le_iff, ih, List.forall_mem_cons, and_assoc]

/-- The last state counts. -/
lemma le_peak (f : σ → ℕ) : f s ≤ peak f ts s := (peak_le_iff.mp le_rfl).2

end Run
