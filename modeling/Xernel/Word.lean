import Mathlib.Algebra.Ring.Nat
import Mathlib.Tactic.Common

/-!
# Machine words and pages

`u64` values are natural numbers. Where the source adds with a check, or relies on the overflow
checks of the dev profile, the model compares with `u64Max`; elsewhere values stay below it.
-/

namespace Xernel

/-- `u64::MAX`: the error value of most system calls and the "none" of optional slot arguments. -/
def u64Max : ℕ := 2 ^ 64 - 1

/-- `FRAME_SIZE`, and the `PAGE` of the other kernel modules. -/
def frameSize : ℕ := 4096

/-- `x & !(PAGE - 1)`. -/
def pageDown (x : ℕ) : ℕ := x / frameSize * frameSize

/-- `(x + PAGE - 1) & !(PAGE - 1)`. -/
def pageUp (x : ℕ) : ℕ := pageDown (x + frameSize - 1)

/-- `x.div_ceil(PAGE)`. -/
def pagesFor (x : ℕ) : ℕ := (x + frameSize - 1) / frameSize

/-- The little-endian bytes of the low `8 * n` bits of `x`. -/
def leBytes : ℕ → ℕ → List UInt8
  | 0, _ => []
  | n + 1, x => UInt8.ofNat (x % 256) :: leBytes n (x / 256)

/-- The number whose little-endian bytes are given. -/
def leNat : List UInt8 → ℕ
  | [] => 0
  | b :: bytes => b.toNat + 256 * leNat bytes

lemma frameSize_pos : 0 < frameSize := by decide

/-- Rounding down makes nothing larger. -/
lemma pageDown_le (x : ℕ) : pageDown x ≤ x := Nat.div_mul_le_self _ _

/-- It leads to the start of a page. -/
lemma frameSize_dvd_pageDown (x : ℕ) : frameSize ∣ pageDown x := Nat.dvd_mul_left _ _

lemma pageDown_of_dvd {x : ℕ} (h : frameSize ∣ x) : pageDown x = x := Nat.div_mul_cancel h

lemma frameSize_dvd_pageUp (x : ℕ) : frameSize ∣ pageUp x := frameSize_dvd_pageDown _

/-- Rounding up makes nothing smaller. -/
lemma le_pageUp (x : ℕ) : x ≤ pageUp x := by
  simp only [pageUp, pageDown, frameSize]
  omega

/-- A number of so many bytes. -/
lemma leNat_lt (bytes : List UInt8) : leNat bytes < 256 ^ bytes.length := by
  induction bytes with
  | nil => decide
  | cons b bytes ih =>
    have hbyte := b.toNat_lt
    rw [leNat, List.length_cons, Nat.pow_succ]
    omega

/-- Bytes beyond the last are cut off. -/
lemma leNat_leBytes (n x : ℕ) : leNat (leBytes n x) = x % 256 ^ n := by
  induction n generalizing x with
  | zero => simp [leBytes, leNat, Nat.mod_one]
  | succ n ih =>
    have hbyte : (UInt8.ofNat (x % 256)).toNat = x % 256 := by
      rw [UInt8.toNat_ofNat']
      omega
    rw [leBytes, leNat, ih, hbyte, Nat.pow_succ, Nat.mul_comm (256 ^ n) 256, Nat.mod_mul]

/-- No two byte lists of the same length stand for the same number. -/
lemma leBytes_leNat (bytes : List UInt8) : leBytes bytes.length (leNat bytes) = bytes := by
  induction bytes with
  | nil => rfl
  | cons b bytes ih =>
    have hbyte := b.toNat_lt
    have hlow : (b.toNat + 256 * leNat bytes) % 256 = b.toNat := by omega
    have hrest : (b.toNat + 256 * leNat bytes) / 256 = leNat bytes := by omega
    rw [leNat, List.length_cons, leBytes, hlow, hrest, ih, UInt8.ofNat_toNat]

lemma length_leBytes (n x : ℕ) : (leBytes n x).length = n := by
  induction n generalizing x with
  | zero => rfl
  | succ n ih => rw [leBytes, List.length_cons, ih]

end Xernel
