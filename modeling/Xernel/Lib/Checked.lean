import Mathlib.Algebra.Ring.Nat
import Mathlib.Data.List.Basic
import Mathlib.Tactic.Common

/-!
# Computations that may panic

Code compiled with bounds and overflow checks either returns a value or panics. `Checked α` is such a
computation; the checked operations on buffers and machine integers each come with the condition under
which they complete, and `Completes.bind` puts these conditions together along a program.
-/

/-- What stops a checked computation. -/
inductive Panic where
  | index
  | overflow
  deriving Repr, DecidableEq

/-- A computation that may panic. -/
abbrev Checked (α : Type) := Except Panic α

namespace Checked

variable {α β : Type}

/-- The computation returns, without a panic. -/
def Completes (x : Checked α) : Prop := ∃ a, x = .ok a

@[simp] theorem completes_ok (a : α) : Completes (.ok a : Checked α) := ⟨a, rfl⟩

@[simp] theorem completes_pure (a : α) : Completes (pure a : Checked α) := ⟨a, rfl⟩

@[simp] theorem not_completes_error (p : Panic) : ¬ Completes (.error p : Checked α) := by
  rintro ⟨a, h⟩
  cases h

@[simp] theorem ok_bind (a : α) (f : α → Checked β) : (Except.ok a : Checked α) >>= f = f a := rfl

@[simp] theorem error_bind (p : Panic) (f : α → Checked β) :
    (Except.error p : Checked α) >>= f = .error p := rfl

/-- A sequence completes if both parts do. -/
theorem bind_eq_ok {x : Checked α} {f : α → Checked β} {b : β} :
    x >>= f = .ok b ↔ ∃ a, x = .ok a ∧ f a = .ok b := by
  constructor
  · intro h
    cases x with
    | error p => cases h
    | ok a => exact ⟨a, rfl, h⟩
  · rintro ⟨a, rfl, h⟩
    exact h

/-- A sequence completes when its first part does, with a value from which the rest does. -/
theorem completes_bind {x : Checked α} {f : α → Checked β} :
    Completes (x >>= f) ↔ ∃ a, x = .ok a ∧ Completes (f a) := by
  constructor
  · rintro ⟨b, h⟩
    obtain ⟨a, hx, hf⟩ := bind_eq_ok.mp h
    exact ⟨a, hx, b, hf⟩
  · rintro ⟨a, hx, b, hf⟩
    exact ⟨b, bind_eq_ok.mpr ⟨a, hx, hf⟩⟩

/-! ## Integers -/

/-- An addition in an unsigned type of `w` bits. -/
def add (w a b : ℕ) : Checked ℕ := if a + b < 2 ^ w then .ok (a + b) else .error .overflow

/-- A sum is what it should be, or panics. -/
theorem add_eq_ok {w a b c : ℕ} : add w a b = .ok c ↔ a + b < 2 ^ w ∧ c = a + b := by
  rw [add]
  split
  next h => simp [h, eq_comm]
  next h => simp [h]

theorem add_of_lt {w a b : ℕ} (h : a + b < 2 ^ w) : add w a b = .ok (a + b) := if_pos h

theorem add_of_not_lt {w a b : ℕ} (h : ¬ a + b < 2 ^ w) : add w a b = .error .overflow := if_neg h

/-! ## Buffers -/

/-- `buf[from..to]`. -/
def slice (buf : List α) (start stop : ℕ) : Checked (List α) :=
  if start ≤ stop ∧ stop ≤ buf.length then .ok ((buf.drop start).take (stop - start))
  else .error .index

/-- A slice inside the buffer. -/
theorem slice_of_le {buf : List α} {start stop : ℕ} (h : start ≤ stop) (h' : stop ≤ buf.length) :
    slice buf start stop = .ok ((buf.drop start).take (stop - start)) := if_pos ⟨h, h'⟩

/-- A part of a buffer, by what is in front of it and behind it. -/
theorem slice_append {front mid back : List α} {start stop : ℕ} (hstart : front.length = start)
    (hstop : start + mid.length = stop) : slice (front ++ (mid ++ back)) start stop = .ok mid := by
  subst hstart hstop
  rw [slice_of_le (Nat.le_add_right _ _) (by simp), List.drop_left, Nat.add_sub_cancel_left,
    List.take_left]

/-- The back of a buffer. -/
theorem slice_append_right {front mid : List α} {start stop : ℕ} (hstart : front.length = start)
    (hstop : start + mid.length = stop) : slice (front ++ mid) start stop = .ok mid := by
  have hslice : slice (front ++ (mid ++ [])) start stop = .ok mid := slice_append hstart hstop
  rwa [List.append_nil] at hslice

/-- The front of a buffer. -/
theorem slice_zero {mid back : List α} {stop : ℕ} (hstop : mid.length = stop) :
    slice (mid ++ back) 0 stop = .ok mid := by
  have hlen : 0 + mid.length = stop := by omega
  have hslice : slice ([] ++ (mid ++ back)) 0 stop = .ok mid := slice_append rfl hlen
  exact hslice

/-- `buf[off..off + src.len()].copy_from_slice(src)`. -/
def copy (buf : List α) (off : ℕ) (src : List α) : Checked (List α) :=
  if off + src.length ≤ buf.length then
    .ok (buf.take off ++ src ++ buf.drop (off + src.length))
  else .error .index

/-- Copying to where there is room replaces the bytes there. -/
theorem copy_of_le {buf src : List α} {off : ℕ} (h : off + src.length ≤ buf.length) :
    copy buf off src = .ok (buf.take off ++ src ++ buf.drop (off + src.length)) := if_pos h

/-- Copying does not change the length. -/
theorem copy_eq_ok {buf src buf' : List α} {off : ℕ} (h : copy buf off src = .ok buf') :
    off + src.length ≤ buf.length ∧ buf'.length = buf.length := by
  rw [copy] at h
  split at h
  next hle =>
    obtain rfl := Except.ok.inj h
    refine ⟨hle, ?_⟩
    simp only [List.length_append, List.length_take, List.length_drop]
    omega
  next => cases h

/-- `buf[i] = x`. -/
def set (buf : List α) (i : ℕ) (x : α) : Checked (List α) :=
  if i < buf.length then .ok (buf.set i x) else .error .index

theorem set_of_lt {buf : List α} {i : ℕ} (h : i < buf.length) (x : α) :
    set buf i x = .ok (buf.set i x) := if_pos h

/-- One copy after the other. -/
def copyAll (buf : List α) : List (ℕ × List α) → Checked (List α)
  | [] => .ok buf
  | (off, src) :: rest => do
    let buf ← copy buf off src
    copyAll buf rest

/-- The copies complete exactly when each of them fits into the buffer, whose length they keep. -/
theorem copyAll_spec (writes : List (ℕ × List α)) : ∀ buf : List α,
    (∀ buf', copyAll buf writes = .ok buf' → buf'.length = buf.length) ∧
    (Completes (copyAll buf writes) ↔ ∀ w ∈ writes, w.1 + w.2.length ≤ buf.length) := by
  induction writes with
  | nil =>
    intro buf
    refine ⟨fun buf' h => ?_, by simp [copyAll]⟩
    obtain rfl := Except.ok.inj h
    rfl
  | cons w writes ih =>
    intro buf
    obtain ⟨off, src⟩ := w
    constructor
    · intro buf' h
      obtain ⟨buf₁, hcopy, hrest⟩ := bind_eq_ok.mp h
      rw [(ih buf₁).1 buf' hrest, (copy_eq_ok hcopy).2]
    · rw [copyAll, completes_bind, List.forall_mem_cons]
      constructor
      · rintro ⟨buf₁, hcopy, hrest⟩
        obtain ⟨hle, hlen⟩ := copy_eq_ok hcopy
        rw [← hlen]
        exact ⟨by rwa [hlen], (ih buf₁).2.mp hrest⟩
      · rintro ⟨hle, hrest⟩
        have hcopy := copy_of_le hle
        refine ⟨_, hcopy, (ih _).2.mpr ?_⟩
        rwa [(copy_eq_ok hcopy).2]

/-- The copies do not overlap, come in the order of the buffer from `pos` on, and end by `stop`. -/
def InOrder (stop : ℕ) : ℕ → List (ℕ × List α) → Prop
  | pos, [] => pos ≤ stop
  | pos, (off, src) :: rest => pos ≤ off ∧ InOrder stop (off + src.length) rest

/-- What copies in order make of a buffer that starts at `pos`: each takes the place of what was there. -/
def splice : ℕ → List α → List (ℕ × List α) → List α
  | _, buf, [] => buf
  | pos, buf, (off, src) :: rest =>
    buf.take (off - pos) ++ (src ++ splice (off + src.length) (buf.drop (off - pos + src.length)) rest)

/-- Writes in order end inside the buffer. -/
theorem InOrder.le {stop pos : ℕ} {writes : List (ℕ × List α)} (h : InOrder stop pos writes) :
    pos ≤ stop := by
  induction writes generalizing pos with
  | nil => exact h
  | cons w writes ih =>
    obtain ⟨hle, hrest⟩ := h
    have hend := ih hrest
    omega

/-- They leave what comes before them alone. -/
theorem copyAll_inOrder {pos : ℕ} {front buf : List α} {writes : List (ℕ × List α)}
    (hpos : front.length = pos) (h : InOrder (pos + buf.length) pos writes) :
    copyAll (front ++ buf) writes = .ok (front ++ splice pos buf writes) := by
  induction writes generalizing pos front buf with
  | nil => rfl
  | cons w writes ih =>
    obtain ⟨off, src⟩ := w
    obtain ⟨hle, hrest⟩ := h
    have hend := hrest.le
    obtain ⟨k, rfl⟩ := Nat.exists_eq_add_of_le hle
    have hbuf : (buf.take k).length = k := by
      rw [List.length_take]
      omega
    -- what lies before the rest of the copies
    have hcopy : copy (front ++ buf) (pos + k) src =
        .ok (front ++ buf.take k ++ src ++ buf.drop (k + src.length)) := by
      rw [copy_of_le (by rw [List.length_append]; omega), ← hpos, List.take_length_add_append,
        Nat.add_assoc, List.drop_length_add_append]
    have hfront : (front ++ buf.take k ++ src).length = pos + k + src.length := by
      rw [List.length_append, List.length_append, hbuf, hpos]
    have hlen : pos + buf.length = pos + k + src.length + (buf.drop (k + src.length)).length := by
      rw [List.length_drop]
      omega
    rw [hlen] at hrest
    rw [copyAll, hcopy, ok_bind, ih hfront hrest, splice, Nat.add_sub_cancel_left, List.append_assoc,
      List.append_assoc]

/-- They leave the bytes between them alone. -/
theorem copyAll_of_inOrder {buf : List α} {writes : List (ℕ × List α)}
    (h : InOrder buf.length 0 writes) : copyAll buf writes = .ok (splice 0 buf writes) := by
  have hall := copyAll_inOrder (@List.length_nil α) (by rwa [Nat.zero_add])
  exact hall

end Checked
