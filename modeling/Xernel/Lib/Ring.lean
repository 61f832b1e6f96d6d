import Xernel.Lib.Run
import Mathlib.Data.List.DropRight

/-!
# Bounded streams

A buffer of bounded capacity that drops its oldest element when one more is appended to a full one,
and from which elements are read from the oldest on. `contents`, `written` and `handedOut` are what a
sequence of writes and reads leaves in the buffer, what it appended and what it read; `stream` says
how these three fit together.
-/

namespace Ring

variable {α : Type*} {cap : ℕ}

/-- Append `x`, at the cost of the oldest element if the buffer is full. -/
def push (cap : ℕ) (buf : List α) (x : α) : List α :=
  (if cap ≤ buf.length then buf.tail else buf) ++ [x]

theorem length_push_le {buf : List α} (hcap : 0 < cap) (hlen : buf.length ≤ cap) (x : α) :
    (push cap buf x).length ≤ cap := by
  unfold push
  split
  · rw [List.length_append, List.length_tail, List.length_singleton]
    omega
  · rw [List.length_append, List.length_singleton]
    omega

/-- Appending one element after the other keeps the newest ones. -/
theorem foldl_push {buf : List α} (hcap : 0 < cap) (hlen : buf.length ≤ cap) (data : List α) :
    data.foldl (push cap) buf = (buf ++ data).drop (buf.length + data.length - cap) := by
  induction data generalizing buf with
  | nil =>
    rw [List.foldl_nil, List.append_nil, List.length_nil,
      show buf.length + 0 - cap = 0 by omega, List.drop_zero]
  | cons x data ih =>
    rw [List.foldl_cons, ih (length_push_le hcap hlen x), List.length_cons]
    unfold push
    split
    next hfull =>
      -- the buffer is full, hence not empty
      cases buf with
      | nil => exact absurd hfull (by rw [List.length_nil]; omega)
      | cons y buf =>
        rw [List.length_cons] at hfull hlen ⊢
        rw [List.tail_cons, List.length_append, List.length_singleton, List.append_assoc,
          List.singleton_append, List.cons_append,
          show buf.length + 1 + (data.length + 1) - cap = buf.length + 1 + data.length - cap + 1 by
            omega, List.drop_succ_cons]
    next =>
      rw [List.length_append, List.length_singleton, List.append_assoc, List.singleton_append,
        Nat.add_assoc, Nat.add_comm 1]

/-- `foldl_push` by what is left: the last elements, as many as fit. -/
theorem foldl_push_rtake {buf : List α} (hcap : 0 < cap) (hlen : buf.length ≤ cap) (data : List α) :
    data.foldl (push cap) buf = (buf ++ data).rtake (min cap (buf.length + data.length)) := by
  rw [foldl_push hcap hlen, List.rtake, List.length_append]
  congr 1
  omega

/-! ## Writes and reads -/

inductive Op (α : Type*)
  | write (data : List α)
  | read (max : ℕ)

/-- The buffer after an operation. -/
def Op.apply (cap : ℕ) (buf : List α) : Op α → List α
  | .write data => data.foldl (push cap) buf
  | .read max => buf.drop max

/-- What an operation appends. -/
def Op.written : Op α → List α
  | .write data => data
  | .read _ => []

/-- What an operation reads. -/
def Op.handedOut (buf : List α) : Op α → List α
  | .write _ => []
  | .read max => buf.take max

/-- The buffer after operations on an empty one. -/
def contents (cap : ℕ) (ops : List (Op α)) : List α := ops.foldl (Op.apply cap) []

/-- Everything that operations append. -/
def written (ops : List (Op α)) : List α := ops.flatMap Op.written

/-- Everything that operations read, from a buffer that holds `buf` at first. -/
def handedOutFrom (cap : ℕ) : List α → List (Op α) → List α
  | _, [] => []
  | buf, op :: ops => op.handedOut buf ++ handedOutFrom cap (op.apply cap buf) ops

def handedOut (cap : ℕ) (ops : List (Op α)) : List α := handedOutFrom cap [] ops

variable {ops : List (Op α)} {op : Op α} {data : List α} {x y : α}

@[simp] theorem contents_nil : contents cap ([] : List (Op α)) = [] := rfl

@[simp] theorem written_nil : written ([] : List (Op α)) = [] := rfl

@[simp] theorem handedOut_nil : handedOut cap ([] : List (Op α)) = [] := rfl

theorem contents_concat : contents cap (ops ++ [op]) = op.apply cap (contents cap ops) := by
  rw [contents, List.foldl_append]
  rfl

theorem written_concat : written (ops ++ [op]) = written ops ++ op.written := by
  rw [written, List.flatMap_append, List.flatMap_singleton]
  rfl

theorem handedOutFrom_concat (buf : List α) :
    handedOutFrom cap buf (ops ++ [op]) =
      handedOutFrom cap buf ops ++ op.handedOut (ops.foldl (Op.apply cap) buf) := by
  induction ops generalizing buf with
  | nil => simp [handedOutFrom]
  | cons o ops ih => rw [List.cons_append, handedOutFrom, ih, handedOutFrom, List.append_assoc]; rfl

theorem handedOut_concat :
    handedOut cap (ops ++ [op]) = handedOut cap ops ++ op.handedOut (contents cap ops) :=
  handedOutFrom_concat _

/-- A write of one more element is a write and a push. -/
theorem contents_write_concat :
    contents cap (ops ++ [.write (data ++ [x])]) =
      push cap (contents cap (ops ++ [.write data])) x := by
  rw [contents_concat, contents_concat]
  exact List.foldl_append

/-! ## The stream -/

/-- In the course of `ops`, an element is appended while the buffer is full, with `x`, at position `j`
of the stream, as its oldest. -/
def DropsAt (cap : ℕ) (ops : List (Op α)) (j : ℕ) (x : α) : Prop :=
  ∃ (before : List (Op α)) (data : List α) (y : α) (data' : List α) (after : List (Op α)),
    ops = before ++ .write (data ++ y :: data') :: after ∧
    (contents cap (before ++ [.write data])).length = cap ∧
    contents cap (before ++ [.write data]) = (written (before ++ [.write data])).drop j ∧
    (contents cap (before ++ [.write data])).head? = some x

theorem DropsAt.concat {j : ℕ} (h : DropsAt cap ops j x) (op : Op α) :
    DropsAt cap (ops ++ [op]) j x := by
  obtain ⟨before, data, z, data', after, rfl, hdrops⟩ := h
  exact ⟨before, data, z, data', after ++ [op], by simp, hdrops⟩

/-- A drop in the course of a write is one in the course of a longer write. -/
theorem DropsAt.extend {j : ℕ} (h : DropsAt cap (ops ++ [.write data]) j x) (y : α) :
    DropsAt cap (ops ++ [.write (data ++ [y])]) j x := by
  obtain ⟨before, data₁, z, data₂, after, hops, hdrops⟩ := h
  rcases List.snoc_eq_append_cons hops with ⟨rfl, hwrite, rfl⟩ | ⟨after', rfl, rfl⟩
  · obtain rfl := Op.write.inj hwrite
    exact ⟨ops, data₁, z, data₂ ++ [y], [], by simp, hdrops⟩
  · exact ⟨before, data₁, z, data₂, after' ++ [.write (data ++ [y])], by simp, hdrops⟩

/-- How the stream splits into what left the buffer, in order, and what is in it. What left was read
(`true`) or dropped (`false`), the latter as the oldest element of a full buffer. -/
structure Splits (cap : ℕ) (ops : List (Op α)) (gone : List (α × Bool)) : Prop where
  written : written ops = gone.map Prod.fst ++ contents cap ops
  handedOut : handedOut cap ops = (gone.filter Prod.snd).map Prod.fst
  bounded : (contents cap ops).length ≤ cap
  dropped : ∀ (j : ℕ) (x : α), gone[j]? = some (x, false) → DropsAt cap ops j x

theorem Splits.nil : Splits cap ([] : List (Op α)) [] where
  written := rfl
  handedOut := rfl
  bounded := Nat.zero_le _
  dropped j x h := by simp at h

/-- A read takes what it hands out off the front. -/
theorem Splits.read {gone : List (α × Bool)} (h : Splits cap ops gone) (max : ℕ) :
    Splits cap (ops ++ [.read max])
      (gone ++ ((contents cap ops).take max).map fun x => (x, true)) where
  written := by
    rw [written_concat, contents_concat, h.written, List.map_append, List.map_map]
    simp [Op.written, Op.apply, Function.comp_def]
  handedOut := by
    rw [handedOut_concat, h.handedOut, List.filter_append, List.map_append]
    congr 1
    rw [List.filter_map, List.map_map]
    simp [Op.handedOut, Function.comp_def]
  bounded := by
    rw [contents_concat]
    exact le_trans (by simp [Op.apply]) h.bounded
  dropped j x hj := by
    refine (h.dropped j x ?_).concat _
    rcases Nat.lt_or_ge j gone.length with hlt | hge
    · rwa [List.getElem?_append_left hlt] at hj
    · -- what a read takes is not dropped
      rw [List.getElem?_append_right hge, List.getElem?_map, Option.map_eq_some_iff] at hj
      obtain ⟨z, -, hz⟩ := hj
      cases hz

/-- One more element of a write: if the buffer is full, its oldest element leaves it. -/
theorem Splits.push {gone : List (α × Bool)} (hcap : 0 < cap)
    (h : Splits cap (ops ++ [.write data]) gone) (x : α) :
    ∃ gone', Splits cap (ops ++ [.write (data ++ [x])]) gone' := by
  have hwritten : Ring.written (ops ++ [.write (data ++ [x])]) =
      Ring.written (ops ++ [.write data]) ++ [x] := by
    rw [written_concat, written_concat, List.append_assoc]
    rfl
  have hout : Ring.handedOut cap (ops ++ [.write (data ++ [x])]) =
      Ring.handedOut cap (ops ++ [.write data]) := by
    rw [handedOut_concat, handedOut_concat]
    rfl
  have hbounded := length_push_le hcap h.bounded x
  by_cases hfull : cap ≤ (contents cap (ops ++ [.write data])).length
  · obtain ⟨z, rest, hbuf⟩ : ∃ z rest, contents cap (ops ++ [.write data]) = z :: rest := by
      cases hc : contents cap (ops ++ [.write data]) with
      | nil =>
        rw [hc, List.length_nil] at hfull
        omega
      | cons z rest => exact ⟨z, rest, rfl⟩
    have hpush : contents cap (ops ++ [.write (data ++ [x])]) = rest ++ [x] := by
      rw [contents_write_concat, Ring.push, if_pos hfull, hbuf, List.tail_cons]
    refine ⟨gone ++ [(z, false)], ⟨?_, ?_, ?_, fun j w hj => ?_⟩⟩
    · rw [hwritten, h.written, hpush, hbuf]
      simp
    · rw [hout, h.handedOut, List.filter_append]
      simp
    · rw [contents_write_concat]
      exact hbounded
    · rcases Nat.lt_or_ge j gone.length with hlt | hge
      · rw [List.getElem?_append_left hlt] at hj
        exact (h.dropped j w hj).extend x
      · -- the element dropped now
        have hj₀ : j = gone.length := by
          by_contra hne
          rw [List.getElem?_eq_none (by rw [List.length_append, List.length_singleton]; omega)] at hj
          cases hj
        subst hj₀
        rw [List.getElem?_concat_length] at hj
        obtain rfl : z = w := congrArg Prod.fst (Option.some.inj hj)
        refine ⟨ops, data, x, [], [], rfl, le_antisymm h.bounded hfull, ?_, by rw [hbuf]; rfl⟩
        rw [h.written, ← List.length_map (f := Prod.fst), List.drop_left]
  · refine ⟨gone, ⟨?_, ?_, ?_, fun j w hj => (h.dropped j w hj).extend x⟩⟩
    · rw [hwritten, h.written, contents_write_concat, Ring.push, if_neg hfull, List.append_assoc]
    · rw [hout, h.handedOut]
    · rw [contents_write_concat]
      exact hbounded

theorem Splits.write {gone : List (α × Bool)} (hcap : 0 < cap) (h : Splits cap ops gone)
    (data : List α) : ∃ gone', Splits cap (ops ++ [.write data]) gone' := by
  induction data using List.reverseRecOn with
  | nil =>
    refine ⟨gone, ⟨?_, ?_, ?_, fun j x hj => (h.dropped j x hj).concat _⟩⟩
    · rw [written_concat, contents_concat, h.written]
      exact List.append_nil _
    · rw [handedOut_concat, h.handedOut]
      exact List.append_nil _
    · rw [contents_concat]
      exact h.bounded
  | append_singleton data x ih =>
    obtain ⟨gone', h'⟩ := ih
    exact h'.push hcap x

/-- What was read over a whole sequence of operations, followed by the buffer, is what was written, but
for elements that were dropped as the oldest of a full buffer. -/
theorem stream (hcap : 0 < cap) (ops : List (Op α)) : ∃ gone, Splits cap ops gone := by
  induction ops using List.reverseRecOn with
  | nil => exact ⟨[], .nil⟩
  | append_singleton ops op ih =>
    obtain ⟨gone, h⟩ := ih
    cases op with
    | write data => exact h.write hcap data
    | read max => exact ⟨_, h.read max⟩

end Ring
