import Xernel.Arch.Keyboard
import Xernel.Lib.Circular

/-!
# The keyboard buffer is a queue

`Ring` holds a queue of at most 255 bytes: `push` appends to it while it is not full, `pop` takes the
oldest byte, and the drain loop of the read calls takes the oldest bytes in order.
-/

namespace Xernel
namespace Keyboard
namespace Ring

open Fifo

variable {r : Ring} {b : UInt8}

/-- Both indices are indices of the array. -/
structure Valid (r : Ring) : Prop where
  head : r.head < ringCap
  tail : r.tail < ringCap

/-- The bytes in the buffer, oldest first. -/
def queued (r : Ring) : List UInt8 := Circular.contents ringCap r.data r.head r.tail

lemma valid_new : new.Valid := ⟨by decide, by decide⟩

lemma queued_new : new.queued = [] := (Circular.contents_eq_nil_iff (by decide) (by decide)).mpr rfl

lemma Valid.length_queued_lt (h : r.Valid) : r.queued.length < ringCap := by
  unfold queued
  rw [Circular.length_contents]
  exact Circular.size_lt h.head

/-! ## One operation -/

lemma Valid.push (h : r.Valid) (b : UInt8) : (r.push b).Valid := by
  unfold Ring.push
  dsimp only
  split
  · exact ⟨h.head, Nat.mod_lt _ (by decide)⟩
  · exact h

lemma Valid.pop (h : r.Valid) : r.pop.2.Valid := by
  unfold Ring.pop
  split
  · exact h
  · exact ⟨Nat.mod_lt _ (by decide), h.tail⟩

/-- The buffer is full when 255 bytes are in it. -/
lemma Valid.full_iff (h : r.Valid) : (r.tail + 1) % ringCap = r.head ↔ r.queued.length = 255 := by
  unfold queued
  rw [Circular.succ_eq_iff h.head h.tail, Circular.length_contents]
  unfold ringCap
  omega

lemma Valid.queued_push (h : r.Valid) (b : UInt8) :
    (r.push b).queued = Op.apply 255 r.queued (.push b) := by
  have hlen := h.length_queued_lt
  have hfull := h.full_iff
  unfold Ring.push Op.apply
  dsimp only
  by_cases hnext : (r.tail + 1) % ringCap = r.head
  · rw [if_neg (not_not.mpr hnext), if_neg]
    rw [hfull.mp hnext]
    omega
  · rw [if_pos hnext, if_pos]
    · exact Circular.contents_push h.head h.tail hnext
    · rw [hfull] at hnext
      unfold ringCap at hlen
      omega

lemma Valid.queued_pop (h : r.Valid) :
    r.pop.1 = r.queued.head? ∧ r.pop.2.queued = r.queued.tail := by
  unfold Ring.pop
  by_cases hempty : r.head = r.tail
  · have hnil : r.queued = [] := (Circular.contents_eq_nil_iff h.head h.tail).mpr hempty
    rw [if_pos hempty, hnil]
    exact ⟨rfl, rfl⟩
  · have hcons : r.queued = r.data r.head :: _ := Circular.contents_pop h.head h.tail hempty
    rw [if_neg hempty, hcons]
    exact ⟨rfl, rfl⟩

/-! ## Runs -/

/-- The buffer after operations on it, and what they hand out. -/
def run : List (Op UInt8) → Ring → List (Option UInt8) × Ring
  | [], r => ([], r)
  | .push b :: ops, r => (none :: (run ops (r.push b)).1, (run ops (r.push b)).2)
  | .pop :: ops, r => (r.pop.1 :: (run ops r.pop.2).1, (run ops r.pop.2).2)

/-- Run by run, the buffer does what the queue does. -/
lemma Valid.run (h : r.Valid) (ops : List (Op UInt8)) :
    (run ops r).2.Valid ∧ (run ops r).1 = (Fifo.run 255 ops r.queued).1 ∧
      (run ops r).2.queued = (Fifo.run 255 ops r.queued).2 := by
  induction ops generalizing r with
  | nil => exact ⟨h, rfl, rfl⟩
  | cons op ops ih =>
    unfold Fifo.run
    cases op with
    | push b =>
      obtain ⟨hvalid, hout, hqueued⟩ := ih (h.push b)
      rw [h.queued_push] at hout hqueued
      exact ⟨hvalid, congrArg (none :: ·) hout, hqueued⟩
    | pop =>
      obtain ⟨hhead, htail⟩ := h.queued_pop
      obtain ⟨hvalid, hout, hqueued⟩ := ih h.pop
      rw [htail] at hout hqueued
      refine ⟨hvalid, ?_, hqueued⟩
      show r.pop.1 :: _ = r.queued.head? :: _
      rw [hhead, hout]
      rfl

/-- The drain loop takes the oldest bytes, as many as are wanted and there, and leaves the others. -/
lemma Valid.drain (h : r.Valid) (n : ℕ) :
    (drain n r).1 = r.queued.take n ∧ (drain n r).2.queued = r.queued.drop n ∧
      (drain n r).2.Valid := by
  induction n generalizing r with
  | zero => exact ⟨rfl, rfl, h⟩
  | succ n ih =>
    obtain ⟨hhead, htail⟩ := h.queued_pop
    have hvalid := h.pop
    unfold Ring.drain
    cases hpop : r.pop with
    | mk got r' =>
      rw [hpop] at hhead htail hvalid
      obtain ⟨htake, hdrop, hrest⟩ := ih hvalid
      generalize r.queued = q at hhead htail
      cases q with
      | nil =>
        obtain rfl : got = none := hhead
        exact ⟨rfl, htail, hvalid⟩
      | cons b q =>
        obtain rfl : got = some b := hhead
        have htail : r'.queued = q := htail
        rw [htail] at htake hdrop
        exact ⟨congrArg (b :: ·) htake, hdrop, hrest⟩

lemma length_drain_le (n : ℕ) (r : Ring) : (drain n r).1.length ≤ n := by
  induction n generalizing r with
  | zero => exact le_rfl
  | succ n ih =>
    unfold Ring.drain
    split
    · exact Nat.zero_le _
    next r' _ => exact Nat.succ_le_succ (ih r')

end Ring

/-- From the empty buffer on, every sequence of pushes and pops does what it does to a queue with room for
255 bytes, on indices below 256; and what a read then takes are the oldest bytes, in order. -/
theorem ring_fifo (ops : List (Fifo.Op UInt8)) :
    (Ring.run ops .new).1 = (Fifo.run 255 ops []).1 ∧
    (Ring.run ops .new).2.queued = (Fifo.run 255 ops []).2 ∧
    (Ring.run ops .new).2.head < ringCap ∧ (Ring.run ops .new).2.tail < ringCap ∧
    ∀ n, ((Ring.run ops .new).2.drain n).1 =
        (Fifo.run 255 ops []).2.take (min n (Fifo.run 255 ops []).2.length) ∧
      ((Ring.run ops .new).2.drain n).2.queued = (Fifo.run 255 ops []).2.drop n := by
  obtain ⟨hvalid, hout, hqueued⟩ := Ring.valid_new.run ops
  rw [Ring.queued_new] at hout hqueued
  refine ⟨hout, hqueued, hvalid.head, hvalid.tail, fun n => ?_⟩
  obtain ⟨htake, hdrop, -⟩ := hvalid.drain n
  rw [htake, hdrop, hqueued, List.take_eq_take_min]
  exact ⟨rfl, rfl⟩

end Keyboard
end Xernel
