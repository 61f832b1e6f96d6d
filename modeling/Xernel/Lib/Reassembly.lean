import Mathlib.Data.List.Basic
import Mathlib.Data.Nat.Basic
import Mathlib.Order.Lattice

/-!
# Reassembling a stream

A sender cuts a stream into chunks, each with the number of its first element. The receiver knows the
number it waits for: of a chunk that starts there or before it takes the part from there on, and it drops
the others. Whatever chunks of the stream come, in whatever order and how often, it has a prefix of the
stream (`Reassembly.Holds.foldl`); chunks that cover the stream bring all of it, also with others in
between (`Covers`).
-/

/-- Elements of a stream, and the number of the first. -/
structure Chunk (α : Type*) where
  seq : ℕ
  data : List α

/-- The number a receiver waits for, and what it has. -/
structure Reassembly (α : Type*) where
  next : ℕ
  data : List α

variable {α : Type*}

/-- A chunk of the stream `S`, whose first element has the number `base`; or an empty one. -/
def Chunk.OfStream (c : Chunk α) (base : ℕ) (S : List α) : Prop :=
  c.data ≠ [] → ∃ off, c.seq = base + off ∧ c.data <+: S.drop off

namespace Chunk

variable {c : Chunk α} {base : ℕ} {S : List α}

/-- A chunk stays one when the stream goes on. -/
lemma OfStream.append (h : c.OfStream base S) (T : List α) : c.OfStream base (S ++ T) := by
  intro hne
  obtain ⟨off, hseq, hdata⟩ := h hne
  refine ⟨off, hseq, hdata.trans ?_⟩
  rw [List.drop_append]
  exact List.prefix_append _ _

lemma ofStream_nil (hdata : c.data = []) : c.OfStream base S := fun hne => absurd hdata hne

/-- What comes next. -/
lemma ofStream_append (base : ℕ) (S T : List α) :
    (⟨base + S.length, T⟩ : Chunk α).OfStream base (S ++ T) :=
  fun _ => ⟨S.length, rfl, by simp⟩

end Chunk

namespace Reassembly

variable {r : Reassembly α} {c : Chunk α} {cs cs' : List (Chunk α)} {base p q q' : ℕ} {S : List α}

/-- A chunk that does not begin after the next number adds what is new in it; any other is dropped. -/
def accept (r : Reassembly α) (c : Chunk α) : Reassembly α :=
  if c.seq ≤ r.next then ⟨max r.next (c.seq + c.data.length), r.data ++ c.data.drop (r.next - c.seq)⟩
  else r

/-- The receiver has the stream up to the number it waits for. -/
structure Holds (r : Reassembly α) (base : ℕ) (S : List α) : Prop where
  base_le : base ≤ r.next
  le : r.next ≤ base + S.length
  data : r.data = S.take (r.next - base)

/-- Nothing has been received. -/
lemma holds_start (base : ℕ) (S : List α) : (⟨base, []⟩ : Reassembly α).Holds base S :=
  ⟨le_rfl, Nat.le_add_right _ _, by rw [Nat.sub_self, List.take_zero]⟩

/-- What was received is the front of the stream. -/
lemma Holds.isPrefix (h : r.Holds base S) : r.data <+: S := by
  rw [h.data]
  exact List.take_prefix _ _

/-- A receiver that has got to the end has it all. -/
lemma Holds.all (h : r.Holds base S) (hnext : base + S.length ≤ r.next) : r.data = S := by
  rw [h.data, List.take_of_length_le (by omega)]

/-- A chunk of the stream does no harm, whenever it comes. -/
lemma Holds.accept (h : r.Holds base S) (hc : c.OfStream base S) : (r.accept c).Holds base S := by
  rw [Reassembly.accept]
  split
  next hle =>
    by_cases hnil : c.data = []
    · rw [hnil, List.drop_nil, List.append_nil, List.length_nil, Nat.add_zero, max_eq_left hle]
      exact h
    obtain ⟨off, hseq, hdata⟩ := hc hnil
    have hlen : c.data.length ≤ S.length - off := by simpa using hdata.length_le
    have hbase := h.base_le
    have hnext := h.le
    refine ⟨hbase.trans (le_max_left _ _), by dsimp only; omega, ?_⟩
    dsimp only
    rw [h.data, List.prefix_iff_eq_take.mp hdata, List.drop_take, List.drop_drop, hseq,
      show off + (r.next - (base + off)) = r.next - base by omega]
    have hsplit : max r.next (base + off + c.data.length) - base =
        (r.next - base) + (c.data.length - (r.next - (base + off))) := by omega
    rw [List.length_take, List.length_drop, min_eq_left hlen, hsplit, List.take_add]
  next => exact h

/-- Nothing but chunks of the stream: the receiver has a prefix of it. -/
lemma Holds.foldl (h : r.Holds base S) (hcs : ∀ c ∈ cs, c.OfStream base S) :
    (cs.foldl Reassembly.accept r).Holds base S := by
  induction cs generalizing r with
  | nil => exact h
  | cons c cs ih =>
    obtain ⟨hc, hcs⟩ := List.forall_mem_cons.mp hcs
    exact ih (h.accept hc) hcs

/-- The receiver does not go back. -/
lemma next_le_accept (r : Reassembly α) (c : Chunk α) : r.next ≤ (r.accept c).next := by
  rw [accept]
  split
  · exact le_max_left _ _
  · exact le_rfl

lemma next_le_foldl (cs : List (Chunk α)) (r : Reassembly α) :
    r.next ≤ (cs.foldl accept r).next := by
  induction cs generalizing r with
  | nil => exact le_rfl
  | cons c cs ih => exact (r.next_le_accept c).trans (ih _)

/-- The chunks take a receiver from `p` to `q`, whatever else comes in between. -/
def Covers (cs : List (Chunk α)) (p q : ℕ) : Prop :=
  ∀ (got : List (Chunk α)) (r : Reassembly α), cs.Sublist got → p ≤ r.next →
    q ≤ (got.foldl accept r).next

lemma covers_of_le (cs : List (Chunk α)) (hle : q ≤ p) : Covers cs p q :=
  fun got r _ hp => (hle.trans hp).trans (next_le_foldl got r)

/-- A chunk covers its own range. -/
lemma covers_of_mem (hc : c ∈ cs) (hseq : c.seq ≤ p) (hq : q ≤ c.seq + c.data.length) :
    Covers cs p q := by
  intro got r hsub hp
  obtain ⟨before, after, rfl⟩ := List.append_of_mem (hsub.subset hc)
  have hbefore := next_le_foldl before r
  rw [List.foldl_append, List.foldl_cons]
  refine le_trans ?_ (next_le_foldl after _)
  rw [accept, if_pos (by omega)]
  exact hq.trans (le_max_right _ _)

/-- Ranges that meet are covered one after the other. -/
lemma Covers.append (h : Covers cs p q) (h' : Covers cs' q q') : Covers (cs ++ cs') p q' := by
  intro got r hsub hp
  obtain ⟨got₁, got₂, rfl, hsub₁, hsub₂⟩ := List.append_sublist_iff.mp hsub
  rw [List.foldl_append]
  exact h' got₂ _ hsub₂ (h got₁ r hsub₁ hp)

end Reassembly
