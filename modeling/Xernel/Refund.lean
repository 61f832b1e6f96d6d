import Xernel.CapTheorems

/-!
# Undoing a charge

`charge_untyped` takes the bytes from the first `Untyped` capability that has enough of them left, and
`refund_untyped` gives them to the first `Untyped` capability there is. The second undoes the first as
long as these two are the same capability.
-/

namespace Xernel
namespace CNode

/-- The loop of `charge_untyped`, which writes to the slots as it goes: whether something was charged,
and the slots after it. -/
def chargeLoop (amount : ℕ) : List (Option CapEntry) → Bool × List (Option CapEntry)
  | [] => (false, [])
  | none :: rest => ((chargeLoop amount rest).1, none :: (chargeLoop amount rest).2)
  | some cap :: rest =>
    if cap.capType = .untyped ∧ amount ≤ cap.object then
      (true, some { cap with object := cap.object - amount } :: rest)
    else ((chargeLoop amount rest).1, some cap :: (chargeLoop amount rest).2)

/-- What `charge_untyped` returns, and the table it leaves behind. -/
def chargeInPlace (c : CNode) (amount : ℕ) : Bool × CNode :=
  ((chargeLoop amount c.slots).1, ⟨(chargeLoop amount c.slots).2⟩)

/-- The first `Untyped` capability of a list of slots: `slots.iter().flatten().find(..)`. -/
def firstUntyped (s : List (Option CapEntry)) : Option CapEntry :=
  s.findSome? fun o => o.filter fun cap => cap.capType = .untyped

/-- If some `Untyped` capability has `amount` bytes left, then the first one has. -/
def Refundable (c : CNode) (amount : ℕ) : Prop :=
  ∀ cap, some cap ∈ c.slots → cap.capType = .untyped → amount ≤ cap.object →
    ∃ first, firstUntyped c.slots = some first ∧ amount ≤ first.object

variable {c c' : CNode} {amount : ℕ} {s t : List (Option CapEntry)} {cap : CapEntry}

/-! ## Where the charge goes -/

lemma chargeLoop_eq (amount : ℕ) (s : List (Option CapEntry)) :
    chargeLoop amount s = ((chargeSlots amount s).isSome, (chargeSlots amount s).getD s) := by
  induction s with
  | nil => rfl
  | cons o s ih =>
    cases o with
    | none =>
      unfold chargeLoop chargeSlots
      rw [ih]
      cases chargeSlots amount s <;> rfl
    | some cap =>
      unfold chargeLoop chargeSlots
      split
      · rfl
      · rw [ih]
        cases chargeSlots amount s <;> rfl

/-- The table after a charge, as `chargeUntyped` has it. -/
lemma chargeInPlace_eq (c : CNode) (amount : ℕ) :
    c.chargeInPlace amount = ((c.chargeUntyped amount).isSome, (c.chargeUntyped amount).getD c) := by
  unfold chargeInPlace chargeUntyped
  rw [chargeLoop_eq]
  cases chargeSlots amount c.slots <;> rfl

lemma firstUntyped_none (s : List (Option CapEntry)) : firstUntyped (none :: s) = firstUntyped s := rfl

lemma firstUntyped_untyped (h : cap.capType = .untyped) : firstUntyped (some cap :: s) = some cap := by
  simp [firstUntyped, Option.filter, h]

lemma firstUntyped_other (h : cap.capType ≠ .untyped) :
    firstUntyped (some cap :: s) = firstUntyped s := by
  simp [firstUntyped, Option.filter, h]

/-- A charge succeeds when some `Untyped` capability covers it. -/
lemma chargeSlots_isSome_iff : (chargeSlots amount s).isSome ↔
    ∃ cap, some cap ∈ s ∧ cap.capType = .untyped ∧ amount ≤ cap.object := by
  induction s with
  | nil => simp [chargeSlots]
  | cons o s ih =>
    cases o with
    | none => simpa [chargeSlots] using ih
    | some cap =>
      unfold chargeSlots
      split
      next hcovers => exact iff_of_true rfl ⟨cap, List.mem_cons_self, hcovers⟩
      next hnot =>
        rw [Option.isSome_map, ih]
        constructor
        · rintro ⟨cap', hmem, hcovers⟩
          exact ⟨cap', List.mem_cons_of_mem _ hmem, hcovers⟩
        · rintro ⟨cap', hmem, hcovers⟩
          rcases List.mem_cons.mp hmem with heq | hmem
          · rw [Option.some.inj heq] at hcovers
            exact absurd hcovers hnot
          · exact ⟨cap', hmem, hcovers⟩

/-- A charge of something changes the table. -/
lemma chargeSlots_ne (h : chargeSlots amount s = some t) (hpos : 0 < amount) : t ≠ s := by
  intro heq
  have hcharge : (CNode.mk s).chargeUntyped amount = some ⟨t⟩ := by
    unfold chargeUntyped
    rw [h, Option.map_some]
  have hbudget := budget_charge hcharge
  rw [heq] at hbudget
  omega

/-! ## The refund -/

/-- Once charged, the slots are restored exactly if the first `Untyped` capability paid. -/
lemma refundSlots_chargeSlots_iff
    (hwords : ∀ cap, some cap ∈ s → cap.capType = .untyped → cap.object ≤ u64Max)
    (h : chargeSlots amount s = some t) :
    refundSlots amount t = s ↔ ∃ first, firstUntyped s = some first ∧ amount ≤ first.object := by
  induction s generalizing t with
  | nil => cases h
  | cons o s ih =>
    have hwords' : ∀ cap, some cap ∈ s → cap.capType = .untyped → cap.object ≤ u64Max :=
      fun cap hmem => hwords cap (List.mem_cons_of_mem _ hmem)
    cases o with
    | none =>
      obtain ⟨t', ht', rfl⟩ := Option.map_eq_some_iff.mp h
      rw [refundSlots, firstUntyped_none, List.cons.injEq, ← ih hwords' ht']
      exact and_iff_right rfl
    | some cap =>
      unfold chargeSlots at h
      split at h
      next hcovers =>
        -- the first capability pays, and gets back what it paid
        obtain rfl := Option.some.inj h
        have hword := hwords cap List.mem_cons_self hcovers.1
        have hback : min (cap.object - amount + amount) u64Max = cap.object := by omega
        refine iff_of_true ?_ ⟨cap, firstUntyped_untyped hcovers.1, hcovers.2⟩
        rw [refundSlots, if_pos hcovers.1, hback]
      next hnot =>
        obtain ⟨t', ht', rfl⟩ := Option.map_eq_some_iff.mp h
        by_cases htype : cap.capType = .untyped
        · -- another one pays, but this one gets the refund
          have hless : cap.object < amount := by
            by_contra hle
            exact hnot ⟨htype, Nat.le_of_not_lt hle⟩
          refine iff_of_false ?_ ?_
          · rw [refundSlots, if_pos htype, List.cons.injEq]
            exact fun heq => chargeSlots_ne ht' (by omega) heq.2
          · rintro ⟨first, hfirst, hle⟩
            rw [firstUntyped_untyped htype] at hfirst
            obtain rfl := Option.some.inj hfirst
            omega
        · rw [refundSlots, if_neg htype, firstUntyped_other htype, List.cons.injEq, ← ih hwords' ht']
          exact and_iff_right rfl

/-- A refund after a charge restores the table exactly if the first `Untyped` capability covers what
was charged. -/
lemma refundUntyped_chargeUntyped_iff
    (hwords : ∀ cap, some cap ∈ c.slots → cap.capType = .untyped → cap.object ≤ u64Max)
    (h : c.chargeUntyped amount = some c') :
    c'.refundUntyped amount = c ↔
      ∃ first, firstUntyped c.slots = some first ∧ amount ≤ first.object := by
  obtain ⟨t, ht, rfl⟩ := Option.map_eq_some_iff.mp h
  rw [← refundSlots_chargeSlots_iff hwords ht, refundUntyped]
  exact ⟨congrArg CNode.slots, congrArg CNode.mk⟩

/-- For every table and amount: a refund undoes a charge and a refused charge changes nothing, exactly if
the first `Untyped` capability covers the amount when any does. -/
theorem refund_undoes_charge_iff (c : CNode) (amount : ℕ)
    (hwords : ∀ cap, some cap ∈ c.slots → cap.object ≤ u64Max) :
    (((c.chargeInPlace amount).1 = true →
        (c.chargeInPlace amount).2.refundUntyped amount = c) ∧
      ((c.chargeInPlace amount).1 = false → (c.chargeInPlace amount).2 = c)) ↔
      c.Refundable amount := by
  rw [chargeInPlace_eq]
  have hcovers : (c.chargeUntyped amount).isSome ↔
      ∃ cap, some cap ∈ c.slots ∧ cap.capType = .untyped ∧ amount ≤ cap.object := by
    rw [← chargeSlots_isSome_iff, chargeUntyped, Option.isSome_map]
  cases hcharge : c.chargeUntyped amount with
  | none =>
    rw [hcharge] at hcovers
    refine iff_of_true ⟨fun htrue => absurd htrue Bool.false_ne_true, fun _ => rfl⟩ ?_
    intro cap hmem htype hle
    exact absurd (hcovers.mpr ⟨cap, hmem, htype, hle⟩) Bool.false_ne_true
  | some c' =>
    rw [hcharge] at hcovers
    obtain ⟨cap, hmem, htype, hle⟩ := hcovers.mp rfl
    have hiff := refundUntyped_chargeUntyped_iff (fun cap hmem _ => hwords cap hmem) hcharge
    constructor
    · intro h cap' _ _ _
      exact hiff.mp (h.1 rfl)
    · intro h
      exact ⟨fun _ => hiff.mpr (h cap hmem htype hle), fun hfalse => by cases hfalse⟩

/-- A table with one budget of 10 bytes, of which 4 are charged and refunded. -/
theorem refund_undoes_charge_iff_single :
    ((CNode.mk [none, some (.untyped 10)]).chargeInPlace 4).2 = ⟨[none, some (.untyped 6)]⟩ ∧
      ((CNode.mk [none, some (.untyped 10)]).chargeInPlace 4).2.refundUntyped 4 =
        ⟨[none, some (.untyped 10)]⟩ := by
  have hwords : ∀ cap, some cap ∈ (CNode.mk [none, some (.untyped 10)]).slots →
      cap.object ≤ u64Max := by
    intro cap hmem
    obtain rfl : cap = .untyped 10 := by simpa using hmem
    decide
  have hrefundable : (CNode.mk [none, some (.untyped 10)]).Refundable 4 :=
    fun _ _ _ _ => ⟨.untyped 10, rfl, by decide⟩
  exact ⟨by decide, ((refund_undoes_charge_iff _ 4 hwords).mpr hrefundable).1 (by decide)⟩

/-- With a used-up budget before the one that pays, the refund goes to the wrong one. -/
theorem not_refund_undoes_charge :
    ((CNode.mk [some (.untyped 0), some (.untyped 10)]).chargeInPlace 5).1 = true ∧
      ((CNode.mk [some (.untyped 0), some (.untyped 10)]).chargeInPlace 5).2.refundUntyped 5 =
        ⟨[some (.untyped 5), some (.untyped 5)]⟩ ∧
      ((CNode.mk [some (.untyped 0), some (.untyped 10)]).chargeInPlace 5).2.refundUntyped 5 ≠
        ⟨[some (.untyped 0), some (.untyped 10)]⟩ := by
  decide

end CNode
end Xernel
