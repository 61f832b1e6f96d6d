import Xernel.Cap
import Mathlib.Algebra.BigOperators.Group.List.Basic
import Mathlib.Data.Option.Defs

/-!
# Lemmas about capability tables

How `insert`, `chargeUntyped` and `refundUntyped` change the slots of a table
(`slot_insert`, `SameButBudget`), and what they do to the budget it holds (`budget`).
-/

namespace Xernel
namespace CNode

variable {c c' c'' : CNode} {i j amount : ℕ} {cap : CapEntry}

/-! ## Slots -/

/-- `insert` fills one empty slot and leaves the others alone. -/
lemma insert_eq_ok_iff : c.insert i cap = .ok c' ↔
    i < c.slots.length ∧ c.slot i = none ∧ c' = ⟨c.slots.set i (some cap)⟩ := by
  unfold insert slot
  rcases h : c.slots[i]? with _ | _ | cap'
  · have := List.getElem?_eq_none_iff.mp h
    simp [Nat.not_lt.mpr this]
  · obtain ⟨hi, -⟩ := List.getElem?_eq_some_iff.mp h
    simp [hi, eq_comm]
  · simp

/-- Setting a slot leaves the others alone. -/
lemma slot_set (hi : i < c.slots.length) (o : Option CapEntry) :
    slot ⟨c.slots.set i o⟩ j = if i = j then o else c.slot j := by
  unfold slot
  rw [List.getElem?_set]
  split
  · simp_all
  · rfl

/-- An insertion that succeeds fills its own slot only. -/
lemma slot_insert (h : c.insert i cap = .ok c') :
    c'.slot j = if i = j then some cap else c.slot j := by
  obtain ⟨hi, -, rfl⟩ := insert_eq_ok_iff.mp h
  exact slot_set hi _

/-- It does not overwrite anything. -/
lemma slot_eq_none_of_insert (h : c.insert i cap = .ok c') : c.slot i = none :=
  (insert_eq_ok_iff.mp h).2.1

/-- The slots name exactly the entries of the list. -/
lemma slot_eq_some_iff_mem : (∃ i, c.slot i = some cap) ↔ some cap ∈ c.slots := by
  simp only [slot, List.mem_iff_getElem?, Option.join_eq_some_iff]

/-- A port access is authorised by some capability of the table. -/
lemma authorizesPort_eq_true {port size : ℕ} (h : c.authorizesPort port size = true) :
    ∃ i cap, c.slot i = some cap ∧ cap.authorizesPort port size = true := by
  obtain ⟨s, hs, hcap⟩ := List.any_eq_true.mp h
  obtain ⟨cap, rfl, hauth⟩ := (Option.any_eq_true _ _).mp hcap
  obtain ⟨i, hi⟩ := slot_eq_some_iff_mem.mpr hs
  exact ⟨i, cap, hi, hauth⟩

/-- So is device memory. -/
lemma authorizesMmio_eq_true {phys len : ℕ} (h : c.authorizesMmio phys len = true) :
    ∃ i cap, c.slot i = some cap ∧ cap.authorizesMmio phys len = true := by
  obtain ⟨s, hs, hcap⟩ := List.any_eq_true.mp h
  obtain ⟨cap, rfl, hauth⟩ := (Option.any_eq_true _ _).mp hcap
  obtain ⟨i, hi⟩ := slot_eq_some_iff_mem.mpr hs
  exact ⟨i, cap, hi, hauth⟩

/-- Any slot will do. -/
lemma authorizesMmio_of_slot {i phys len : ℕ} (hslot : c.slot i = some cap)
    (h : cap.authorizesMmio phys len = true) : c.authorizesMmio phys len = true := by
  have hmem := slot_eq_some_iff_mem.mp ⟨i, hslot⟩
  exact List.any_eq_true.mpr ⟨some cap, hmem, (Option.any_eq_true _ _).mpr ⟨cap, rfl, h⟩⟩

/-! ## Charging and refunding

Both only ever change the remaining bytes of an `Untyped` capability. -/

end CNode

/-- The two capabilities agree but for the remaining bytes of an `Untyped` one. -/
def CapEntry.SameButBudget (cap cap' : CapEntry) : Prop :=
  cap'.capType = cap.capType ∧ cap'.badge = cap.badge ∧
    (cap.capType ≠ .untyped → cap'.object = cap.object)

lemma CapEntry.SameButBudget.refl (cap : CapEntry) : cap.SameButBudget cap :=
  ⟨rfl, rfl, fun _ => rfl⟩

/-- Budgets may change several times. -/
lemma CapEntry.SameButBudget.trans {cap cap' cap'' : CapEntry} (h : cap.SameButBudget cap')
    (h' : cap'.SameButBudget cap'') : cap.SameButBudget cap'' :=
  ⟨h'.1.trans h.1, h'.2.1.trans h.2.1, fun hne => (h'.2.2 (h.1 ▸ hne)).trans (h.2.2 hne)⟩

/-- A capability of another kind is not changed at all. -/
lemma CapEntry.SameButBudget.eq {cap cap' : CapEntry} (h : cap.SameButBudget cap')
    (hne : cap.capType ≠ .untyped) : cap' = cap := by
  obtain ⟨ht, hb, ho⟩ := h
  cases cap; cases cap'
  simp only at ht hb ho
  simp [ht, hb, ho hne]

/-- Only an Untyped capability has a budget that may change. -/
lemma CapEntry.SameButBudget.eq_of_right {cap cap' : CapEntry} (h : cap.SameButBudget cap')
    (hne : cap'.capType ≠ .untyped) : cap' = cap :=
  h.eq (h.1 ▸ hne)

namespace CNode

variable {c c' c'' : CNode} {i j amount : ℕ} {cap : CapEntry}

/-- The same slots are in use, and only budgets differ. -/
def SameButBudget (c c' : CNode) : Prop :=
  ∀ i, Option.Rel CapEntry.SameButBudget (c.slot i) (c'.slot i)

lemma SameButBudget.refl (c : CNode) : SameButBudget c c := by
  intro i
  cases c.slot i with
  | none => exact .none
  | some cap => exact .some (.refl cap)

/-- The same slot by slot. -/
lemma SameButBudget.trans (h : SameButBudget c c') (h' : SameButBudget c' c'') :
    SameButBudget c c'' := by
  intro i
  have h₁ := h i
  have h₂ := h' i
  revert h₁ h₂
  rcases c.slot i with _ | x <;> rcases c'.slot i with _ | y <;> rcases c''.slot i with _ | z <;>
    intro h₁ h₂ <;> cases h₁ <;> cases h₂
  · exact .none
  next hxy hyz => exact .some (hxy.trans hyz)

/-- Prefixing both tables with a slot that agrees keeps the agreement. -/
lemma SameButBudget.cons {s s' : List (Option CapEntry)} {o o' : Option CapEntry}
    (ho : Option.Rel CapEntry.SameButBudget o o') (h : SameButBudget ⟨s⟩ ⟨s'⟩) :
    SameButBudget ⟨o :: s⟩ ⟨o' :: s'⟩ := by
  intro i
  cases i with
  | zero => simpa [slot] using ho
  | succ i => simpa [slot] using h i

/-- A charge takes from the first Untyped capability that has enough. -/
lemma chargeSlots_same {s s' : List (Option CapEntry)} (h : chargeSlots amount s = some s') :
    SameButBudget ⟨s⟩ ⟨s'⟩ := by
  induction s generalizing s' with
  | nil => simp [chargeSlots] at h
  | cons o s ih =>
    cases o with
    | none =>
      obtain ⟨t, ht, rfl⟩ := Option.map_eq_some_iff.mp h
      exact (ih ht).cons .none
    | some cap =>
      rw [chargeSlots] at h
      split at h
      next hc =>
        obtain rfl := Option.some.inj h
        exact (SameButBudget.refl ⟨s⟩).cons (.some ⟨rfl, rfl, fun hne => absurd hc.1 hne⟩)
      next =>
        obtain ⟨t, ht, rfl⟩ := Option.map_eq_some_iff.mp h
        exact (ih ht).cons (.some (.refl cap))

/-- It changes that budget and nothing else. -/
lemma chargeUntyped_same (h : c.chargeUntyped amount = some c') : SameButBudget c c' := by
  obtain ⟨s, hs, rfl⟩ := Option.map_eq_some_iff.mp h
  exact chargeSlots_same hs

/-- A refund changes a budget and nothing else. -/
lemma refundUntyped_same (c : CNode) (amount : ℕ) : SameButBudget c (c.refundUntyped amount) := by
  obtain ⟨s⟩ := c
  show SameButBudget ⟨s⟩ ⟨refundSlots amount s⟩
  induction s with
  | nil => exact .refl _
  | cons o s ih =>
    cases o with
    | none => exact ih.cons .none
    | some cap =>
      rw [refundSlots]
      split
      next hc => exact (SameButBudget.refl ⟨s⟩).cons (.some ⟨rfl, rfl, fun hne => absurd hc hne⟩)
      next => exact ih.cons (.some (.refl cap))

/-- A charge needs an `Untyped` capability. -/
lemma exists_untyped_of_charge (h : c.chargeUntyped amount = some c') :
    ∃ i cap, c.slot i = some cap ∧ cap.capType = .untyped := by
  suffices hmem : ∀ {s s' : List (Option CapEntry)}, chargeSlots amount s = some s' →
      ∃ cap, some cap ∈ s ∧ cap.capType = .untyped by
    obtain ⟨s, hs, -⟩ := Option.map_eq_some_iff.mp h
    obtain ⟨cap, hcap, ht⟩ := hmem hs
    obtain ⟨i, hi⟩ := slot_eq_some_iff_mem.mpr hcap
    exact ⟨i, cap, hi, ht⟩
  intro s
  induction s with
  | nil => simp [chargeSlots]
  | cons o s ih =>
    intro s' hs
    have htail : (∃ t, chargeSlots amount s = some t) →
        ∃ cap, some cap ∈ o :: s ∧ cap.capType = .untyped := by
      rintro ⟨t, ht⟩
      obtain ⟨cap, hcap, hty⟩ := ih ht
      exact ⟨cap, List.mem_cons_of_mem _ hcap, hty⟩
    cases o with
    | none =>
      obtain ⟨t, ht, -⟩ := Option.map_eq_some_iff.mp hs
      exact htail ⟨t, ht⟩
    | some cap =>
      rw [chargeSlots] at hs
      split at hs
      next hc => exact ⟨cap, List.mem_cons_self, hc.1⟩
      next =>
        obtain ⟨t, ht, -⟩ := Option.map_eq_some_iff.mp hs
        exact htail ⟨t, ht⟩

/-! ## Budgets -/

end CNode

/-- The bytes a capability still allows to allocate. -/
def CapEntry.budget (cap : CapEntry) : ℕ :=
  if cap.capType = .untyped then cap.object else 0

namespace CNode

variable {c c' c'' : CNode} {i j amount : ℕ} {cap : CapEntry}

/-- The budget held in a list of slots. -/
def slotsBudget (s : List (Option CapEntry)) : ℕ :=
  (s.map fun o => o.elim 0 CapEntry.budget).sum

/-- The total budget a table holds. -/
def budget (c : CNode) : ℕ := slotsBudget c.slots

/-- The budget of a table is summed slot by slot. -/
@[simp]
lemma slotsBudget_cons (o : Option CapEntry) (s : List (Option CapEntry)) :
    slotsBudget (o :: s) = o.elim 0 CapEntry.budget + slotsBudget s := by
  simp [slotsBudget]

/-- A capability brings its own budget along. -/
lemma budget_insert (h : c.insert i cap = .ok c') : c'.budget = c.budget + cap.budget := by
  obtain ⟨hi, hempty, rfl⟩ := insert_eq_ok_iff.mp h
  have hnone : c.slots[i]? = some none := by
    rw [slot, List.getElem?_eq_getElem hi] at hempty
    rw [List.getElem?_eq_getElem hi]
    exact congrArg some hempty
  show slotsBudget (c.slots.set i (some cap)) = slotsBudget c.slots + cap.budget
  generalize c.slots = s at hnone
  clear hempty hi h
  induction s generalizing i with
  | nil => simp at hnone
  | cons o s ih =>
    cases i with
    | zero =>
      obtain rfl : o = none := by simpa using hnone
      simp [Nat.add_comm]
    | succ i =>
      have ih' := ih (i := i) (by simpa using hnone)
      simp only [List.set_cons_succ, slotsBudget_cons, ih']
      omega

/-- What is charged is missing afterwards. -/
lemma budget_charge (h : c.chargeUntyped amount = some c') :
    c'.budget + amount = c.budget := by
  obtain ⟨s', hs, rfl⟩ := Option.map_eq_some_iff.mp h
  show slotsBudget s' + amount = slotsBudget c.slots
  generalize c.slots = s at hs
  clear h
  induction s generalizing s' with
  | nil => simp [chargeSlots] at hs
  | cons o s ih =>
    cases o with
    | none =>
      obtain ⟨t, ht, rfl⟩ := Option.map_eq_some_iff.mp hs
      simpa using ih t ht
    | some cap =>
      rw [chargeSlots] at hs
      split at hs
      next hc =>
        obtain rfl := Option.some.inj hs
        simp only [slotsBudget_cons, Option.elim_some, CapEntry.budget, hc.1, if_true]
        omega
      next =>
        obtain ⟨t, ht, rfl⟩ := Option.map_eq_some_iff.mp hs
        simp only [slotsBudget_cons]
        have := ih t ht
        omega

/-- A refund gives back at most the amount. -/
lemma budget_refund_le (c : CNode) (amount : ℕ) :
    (c.refundUntyped amount).budget ≤ c.budget + amount := by
  show slotsBudget (refundSlots amount c.slots) ≤ slotsBudget c.slots + amount
  induction c.slots with
  | nil => simp [refundSlots]
  | cons o s ih =>
    cases o with
    | none => simpa [refundSlots] using ih
    | some cap =>
      rw [refundSlots]
      split
      next hc =>
        simp only [slotsBudget_cons, Option.elim_some, CapEntry.budget, hc, if_true]
        omega
      next =>
        simp only [slotsBudget_cons]
        omega

end CNode
end Xernel
