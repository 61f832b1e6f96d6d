import Mathlib.Data.List.Range
import Mathlib.Data.List.Nodup
import Mathlib.Data.List.Perm.Subperm
import Mathlib.Data.List.Chain
import Mathlib.Data.Prod.Lex

/-!
# Searching around a circle

The positions of a circle are `0, …, n - 1`. `around n c` lists them in the order in which they are
met when counting from `c + 1` on, so that `c` itself comes last, and `next n p c` is the first of
them that satisfies `p`. Going from `next` to `next` makes a tour: `tour` says that it visits what
satisfies `p`, in the order of the circle, once each.
-/

namespace Rotation

/-- The positions met from `c` on, `c` last. -/
def around (n c : ℕ) : List ℕ := (List.range' 1 n).map fun off => (c + off) % n

/-- The first position after `c` that satisfies `p`. -/
def next (n : ℕ) (p : ℕ → Bool) (c : ℕ) : Option ℕ := (around n c).find? p

variable {n c i : ℕ} {p : ℕ → Bool}

@[simp] theorem length_around (n c : ℕ) : (around n c).length = n := by
  rw [around, List.length_map, List.length_range']

theorem getElem_around {k : ℕ} (hk : k < (around n c).length) :
    (around n c)[k] = (c + (k + 1)) % n := by
  simp only [around, List.getElem_map, List.getElem_range']
  congr 1
  omega

theorem getElem?_around {k : ℕ} (hk : k < n) :
    (around n c)[k]? = some ((c + (k + 1)) % n) := by
  have hlen : k < (around n c).length := by rwa [length_around]
  rw [List.getElem?_eq_getElem hlen, getElem_around]

/-- Counting from `c` on meets every position. -/
theorem mem_around (hc : c < n) : i ∈ around n c ↔ i < n := by
  simp only [around, List.mem_map, List.mem_range'_1]
  constructor
  · rintro ⟨off, -, rfl⟩
    exact Nat.mod_lt _ (by omega)
  · intro hi
    by_cases h : c < i
    · refine ⟨i - c, by omega, ?_⟩
      rw [show c + (i - c) = i by omega, Nat.mod_eq_of_lt hi]
    · -- `i` lies behind `c`: the count wraps around
      refine ⟨n + i - c, by omega, ?_⟩
      rw [show c + (n + i - c) = i + n by omega, Nat.add_mod_right, Nat.mod_eq_of_lt hi]

/-- Each position is met once. -/
theorem around_perm (hc : c < n) : (around n c).Perm (List.range n) := by
  have hsub : List.range n ⊆ around n c := by
    intro i hi
    exact (mem_around hc).mpr (List.mem_range.mp hi)
  have hperm := (List.nodup_range (n := n)).subperm hsub
  exact (hperm.perm_of_length_le (by rw [length_around, List.length_range])).symm

/-- The start is met last. -/
theorem around_eq_concat (hc : c < n) : ∃ xs, around n c = xs ++ [c] := by
  obtain ⟨m, rfl⟩ : ∃ m, n = m + 1 := ⟨n - 1, by omega⟩
  refine ⟨(List.range' 1 m).map fun off => (c + off) % (m + 1), ?_⟩
  rw [around, List.range'_1_concat, List.map_append, List.map_singleton,
    show c + (1 + m) = c + (m + 1) by omega, Nat.add_mod_right, Nat.mod_eq_of_lt hc]

/-- From a position met on the way, the count runs on as before and then meets what was passed. -/
theorem around_of_append {xs ys : List ℕ} (h : around n c = xs ++ i :: ys) :
    around n i = ys ++ xs ++ [i] := by
  have hlen : n = xs.length + (ys.length + 1) := by
    rw [← length_around n c, h, List.length_append, List.length_cons]
  -- position `k` of the count from `c`, looked up in the two parts
  have hxs : ∀ k < xs.length, xs[k]? = some ((c + (k + 1)) % n) := by
    intro k hk
    rw [← getElem?_around (by omega), h, List.getElem?_append_left hk]
  have hi : i = (c + (xs.length + 1)) % n := by
    have := getElem?_around (n := n) (c := c) (k := xs.length) (by omega)
    rw [h, List.getElem?_append_right le_rfl, Nat.sub_self] at this
    exact Option.some.inj this
  have hys : ∀ k < ys.length, ys[k]? = some ((c + (xs.length + 1 + (k + 1))) % n) := by
    intro k hk
    rw [show xs.length + 1 + (k + 1) = (xs.length + 1 + k) + 1 by omega,
      ← getElem?_around (by omega), h, List.getElem?_append_right (by omega),
      show xs.length + 1 + k - xs.length = k + 1 by omega, List.getElem?_cons_succ]
  apply List.ext_getElem?
  intro k
  by_cases hk : k < n
  · rw [getElem?_around hk, hi, Nat.mod_add_mod]
    by_cases h₁ : k < ys.length
    · rw [List.append_assoc, List.getElem?_append_left h₁, hys k h₁]
      congr 2
      omega
    · by_cases h₂ : k < ys.length + xs.length
      · rw [List.getElem?_append_left (by rw [List.length_append]; exact h₂),
          List.getElem?_append_right (by omega), hxs _ (by omega),
          show c + (xs.length + 1) + (k + 1) = c + (k - ys.length + 1) + n by omega,
          Nat.add_mod_right]
      · rw [List.getElem?_append_right (by rw [List.length_append]; omega),
          show k - (ys ++ xs).length = 0 by rw [List.length_append]; omega,
          List.getElem?_cons_zero, ← hi,
          show c + (xs.length + 1) + (k + 1) = c + (xs.length + 1) + n by omega,
          Nat.add_mod_right, ← hi]
  · rw [List.getElem?_eq_none (by rw [length_around]; omega), List.getElem?_eq_none]
    simp only [List.length_append, List.length_singleton]
    omega

/-! ## One search -/

theorem next_eq_none_iff (hc : c < n) : next n p c = none ↔ ∀ i < n, p i = false := by
  rw [next, List.find?_eq_none]
  constructor
  · intro h i hi
    simpa using h i ((mem_around hc).mpr hi)
  · intro h i hi
    simpa using h i ((mem_around hc).mp hi)

/-- What the search finds satisfies `p`, at a distance below which nothing does. -/
theorem next_eq_some_iff : next n p c = some i ↔
    ∃ off, 1 ≤ off ∧ off ≤ n ∧ i = (c + off) % n ∧ p i = true ∧
      ∀ o, 1 ≤ o → o < off → p ((c + o) % n) = false := by
  rw [next, List.find?_eq_some_iff_getElem]
  constructor
  · rintro ⟨hp, k, hk, rfl, hmin⟩
    have hk' : k < n := by rwa [length_around] at hk
    refine ⟨k + 1, by omega, by omega, getElem_around hk, hp, fun o ho hlt => ?_⟩
    have := hmin (o - 1) (by omega)
    rw [getElem_around (by rw [length_around]; omega), Nat.sub_add_cancel ho] at this
    simpa using this
  · rintro ⟨off, hpos, hle, rfl, hp, hmin⟩
    have hlen : off - 1 < (around n c).length := by rw [length_around]; omega
    refine ⟨hp, off - 1, hlen, ?_, fun k hk => ?_⟩
    · rw [getElem_around hlen, Nat.sub_add_cancel hpos]
    · rw [getElem_around (by omega), hmin (k + 1) (by omega) (by omega)]
      rfl

/-! ## A tour -/

/-- While there is something left in `ys`, the part of the circle ahead, the tour visits it. -/
theorem chain_eq_take {is ys : List ℕ} (hys : ys <+: around n c)
    (hchain : List.IsChain (fun a b => next n p a = some b) (c :: is))
    (hlen : is.length ≤ (ys.filter p).length) : is = (ys.filter p).take is.length := by
  induction is generalizing c ys with
  | nil => rfl
  | cons i is ih =>
    rw [List.isChain_cons_cons] at hchain
    obtain ⟨hnext, hchain⟩ := hchain
    obtain ⟨zs, hzs⟩ := hys
    -- the search succeeds inside `ys`
    have hfind : ys.find? p = some i := by
      cases hf : ys.find? p with
      | none =>
        have hnil : ys.filter p = [] := by
          rw [List.filter_eq_nil_iff]
          exact List.find?_eq_none.mp hf
        rw [hnil] at hlen
        simp at hlen
      | some j =>
        rw [next, ← hzs, List.find?_append, hf, Option.some_or] at hnext
        exact hnext
    obtain ⟨hp, as, bs, rfl, has⟩ := List.find?_eq_some_iff_append.mp hfind
    have hfilter : (as ++ i :: bs).filter p = i :: bs.filter p := by
      have hnil : as.filter p = [] := by
        rw [List.filter_eq_nil_iff]
        intro a ha
        simpa using has a ha
      rw [List.filter_append, hnil, List.nil_append, List.filter_cons_of_pos hp]
    have hahead : around n i = (bs ++ zs) ++ as ++ [i] :=
      around_of_append (by rw [← hzs, List.append_assoc, List.cons_append])
    have hrest : bs <+: around n i := ⟨zs ++ as ++ [i], by rw [hahead]; simp⟩
    rw [hfilter, List.length_cons, List.length_cons] at hlen
    rw [hfilter, List.length_cons, List.take_succ_cons, ← ih hrest hchain (by omega)]

/-- As many searches in a row as there are positions that satisfy `p`, from one of these on, find
each of them once, in the order of the circle. -/
theorem tour {is : List ℕ} (hc : c < n)
    (hchain : List.IsChain (fun a b => next n p a = some b) (c :: is))
    (hlen : is.length = ((List.range n).filter p).length) : is = (around n c).filter p := by
  have hcount : is.length = ((around n c).filter p).length := by
    rw [hlen, ((around_perm hc).filter p).length_eq]
  rw [chain_eq_take (List.prefix_refl _) hchain hcount.le, hcount, List.take_length]

/-- The tour from `c`, which satisfies `p`, ends in `c`. -/
theorem tour_getLast (hc : c < n) (hp : p c = true) :
    ((around n c).filter p).getLast? = some c := by
  obtain ⟨xs, hxs⟩ := around_eq_concat hc
  rw [hxs, List.filter_append, List.filter_cons_of_pos hp, List.filter_nil, List.getLast?_concat]

/-! ## Waiting for one's turn -/

/-- When `c` has its turn on the way to `i`: the positions behind `i` first, then those before it, `i`
itself last. -/
def turn (i c : ℕ) : Bool ×ₗ ℕ := toLex (decide (c ≤ i), c)

/-- While `i` satisfies `p`, every search on the way to `i` gets on. -/
theorem turn_lt_of_next {j : ℕ} (hi : i < n) (hp : p i = true) (hc : c < n) (hne : c ≠ i)
    (h : next n p c = some j) : turn i c < turn i j := by
  obtain ⟨off, hpos, hle, rfl, -, hmin⟩ := next_eq_some_iff.mp h
  -- the search does not get past `i`
  have hstop : ∀ o, 1 ≤ o → (c + o) % n = i → off ≤ o := by
    intro o ho hoi
    by_contra hlt
    have := hmin o ho (by omega)
    rw [hoi, hp] at this
    cases this
  rw [turn, turn, Prod.Lex.toLex_lt_toLex]
  by_cases hci : c < i
  · have hoff : off ≤ i - c := hstop (i - c) (by omega)
      (by rw [show c + (i - c) = i by omega, Nat.mod_eq_of_lt hi])
    rw [Nat.mod_eq_of_lt (show c + off < n by omega)]
    refine .inr ⟨?_, by omega⟩
    simp only [decide_eq_decide]
    omega
  · have hoff : off ≤ n + i - c := hstop (n + i - c) (by omega)
      (by rw [show c + (n + i - c) = i + n by omega, Nat.add_mod_right, Nat.mod_eq_of_lt hi])
    by_cases hwrap : c + off < n
    · rw [Nat.mod_eq_of_lt hwrap]
      refine .inr ⟨?_, by omega⟩
      simp only [decide_eq_decide]
      omega
    · rw [Nat.mod_eq_sub_mod (by omega), Nat.mod_eq_of_lt (by omega)]
      refine .inl ?_
      simp only [Bool.lt_iff, decide_eq_false_iff_not, decide_eq_true_eq]
      omega

end Rotation
