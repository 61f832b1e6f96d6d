import Xernel.Syscall
import Xernel.Arch.Leaves

/-!
# The checks on user buffers

`user_slice` and `user_slice_mut` accept a buffer exactly if every byte of it may be accessed, although
they look at pages. `userRangeLoop` is the page walk again, with what would stop it with a panic:
a page address that overflows, or one that `VirtAddr::new` refuses.
-/

namespace Xernel

variable {m : Mm} {l4 ptr len last page : ℕ} {writable : Bool}

/-! ## The walk with its panics -/

/-- Why a walk has no result: a panic, or more rounds to go. -/
inductive WalkFault
  | overflow
  | nonCanonical
  | unfinished
  deriving Repr, DecidableEq

namespace Mm

/-- At most `fuel` rounds of the loop of `user_range_ok`, from `page` on. -/
def userRangeLoop (m : Mm) (l4 : ℕ) (writable : Bool) (last : ℕ) : ℕ → ℕ → Except WalkFault Bool
  | 0, _ => .error .unfinished
  | fuel + 1, page =>
    if !canonical page then .error .nonCanonical
    else if !m.userPageOk l4 writable page then .ok false
    else if last ≤ page then .ok true
    else if u64Max < page + frameSize then .error .overflow
    else m.userRangeLoop l4 writable last fuel (page + frameSize)

/-- `user_range_ok` with at most `fuel` rounds of its loop. -/
def userRangeChecked (m : Mm) (l4 fuel virt len : ℕ) (writable : Bool) : Except WalkFault Bool :=
  if len = 0 then .ok true
  else if u64Max < virt + (len - 1) then .ok false
  else m.userRangeLoop l4 writable (pageDown (virt + (len - 1))) fuel (pageDown virt)

/-- Below the top of user space the walk meets no panic, and it ends at the last page. -/
lemma userRangeLoop_eq {d fuel : ℕ} (hfuel : d < fuel) (hlast : page + d * frameSize < 2 ^ 47) :
    m.userRangeLoop l4 writable (page + d * frameSize) fuel page =
      .ok (userRangeWalk (m.userPageOk l4 writable) (page + d * frameSize) page (d + 1)) := by
  induction d generalizing fuel page with
  | zero =>
    obtain ⟨fuel, rfl⟩ : ∃ n, fuel = n + 1 := ⟨fuel - 1, by omega⟩
    unfold userRangeLoop userRangeWalk
    rw [canonical_of_lt (by omega)]
    cases m.userPageOk l4 writable page <;> simp
  | succ d ih =>
    obtain ⟨fuel, rfl⟩ : ∃ n, fuel = n + 1 := ⟨fuel - 1, by omega⟩
    have hsucc : page + (d + 1) * frameSize = page + frameSize + d * frameSize := by
      rw [Nat.succ_mul]
      omega
    have hpos := frameSize_pos
    have hword : ¬ u64Max < page + frameSize := by
      simp only [u64Max]
      omega
    rw [hsucc] at hlast ⊢
    unfold userRangeLoop userRangeWalk
    rw [canonical_of_lt (by omega), Bool.not_true, if_neg Bool.false_ne_true,
      if_neg (show ¬ page + frameSize + d * frameSize ≤ page by omega),
      if_neg (show ¬ page + frameSize + d * frameSize ≤ page by omega), if_neg hword,
      ih (by omega) hlast]
    cases m.userPageOk l4 writable page <;> simp

/-- On a range that lies in user space, `user_range_ok` goes through without a panic, in at most one
round for each page. -/
lemma userRangeChecked_eq (hend : ptr + len ≤ 2 ^ 47) {fuel : ℕ} (hfuel : len / frameSize + 2 ≤ fuel) :
    m.userRangeChecked l4 fuel ptr len writable = .ok (m.userRangeOk l4 ptr len writable) := by
  unfold userRangeChecked userRangeOk
  by_cases hlen : len = 0
  · rw [if_pos hlen, if_pos hlen]
  have hword : ¬ u64Max < ptr + (len - 1) := by
    simp only [u64Max]
    omega
  rw [if_neg hlen, if_neg hword, if_neg hlen, if_neg hword]
  dsimp only
  -- the last page, counted from the first
  have hlast : pageDown (ptr + (len - 1)) =
      pageDown ptr + (pageDown (ptr + (len - 1)) - pageDown ptr) / frameSize * frameSize := by
    simp only [pageDown, frameSize]
    omega
  have hcount : (pageDown (ptr + (len - 1)) - pageDown ptr) / frameSize < fuel := by
    simp only [pageDown, frameSize] at hfuel ⊢
    omega
  have hle := pageDown_le (ptr + (len - 1))
  generalize (pageDown (ptr + (len - 1)) - pageDown ptr) / frameSize = d at hlast hcount ⊢
  rw [hlast]
  exact userRangeLoop_eq hcount (by omega)

/-- The byte at `va` may be read by ring 3, and written if asked for. -/
def ByteOk (m : Mm) (l4 : ℕ) (writable : Bool) (va : ℕ) : Prop :=
  ∃ leaf, m.pt.leaf l4 (va / frameSize) = some leaf ∧ leaf.flags.userAccessible = true ∧
    (writable = true → leaf.flags.writable = true)

lemma userPageOk_iff {va : ℕ} : m.userPageOk l4 writable va = true ↔ m.ByteOk l4 writable va := by
  unfold userPageOk ByteOk
  cases m.pt.leaf l4 (va / frameSize) with
  | none => simp
  | some leaf => cases writable <;> simp

end Mm

/-! ## The buffers -/

namespace Kernel

variable {k : Kernel}

/-- `userBufferOk` with at most `fuel` rounds of the page walk. -/
def userBufferChecked (k : Kernel) (fuel ptr len : ℕ) (writable : Bool) : Except WalkFault Bool :=
  if ptr = 0 ∨ maxWrite < len then .ok false
  else if u64Max < ptr + len then .ok false
  else if userAddrMax ≤ ptr ∨ userAddrMax < ptr + len then .ok false
  else k.mm.userRangeChecked k.cpu.cr3 fuel ptr len writable

/-- A check needs no more rounds than a buffer of `MAX_WRITE` bytes has pages. -/
lemma userBufferChecked_eq (k : Kernel) (ptr len : ℕ) (writable : Bool) {fuel : ℕ}
    (hfuel : maxWrite / frameSize + 2 ≤ fuel) :
    k.userBufferChecked fuel ptr len writable = .ok (k.userBufferOk ptr len writable) := by
  unfold userBufferChecked userBufferOk
  by_cases hsize : ptr = 0 ∨ maxWrite < len
  · rw [if_pos hsize, if_pos hsize]
  by_cases hword : u64Max < ptr + len
  · rw [if_neg hsize, if_pos hword, if_neg hsize, if_pos hword]
  by_cases haddr : userAddrMax ≤ ptr ∨ userAddrMax < ptr + len
  · rw [if_neg hsize, if_neg hword, if_pos haddr, if_neg hsize, if_neg hword, if_pos haddr]
  · have hmax : userAddrMax = 2 ^ 47 := by decide
    have hpages : len / frameSize ≤ maxWrite / frameSize := Nat.div_le_div_right (by omega)
    rw [if_neg hsize, if_neg hword, if_neg haddr, if_neg hsize, if_neg hword, if_neg haddr]
    exact Mm.userRangeChecked_eq (by omega) (by omega)

/-- A non-empty buffer is accepted exactly if it has an admissible place and size and each byte of it
may be accessed. -/
lemma userBufferOk_iff (hlen : len ≠ 0) :
    k.userBufferOk ptr len writable = true ↔
      len ≤ 2 ^ 20 ∧ ptr ≠ 0 ∧ ptr + len ≤ 2 ^ 47 ∧
        ∀ va, ptr ≤ va → va < ptr + len → k.mm.ByteOk k.cpu.cr3 writable va := by
  have hmax : userAddrMax = 2 ^ 47 ∧ maxWrite = 2 ^ 20 := by decide
  have hbytes : (∀ i < len, k.mm.userPageOk k.cpu.cr3 writable (ptr + i) = true) ↔
      ∀ va, ptr ≤ va → va < ptr + len → k.mm.ByteOk k.cpu.cr3 writable va := by
    constructor
    · intro h va hlo hhi
      have := h (va - ptr) (by omega)
      rwa [show ptr + (va - ptr) = va by omega, Mm.userPageOk_iff] at this
    · intro h i hi
      exact Mm.userPageOk_iff.mpr (h _ (by omega) (by omega))
  unfold userBufferOk
  split
  · exact iff_of_false Bool.false_ne_true fun h => by omega
  split
  next hword =>
    simp only [u64Max] at hword
    exact iff_of_false Bool.false_ne_true fun h => by omega
  split
  · exact iff_of_false Bool.false_ne_true fun h => by omega
  · rw [Mm.userRangeOk_iff hlen, hbytes]
    have hword : ptr + (len - 1) ≤ u64Max := by
      simp only [u64Max]
      omega
    exact ⟨fun h => ⟨by omega, by omega, by omega, h.2⟩, fun h => ⟨hword, h.2.2.2⟩⟩

end Kernel

/-- The validation of user buffers is exact, byte by byte, and its page walk ends within a fixed number
of rounds, without an overflow and without looking up a non-canonical address; the latter also on the
range that `spawn_env` checks itself. -/
theorem userBuffer_exact (k : Kernel) (ptr len : UInt64) :
    (k.userSliceMut ptr.toNat len.toNat = true ↔
      0 < len.toNat ∧ len.toNat ≤ 2 ^ 20 ∧ ptr.toNat ≠ 0 ∧ ptr.toNat + len.toNat ≤ 2 ^ 47 ∧
        ∀ va, ptr.toNat ≤ va → va < ptr.toNat + len.toNat →
          ∃ leaf, k.mm.pt.leaf k.cpu.cr3 (va / frameSize) = some leaf ∧
            leaf.flags.userAccessible = true ∧ leaf.flags.writable = true) ∧
    (0 < len.toNat → ((k.userSlice ptr.toNat len.toNat).isSome = true ↔
      len.toNat ≤ 2 ^ 20 ∧ ptr.toNat ≠ 0 ∧ ptr.toNat + len.toNat ≤ 2 ^ 47 ∧
        ∀ va, ptr.toNat ≤ va → va < ptr.toNat + len.toNat →
          ∃ leaf, k.mm.pt.leaf k.cpu.cr3 (va / frameSize) = some leaf ∧
            leaf.flags.userAccessible = true)) ∧
    (∀ writable fuel, 258 ≤ fuel → k.userBufferChecked fuel ptr.toNat len.toNat writable =
      .ok (k.userBufferOk ptr.toNat len.toNat writable)) ∧
    (∀ writable fuel, ptr.toNat + len.toNat < userAddrMax → len.toNat / frameSize + 2 ≤ fuel →
      k.mm.userRangeChecked k.cpu.cr3 fuel ptr.toNat len.toNat writable =
        .ok (k.mm.userRangeOk k.cpu.cr3 ptr.toNat len.toNat writable)) := by
  refine ⟨?_, fun hpos => ?_, fun writable fuel hfuel => ?_, fun writable fuel hend hfuel => ?_⟩
  · unfold Kernel.userSliceMut
    by_cases hlen : len.toNat = 0
    · rw [if_pos hlen]
      exact iff_of_false Bool.false_ne_true fun h => by omega
    · rw [if_neg hlen, Kernel.userBufferOk_iff hlen]
      constructor
      · rintro ⟨hle, hptr, hend, hbytes⟩
        refine ⟨by omega, hle, hptr, hend, fun va hlo hhi => ?_⟩
        obtain ⟨leaf, hleaf, huser, hwrite⟩ := hbytes va hlo hhi
        exact ⟨leaf, hleaf, huser, hwrite rfl⟩
      · rintro ⟨-, hle, hptr, hend, hbytes⟩
        refine ⟨hle, hptr, hend, fun va hlo hhi => ?_⟩
        obtain ⟨leaf, hleaf, huser, hwrite⟩ := hbytes va hlo hhi
        exact ⟨leaf, hleaf, huser, fun _ => hwrite⟩
  · have hlen : len.toNat ≠ 0 := by omega
    unfold Kernel.userSlice
    rw [if_neg hlen]
    have hsome : (if k.userBufferOk ptr.toNat len.toNat false = true then
        some (k.mm.readUser k.cpu.cr3 ptr.toNat len.toNat) else none).isSome = true ↔
        k.userBufferOk ptr.toNat len.toNat false = true := by
      split <;> simp_all
    rw [hsome, Kernel.userBufferOk_iff hlen]
    constructor
    · rintro ⟨hle, hptr, hend, hbytes⟩
      refine ⟨hle, hptr, hend, fun va hlo hhi => ?_⟩
      obtain ⟨leaf, hleaf, huser, -⟩ := hbytes va hlo hhi
      exact ⟨leaf, hleaf, huser⟩
    · rintro ⟨hle, hptr, hend, hbytes⟩
      refine ⟨hle, hptr, hend, fun va hlo hhi => ?_⟩
      obtain ⟨leaf, hleaf, huser⟩ := hbytes va hlo hhi
      exact ⟨leaf, hleaf, huser, fun h => absurd h Bool.false_ne_true⟩
  · exact k.userBufferChecked_eq _ _ _ (le_trans (by decide) hfuel)
  · have hmax : userAddrMax = 2 ^ 47 := by decide
    exact Mm.userRangeChecked_eq (by omega) hfuel

end Xernel
