import Xernel.Arch.Demand
import Xernel.Windows

/-!
# The heap break

`sbrk` maps the pages between the old and the new break when the heap grows and unmaps nothing when it
shrinks. So every page below the break is mapped, but pages above it may be mapped as well, left over
from an earlier break; growing over one of them fails.
-/

namespace Xernel

open Mm (Builds)

variable {plat : Platform} {k k' : Kernel} {a b : Core} {e : Event} {act : Activity} {out : Option ℕ}
  {args : Args} {cr3 space : ℕ} {bad : Bool} {m m' : Mm}

/-! ## Mapped pages stay mapped -/

/-- Building up memory does not take entries from the lower half of a space in use. -/
lemma Mm.Builds.user_grows {s : Scope} {U V : Set ℕ} (h : Builds s m U m' V)
    (hdisj : plat.RegionsDisjoint) (hr : AllocatorRun plat.regions m.frames m.calls)
    (hspace : space ∈ Xernel.handedOut m.calls) : (m.pt.user space).Grows (m'.pt.user space) := by
  have hset : ∀ {pt : PageTables} {l4 page : ℕ} {t : TableTree}, (pt.tree l4 page).Grows t →
      (m.pt.user space).Grows (pt.user space) →
      (m.pt.user space).Grows ((pt.setTree l4 page t).user space) := by
    intro pt l4 page t hg hk
    unfold PageTables.setTree
    split
    next hp =>
      rw [PageTables.tree, if_pos hp] at hg
      by_cases hl : space = l4
      · subst hl
        dsimp only
        rw [Function.update_self]
        exact hk.trans hg
      · dsimp only
        rw [Function.update_of_ne hl]
        exact hk
    next => exact hk
  induction h with
  | refl => exact .refl _
  | bytes _ _ ih | leak _ _ ih => exact ih
  | alloc _ ha ih =>
    rw [frameAlloc_pt ha]
    exact ih
  | contiguous _ hn ha ih =>
    obtain ⟨rfl, rfl⟩ := Prod.mk.inj ha
    exact ih
  | @space m₁ m₂ V l4 hb ha _ ih =>
    -- a new space is a frame that was not in use
    have hne : space ≠ l4 := by
      rintro rfl
      exact (fresh_of_frameAlloc hdisj (hb.run hr) ha).1 (hb.handedOut hspace)
    rw [← frameAlloc_pt ha] at ih
    dsimp only
    rw [Function.update_of_ne hne]
    exact ih
  | table _ ha _ hnone ih =>
    exact hset (TableTree.grows_setTable hnone) (by rw [frameAlloc_pt ha]; exact ih)
  | leaf _ _ hnone _ _ ih => exact hset (TableTree.grows_setLeaf hnone) ih

/-- No step takes a page from a space in use. -/
lemma MmStep.user_grows (h : MmStep plat a b cr3 bad act out) (hdisj : plat.RegionsDisjoint)
    (hr : AllocatorRun plat.regions a.mm.frames a.mm.calls)
    (hspace : space ∈ Xernel.handedOut a.mm.calls) :
    (a.mm.pt.user space).Grows (b.mm.pt.user space) := by
  -- the steps that first take a run of frames
  have hrun : ∀ {s : Scope} {n phys : ℕ} {m₁ m₂ : Mm} {U V : Set ℕ}, n < 2 ^ 40 →
      a.mm.frameAllocContiguous n = (some phys, m₁) → Builds s m₁ U m₂ V →
      (a.mm.pt.user space).Grows (m₂.pt.user space) := by
    intro s n phys m₁ m₂ U V hn ha hb
    have hfirst : Builds s a.mm ∅ m₁ _ := Builds.refl.contiguous hn ha
    rw [← (frameAllocContiguous_calls ha).2]
    exact hb.user_grows hdisj (hfirst.run hr) (hfirst.handedOut hspace)
  cases h with
  | built _ hb => exact hb.user_grows hdisj hr hspace
  | noSpace _ ha =>
    rw [Builds.frameAlloc_pt ha]
    exact .refl _
  | created _ _ _ hb => exact hb.user_grows hdisj hr hspace
  | frameRun _ _ hn ha hb _ => exact hrun hn ha hb
  | unmapped _ _ hn ha hb hm =>
    rw [hm, freeRun_pt]
    exact hrun hn ha hb
  | unwound _ _ hn _ ha hb hm =>
    rw [hm, freeRun_pt]
    exact hrun hn ha hb

/-! ## Pages for ring 3 to write to -/

/-- The leaves that let ring 3 write. -/
def userWritable : Set Leaf :=
  {leaf | leaf.flags.userAccessible = true ∧ leaf.flags.writable = true}

/-- The pages with numbers from `lo` up to `hi` are mapped for ring 3 to write to. -/
def Mm.WritablePages (m : Mm) (space lo hi : ℕ) : Prop :=
  ∀ p, lo ≤ p → p < hi → ∃ leaf ∈ userWritable, m.pt.leaf space p = some leaf

lemma Mm.WritablePages.grows {lo hi : ℕ} (h : m.WritablePages space lo hi)
    (hg : (m.pt.user space).Grows (m'.pt.user space)) (hhi : hi ≤ lowerHalfPages) :
    m'.WritablePages space lo hi := by
  intro p hlo hp
  obtain ⟨leaf, hwritable, hleaf⟩ := h p hlo hp
  refine ⟨leaf, hwritable, ?_⟩
  rw [PageTables.leaf, PageTables.tree, if_pos (by omega)] at hleaf ⊢
  exact hg.leaves p leaf hleaf

/-- The page that `alloc_map_user` maps for the heap. -/
lemma allocMapUser_gives {va : ℕ} (h : m.allocMapUser space va true false = (.done, m')) :
    ∃ leaf ∈ userWritable, m'.pt.leaf space (va / frameSize) = some leaf := by
  obtain ⟨phys, hleaf⟩ := Mm.allocMapUser_done h
  exact ⟨_, ⟨rfl, rfl⟩, hleaf⟩

lemma allocMapPages_gives {n va : ℕ} (hva : va / frameSize + n ≤ lowerHalfPages)
    (h : allocMapPages space n va m = (.done (), m')) :
    m'.WritablePages space (va / frameSize) (va / frameSize + n) := by
  intro p hlo hp
  obtain ⟨leaf, hwritable, hleaf⟩ := mapRun_gives
    (fun m va _ => Mm.allocMapUser_atMost m space va true false)
    (fun _ _ _ _ hdone => allocMapUser_gives hdone) hva h (p - va / frameSize) (by omega)
  rw [show va / frameSize + (p - va / frameSize) = p by omega] at hleaf
  exact ⟨leaf, hwritable, hleaf⟩

/-- The pages that `map_user` maps for a run of frames. -/
lemma mapRun_mapUser_gives {n va phys : ℕ} (hva : va / frameSize + n ≤ lowerHalfPages)
    (h : mapRun (fun m va phys => m.mapUser space va phys true false) n va phys m = (.done (), m')) :
    m'.WritablePages space (va / frameSize) (va / frameSize + n) := by
  have hgives : ∀ (m : Mm) (va phys : ℕ) (m' : Mm), m.mapUser space va phys true false = (.done, m') →
      ∃ leaf ∈ userWritable, m'.pt.leaf space (va / frameSize) = some leaf := by
    intro m va phys m' heq
    have hcases := m.mapWithFlags_leaf space va phys (Mm.userFlags true false)
    rw [← Mm.mapUser_eq, heq] at hcases
    rcases hcases with ⟨-, -, hset⟩ | ⟨hne, -⟩
    · refine ⟨{ phys := pageDown phys, flags := Mm.userFlags true false }, ⟨rfl, rfl⟩, ?_⟩
      rw [hset, setLeafAt, if_pos ⟨rfl, rfl⟩]
    · exact absurd rfl hne
  intro p hlo hp
  obtain ⟨leaf, hwritable, hleaf⟩ := mapRun_gives
    (fun m va phys => mapUser_atMost m space va phys) hgives hva h (p - va / frameSize)
    (by omega)
  rw [show va / frameSize + (p - va / frameSize) = p by omega] at hleaf
  exact ⟨leaf, hwritable, hleaf⟩

lemma copyEnv_gives {cr3 envpPtr envpLen : ℕ} : ∀ (n i : ℕ) (m : Mm),
    heapStart + (i + n) * frameSize ≤ 2 ^ 47 →
    Kernel.copyEnv cr3 space envpPtr envpLen n i m = (.done (), m') →
    m'.WritablePages space (heapStart / frameSize + i) (heapStart / frameSize + i + n) := by
  intro n
  induction n with
  | zero =>
    intro i m _ h p hlo hp
    omega
  | succ n ih =>
    intro i m hfit h p hlo hp
    have hpage : (heapStart + i * frameSize) / frameSize = heapStart / frameSize + i :=
      Nat.add_mul_div_right _ _ frameSize_pos
    have hnext : heapStart + (i + 1 + n) * frameSize ≤ 2 ^ 47 := by
      rw [show i + 1 + n = i + (n + 1) by omega]
      exact hfit
    unfold Kernel.copyEnv at h
    dsimp only at h
    split at h
    · cases h
    · cases h
    next m₁ hmap =>
      split at h
      · cases h
      next dst hdst =>
        obtain ⟨mem, hmem⟩ := Kernel.copyBytes_eq cr3 (min (envpLen - i * frameSize) frameSize)
          (envpPtr + i * frameSize) dst m₁
        rw [hmem] at h
        rcases Nat.lt_or_ge (heapStart / frameSize + i) p with hlt | hge
        · exact ih (i + 1) _ hnext h p (by omega) (by omega)
        · -- the rest of the loop does not touch the first page
          obtain rfl : p = heapStart / frameSize + i := by omega
          have hrest := copyEnv_attempts cr3 space envpPtr envpLen n (i + 1) { m₁ with mem } hnext
          rw [h] at hrest
          have hlower : heapStart / frameSize + i < lowerHalfPages := by
            simp only [heapStart, frameSize, lowerHalfPages] at hfit ⊢
            omega
          have hfirst := allocMapUser_gives hmap
          rw [(hrest.fills rfl).others _ hlower (by simp), ← hpage]
          exact hfirst

/-! ## Breaks in a step -/

/-- The heap breaks of the processes. -/
def Scheduler.breaks (s : Scheduler) : List ℕ := s.procs.map fun p => p.heapBreak

/-- Only `sbrk` moves the break of a process. -/
lemma CoreStep.breaks (h : CoreStep plat a b act out) (hact : ∀ args, act ≠ .call .sbrk args) :
    ∃ l, b.sched.breaks = a.sched.breaks ++ l :=
  h.field (fun _ _ _ _ _ => rfl) (.inl fun _ _ => rfl) (.inr hact)

/-- The break of a process that was there before. -/
lemma CoreStep.heapBreak {i : ℕ} {p p' : Process} (h : CoreStep plat a b act out)
    (hact : ∀ args, act ≠ .call .sbrk args) (hp : a.sched.procs[i]? = some p)
    (hp' : b.sched.procs[i]? = some p') : p'.heapBreak = p.heapBreak :=
  field_getElem? (h.breaks hact) hp hp'

/-! ## The cases of `sbrk` -/

/-- The pages by which the heap grows when the break moves from `old` to `new`. -/
def heapPages (old new : ℕ) : Finset ℕ :=
  Finset.Ico (pageUp old / frameSize) (pageUp new / frameSize)

namespace Kernel

/-- Where a call `sbrk(delta)` wants the break. -/
def newBreak (k : Kernel) (delta : ℤ) : ℤ := k.sched.cur.heapBreak + delta

/-- The new break lies between `HEAP_START` and `HEAP_MAX`. -/
def BreakFits (k : Kernel) (delta : ℤ) : Prop :=
  (heapStart : ℤ) ≤ k.newBreak delta ∧ k.newBreak delta ≤ (heapMax : ℤ)

/-- The running process with its break moved by `delta`. -/
def moveBreak (k : Kernel) (delta : ℤ) : Kernel :=
  k.modifyCur fun p => { p with heapBreak := (k.newBreak delta).toNat }

/-- The pages that `sbrk(delta)` is to map. -/
def growth (k : Kernel) (delta : ℤ) : Finset ℕ :=
  heapPages k.sched.cur.heapBreak (k.newBreak delta).toNat

/-- The loop of `sbrk(delta)` over the pages of its growth. -/
def growHeap (k : Kernel) (delta : ℤ) : Attempt Unit × Mm :=
  allocMapPages k.sched.cur.space
    ((pageUp (k.newBreak delta).toNat - pageUp k.sched.cur.heapBreak) / frameSize)
    (pageUp k.sched.cur.heapBreak) k.mm

variable {delta : ℤ}

lemma sbrk_out_of_range (hne : delta ≠ 0) (h : ¬ k.BreakFits delta) :
    k.sbrk delta = (.failed, k) := by
  unfold sbrk
  dsimp only
  rw [if_neg hne]
  split
  · rfl
  split
  · rfl
  rw [if_pos]
  unfold BreakFits newBreak at h
  by_contra hrange
  rw [not_or, Nat.not_lt, Nat.not_lt] at hrange
  refine h ?_
  split at hrange <;> omega

lemma sbrk_shrink (hneg : delta < 0) (h : k.BreakFits delta) :
    k.sbrk delta = (.done k.sched.cur.heapBreak, k.moveBreak delta) := by
  unfold BreakFits newBreak at h
  have hnew : k.sched.cur.heapBreak - delta.natAbs = (k.newBreak delta).toNat := by
    unfold newBreak
    omega
  unfold sbrk
  dsimp only
  rw [if_neg (by omega), if_neg (by omega), if_neg (by omega), if_neg (by omega : ¬ delta > 0), hnew,
    if_neg, if_neg (by omega)]
  · rfl
  · unfold newBreak
    omega

/-- Growing runs the loop over the new pages and moves the break if that gets to the end. -/
lemma sbrk_grow (hpos : 0 < delta) (h : k.BreakFits delta) :
    k.sbrk delta = match k.growHeap delta with
      | (.panic, mm) => (.panic, { k with mm })
      | (.failed, mm) => (.failed, { k with mm })
      | (.done (), mm) => (.done k.sched.cur.heapBreak, { k with mm }.moveBreak delta) := by
  unfold BreakFits newBreak at h
  have hnew : k.sched.cur.heapBreak + delta.toNat = (k.newBreak delta).toNat := by
    unfold newBreak
    omega
  have hmax : heapMax < u64Max := by decide
  unfold sbrk growHeap
  dsimp only
  rw [if_neg (by omega), if_neg (by omega), if_neg (by omega), if_pos hpos, hnew, if_neg, if_pos hpos]
  · rfl
  · unfold newBreak
    omega

/-- The pages of the loop are those of the growth, and they lie below `HEAP_MAX`. -/
lemma growth_eq (hpos : 0 < delta) : k.growth delta = Finset.Ico
    (pageUp k.sched.cur.heapBreak / frameSize) (pageUp k.sched.cur.heapBreak / frameSize +
      (pageUp (k.newBreak delta).toNat - pageUp k.sched.cur.heapBreak) / frameSize) := by
  unfold growth heapPages
  congr 1
  unfold newBreak
  simp only [pageUp, pageDown, frameSize]
  omega

lemma growth_room (hpos : 0 < delta) (h : k.BreakFits delta) :
    pageUp k.sched.cur.heapBreak +
      (pageUp (k.newBreak delta).toNat - pageUp k.sched.cur.heapBreak) / frameSize * frameSize ≤
      2 ^ 47 := by
  unfold BreakFits at h
  unfold newBreak at h ⊢
  simp only [pageUp, pageDown, frameSize, heapMax] at h ⊢
  omega

/-- The loop gets to the end if the new pages are all empty and the frames suffice. -/
lemma growHeap_attempts (hpos : 0 < delta) (h : k.BreakFits delta) :
    k.mm.Attempts (k.growHeap delta).2 k.sched.cur.space 1 (k.growth delta)
      ((k.growHeap delta).1 = .done ()) := by
  rw [growth_eq hpos]
  exact mapRun_attempts (fun _ _ _ hva => Mm.allocMapUser_attempts hva) (growth_room hpos h)

lemma growHeap_ne_panic (hpos : 0 < delta) (h : k.BreakFits delta) :
    (k.growHeap delta).1 ≠ .panic :=
  mapRun_ne_panic (fun _ _ _ hva => Mm.allocMapUser_ne_panic hva) (growth_room hpos h)

/-- Once the loop has got to the end, the new pages are there. -/
lemma growHeap_gives {mm : Mm} (hpos : 0 < delta) (h : k.BreakFits delta)
    (hdone : k.growHeap delta = (.done (), mm)) :
    mm.WritablePages k.sched.cur.space (pageUp k.sched.cur.heapBreak / frameSize)
      (pageUp (k.newBreak delta).toNat / frameSize) := by
  have hroom := growth_room hpos h
  have hgives := allocMapPages_gives (by
    simp only [frameSize, lowerHalfPages] at hroom ⊢
    omega) hdone
  intro p hlo hp
  refine hgives p hlo (lt_of_lt_of_le hp ?_)
  simp only [pageUp, pageDown, frameSize]
  omega

end Kernel

/-! ## The heap of a process -/

/-- The break is not below `HEAP_START`, and every page under it is mapped for ring 3 to write to. -/
structure Process.HeapMapped (p : Process) (m : Mm) : Prop where
  start : heapStart ≤ p.heapBreak
  lower : p.heapBreak ≤ 2 ^ 47
  mapped : m.WritablePages p.space (heapStart / frameSize) (pageUp p.heapBreak / frameSize)

lemma Process.HeapMapped.grows {p q : Process} (h : p.HeapMapped m)
    (hg : (m.pt.user p.space).Grows (m'.pt.user p.space)) (hspace : q.space = p.space)
    (hbreak : q.heapBreak = p.heapBreak) : q.HeapMapped m' := by
  refine ⟨by rw [hbreak]; exact h.start, by rw [hbreak]; exact h.lower, ?_⟩
  rw [hspace, hbreak]
  refine h.mapped.grows hg ?_
  have hlower := h.lower
  simp only [pageUp, pageDown, frameSize, lowerHalfPages] at hlower ⊢
  omega

/-- A heap without pages. -/
lemma Process.HeapMapped.none {p : Process} (h : p.heapBreak = heapStart) (m : Mm) :
    p.HeapMapped m := by
  have hpages : pageUp heapStart / frameSize = heapStart / frameSize := by decide
  refine ⟨le_of_eq h.symm, by rw [h]; decide, fun q hlo hq => ?_⟩
  rw [h, hpages] at hq
  omega

/-- The heaps of all processes are mapped. -/
def HeapInv (k : Kernel) : Prop :=
  ∀ (i : ℕ) (p : Process), k.sched.procs[i]? = some p → p.HeapMapped k.mm

lemma create_heapBreak {pid : ℕ} {p : Process} (h : create plat m pid = (.done p, m')) :
    p.heapBreak = heapStart := by
  unfold create at h
  split at h
  · cases h
  split at h
  · cases h
  · cases h
  split at h
  · cases h
  · cases h
  · obtain ⟨hp, -⟩ := Prod.mk.inj h
    rw [← Attempt.done.inj hp]
    rfl

lemma heapInv_boot (h : boot plat = some k) : HeapInv k := by
  obtain ⟨m₀, m₁, p, -, hp, rfl⟩ := boot_cases h
  intro i q hq
  have hq : [p][i]? = some q := hq
  rcases i with _ | i
  · obtain rfl := Option.some.inj hq
    exact .none (create_heapBreak hp) _
  · simp at hq

/-- An environment that was copied ends in the lower half. -/
lemma copyEnv_fits {cr3 envpPtr envpLen : ℕ} : ∀ (n i : ℕ) (m : Mm),
    heapStart + i * frameSize ≤ 2 ^ 47 →
    Kernel.copyEnv cr3 space envpPtr envpLen n i m = (.done (), m') →
    heapStart + (i + n) * frameSize ≤ 2 ^ 47 := by
  intro n
  induction n with
  | zero => exact fun i m hi _ => hi
  | succ n ih =>
    intro i m hi h
    unfold Kernel.copyEnv at h
    dsimp only at h
    split at h
    · cases h
    · cases h
    next m₁ hmap =>
      have hva : heapStart + i * frameSize < 2 ^ 47 := by
        by_contra hge
        have heq : heapStart + i * frameSize = 2 ^ 47 := le_antisymm hi (Nat.not_lt.mp hge)
        rw [heq] at hmap
        unfold Mm.allocMapUser at hmap
        split at hmap
        · cases hmap
        · rw [Mm.mapUser_eq, Mm.mapWithFlags, if_neg (by decide)] at hmap
          cases hmap
      split at h
      · cases h
      · have hnext := ih (i + 1) _ (by simp only [heapStart, frameSize] at hva ⊢; omega) h
        rwa [show i + 1 + n = i + (n + 1) by omega] at hnext

namespace Kernel

/-- The heap of the child that `spawn` adds. -/
lemma spawn_heap {capSlot pid : ℕ} (h : k.spawn plat capSlot = (.done pid, k')) :
    ∃ p, k'.sched.procs[k.sched.procs.length]? = some p ∧ p.HeapMapped k'.mm := by
  unfold spawn at h
  split at h
  · cases h
  · cases h
  next p m₁ hcreate =>
    obtain ⟨-, -, hp⟩ := addProcess_last h
    exact ⟨p, hp, .none (create_heapBreak hcreate) _⟩

/-- The heap of the child that `spawn_env` adds starts with its environment. -/
lemma spawnEnv_heap {envpPtr envpLen capSlot pid : ℕ}
    (h : k.spawnEnv plat envpPtr envpLen capSlot = (.done pid, k')) :
    ∃ p, k'.sched.procs[k.sched.procs.length]? = some p ∧ p.HeapMapped k'.mm := by
  unfold spawnEnv at h
  split at h
  · exact spawn_heap h
  split at h
  · cases h
  · cases h
  split at h
  · cases h
  split at h
  · cases h
  next p m₁ hcreate _ _ =>
    dsimp only at h
    split at h
    · cases h
    · cases h
    next m₂ hcopy =>
      obtain ⟨hmm, -, hp⟩ := addProcess_last h
      have hstart : heapStart + 0 * frameSize ≤ 2 ^ 47 := by decide
      have hfits := copyEnv_fits _ 0 m₁ hstart hcopy
      have hgives := copyEnv_gives _ 0 m₁ hfits hcopy
      rw [Nat.zero_add] at hfits
      refine ⟨_, hp, Nat.le_add_right _ _, hfits, ?_⟩
      have hpages : pageUp (heapStart + pagesFor envpLen * frameSize) / frameSize =
          heapStart / frameSize + 0 + pagesFor envpLen := by
        simp only [pageUp, pageDown, heapStart, frameSize]
        omega
      rw [hmm]
      show m₂.WritablePages p.space _ (pageUp (heapStart + pagesFor envpLen * frameSize) / frameSize)
      rw [hpages]
      exact hgives

end Kernel

/-! ## Whole runs -/

/-- Where a call of `sbrk` leaves the break, and the pages that are there then. -/
lemma sbrk_break (k : Kernel) (delta : ℤ) :
    (Kernel.orMax (k.sbrk delta)).1.sched = k.sched ∨
    ∃ heapBreak, (Kernel.orMax (k.sbrk delta)).1.sched =
        k.sched.modifyCur (fun p => { p with heapBreak }) ∧
      heapStart ≤ heapBreak ∧ heapBreak ≤ heapMax ∧
      (Kernel.orMax (k.sbrk delta)).1.mm.WritablePages k.sched.cur.space
        (pageUp k.sched.cur.heapBreak / frameSize) (pageUp heapBreak / frameSize) := by
  by_cases hzero : delta = 0
  · left
    unfold Kernel.sbrk
    dsimp only
    rw [if_pos hzero]
    rfl
  by_cases hfits : k.BreakFits delta
  · have hrange : heapStart ≤ (k.newBreak delta).toNat ∧ (k.newBreak delta).toNat ≤ heapMax := by
      unfold Kernel.BreakFits at hfits
      omega
    rcases lt_or_gt_of_ne hzero with hneg | hpos
    · right
      rw [Kernel.sbrk_shrink hneg hfits]
      refine ⟨_, rfl, hrange.1, hrange.2, fun p hlo hp => ?_⟩
      -- there is no page to map below the old break
      unfold Kernel.newBreak at hp
      simp only [pageUp, pageDown, frameSize] at hlo hp
      omega
    · rw [Kernel.sbrk_grow hpos hfits]
      cases hr : k.growHeap delta with
      | mk o mm =>
        cases o with
        | panic => exact .inl rfl
        | failed => exact .inl rfl
        | done _ => exact .inr ⟨_, rfl, hrange.1, hrange.2, Kernel.growHeap_gives hpos hfits hr⟩
  · left
    rw [Kernel.sbrk_out_of_range hzero hfits]
    rfl

/-- The kernel as the handler of a system call finds it. -/
def Kernel.entered (k : Kernel) : Kernel := { k with cpu := k.cpu.swapgs, exec := .kernel }

/-- A step with an `SBRK` call in it is a call of `sbrk`. -/
lemma sbrk_step (hreach : Reachable (xernel plat) k) (hs : Xernel.step plat k e = some (k', out))
    (hact : k.activity e = .call .sbrk args) :
    k'.core = (Kernel.orMax (k.entered.sbrk (Kernel.asI64 args.rdi.toNat))).1.core ∧
      out = (Kernel.orMax (k.entered.sbrk (Kernel.asI64 args.rdi.toNat))).2 := by
  obtain ⟨nr, hw, r, hd, rfl, -, hcore, hout⟩ := reachable_dispatch hreach hs hact
  rw [Kernel.dispatch, hd] at hcore hout
  exact ⟨hcore, hout⟩

/-- The heap of a new process is mapped. -/
lemma child_heap (hreach : Reachable (xernel plat) k) (hs : Xernel.step plat k e = some (k', out))
    (hact : k.activity e = .call .spawn args ∨ k.activity e = .call .spawnEnv args) {p : Process}
    (hp : k'.sched.procs[k.sched.procs.length]? = some p) : p.HeapMapped k'.mm := by
  have hchild : ∀ {r : Attempt ℕ × Kernel}, k'.core = (Kernel.orMax r).1.core →
      ((∀ pid, r.1 ≠ .done pid) → r.2.sched = k.sched) →
      (∀ pid k₁, r = (.done pid, k₁) → ∃ q, k₁.sched.procs[k.sched.procs.length]? = some q ∧
        q.HeapMapped k₁.mm) → p.HeapMapped k'.mm := by
    intro r hcore hfailed hdone
    obtain ⟨pid, k₁, hr, hcore₁⟩ := Kernel.child_of_orMax hcore hfailed hp
    have hsched : k'.sched = k₁.sched := congrArg Core.sched hcore₁
    have hmm : k'.mm = k₁.mm := congrArg Core.mm hcore₁
    obtain ⟨q, hq, hheap⟩ := hdone pid k₁ hr
    rw [hsched, hq] at hp
    obtain rfl := Option.some.inj hp
    rw [hmm]
    exact hheap
  rcases hact with hact | hact
  · obtain ⟨nr, hw, r, hd, rfl, -, hcore, -⟩ := reachable_dispatch hreach hs hact
    rw [Kernel.dispatch, hd] at hcore
    exact hchild hcore Kernel.spawn_failed fun pid k₁ h =>
      Kernel.spawn_heap (k := { k with cpu := k.cpu.swapgs, exec := .kernel }) h
  · obtain ⟨nr, hw, r, hd, rfl, -, hcore, -⟩ := reachable_dispatch hreach hs hact
    rw [Kernel.dispatch, hd] at hcore
    exact hchild hcore Kernel.spawnEnv_failed fun pid k₁ h =>
      Kernel.spawnEnv_heap (k := { k with cpu := k.cpu.swapgs, exec := .kernel }) h

theorem HeapInv.step (hinv : HeapInv k) (hdisj : plat.RegionsDisjoint) (hspace : SpaceInv plat k)
    (hreach : Reachable (xernel plat) k) (hs : Xernel.step plat k e = some (k', out)) :
    HeapInv k' := by
  have hcore := reachable_core hreach hs
  have hmm := hspace.mm hreach hs
  intro i p hp
  rcases hcore.proc hp with ⟨q, hq, hstep⟩ | ⟨hi, -⟩
  · have hgrows : (k.mm.pt.user q.space).Grows (k'.mm.pt.user q.space) :=
      hmm.user_grows hdisj hspace.run (hspace.live i q hq)
    by_cases hact : ∀ args, k.activity e ≠ .call .sbrk args
    · exact (hinv i q hq).grows hgrows hstep.identity.space (hcore.heapBreak hact hq hp)
    · -- the running process may have moved its break
      simp only [not_forall, not_not] at hact
      obtain ⟨args, hact⟩ := hact
      obtain ⟨hcore', -⟩ := sbrk_step hreach hs hact
      have hsched₁ : k.entered.sched = k.sched := rfl
      have hsched' : k'.sched = (Kernel.orMax (k.entered.sbrk (Kernel.asI64 args.rdi.toNat))).1.sched :=
        congrArg Core.sched hcore'
      have hmm' : k'.mm = (Kernel.orMax (k.entered.sbrk (Kernel.asI64 args.rdi.toNat))).1.mm :=
        congrArg Core.mm hcore'
      have hp : k'.sched.procs[i]? = some p := hp
      have hq : k.sched.procs[i]? = some q := hq
      rcases sbrk_break k.entered (Kernel.asI64 args.rdi.toNat) with
        hsame | ⟨heapBreak, hmoved, hlo, hhi, hnew⟩
      · rw [hsched', hsame, hsched₁, hq] at hp
        obtain rfl := Option.some.inj hp
        exact (hinv i q hq).grows hgrows rfl rfl
      · rw [hsched', hmoved, hsched₁, Scheduler.modifyCur, Scheduler.getElem?_modify] at hp
        split at hp
        next hi =>
          subst hi
          rw [Scheduler.getElem?_current] at hp hq
          obtain rfl := Option.some.inj hp
          obtain rfl := Option.some.inj hq
          rw [← hmm', hsched₁] at hnew
          have hold := (hinv _ _ (Scheduler.getElem?_current _)).grows hgrows rfl rfl
          have hmax : heapMax ≤ 2 ^ 47 := by decide
          refine ⟨hlo, le_trans hhi hmax, fun pg hpg hlt => ?_⟩
          rcases Nat.lt_or_ge pg (pageUp k.sched.cur.heapBreak / frameSize) with hbelow | habove
          · exact hold.mapped pg hpg hbelow
          · exact hnew pg habove hlt
        next =>
          rw [hq] at hp
          obtain rfl := Option.some.inj hp
          exact (hinv i q hq).grows hgrows rfl rfl
  · rcases hcore.length with ⟨hlen, -⟩ | ⟨-, -, args, hact⟩
    · have hlt : i < k'.core.sched.procs.length := (List.getElem?_eq_some_iff.mp hp).1
      omega
    · have hi' : i = k.sched.procs.length := hi
      subst hi'
      exact child_heap hreach hs hact hp

theorem heapInv_run {ts : List KernelStep} (hdisj : plat.RegionsDisjoint)
    (h : Run (xernel plat) ts k) : HeapInv k := by
  refine h.invariant (I := HeapInv) (fun _ hk => heapInv_boot hk) ?_
  intro s s' e o hreach hinv hs
  obtain ⟨ts, hrun⟩ := hreach
  exact hinv.step hdisj (spaceInv_run hdisj hrun) ⟨ts, hrun⟩ hs

end Xernel
