import Xernel.Arch.Demand
import Xernel.Break
import Xernel.Refund
import Xernel.Budget
import Xernel.UserBuffer

/-!
# What a failing `DMA_ALLOC` leaves behind

`sys_dma_alloc` charges the budget, allocates a run of frames, maps it and writes the two addresses to
the caller. When a step after the charge fails it refunds the charge, but it frees no frame and unmaps
no page.
-/

namespace Xernel

variable {plat : Platform} {k k' : Kernel} {a b : Core} {e : Event} {act : Activity} {out : Option ℕ}
  {args : Args}

/-! ## Budgets fit a word -/

namespace CNode

variable {c c' : CNode} {amount i : ℕ} {cap : CapEntry} {s t : List (Option CapEntry)}

/-- The budgets in a list of slots are `u64` values. -/
def WordSlots (s : List (Option CapEntry)) : Prop :=
  ∀ cap, some cap ∈ s → cap.capType = .untyped → cap.object ≤ u64Max

lemma wordSlots_cons {o : Option CapEntry} : WordSlots (o :: s) ↔
    (∀ cap, o = some cap → cap.capType = .untyped → cap.object ≤ u64Max) ∧ WordSlots s := by
  unfold WordSlots
  simp only [List.mem_cons]
  refine ⟨fun h => ⟨fun cap ho => h cap (.inl ho.symm), fun cap hmem => h cap (.inr hmem)⟩, ?_⟩
  rintro ⟨hfirst, hrest⟩ cap (ho | hmem)
  · exact hfirst cap ho.symm
  · exact hrest cap hmem

lemma WordSlots.charge (h : WordSlots s) (hcharge : chargeSlots amount s = some t) : WordSlots t := by
  induction s generalizing t with
  | nil => cases hcharge
  | cons o s ih =>
    obtain ⟨hfirst, hrest⟩ := wordSlots_cons.mp h
    cases o with
    | none =>
      obtain ⟨t', ht', rfl⟩ := Option.map_eq_some_iff.mp hcharge
      exact wordSlots_cons.mpr ⟨hfirst, ih hrest ht'⟩
    | some cap =>
      unfold chargeSlots at hcharge
      split at hcharge
      next hcovers =>
        obtain rfl := Option.some.inj hcharge
        refine wordSlots_cons.mpr ⟨fun cap' heq _ => ?_, hrest⟩
        have hword := hfirst cap rfl hcovers.1
        rw [← Option.some.inj heq]
        show cap.object - amount ≤ u64Max
        omega
      next =>
        obtain ⟨t', ht', rfl⟩ := Option.map_eq_some_iff.mp hcharge
        exact wordSlots_cons.mpr ⟨hfirst, ih hrest ht'⟩

lemma WordSlots.refund (h : WordSlots s) : WordSlots (refundSlots amount s) := by
  induction s with
  | nil => exact h
  | cons o s ih =>
    obtain ⟨hfirst, hrest⟩ := wordSlots_cons.mp h
    cases o with
    | none => exact wordSlots_cons.mpr ⟨hfirst, ih hrest⟩
    | some cap =>
      unfold refundSlots
      split
      next =>
        refine wordSlots_cons.mpr ⟨fun cap' heq _ => ?_, hrest⟩
        rw [← Option.some.inj heq]
        exact min_le_right _ _
      next => exact wordSlots_cons.mpr ⟨hfirst, ih hrest⟩

/-- The budgets of a table are `u64` values. -/
def Words (c : CNode) : Prop := WordSlots c.slots

lemma Words.chargeUntyped (h : c.Words) (hcharge : c.chargeUntyped amount = some c') : c'.Words := by
  obtain ⟨t, ht, rfl⟩ := Option.map_eq_some_iff.mp hcharge
  exact WordSlots.charge h ht

lemma Words.refundUntyped (h : c.Words) (amount : ℕ) : (c.refundUntyped amount).Words :=
  WordSlots.refund h

lemma Words.insert (h : c.Words) (hins : c.insert i cap = .ok c')
    (hcap : cap.capType = .untyped → cap.object ≤ u64Max) : c'.Words := by
  obtain ⟨-, -, rfl⟩ := insert_eq_ok_iff.mp hins
  intro cap' hmem
  rcases List.mem_or_eq_of_mem_set hmem with hmem | heq
  · exact h cap' hmem
  · rw [Option.some.inj heq]
    exact hcap

lemma Words.slot (h : c.Words) (hslot : c.slot i = some cap) (htype : cap.capType = .untyped) :
    cap.object ≤ u64Max :=
  h cap (slot_eq_some_iff_mem.mp ⟨i, hslot⟩) htype

end CNode

/-- The budgets of all processes are `u64` values. -/
def Scheduler.AllWords (s : Scheduler) : Prop := ∀ p ∈ s.procs, p.caps.Words

namespace Scheduler

variable {s s' : Scheduler} {f : Process → Process}

lemma AllWords.cur (h : s.AllWords) : s.cur.caps.Words := h _ (List.get_mem _ _)

lemma AllWords.modify (h : s.AllWords) (i : ℕ)
    (hf : ∀ p, s.procs[i]? = some p → (f p).caps.Words) : (s.modify i f).AllWords := by
  intro p hp
  obtain ⟨j, hj⟩ := List.mem_iff_getElem?.mp hp
  rw [getElem?_modify] at hj
  split at hj
  next hi =>
    subst hi
    obtain ⟨q, hq, rfl⟩ := Option.map_eq_some_iff.mp hj
    exact hf q hq
  next => exact h p (List.mem_of_getElem? hj)

/-- An update that leaves the capabilities alone. -/
lemma AllWords.modify_of_caps (h : s.AllWords) (i : ℕ) (hf : ∀ p, (f p).caps = p.caps) :
    (s.modify i f).AllWords :=
  h.modify i fun p hp => by rw [hf]; exact h p (List.mem_of_getElem? hp)

lemma AllWords.setCaps {caps : CNode} (h : s.AllWords) (hcaps : caps.Words) :
    (s.setCaps caps).AllWords :=
  h.modify s.current fun _ _ => hcaps

lemma AllWords.park (h : s.AllWords) (kont : Kont) : (s.park kont).AllWords :=
  h.modify_of_caps s.current fun _ => rfl

lemma AllWords.setState (h : s.AllWords) (st : State) : (s.setState st).AllWords :=
  h.modify_of_caps s.current fun _ => rfl

lemma AllWords.push {p : Process} (h : s.AllWords) (hp : p.caps.Words) : (s.push p).AllWords := by
  intro q hq
  rcases List.mem_append.mp hq with hq | hq
  · exact h q hq
  · rw [List.mem_singleton.mp hq]
    exact hp

lemma AllWords.wake (h : s.AllWords) (r : BlockReason) : (s.wake r).AllWords := by
  intro p hp
  obtain ⟨q, hq, rfl⟩ := List.mem_map.mp hp
  split <;> exact h q hq

lemma AllWords.switched (h : s.AllWords) (hs : s.Switched s') : s'.AllWords := by
  obtain ⟨i, -, rfl⟩ := hs
  exact h

end Scheduler

/-- All budgets in slots and in queued messages are `u64` values. -/
structure WordsInv (a : Core) : Prop where
  procs : a.sched.AllWords
  queued : ∀ id cap, a.Queued id cap → cap.capType = .untyped → cap.object ≤ u64Max

lemma words_seedCaps (pid : ℕ) : (seedCaps pid).Words := by
  have hseeded : ∀ cap ∈ seededCaps, cap.capType = .untyped → cap.object ≤ u64Max := by decide
  intro cap hmem
  obtain ⟨i, hi⟩ := CNode.slot_eq_some_iff_mem.mpr hmem
  rw [slot_seedCaps] at hi
  exact hseeded cap (seededSlot_mem hi)

theorem WordsInv.step (h : WordsInv a) (hs : CoreStep plat a b act out) : WordsInv b := by
  refine ⟨?_, fun id cap hq htype => ?_⟩
  · cases hs with
    | quiet _ _ hs | taken _ _ _ hs => rw [hs]; exact h.procs
    | logged _ _ hs | setBreak _ hs =>
      rw [hs]
      exact h.procs.modify_of_caps _ fun _ => rfl
    | parked _ _ _ hs => rw [hs]; exact h.procs.park _
    | charged _ _ hcharge hs =>
      rw [hs]
      exact h.procs.setCaps (h.procs.cur.chargeUntyped hcharge)
    | refunded _ _ hcharge hs =>
      rw [hs]
      exact h.procs.setCaps ((h.procs.cur.chargeUntyped hcharge).refundUntyped _)
    | frameInstalled _ _ hcharge hins hs =>
      rw [hs]
      refine h.procs.setCaps ((h.procs.cur.chargeUntyped hcharge).insert hins fun htype => ?_)
      cases htype
    | spawned _ _ hp hins hs =>
      rw [hs]
      refine (h.procs.setCaps ?_).push ?_
      · rcases hins with rfl | ⟨slot, hins⟩
        · exact h.procs.cur
        · exact h.procs.cur.insert hins fun htype => by cases htype
      · rw [hp.spec.2.2.2.1]
        exact words_seedCaps _
    -- a wakeup changes states only
    | sent _ _ _ _ hs | signalled _ _ _ _ hs => rw [hs]; exact h.procs.wake _
    | received _ hrecv hins hs =>
      rw [hs]
      refine h.procs.setCaps ?_
      rcases hins with rfl | ⟨cap, hmsg, hins⟩
      · exact h.procs.cur
      · exact h.procs.cur.insert hins (h.queued _ cap (Core.queued_of_tryRecv hrecv hmsg))
    | yielded _ _ _ hs => exact (h.procs.park _).switched hs
    | blocked _ _ _ _ hs =>
      rcases hs with hs | hs
      · exact ((h.procs.park _).setState _).switched hs
      · rw [hs]
        exact ((h.procs.park _).setState _).setState _
    | exited code _ _ hs =>
      have hfinish : (a.sched.finish code).AllWords := h.procs.modify_of_caps _ fun _ => rfl
      rcases hs with hs | hs
      · exact hfinish.switched hs
      · rw [hs]
        exact hfinish
    | logTaken _ _ _ hs | killed _ _ _ _ _ hs =>
      rw [hs]
      exact h.procs.modify_of_caps _ fun _ => rfl
    | granted _ _ _ hcap _ hins hs =>
      obtain ⟨p, hp, hins⟩ := hins
      rw [hs]
      refine h.procs.modify _ fun _ _ => ?_
      exact (h.procs p (List.mem_of_getElem? hp)).insert hins fun htype => h.procs.cur.slot hcap htype
  · rcases hs.queued hq with hq | ⟨args, -, -, -, -, hatt⟩
    · exact h.queued id cap hq htype
    · exact h.procs.cur.slot (Scheduler.slot_of_attached hatt) htype

lemma wordsInv_boot (h : boot plat = some k) : WordsInv k.core := by
  obtain ⟨m, p, hnew, hprocs, -, -, hq, -⟩ := boot_core h
  refine ⟨fun q hmem => ?_, fun id cap hqueued => ?_⟩
  · rw [hprocs, List.mem_singleton] at hmem
    rw [hmem, hnew.spec.2.2.2.1]
    exact words_seedCaps _
  · obtain ⟨msg, hmsg, -⟩ := hqueued
    rw [hq id] at hmsg
    cases hmsg

theorem wordsInv_run {ts : List KernelStep} (h : Run (xernel plat) ts k) : WordsInv k.core :=
  h.invariant (I := fun k => WordsInv k.core) (fun _ hk => wordsInv_boot hk)
    fun _ _ _ _ hreach hinv hs => hinv.step (reachable_core hreach hs)

/-! ## One call -/

/-- A contiguous request, as it acts on the rooms. -/
lemma Mm.frameAllocContiguous_spec {m : Mm} {n : ℕ} (hn : n ≠ 0) :
    ((m.frameAllocContiguous n).1 = none ↔ ∀ r ∈ m.frames.rooms, r < n) ∧
    (m.frameAllocContiguous n).2.frames.available =
      m.frames.freeList.length + (PhysFrameAllocator.takeRoom n m.frames.rooms).sum ∧
    (m.frameAllocContiguous n).2.frames.inUse =
      m.frames.inUse + ((m.frameAllocContiguous n).1.elim 0 fun _ => n) := by
  obtain ⟨htake, hnone, hfree, hin⟩ :=
    PhysFrameAllocator.bump_rooms (Nat.pos_of_ne_zero hn) _ m.frames le_rfl
  have hrun : m.frames.allocContiguous n =
      PhysFrameAllocator.bump n (m.frames.regions.length - m.frames.regionIdx) m.frames := by
    unfold PhysFrameAllocator.allocContiguous
    rw [if_neg hn]
  unfold Mm.frameAllocContiguous
  dsimp only
  rw [hrun, hnone, hin]
  refine ⟨?_, ?_, rfl⟩
  · rw [List.dropWhile_eq_nil_iff]
    simp
  · unfold PhysFrameAllocator.available
    rw [htake, hfree]

namespace Kernel

variable {pages len outPtr : ℕ}

/-- The pages that a `DMA_ALLOC` of `pages` pages is to map. -/
def dmaRun (k : Kernel) (pages : ℕ) : Finset ℕ :=
  Finset.Ico (k.win.nextDmaVa / frameSize) (k.win.nextDmaVa / frameSize + pages)

/-- The `len` bytes at `ptr` will be writable for ring 3 once the pages of `run` are mapped. -/
def WritableAfter (k : Kernel) (run : Finset ℕ) (ptr len : ℕ) : Prop :=
  ptr ≠ 0 ∧ ptr + len ≤ userAddrMax ∧
    ∀ i < len, (ptr + i) / frameSize ∈ run ∨ k.mm.userPageOk k.cpu.cr3 true (ptr + i) = true

/-- Everything that a `DMA_ALLOC` of `pages` pages needs once it has its frames: room in the window,
empty pages there, frames for the missing tables besides those of the run itself, and a buffer for its
results. -/
structure DmaMaps (k : Kernel) (pages outPtr : ℕ) : Prop where
  room : k.win.nextDmaVa + pages * frameSize ≤ dmaRegionEnd
  empty : ∀ p ∈ k.dmaRun pages, k.mm.pt.leaf k.cpu.cr3 p = none
  tables : k.mm.missingTables k.cpu.cr3 (k.dmaRun pages) ≤
    k.mm.frames.freeList.length + (PhysFrameAllocator.takeRoom pages k.mm.frames.rooms).sum
  buffer : k.WritableAfter (k.dmaRun pages) outPtr 16

/-- Without a room for the run nothing is mapped or taken. -/
lemma dmaAllocCharged_no_room (hpages : pages ≠ 0) (h : ∀ r ∈ k.mm.frames.rooms, r < pages)
    (outPtr : ℕ) : (k.dmaAllocCharged pages outPtr).1 = .failed ∧
      (k.dmaAllocCharged pages outPtr).2.sched = k.sched ∧
      (k.dmaAllocCharged pages outPtr).2.mm.pt = k.mm.pt ∧
      (k.dmaAllocCharged pages outPtr).2.mm.frames.inUse = k.mm.frames.inUse := by
  obtain ⟨hnone, -, hin⟩ := Mm.frameAllocContiguous_spec (m := k.mm) hpages
  have hgot := hnone.mpr h
  unfold dmaAllocCharged
  cases hr : k.mm.frameAllocContiguous pages with
  | mk got mm =>
    rw [hr] at hgot hin
    obtain rfl : got = none := hgot
    exact ⟨rfl, rfl, (frameAllocContiguous_calls hr).2, hin⟩

/-- Which buffers are accepted once the pages of `run` are mapped. -/
lemma userSliceMut_iff {run : Finset ℕ} {ptr len : ℕ} (hlen : len ≠ 0) (hmax : len ≤ 2 ^ 20)
    (hcpu : k'.cpu = k.cpu)
    (hrun : ∀ p ∈ run, ∃ leaf ∈ userWritable, k'.mm.pt.leaf k.cpu.cr3 p = some leaf)
    (hsame : ∀ p < lowerHalfPages, p ∉ run →
      k'.mm.pt.leaf k.cpu.cr3 p = k.mm.pt.leaf k.cpu.cr3 p) :
    k'.userSliceMut ptr len = true ↔ k.WritableAfter run ptr len := by
  have hpage : ∀ va < 2 ^ 47, k'.mm.userPageOk k'.cpu.cr3 true va = true ↔
      va / frameSize ∈ run ∨ k.mm.userPageOk k.cpu.cr3 true va = true := by
    intro va hva
    rw [hcpu]
    by_cases hmem : va / frameSize ∈ run
    · obtain ⟨leaf, ⟨huser, hwritable⟩, hleaf⟩ := hrun _ hmem
      refine iff_of_true ?_ (.inl hmem)
      rw [Mm.userPageOk, hleaf]
      simp [huser, hwritable]
    · rw [Mm.userPageOk, Mm.userPageOk, hsame _ (Mm.page_lower hva) hmem]
      exact (or_iff_right hmem).symm
  have haddr : userAddrMax = 2 ^ 47 := by decide
  unfold userSliceMut WritableAfter
  rw [if_neg hlen, userBufferOk_iff hlen, haddr]
  constructor
  · rintro ⟨-, hptr, hend, hbytes⟩
    refine ⟨hptr, hend, fun i hi => (hpage _ (by omega)).mp ?_⟩
    exact Mm.userPageOk_iff.mpr (hbytes _ (by omega) (by omega))
  · rintro ⟨hptr, hend, hbytes⟩
    refine ⟨hmax, hptr, hend, fun va hlo hhi => Mm.userPageOk_iff.mp ?_⟩
    obtain ⟨i, rfl⟩ := Nat.exists_eq_add_of_le hlo
    exact (hpage _ (by omega)).mpr (hbytes i (by omega))

/-- The loop that maps a run of frames gets to the end if its pages are empty and the frames suffice for
the tables: those of the run are there already. -/
lemma mapRun_mapUser_attempts {va n : ℕ} (space phys : ℕ) (m : Mm)
    (hva : va + n * frameSize ≤ 2 ^ 47) :
    m.Attempts (mapRun (fun m va phys => m.mapUser space va phys true false) n va phys m).2 space 0
      (Finset.Ico (va / frameSize) (va / frameSize + n))
      ((mapRun (fun m va phys => m.mapUser space va phys true false) n va phys m).1 = .done ()) :=
  mapRun_attempts (fun _ _ _ hva => Mm.mapWithFlags_attempts hva) hva

lemma mapRun_mapUser_ne_panic {va n : ℕ} (space phys : ℕ) (m : Mm)
    (hva : va + n * frameSize ≤ 2 ^ 47) :
    (mapRun (fun m va phys => m.mapUser space va phys true false) n va phys m).1 ≠ .panic :=
  mapRun_ne_panic (fun _ _ _ hva => Mm.mapWithFlags_ne_panic hva) hva

lemma mapRun_mapUser_done_iff {va n : ℕ} (space phys : ℕ) (m : Mm)
    (hva : va + n * frameSize ≤ 2 ^ 47) :
    (mapRun (fun m va phys => m.mapUser space va phys true false) n va phys m).1 = .done () ↔
      (∀ p ∈ Finset.Ico (va / frameSize) (va / frameSize + n), m.pt.leaf space p = none) ∧
        m.missingTables space (Finset.Ico (va / frameSize) (va / frameSize + n)) ≤
          m.frames.available := by
  have hiff := (mapRun_mapUser_attempts space phys m hva).iff
  unfold Mm.need at hiff
  rw [Nat.zero_mul, Nat.zero_add] at hiff
  exact hiff

/-- What becomes of the loop that maps the run. -/
structure DmaMapped (k : Kernel) (pages : ℕ) (m m' : Mm) (outcome : Attempt Unit) : Prop where
  ne_panic : outcome ≠ .panic
  inUse_le : m.frames.inUse ≤ m'.frames.inUse
  done_iff : outcome = .done () ↔ (∀ p ∈ k.dmaRun pages, m.pt.leaf k.cpu.cr3 p = none) ∧
    m.missingTables k.cpu.cr3 (k.dmaRun pages) ≤ m.frames.available
  run : outcome = .done () →
    ∀ p ∈ k.dmaRun pages, ∃ leaf ∈ userWritable, m'.pt.leaf k.cpu.cr3 p = some leaf
  others : outcome = .done () → ∀ p < lowerHalfPages, p ∉ k.dmaRun pages →
    m'.pt.leaf k.cpu.cr3 p = m.pt.leaf k.cpu.cr3 p

lemma mapRun_dmaMapped {phys : ℕ} {m m' : Mm} {outcome : Attempt Unit}
    (hva : k.win.nextDmaVa + pages * frameSize ≤ 2 ^ 47)
    (hmap : mapRun (fun m va phys => m.mapUser k.cpu.cr3 va phys true false) pages k.win.nextDmaVa
      phys m = (outcome, m')) : k.DmaMapped pages m m' outcome := by
  have hattempts := mapRun_mapUser_attempts k.cpu.cr3 phys m hva
  have hpanic := mapRun_mapUser_ne_panic k.cpu.cr3 phys m hva
  have hiff := mapRun_mapUser_done_iff k.cpu.cr3 phys m hva
  have hmono : m.frames.inUse ≤ (mapRun (fun m va phys => m.mapUser k.cpu.cr3 va phys true false)
      pages k.win.nextDmaVa phys m).2.frames.inUse :=
    mapRun_inUse_le fun m va phys => m.mapWithFlags_inUse_le k.cpu.cr3 va phys _
  rw [hmap] at hattempts hpanic hiff hmono
  have hpages : k.win.nextDmaVa / frameSize + pages ≤ lowerHalfPages := by
    simp only [frameSize, lowerHalfPages] at hva ⊢
    omega
  refine ⟨hpanic, hmono, hiff, fun hdone p hp => ?_, fun hdone p hp hnot => ?_⟩
  · rw [hdone] at hmap
    have hp := Finset.mem_Ico.mp hp
    exact mapRun_mapUser_gives hpages hmap p hp.1 hp.2
  · exact (hattempts.fills hdone).others p hp hnot

/-- With a room for the run, the frames are taken, and the rest succeeds if all it needs is there. -/
lemma dmaAllocCharged_room (hpages : pages ≠ 0) (h : ∃ r ∈ k.mm.frames.rooms, pages ≤ r)
    (outPtr : ℕ) : (k.dmaAllocCharged pages outPtr).1 ≠ .panic ∧
      k.mm.frames.inUse < (k.dmaAllocCharged pages outPtr).2.mm.frames.inUse ∧
      ((k.dmaAllocCharged pages outPtr).1 = .done () ↔ k.DmaMaps pages outPtr) := by
  obtain ⟨hnone, havail, hin⟩ := Mm.frameAllocContiguous_spec (m := k.mm) hpages
  obtain ⟨r, hr, hle⟩ := h
  unfold dmaAllocCharged
  cases hgot : k.mm.frameAllocContiguous pages with
  | mk got mm =>
    rw [hgot] at hnone havail hin
    cases got with
    | none => exact absurd (hnone.mp rfl r hr) (Nat.not_lt.mpr hle)
    | some phys =>
      have hpt : mm.pt = k.mm.pt := (frameAllocContiguous_calls hgot).2
      have huse : mm.frames.inUse = k.mm.frames.inUse + pages := hin
      dsimp only
      by_cases hroom : dmaRegionEnd < k.win.nextDmaVa + pages * frameSize
      · -- the window is full: the frames are gone
        rw [if_pos hroom]
        refine ⟨by simp, ?_, iff_of_false (by simp) fun hmaps => ?_⟩
        · show k.mm.frames.inUse < mm.frames.inUse
          omega
        · have hle := hmaps.room
          omega
      rw [if_neg hroom]
      have hend : dmaRegionEnd ≤ 2 ^ 47 := by decide
      have hva : k.win.nextDmaVa + pages * frameSize ≤ 2 ^ 47 := by omega
      generalize hm₁ : mm.zero phys (pages * frameSize) = m₁
      have hpt₁ : m₁.pt = k.mm.pt := by rw [← hm₁]; exact hpt
      have huse₁ : m₁.frames.inUse = k.mm.frames.inUse + pages := by rw [← hm₁]; exact huse
      have havail₁ : m₁.frames.available = k.mm.frames.freeList.length +
          (PhysFrameAllocator.takeRoom pages k.mm.frames.rooms).sum := by rw [← hm₁]; exact havail
      cases hmap : mapRun (fun m va phys => m.mapUser k.cpu.cr3 va phys true false) pages
          k.win.nextDmaVa phys m₁ with
      | mk o m₂ =>
        have hmapped := mapRun_dmaMapped hva hmap
        have huse₂ : k.mm.frames.inUse < m₂.frames.inUse := by
          have hle := hmapped.inUse_le
          omega
        have hiff := hmapped.done_iff
        unfold Mm.missingTables at hiff
        rw [hpt₁, havail₁] at hiff
        cases o with
        | panic => exact absurd rfl hmapped.ne_panic
        | failed =>
          refine ⟨by simp, huse₂, iff_of_false (by simp) fun hmaps => ?_⟩
          exact absurd (hiff.mpr ⟨hmaps.empty, hmaps.tables⟩) (by simp)
        | done _ =>
          obtain ⟨hempty, htables⟩ := hiff.mp rfl
          generalize hk₂ : ({ k with mm := m₂, win := { k.win with
            nextDmaVa := k.win.nextDmaVa + pages * frameSize } } : Kernel) = k₂
          have hmm₂ : k₂.mm = m₂ := by rw [← hk₂]
          -- the buffer may lie in the run, which is mapped by now
          have hbuffer : k₂.userSliceMut outPtr 16 = true ↔ k.WritableAfter (k.dmaRun pages) outPtr 16 := by
            refine userSliceMut_iff (by decide) (by decide) (by rw [← hk₂]) (fun p hp => ?_)
              (fun p hp hnot => ?_)
            · rw [hmm₂]
              exact hmapped.run rfl p hp
            · rw [hmm₂, hmapped.others rfl p hp hnot, hpt₁]
          dsimp only
          rw [hk₂]
          by_cases hok : k₂.userSliceMut outPtr 16 = true
          · rw [if_pos hok]
            obtain ⟨mem, hmem⟩ := copyOut_mm k₂ outPtr (leBytes 8 k.win.nextDmaVa ++ leBytes 8 phys)
            refine ⟨by simp, ?_, iff_of_true rfl ⟨Nat.not_lt.mp hroom, hempty, htables, hbuffer.mp hok⟩⟩
            rw [hmem, hmm₂]
            exact huse₂
          · rw [if_neg hok]
            refine ⟨by simp, ?_, iff_of_false (by simp) fun hmaps => hok (hbuffer.mpr hmaps.buffer)⟩
            rw [hmm₂]
            exact huse₂

/-- If the call fails, it leaves the capabilities of the caller, its mappings and the number of frames in
use as they were. -/
def DmaFailsClean (k k' : Kernel) (out : Option ℕ) : Prop :=
  out = some u64Max → k'.sched.cur.caps = k.sched.cur.caps ∧
    k'.mm.pt.leaf k.cpu.cr3 = k.mm.pt.leaf k.cpu.cr3 ∧
    k'.mm.frames.inUse = k.mm.frames.inUse

/-- The call is refused at once, or the first `Untyped` capability pays and there is no run of frames, or
there is one and everything else that the call needs. -/
def DmaWhole (k : Kernel) (len outPtr : ℕ) : Prop :=
  len = 0 ∨ 1 <<< 20 < len ∨
  (∀ cap, some cap ∈ k.sched.cur.caps.slots → cap.capType = .untyped →
    cap.object < pagesFor len * frameSize) ∨
  ((∃ first, CNode.firstUntyped k.sched.cur.caps.slots = some first ∧
    pagesFor len * frameSize ≤ first.object) ∧ ∀ r ∈ k.mm.frames.rooms, r < pagesFor len) ∨
  ((∃ r ∈ k.mm.frames.rooms, pagesFor len ≤ r) ∧ k.DmaMaps (pagesFor len) outPtr)

lemma sysDmaAlloc_of_refusal (hlen : ¬ (len = 0 ∨ 1 <<< 20 < len))
    (h : k.sched.cur.caps.chargeUntyped (pagesFor len * frameSize) = none) :
    k.sysDmaAlloc len outPtr = (k, some u64Max) := by
  unfold sysDmaAlloc currentChargeUntyped
  rw [if_neg hlen]
  dsimp only
  rw [h]
  rfl

/-- What happens once the charge is committed. -/
lemma sysDmaAlloc_of_charge {caps : CNode} (hlen : ¬ (len = 0 ∨ 1 <<< 20 < len))
    (h : k.sched.cur.caps.chargeUntyped (pagesFor len * frameSize) = some caps) :
    k.sysDmaAlloc len outPtr =
      match ({ k with sched := k.sched.setCaps caps } : Kernel).dmaAllocCharged (pagesFor len) outPtr with
      | (.panic, k) => (k.panic, none)
      | (.failed, k) => (k.currentRefundUntyped (pagesFor len * frameSize), some u64Max)
      | (.done (), k) => (k, some 0) := by
  unfold sysDmaAlloc currentChargeUntyped
  rw [if_neg hlen]
  dsimp only
  rw [h]
  rfl

lemma sysDmaAlloc_result (k : Kernel) (len outPtr : ℕ) :
    (k.sysDmaAlloc len outPtr).2 = none ∨ (k.sysDmaAlloc len outPtr).2 = some 0 ∨
      (k.sysDmaAlloc len outPtr).2 = some u64Max := by
  unfold sysDmaAlloc
  split
  · exact .inr (.inr rfl)
  dsimp only
  split
  · exact .inr (.inr rfl)
  split
  · exact .inl rfl
  · exact .inr (.inr rfl)
  · exact .inr (.inl rfl)

/-- One call: it never panics, and it fails without a trace exactly in the cases listed. -/
lemma sysDmaAlloc_clean_iff (hwords : k.sched.cur.caps.Words) (len outPtr : ℕ) :
    (k.sysDmaAlloc len outPtr).2 ≠ none ∧
    (k.DmaFailsClean (k.sysDmaAlloc len outPtr).1 (k.sysDmaAlloc len outPtr).2 ↔
      k.DmaWhole len outPtr) := by
  by_cases hlen : len = 0 ∨ 1 <<< 20 < len
  · unfold sysDmaAlloc
    rw [if_pos hlen]
    refine ⟨by simp, iff_of_true (fun _ => ⟨rfl, rfl, rfl⟩) ?_⟩
    exact hlen.imp_right .inl
  have hpages : pagesFor len ≠ 0 := by
    simp only [pagesFor, frameSize]
    omega
  have hcovers : (k.sched.cur.caps.chargeUntyped (pagesFor len * frameSize)).isSome ↔
      ∃ cap, some cap ∈ k.sched.cur.caps.slots ∧ cap.capType = .untyped ∧
        pagesFor len * frameSize ≤ cap.object := by
    rw [← CNode.chargeSlots_isSome_iff, CNode.chargeUntyped, Option.isSome_map]
  cases hcharge : k.sched.cur.caps.chargeUntyped (pagesFor len * frameSize) with
  | none =>
    rw [hcharge] at hcovers
    rw [sysDmaAlloc_of_refusal hlen hcharge]
    refine ⟨by simp, iff_of_true (fun _ => ⟨rfl, rfl, rfl⟩) (.inr (.inr (.inl ?_)))⟩
    intro cap hmem htype
    by_contra hle
    exact absurd (hcovers.mpr ⟨cap, hmem, htype, Nat.not_lt.mp hle⟩) (by simp)
  | some caps =>
    rw [hcharge] at hcovers
    obtain ⟨cap, hmem, htype, hle⟩ := hcovers.mp rfl
    have hpays : ¬ ∀ cap, some cap ∈ k.sched.cur.caps.slots → cap.capType = .untyped →
        cap.object < pagesFor len * frameSize :=
      fun h => absurd (h cap hmem htype) (Nat.not_lt.mpr hle)
    rw [not_or] at hlen
    rw [sysDmaAlloc_of_charge (not_or.mpr hlen) hcharge]
    unfold DmaWhole
    by_cases hroom : ∃ r ∈ k.mm.frames.rooms, pagesFor len ≤ r
    · -- the frames are taken, so the call must succeed
      have hnone : ¬ ∀ r ∈ k.mm.frames.rooms, r < pagesFor len := by
        obtain ⟨r, hr, hle⟩ := hroom
        exact fun h => absurd (h r hr) (Nat.not_lt.mpr hle)
      obtain ⟨hpanic, huse, hdone⟩ := dmaAllocCharged_room
        (k := { k with sched := k.sched.setCaps caps }) hpages hroom outPtr
      have hmaps : ({ k with sched := k.sched.setCaps caps } : Kernel).DmaMaps (pagesFor len) outPtr ↔
          k.DmaMaps (pagesFor len) outPtr :=
        ⟨fun h => ⟨h.room, h.empty, h.tables, h.buffer⟩,
          fun h => ⟨h.room, h.empty, h.tables, h.buffer⟩⟩
      rw [hmaps] at hdone
      generalize ({ k with sched := k.sched.setCaps caps } : Kernel).dmaAllocCharged (pagesFor len)
        outPtr = r at hpanic huse hdone ⊢
      obtain ⟨o, k₁⟩ := r
      cases o with
      | panic => exact absurd rfl hpanic
      | failed =>
        refine ⟨by simp, iff_of_false (fun hclean => ?_) ?_⟩
        · obtain ⟨-, -, hsame⟩ := hclean rfl
          have huse : k.mm.frames.inUse < k₁.mm.frames.inUse := huse
          have hsame : k₁.mm.frames.inUse = k.mm.frames.inUse := hsame
          omega
        · rintro (h | h | h | h | h)
          · exact hlen.1 h
          · exact hlen.2 h
          · exact hpays h
          · exact hnone h.2
          · exact absurd (hdone.mpr h.2) (by simp)
      | done _ =>
        refine ⟨by simp, iff_of_true (fun hfailed => ?_) ?_⟩
        · cases hfailed
        · exact .inr (.inr (.inr (.inr ⟨hroom, hdone.mp rfl⟩)))
    · -- there is no run of frames, and the charge is refunded
      have hsmall : ∀ r ∈ k.mm.frames.rooms, r < pagesFor len := by
        intro r hr
        by_contra hle
        exact hroom ⟨r, hr, Nat.not_lt.mp hle⟩
      obtain ⟨hfailed, hsched, hpt, huse⟩ := dmaAllocCharged_no_room
        (k := { k with sched := k.sched.setCaps caps }) hpages hsmall outPtr
      generalize ({ k with sched := k.sched.setCaps caps } : Kernel).dmaAllocCharged (pagesFor len)
        outPtr = r at hfailed hsched hpt huse ⊢
      obtain ⟨o, k₁⟩ := r
      obtain rfl : o = .failed := hfailed
      have hcaps : (k₁.currentRefundUntyped (pagesFor len * frameSize)).sched.cur.caps =
          caps.refundUntyped (pagesFor len * frameSize) := by
        have hsched : k₁.sched = k.sched.setCaps caps := hsched
        show (k₁.sched.modifyCur _).cur.caps = _
        rw [Scheduler.cur_modifyCur, hsched]
        show (k.sched.setCaps caps).cur.caps.refundUntyped _ = _
        rw [Scheduler.setCaps, Scheduler.cur_modifyCur]
      have hback := CNode.refundUntyped_chargeUntyped_iff hwords hcharge
      refine ⟨by simp, fun hclean => ?_, fun hwhole _ => ?_⟩
      · obtain ⟨hsame, -, -⟩ := hclean rfl
        have hsame : (k₁.currentRefundUntyped (pagesFor len * frameSize)).sched.cur.caps =
          k.sched.cur.caps := hsame
        rw [hcaps, hback] at hsame
        exact .inr (.inr (.inr (.inl ⟨hsame, hsmall⟩)))
      · refine ⟨?_, ?_, huse⟩
        · show (k₁.currentRefundUntyped (pagesFor len * frameSize)).sched.cur.caps = _
          rw [hcaps, hback]
          rcases hwhole with h | h | h | h | h
          · exact absurd h hlen.1
          · exact absurd h hlen.2
          · exact absurd h hpays
          · exact h.1
          · exact absurd h.1 hroom
        · have hpt : k₁.mm.pt = k.mm.pt := hpt
          show k₁.mm.pt.leaf k.cpu.cr3 = _
          rw [hpt]

end Kernel

/-! ## What a process was given and what it holds -/

/-- The bytes left in the budgets of process `i`. -/
def Scheduler.budgetOf (s : Scheduler) (i : ℕ) : ℕ := (s.procs[i]?).elim 0 fun p => p.caps.budget

/-- The bytes that the running process got mapped in a step, if it is process `i` and the step is a
`DMA_ALLOC`. Such a call maps no page outside its run. -/
def dmaBytes (i : ℕ) (t : KernelStep) : ℕ :=
  match t.pre.activity t.event with
  | .call .dmaAlloc args =>
    if i = t.pre.sched.current then
      ((t.pre.dmaRun (pagesFor args.rdi.toNat)).filter fun p =>
        t.post.mm.pt.leaf t.pre.cpu.cr3 p ≠ t.pre.mm.pt.leaf t.pre.cpu.cr3 p).card * frameSize
    else 0
  | _ => 0

/-- The bytes that process `i` was given in a step: what its budgets gained other than by a call that
charges them. -/
def budgetGained (i : ℕ) (t : KernelStep) : ℕ :=
  match t.pre.activity t.event with
  | .call .dmaAlloc _ | .call .frameAlloc _ => 0
  | _ => t.post.sched.budgetOf i - t.pre.sched.budgetOf i

/-- The bytes that `DMA_ALLOC` calls have mapped into process `i`. -/
def dmaMapped (i : ℕ) (ts : List KernelStep) : ℕ := (ts.map (dmaBytes i)).sum

/-- The bytes that process `i` was given, at boot and since. -/
def budgetGiven (i : ℕ) (ts : List KernelStep) : ℕ :=
  (if i = 0 then dmaBudget else 0) + (ts.map (budgetGained i)).sum

lemma Scheduler.budgetOf_setCaps (s : Scheduler) (caps : CNode) (i : ℕ) :
    (s.setCaps caps).budgetOf i = if i = s.current then caps.budget else s.budgetOf i := by
  unfold budgetOf
  rw [setCaps, modifyCur, getElem?_modify]
  by_cases hi : i = s.current
  · subst hi
    rw [if_pos rfl, if_pos rfl, getElem?_current]
    rfl
  · rw [if_neg hi, if_neg (Ne.symm hi)]

lemma Scheduler.budgetOf_current (s : Scheduler) : s.budgetOf s.current = s.cur.caps.budget := by
  unfold budgetOf
  rw [getElem?_current]
  rfl

/-- The calls that charge a budget take what they hand out from the budgets of the caller. -/
lemma CoreStep.budgetOf (h : CoreStep plat a b act out)
    (hact : act = .call .dmaAlloc args ∨ act = .call .frameAlloc args) (i : ℕ) :
    b.sched.budgetOf i + (if i = a.sched.current then act.handsOut out else 0) ≤
      a.sched.budgetOf i := by
  have hset : ∀ {caps : CNode}, b.sched = a.sched.setCaps caps →
      caps.budget + act.handsOut out ≤ a.sched.cur.caps.budget →
      b.sched.budgetOf i + (if i = a.sched.current then act.handsOut out else 0) ≤
        a.sched.budgetOf i := by
    intro caps hs hle
    rw [hs, Scheduler.budgetOf_setCaps]
    by_cases hi : i = a.sched.current
    · rw [if_pos hi, if_pos hi, hi, Scheduler.budgetOf_current]
      exact hle
    · rw [if_neg hi, if_neg hi]
      exact le_rfl
  -- only the calls that set capabilities are left; the others are of another kind
  cases h with
  | quiet _ hout hs =>
    rw [hs, hout]
    split <;> exact le_rfl
  | charged _ hout hcharge hs =>
    have hbudget := CNode.budget_charge hcharge
    exact hset hs (by omega)
  | @refunded args' need caps _ hout hcharge hs =>
    have hbudget := CNode.budget_charge hcharge
    have hrefund := CNode.budget_refund_le caps need
    have hzero : act.handsOut out = 0 := by rcases hact with rfl | rfl <;> rw [hout] <;> rfl
    exact hset hs (by rw [hzero]; exact le_trans hrefund (le_of_eq hbudget))
  | @frameInstalled args' phys caps caps' later hact' hout hcharge hins hs =>
    have hbudget := CNode.budget_charge hcharge
    have hinsert := CNode.budget_insert hins
    have hframe : (CapEntry.frame phys args'.rdi.toNat).budget = 0 := rfl
    refine hset hs ?_
    rw [hact', hout]
    show caps'.budget + args'.rdi.toNat * frameSize ≤ _
    omega
  | logged _ hact' => rcases hact with rfl | rfl <;> cases hact'
  | setBreak hact' => rcases hact with rfl | rfl <;> cases hact'
  | spawned hact' => rcases hact with rfl | rfl <;> rcases hact' with hact' | hact' <;> cases hact'
  | sent hact' => rcases hact with rfl | rfl <;> cases hact'
  | signalled hact' => rcases hact with rfl | rfl <;> cases hact'
  | received hact' => rcases hact with rfl | rfl <;> cases hact'
  | taken hact' =>
    rcases hact with rfl | rfl <;> rcases hact' with ⟨args', hact', -⟩ | hact' <;> cases hact'
  | parked hk => rcases hact with rfl | rfl <;> cases hk
  | yielded hk => rcases hact with rfl | rfl <;> cases hk
  | blocked hk => rcases hact with rfl | rfl <;> cases hk
  | exited _ hact' =>
    rcases hact with rfl | rfl <;> rcases hact' with hact' | ⟨args', hact'⟩ <;> cases hact'
  | logTaken hact' => rcases hact with rfl | rfl <;> cases hact'
  | killed hact' => rcases hact with rfl | rfl <;> cases hact'
  | granted hact' => rcases hact with rfl | rfl <;> cases hact'

/-- A step with a `DMA_ALLOC` call in it is a call of `sys_dma_alloc`. -/
lemma dmaAlloc_step (hreach : Reachable (xernel plat) k) (hs : Xernel.step plat k e = some (k', out))
    (hact : k.activity e = .call .dmaAlloc args) :
    k'.core = (k.entered.sysDmaAlloc args.rdi.toNat args.rsi.toNat).1.core ∧
      out = (k.entered.sysDmaAlloc args.rdi.toNat args.rsi.toNat).2 := by
  obtain ⟨nr, hw, r, hd, rfl, -, hcore, hout⟩ := reachable_dispatch hreach hs hact
  rw [Kernel.dispatch, hd] at hcore hout
  exact ⟨hcore, hout⟩

/-- A `DMA_ALLOC` in a run returns, and fails without a trace exactly in the cases listed. -/
lemma dmaAlloc_clean_iff (hreach : Reachable (xernel plat) k)
    (hs : Xernel.step plat k e = some (k', out)) (hact : k.activity e = .call .dmaAlloc args) :
    (out = some 0 ∨ out = some u64Max) ∧
      (k.DmaFailsClean k' out ↔ k.DmaWhole args.rdi.toNat args.rsi.toNat) := by
  obtain ⟨hcore, hout⟩ := dmaAlloc_step hreach hs hact
  obtain ⟨ts, hrun⟩ := hreach
  have hwords : k.entered.sched.cur.caps.Words := (wordsInv_run hrun).procs.cur
  obtain ⟨hne, hiff⟩ := Kernel.sysDmaAlloc_clean_iff hwords args.rdi.toNat args.rsi.toNat
  have hsched : k'.sched = (k.entered.sysDmaAlloc args.rdi.toNat args.rsi.toNat).1.sched :=
    congrArg Core.sched hcore
  have hmm : k'.mm = (k.entered.sysDmaAlloc args.rdi.toNat args.rsi.toNat).1.mm :=
    congrArg Core.mm hcore
  have hclean : k.DmaFailsClean k' out ↔ k.entered.DmaFailsClean
      (k.entered.sysDmaAlloc args.rdi.toNat args.rsi.toNat).1
      (k.entered.sysDmaAlloc args.rdi.toNat args.rsi.toNat).2 := by
    unfold Kernel.DmaFailsClean
    rw [hsched, hmm, ← hout]
    exact Iff.rfl
  have hwhole : k.entered.DmaWhole args.rdi.toNat args.rsi.toNat ↔
      k.DmaWhole args.rdi.toNat args.rsi.toNat := by
    have hmaps : k.entered.DmaMaps (pagesFor args.rdi.toNat) args.rsi.toNat ↔
        k.DmaMaps (pagesFor args.rdi.toNat) args.rsi.toNat :=
      ⟨fun h => ⟨h.room, h.empty, h.tables, h.buffer⟩, fun h => ⟨h.room, h.empty, h.tables, h.buffer⟩⟩
    unfold Kernel.DmaWhole
    rw [hmaps]
    exact Iff.rfl
  rw [hclean, hiff, hwhole, hout]
  exact ⟨(Kernel.sysDmaAlloc_result ..).resolve_left hne, Iff.rfl⟩

/-- What one step adds to what is mapped and held is covered by what it gives. -/
lemma dmaBytes_le (i : ℕ) {t : KernelStep} (hreach : Reachable (xernel plat) t.pre)
    (hs : Xernel.step plat t.pre t.event = some (t.post, t.out))
    (hwhole : ∀ args, t.pre.activity t.event = .call .dmaAlloc args →
      t.pre.DmaWhole args.rdi.toNat args.rsi.toNat) :
    dmaBytes i t + t.post.sched.budgetOf i ≤ t.pre.sched.budgetOf i + budgetGained i t := by
  have hcore := reachable_core hreach hs
  cases hact : t.pre.activity t.event with
  | other =>
    unfold dmaBytes budgetGained
    rw [hact]
    dsimp only
    omega
  | resumed kont =>
    unfold dmaBytes budgetGained
    rw [hact]
    dsimp only
    omega
  | call sys args =>
    by_cases hdma : sys = .dmaAlloc
    · subst hdma
      have hbudget := hcore.budgetOf (.inl hact) i
      obtain ⟨hresult, hiff⟩ := dmaAlloc_clean_iff hreach hs hact
      have hclean := hiff.mpr (hwhole args hact)
      rw [hact] at hbudget
      unfold dmaBytes budgetGained
      rw [hact]
      dsimp only
      have hbudget : t.post.sched.budgetOf i +
          (if i = t.pre.sched.current then (Activity.call .dmaAlloc args).handsOut t.out else 0) ≤
          t.pre.sched.budgetOf i := hbudget
      by_cases hi : i = t.pre.sched.current
      · rw [if_pos hi] at hbudget ⊢
        rcases hresult with hout | hout
        · -- at most the pages that were paid for
          have hcard : ((t.pre.dmaRun (pagesFor args.rdi.toNat)).filter fun p =>
              t.post.mm.pt.leaf t.pre.cpu.cr3 p ≠ t.pre.mm.pt.leaf t.pre.cpu.cr3 p).card ≤
              pagesFor args.rdi.toNat := by
            refine (Finset.card_filter_le _ _).trans ?_
            unfold Kernel.dmaRun
            rw [Nat.card_Ico]
            omega
          have hbytes := Nat.mul_le_mul_right frameSize hcard
          rw [hout] at hbudget
          have hhands : (Activity.call .dmaAlloc args).handsOut (some 0) =
            pagesFor args.rdi.toNat * frameSize := rfl
          omega
        · obtain ⟨-, hleaf, -⟩ := hclean hout
          rw [hleaf, Finset.filter_false_of_mem fun p _ h => h rfl, Finset.card_empty]
          omega
      · rw [if_neg hi] at hbudget ⊢
        omega
    · by_cases hframe : sys = .frameAlloc
      · subst hframe
        have hbudget := hcore.budgetOf (.inr hact) i
        have hle : t.post.sched.budgetOf i ≤ t.pre.sched.budgetOf i := by
          refine le_trans (Nat.le_add_right _ _) hbudget
        unfold dmaBytes budgetGained
        rw [hact]
        dsimp only
        omega
      · unfold dmaBytes budgetGained
        rw [hact]
        cases sys <;> first | exact absurd rfl hdma | exact absurd rfl hframe | (dsimp only; omega)

lemma boot_budgetOf (h : boot plat = some k) (i : ℕ) :
    k.sched.budgetOf i = if i = 0 then dmaBudget else 0 := by
  obtain ⟨m, p, hnew, hprocs, -⟩ := boot_core h
  have hprocs : k.sched.procs = [p] := hprocs
  have hseed : (seedCaps 0).budget = dmaBudget := by decide
  unfold Scheduler.budgetOf
  rw [hprocs]
  cases i with
  | zero =>
    rw [if_pos rfl, ← hseed, ← hnew.spec.2.2.2.1]
    rfl
  | succ i => rfl

/-- In every run, a `DMA_ALLOC` fails without a trace if and only if the call is whole; and as long as
they all are, what `DMA_ALLOC` has mapped into a process and the budget it has left do not exceed what
it was given. -/
theorem dmaAlloc_accounted {ts : List KernelStep} (h : Run (xernel plat) ts k) :
    (∀ t ∈ ts, ∀ args, t.pre.activity t.event = .call .dmaAlloc args →
      (t.pre.DmaFailsClean t.post t.out ↔ t.pre.DmaWhole args.rdi.toNat args.rsi.toNat)) ∧
    ((∀ t ∈ ts, ∀ args, t.pre.activity t.event = .call .dmaAlloc args →
      t.pre.DmaWhole args.rdi.toNat args.rsi.toNat) →
      ∀ i, dmaMapped i ts + k.sched.budgetOf i ≤ budgetGiven i ts) := by
  refine ⟨fun t ht args hact => ?_, fun hwhole i => ?_⟩
  · obtain ⟨hreach, hs⟩ := h.mem_step ht
    exact (dmaAlloc_clean_iff hreach hs hact).2
  · induction h with
    | start hinit =>
      unfold dmaMapped budgetGiven
      rw [boot_budgetOf hinit]
      simp
    | @next ts s s' e o hrun hs ih =>
      have hbefore := ih fun t ht => hwhole t (List.mem_append_left _ ht)
      have hreach : Reachable (xernel plat) s := ⟨ts, hrun⟩
      have hstep : dmaBytes i ⟨s, e, o, s'⟩ + s'.sched.budgetOf i ≤
          s.sched.budgetOf i + budgetGained i ⟨s, e, o, s'⟩ :=
        dmaBytes_le i hreach hs (hwhole _ (List.mem_append_right _ List.mem_cons_self))
      unfold dmaMapped budgetGiven at hbefore ⊢
      rw [List.map_append, List.sum_append, List.map_append, List.sum_append, List.map_singleton,
        List.map_singleton, List.sum_singleton, List.sum_singleton]
      omega

/-- The first process allocates two pages for DMA. -/
theorem dmaAlloc_accounted_two :
    ∃ ts k, Run (xernel smallPlatform) ts k ∧ ts.map Transition.out = [none, some 0] ∧
      dmaMapped 0 ts = 8192 ∧ dmaMapped 0 ts + k.sched.budgetOf 0 ≤ budgetGiven 0 ts := by
  have hfacts : (trace smallPlatform [.resume, .call .dmaAlloc 8192 0x80_8000]).map (fun r =>
      (r.1.map Transition.out, dmaMapped 0 r.1, r.1.all fun t => decide (t.out ≠ some u64Max))) =
      some ([none, some 0], 8192, true) := by decide +kernel
  obtain ⟨r, hr, hfacts⟩ := Option.map_eq_some_iff.mp hfacts
  simp only [Prod.mk.injEq] at hfacts
  obtain ⟨houts, hmapped, hgood⟩ := hfacts
  obtain ⟨hclean, hbound⟩ := dmaAlloc_accounted (trace_run hr)
  refine ⟨r.1, r.2, trace_run hr, houts, hmapped, hbound (fun t ht args hact => ?_) 0⟩
  refine (hclean t ht args hact).mp fun hfailed => ?_
  exact absurd hfailed (of_decide_eq_true (List.all_eq_true.mp hgood t ht))

/-- With a bad pointer for the results the call fails, but the page stays mapped, its frame in use, and
the budget is as it was. -/
theorem not_dmaAlloc_accounted :
    ∃ ts k, Run (xernel smallPlatform) ts k ∧ ts.map Transition.out = [none, some u64Max] ∧
      (¬ ∀ t ∈ ts, ∀ args, t.pre.activity t.event = .call .dmaAlloc args →
        t.pre.DmaFailsClean t.post t.out) ∧
      ¬ ∀ i, dmaMapped i ts + k.sched.budgetOf i ≤ budgetGiven i ts := by
  have hfacts : (trace smallPlatform [.resume, .call .dmaAlloc 4096 0]).map (fun r =>
      (r.1.map Transition.out, (dmaMapped 0 r.1, r.2.sched.budgetOf 0, budgetGiven 0 r.1),
        (r.1[1]?).map fun t => (t.out, t.pre.mm.frames.inUse, t.post.mm.frames.inUse))) =
      some ([none, some u64Max], (4096, dmaBudget, dmaBudget),
        some (some u64Max, 26, 29)) := by decide +kernel
  obtain ⟨r, hr, hfacts⟩ := Option.map_eq_some_iff.mp hfacts
  obtain ⟨houts, hfacts⟩ := Prod.mk.inj hfacts
  obtain ⟨htotals, hfacts⟩ := Prod.mk.inj hfacts
  obtain ⟨t, ht, hfacts⟩ := Option.map_eq_some_iff.mp hfacts
  simp only [Prod.mk.injEq] at htotals hfacts
  obtain ⟨hmapped, hleft, hgiven⟩ := htotals
  obtain ⟨hout, hbefore, hafter⟩ := hfacts
  have hevent : t.event = .call .dmaAlloc 4096 0 := (Option.some.inj (trace_event hr ht)).symm
  refine ⟨r.1, r.2, trace_run hr, houts, fun hclean => ?_, fun hbound => ?_⟩
  · obtain ⟨-, -, huse⟩ := hclean t (List.mem_of_getElem? ht)
      { rdi := 4096, rsi := 0, rdx := 0, r10 := 0, r8 := 0, r9 := 0 } (by rw [hevent]; rfl) hout
    rw [hbefore, hafter] at huse
    cases huse
  · have hle := hbound 0
    rw [hmapped, hleft, hgiven] at hle
    omega

end Xernel
