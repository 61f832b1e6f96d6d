import Xernel.Arch.Leaves
import Xernel.Isolation

/-!
# Device memory

`sys_iomap` once more, with every addition, subtraction and multiplication checked against 64 bits:
none of them overflows. What it maps lies inside an `IoMem` capability of the caller, hence in the PCI
window that the first process is seeded with.
-/

namespace Xernel

variable {plat : Platform} {k k' : Kernel} {out : Option ℕ} {phys len : ℕ}

/-! ## Checked arithmetic -/

/-- `a + b` in the dev profile; `none` is the overflow panic. -/
def addU64 (a b : ℕ) : Option ℕ := if a + b ≤ u64Max then some (a + b) else none

/-- `a - b` in the dev profile. -/
def subU64 (a b : ℕ) : Option ℕ := if b ≤ a then some (a - b) else none

/-- `a * b` in the dev profile. -/
def mulU64 (a b : ℕ) : Option ℕ := if a * b ≤ u64Max then some (a * b) else none

lemma addU64_eq {a b : ℕ} (h : a + b ≤ u64Max) : addU64 a b = some (a + b) := if_pos h

lemma subU64_eq {a b : ℕ} (h : b ≤ a) : subU64 a b = some (a - b) := if_pos h

lemma mulU64_eq {a b : ℕ} (h : a * b ≤ u64Max) : mulU64 a b = some (a * b) := if_pos h

/-- The loop of `sys_iomap`: `n` more pages from page `i` on. -/
def iomapPagesChecked (cr3 vaBase physBase : ℕ) : ℕ → ℕ → Mm → Option (Attempt Unit × Mm)
  | 0, _, m => some (.done (), m)
  | n + 1, i, m => do
    let va ← addU64 vaBase (← mulU64 i frameSize)
    let phys ← addU64 physBase (← mulU64 i frameSize)
    match m.mapUserDevice cr3 va phys with
    | (.panic, m) => some (.panic, m)
    | (.failed _, m) => some (.failed, m)
    | (.done, m) => iomapPagesChecked cr3 vaBase physBase n (i + 1) m

/-- `sys_iomap` with checked arithmetic. -/
def Kernel.sysIomapChecked (k : Kernel) (phys len : ℕ) : Option (Kernel × Option ℕ) :=
  if len = 0 ∨ 16 <<< 20 < len then some (k, some u64Max)
  else do
    let physBase := pageDown phys
    let offset ← subU64 phys physBase
    let pages := pagesFor (← addU64 offset len)
    let bytes ← mulU64 pages frameSize
    if !k.sched.cur.caps.authorizesMmio physBase bytes then some (k, some u64Max)
    else
      let vaBase := k.win.nextMmioVa
      -- here the source itself uses `checked_add`
      if !(addU64 vaBase bytes).any (· ≤ mmioRegionEnd) then some (k, some u64Max)
      else
        match ← iomapPagesChecked k.cpu.cr3 vaBase physBase pages 0 k.mm with
        | (.panic, mm) => some ({ k with mm }.panic, none)
        | (.failed, mm) => some ({ k with mm }, some u64Max)
        | (.done (), mm) =>
          let next ← addU64 vaBase bytes
          let va ← addU64 vaBase offset
          some ({ k with mm, win := { k.win with nextMmioVa := next } }, some va)

/-- The checked loop is the loop, as long as both runs end below `2 ^ 64`. -/
lemma iomapPagesChecked_eq {cr3 vaBase physBase n i : ℕ}
    (hva : vaBase + (i + n) * frameSize ≤ u64Max) (hphys : physBase + (i + n) * frameSize ≤ u64Max)
    (m : Mm) :
    iomapPagesChecked cr3 vaBase physBase n i m =
      some (mapRun (fun m va phys => m.mapUserDevice cr3 va phys) n (vaBase + i * frameSize)
        (physBase + i * frameSize) m) := by
  induction n generalizing i m with
  | zero => rfl
  | succ n ih =>
    have hle : i * frameSize ≤ (i + (n + 1)) * frameSize := Nat.mul_le_mul_right _ (by omega)
    have hsucc : (i + 1) * frameSize = i * frameSize + frameSize := Nat.succ_mul _ _
    have hnext : i + 1 + n = i + (n + 1) := by omega
    have hmul : mulU64 i frameSize = some (i * frameSize) := mulU64_eq (by omega)
    have hva' : addU64 vaBase (i * frameSize) = some _ := addU64_eq (by omega)
    have hphys' : addU64 physBase (i * frameSize) = some _ := addU64_eq (by omega)
    simp only [iomapPagesChecked, hmul, hva', hphys', Option.bind_eq_bind, Option.bind_some, mapRun]
    generalize m.mapUserDevice cr3 (vaBase + i * frameSize) (physBase + i * frameSize) = r
    obtain ⟨o, m₁⟩ := r
    cases o with
    | panic => rfl
    | failed e => rfl
    | done =>
      dsimp only
      rw [ih (by rw [hnext]; exact hva) (by rw [hnext]; exact hphys), hsucc, Nat.add_assoc,
        Nat.add_assoc]

/-- The span of a request: its pages, from the page of `phys` on. -/
lemma pagesFor_span (phys len : ℕ) :
    pageDown phys + pagesFor (phys - pageDown phys + len) * frameSize = pageUp (phys + len) := by
  simp only [pageDown, pageUp, pagesFor, frameSize]
  omega

lemma CapEntry.authorizesMmio_iff {cap : CapEntry} :
    cap.authorizesMmio phys len = true ↔ cap.capType = .ioMem ∧ phys + len ≤ u64Max ∧
      cap.object + cap.badge ≤ u64Max ∧ cap.object ≤ phys ∧ phys + len ≤ cap.object + cap.badge := by
  unfold authorizesMmio
  by_cases htype : cap.capType = .ioMem
  · simp [htype, and_assoc]
  · simp [htype]

/-- No arithmetic in `sys_iomap` overflows. -/
lemma Kernel.sysIomapChecked_eq (k : Kernel) (phys len : ℕ) :
    k.sysIomapChecked phys len = some (k.sysIomap phys len) := by
  unfold sysIomapChecked sysIomap
  by_cases hlen : len = 0 ∨ 16 <<< 20 < len
  · rw [if_pos hlen, if_pos hlen]
  rw [if_neg hlen, if_neg hlen]
  have hlen' : len ≤ 2 ^ 24 := by simpa using (not_or.mp hlen).2
  have hoff : phys - pageDown phys < 2 ^ 12 := by
    simp only [pageDown, frameSize]
    omega
  have hmax : u64Max = 2 ^ 64 - 1 := rfl
  have hbytes : pagesFor (phys - pageDown phys + len) * frameSize ≤ 2 ^ 25 := by
    simp only [pagesFor, frameSize]
    omega
  have hsub : subU64 phys (pageDown phys) = some _ := subU64_eq (pageDown_le phys)
  have hadd : addU64 (phys - pageDown phys) len = some _ := addU64_eq (by omega)
  have hmul : mulU64 (pagesFor (phys - pageDown phys + len)) frameSize = some _ :=
    mulU64_eq (by omega)
  simp only [hsub, hadd, hmul, Option.bind_eq_bind, Option.bind_some]
  generalize hpages : pagesFor (phys - pageDown phys + len) = pages at hbytes ⊢
  by_cases hdeny : (!k.sched.cur.caps.authorizesMmio (pageDown phys) (pages * frameSize)) = true
  · rw [if_pos hdeny, if_pos hdeny]
  rw [if_neg hdeny, if_neg hdeny]
  have hauth : k.sched.cur.caps.authorizesMmio (pageDown phys) (pages * frameSize) = true := by
    simpa using hdeny
  -- the capability that covers the span ends below `2 ^ 64`
  obtain ⟨slot, cap, -, hcap⟩ := CNode.authorizesMmio_eq_true hauth
  obtain ⟨-, hspan, -⟩ := CapEntry.authorizesMmio_iff.mp hcap
  by_cases hroom : mmioRegionEnd < k.win.nextMmioVa + pages * frameSize
  · have hend : (!(addU64 k.win.nextMmioVa (pages * frameSize)).any (· ≤ mmioRegionEnd)) = true := by
      rw [addU64]
      split
      · simpa using hroom
      · rfl
    rw [if_pos hroom, if_pos hend]
  have hva : k.win.nextMmioVa + pages * frameSize ≤ u64Max := by
    simp only [mmioRegionEnd] at hroom
    omega
  have hend : ¬ (!(addU64 k.win.nextMmioVa (pages * frameSize)).any (· ≤ mmioRegionEnd)) = true := by
    rw [addU64_eq hva]
    simpa using hroom
  have hret : addU64 k.win.nextMmioVa (phys - pageDown phys) = some _ := addU64_eq (by
    simp only [mmioRegionEnd] at hroom
    omega)
  rw [if_neg hroom, if_neg hend, iomapPagesChecked_eq (by simpa using hva) (by simpa using hspan)]
  simp only [addU64_eq hva, hret, Option.bind_some, Nat.zero_mul, Nat.add_zero]
  generalize mapRun _ pages _ _ k.mm = r
  obtain ⟨o, m⟩ := r
  cases o with
  | panic => rfl
  | failed => rfl
  | done u => rfl

/-! ## What is mapped -/

/-- A capability of the running process that covers the frame at `f`. -/
def Scheduler.CoversFrame (s : Scheduler) (f : ℕ) : Prop :=
  ∃ slot cap, s.cur.caps.slot slot = some cap ∧ cap.capType = .ioMem ∧
    cap.object ≤ f ∧ f + frameSize ≤ cap.object + cap.badge

/-- Every entry that `sys_iomap` changes it fills with a frame inside an `IoMem` capability of the
caller. -/
lemma Kernel.sysIomap_new {l p : ℕ}
    (hnew : (k.sysIomap phys len).1.mm.pt.leaf l p ≠ k.mm.pt.leaf l p) :
    ∃ leaf, (k.sysIomap phys len).1.mm.pt.leaf l p = some leaf ∧
      k.sched.CoversFrame leaf.phys := by
  revert hnew
  rw [sysIomap]
  split
  · exact fun hnew => absurd rfl hnew
  dsimp only
  split
  · exact fun hnew => absurd rfl hnew
  next hauth =>
    split
    · exact fun hnew => absurd rfl hnew
    next hroom =>
      obtain ⟨slot, cap, hcap, hmmio⟩ := CNode.authorizesMmio_eq_true (by simpa using hauth)
      obtain ⟨htype, -, -, hlo, hhi⟩ := CapEntry.authorizesMmio_iff.mp hmmio
      have hlow : k.win.nextMmioVa / frameSize + pagesFor (phys - pageDown phys + len) ≤
          lowerHalfPages := by
        simp only [mmioRegionEnd, frameSize, lowerHalfPages] at hroom ⊢
        omega
      generalize pagesFor (phys - pageDown phys + len) = pages at hlow hhi ⊢
      have hcovers : (mapRun (fun m va phys => m.mapUserDevice k.cpu.cr3 va phys) pages
          k.win.nextMmioVa (pageDown phys) k.mm).2.pt.leaf l p ≠ k.mm.pt.leaf l p →
          ∃ leaf, (mapRun (fun m va phys => m.mapUserDevice k.cpu.cr3 va phys) pages
            k.win.nextMmioVa (pageDown phys) k.mm).2.pt.leaf l p = some leaf ∧
            k.sched.CoversFrame leaf.phys := by
        intro hnew
        -- a changed entry is one of the run, and the capability covers the run
        obtain ⟨i, hi, -, leaf, rfl, heq⟩ := mapRun_new
          (fun m va phys => Mm.mapUserDevice_atMost m k.cpu.cr3 va phys) hlow hnew
        refine ⟨_, heq, slot, cap, hcap, htype, ?_⟩
        have hdvd : frameSize ∣ pageDown phys + i * frameSize :=
          Nat.dvd_add (frameSize_dvd_pageDown phys) (Nat.dvd_mul_left _ _)
        have hmul : (i + 1) * frameSize ≤ pages * frameSize := Nat.mul_le_mul_right _ hi
        rw [Nat.succ_mul] at hmul
        rw [pageDown_of_dvd hdvd]
        dsimp only
        omega
      split <;> (next heq => rw [heq] at hcovers; exact hcovers)

/-- The step of an `IOMAP` does to the leaf entries what `sys_iomap` does. -/
lemma iomap_step {e : Event} {args : Args} (hreach : Reachable (xernel plat) k)
    (hs : Xernel.step plat k e = some (k', out)) (hact : k.activity e = .call .iomap args) :
    ∃ k₁ : Kernel, k₁.core = k.core ∧ k₁.win = k.win ∧ k₁.cpu.cr3 = k.cpu.cr3 ∧
      k'.core = (k₁.sysIomap args.rdi.toNat args.rsi.toNat).1.core ∧
      k'.win = (k₁.sysIomap args.rdi.toNat args.rsi.toNat).1.win ∧
      out = (k₁.sysIomap args.rdi.toNat args.rsi.toNat).2 := by
  obtain ⟨-, nr, hw, rfl, hd, heq⟩ := reachable_call hreach hs hact
  refine ⟨{ k with cpu := k.cpu.swapgs, exec := .kernel }, rfl, rfl, rfl, ?_⟩
  rw [Kernel.dispatch, hd] at heq
  dsimp only at heq
  generalize Kernel.sysIomap _ _ _ = r at heq ⊢
  obtain ⟨k₂, v⟩ := r
  cases v <;> (obtain ⟨rfl, rfl⟩ := Prod.mk.inj heq; exact ⟨rfl, rfl, rfl⟩)

/-- No arithmetic in `sys_iomap` overflows; every page it maps lies inside an `IoMem` capability that
the caller holds, hence in the PCI window; and a request whose page-rounded span lies inside such a
capability passes the authority check. -/
theorem device_confinement {ts : List KernelStep} (h : Run (xernel plat) ts k) :
    (∀ phys len : UInt64, k.sysIomapChecked phys.toNat len.toNat =
      some (k.sysIomap phys.toNat len.toNat)) ∧
    (∀ t ∈ ts, ∀ args, t.pre.activity t.event = .call .iomap args →
      ∀ l p, t.post.mm.pt.leaf l p ≠ t.pre.mm.pt.leaf l p →
        ∃ leaf, t.post.mm.pt.leaf l p = some leaf ∧ t.pre.sched.CoversFrame leaf.phys ∧
          0xc000_0000 ≤ leaf.phys ∧ leaf.phys + frameSize ≤ 0x1_0000_0000) ∧
    (∀ (phys len : UInt64) (slot : ℕ) (cap : CapEntry), 0 < len.toNat → len.toNat ≤ 16 <<< 20 →
      k.sched.cur.caps.slot slot = some cap → cap.capType = .ioMem →
      cap.object ≤ pageDown phys.toNat →
      pageUp (phys.toNat + len.toNat) ≤ cap.object + cap.badge →
      k.sched.cur.caps.authorizesMmio (pageDown phys.toNat)
        (pagesFor (phys.toNat - pageDown phys.toNat + len.toNat) * frameSize) = true) := by
  refine ⟨fun phys len => k.sysIomapChecked_eq _ _, fun t ht args hact l p hnew => ?_,
    fun phys len slot cap hpos hle hcap htype hlo hhi => ?_⟩
  · obtain ⟨hreach, hs⟩ := h.mem_step ht
    obtain ⟨k₁, hcore, -, -, hcore', -, -⟩ := iomap_step hreach hs hact
    obtain ⟨ts', hrun⟩ := hreach
    have hmm : k₁.mm = t.pre.mm := congrArg Core.mm hcore
    have hsched : k₁.sched = t.pre.sched := congrArg Core.sched hcore
    have hmm' : t.post.mm = _ := congrArg Core.mm hcore'
    rw [hmm', ← hmm] at hnew
    obtain ⟨leaf, heq, hcov⟩ := Kernel.sysIomap_new hnew
    rw [hsched] at hcov
    refine ⟨leaf, hmm' ▸ heq, hcov, ?_⟩
    obtain ⟨slot, cap, hcap, htype, hlo, hhi⟩ := hcov
    obtain rfl := (memoryCaps_run hrun).ioMem cap (.inl ⟨_, _, Core.hasSlot_cur hcap⟩) htype
    exact ⟨hlo, hhi⟩
  · obtain rfl := (memoryCaps_run h).ioMem cap (.inl ⟨_, _, Core.hasSlot_cur hcap⟩) htype
    have hspan := pagesFor_span phys.toNat len.toNat
    have hauth : (CapEntry.ioMem pciMmioBase pciMmioLen).authorizesMmio (pageDown phys.toNat)
        (pagesFor (phys.toNat - pageDown phys.toNat + len.toNat) * frameSize) = true := by
      have hend : (CapEntry.ioMem pciMmioBase pciMmioLen).object +
          (CapEntry.ioMem pciMmioBase pciMmioLen).badge ≤ u64Max := by decide
      exact CapEntry.authorizesMmio_iff.mpr ⟨rfl, by omega, hend, hlo, by omega⟩
    exact CNode.authorizesMmio_of_slot hcap hauth

/-- The first process maps a page and a half of device memory: two pages, of its `IoMem` capability. -/
theorem device_confinement_iomap :
    ∃ ts k, Run (xernel smallPlatform) ts k ∧
      (∃ t ∈ ts, t.out = some 0x5000_0010 ∧
        (t.post.mm.pt.leaf t.post.cpu.cr3 0x50001).map Leaf.phys = some 0xc000_1000) ∧
      k.sysIomapChecked 0xffff_ffff_ffff_ffff 0xffff = some (k.sysIomap 0xffff_ffff_ffff_ffff 0xffff) ∧
      k.sched.cur.caps.authorizesMmio (pageDown 0xc000_0010)
        (pagesFor (0xc000_0010 - pageDown 0xc000_0010 + 0x1800) * frameSize) = true := by
  let es : List Event := [.resume, .call .iomap 0xc000_0010 0x1800]
  have hrun : (trace smallPlatform es).isSome = true := by decide +kernel
  have hfacts : (trace smallPlatform es).map (fun r => ((r.1[1]?).map fun t =>
      (t.out, (t.post.mm.pt.leaf t.post.cpu.cr3 0x50001).map Leaf.phys),
      r.2.sched.cur.caps.slot 1)) =
      some (some (some 0x5000_0010, some 0xc000_1000),
        some (.ioMem pciMmioBase pciMmioLen)) := by decide +kernel
  obtain ⟨r, hr⟩ := Option.isSome_iff_exists.mp hrun
  rw [hr, Option.map_some, Option.some.injEq, Prod.mk.injEq] at hfacts
  obtain ⟨t, ht, hout⟩ := Option.map_eq_some_iff.mp hfacts.1
  obtain ⟨hout, hleaf⟩ := Prod.mk.inj hout
  obtain ⟨hchecked, -, hauth⟩ := device_confinement (trace_run hr)
  refine ⟨r.1, r.2, trace_run hr, ⟨t, List.mem_of_getElem? ht, hout, hleaf⟩,
    hchecked 0xffff_ffff_ffff_ffff 0xffff, ?_⟩
  exact hauth 0xc000_0010 0x1800 1 _ (by decide) (by decide) hfacts.2 rfl (by decide) (by decide)

end Xernel
