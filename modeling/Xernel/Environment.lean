import Xernel.FreeFrames
import Xernel.Spawn
import Xernel.Table

/-!
# The environment of a child

`spawn_env` copies the block of the parent page by page: the child's page is mapped to a fresh zeroed
frame, found again through the child's tables and written through the direct map, while the bytes are
read in the parent's address space. The source may start anywhere in a page, the destination starts at
`HEAP_START`.
-/

namespace Xernel

open Mm (Builds)

variable {plat : Platform} {k k' : Kernel} {m₀ m m' : Mm} {regions : List Region}
  {cr3 space envpPtr envpLen capSlot pid : ℕ}

namespace Kernel

/-! ## The copy loop -/

/-- The bytes of the destination are those of the source and all others stay, if the source does not
lie in the destination. -/
lemma copyBytes_mem : ∀ (n src dst : ℕ) (m : Mm),
    (∀ j < n, ∀ o < n, m.physOf cr3 (src + j) ≠ some (dst + o)) → ∀ a,
      (copyBytes cr3 n src dst m).mem a =
        if dst ≤ a ∧ a < dst + n then m.readByte cr3 (src + (a - dst)) else m.mem a := by
  intro n
  induction n with
  | zero =>
    intro src dst m _ a
    rw [if_neg (by omega)]
    rfl
  | succ n ih =>
    intro src dst m hapart a
    -- what is read next is not the byte written now
    have hread : ∀ j < n, (m.setByte dst (m.readByte cr3 src)).readByte cr3 (src + 1 + j) =
        m.readByte cr3 (src + (j + 1)) := by
      intro j hj
      have hne := hapart (j + 1) (by omega) 0 (by omega)
      rw [show src + 1 + j = src + (j + 1) by omega]
      show (m.physOf cr3 (src + (j + 1))).elim 0 (Function.update m.mem dst _) = _
      unfold Mm.readByte
      cases hat : m.physOf cr3 (src + (j + 1)) with
      | none => rfl
      | some phys =>
        rw [hat, Nat.add_zero] at hne
        exact Function.update_of_ne (fun heq => hne (congrArg some heq)) _ _
    have hrest : ∀ j < n, ∀ o < n, (m.setByte dst (m.readByte cr3 src)).physOf cr3 (src + 1 + j) ≠
        some (dst + 1 + o) := by
      intro j hj o ho
      have hne := hapart (j + 1) (by omega) (o + 1) (by omega)
      rw [show src + 1 + j = src + (j + 1) by omega, show dst + 1 + o = dst + (o + 1) by omega]
      exact hne
    rw [copyBytes, ih _ _ _ hrest]
    rcases Nat.lt_trichotomy a dst with hlt | rfl | hgt
    · rw [if_neg (by omega), if_neg (by omega)]
      exact Function.update_of_ne (Nat.ne_of_lt hlt) _ _
    · rw [if_neg (by omega), if_pos (by omega), Nat.sub_self, Nat.add_zero]
      exact Function.update_self ..
    · by_cases hin : a < dst + (n + 1)
      · rw [if_pos (by omega), if_pos (by omega), hread _ (by omega)]
        congr 2
        omega
      · rw [if_neg (by omega), if_neg (by omega)]
        exact Function.update_of_ne (Nat.ne_of_gt hgt) _ _

/-- The byte with number `i` of an environment as the child is to find it: a byte of the parent's block,
zero behind it. -/
def envByte (m : Mm) (cr3 envpPtr envpLen i : ℕ) : UInt8 :=
  if i < envpLen then m.readByte cr3 (envpPtr + i) else 0

/-- Page `j` of the environment is mapped to a frame that was free in `m₀` and holds its bytes. -/
def EnvPage (m₀ m : Mm) (cr3 space envpPtr envpLen j : ℕ) : Prop :=
  ∃ f, m₀.frames.Free f ∧ f ∈ handedOut m.calls ∧
    m.pt.leaf space (heapStart / frameSize + j) = some ⟨f, Mm.userFlags true false⟩ ∧
    ∀ o < frameSize, m.mem (f + o) = envByte m₀ cr3 envpPtr envpLen (j * frameSize + o)

section Copy

variable (hfree : m₀.FreeUnmapped) (hread : ∀ i < envpLen, m₀.Accessible cr3 (envpPtr + i))

include hfree hread

/-- Copying a page to a fresh zeroed frame. -/
lemma copyBytes_page {f i : ℕ} (huses : m₀.UsesFree regions m)
    (hpt : m.pt.user cr3 = m₀.pt.user cr3) (hf : m₀.frames.Free f)
    (hzero : ∀ o < frameSize, m.mem (f + o) = 0) :
    (∀ o < frameSize, (copyBytes cr3 (min (envpLen - i * frameSize) frameSize)
      (envpPtr + i * frameSize) f m).mem (f + o) =
        envByte m₀ cr3 envpPtr envpLen (i * frameSize + o)) ∧
    ∀ a, pageDown a ≠ f → (copyBytes cr3 (min (envpLen - i * frameSize) frameSize)
      (envpPtr + i * frameSize) f m).mem a = m.mem a := by
  -- the block of the parent is as it was, and it is not in a frame that was free
  have hsource : ∀ j < min (envpLen - i * frameSize) frameSize,
      m.physOf cr3 (envpPtr + i * frameSize + j) = m₀.physOf cr3 (envpPtr + i * frameSize + j) ∧
      m.readByte cr3 (envpPtr + i * frameSize + j) =
        m₀.readByte cr3 (envpPtr + i * frameSize + j) := by
    intro j hj
    rw [Nat.add_assoc]
    exact huses.readByte hfree hpt (hread _ (by omega))
  have hapart : ∀ j < min (envpLen - i * frameSize) frameSize,
      ∀ o < min (envpLen - i * frameSize) frameSize,
        m.physOf cr3 (envpPtr + i * frameSize + j) ≠ some (f + o) := by
    intro j hj o ho hat
    rw [(hsource j hj).1, Nat.add_assoc] at hat
    refine hfree _ _ _ (hread _ (by omega)) hat ?_
    rw [Mm.pageDown_frame hf (Nat.le_add_right _ _) (by omega)]
    exact hf
  have hmem := copyBytes_mem _ _ _ m hapart
  refine ⟨fun o ho => ?_, fun a ha => ?_⟩
  · rw [hmem]
    unfold envByte
    by_cases hin : i * frameSize + o < envpLen
    · rw [if_pos ⟨by omega, by omega⟩, if_pos hin, Nat.add_sub_cancel_left,
        (hsource o (by omega)).2, Nat.add_assoc]
    · rw [if_neg (by omega), if_neg hin]
      exact hzero o ho
  · rw [hmem, if_neg]
    rintro ⟨hlo, hhi⟩
    exact ha (Mm.pageDown_frame hf hlo (by omega))

/-- The page loop maps each of its pages to a frame of its own with the bytes of the environment. -/
lemma copyEnv_pages (hdisj : (regions.map Region.rounded).Pairwise Region.Disjoint)
    (hne : cr3 ≠ space) : ∀ (n i : ℕ) (m : Mm), m₀.UsesFree regions m →
    m.pt.user cr3 = m₀.pt.user cr3 → heapStart + (i + n) * frameSize ≤ 2 ^ 47 →
    copyEnv cr3 space envpPtr envpLen n i m = (.done (), m') →
    m.UsesFree regions m' ∧
      ∀ j, i ≤ j → j < i + n → EnvPage m₀ m' cr3 space envpPtr envpLen j := by
  intro n
  induction n with
  | zero =>
    intro i m huses _ _ h
    obtain ⟨-, rfl⟩ := Prod.mk.inj h
    exact ⟨.refl huses.run, fun j hlo hhi => by omega⟩
  | succ n ih =>
    intro i m huses hpt hfit h
    have hpage : (heapStart + i * frameSize) / frameSize = heapStart / frameSize + i :=
      Nat.add_mul_div_right _ _ frameSize_pos
    have hnext : heapStart + (i + 1 + n) * frameSize ≤ 2 ^ 47 := by
      rw [show i + 1 + n = i + (n + 1) by omega]
      exact hfit
    have hlower : heapStart / frameSize + i < lowerHalfPages := by
      simp only [heapStart, frameSize, lowerHalfPages] at hfit ⊢
      omega
    unfold copyEnv at h
    dsimp only at h
    split at h
    · cases h
    · cases h
    next m₁ hmap =>
      have huses₁ := Mm.allocMapUser_uses hdisj huses.run space (heapStart + i * frameSize) true false
      have hpt₁ : m₁.pt.user cr3 = m.pt.user cr3 := by
        have hb : Builds (.ofSpace space ∅) m ∅
            (m.allocMapUser space (heapStart + i * frameSize) true false).2 ∅ :=
          Mm.allocMapUser_builds (by simp only [heapStart, frameSize] at hfit ⊢; omega) rfl rfl
        rw [hmap] at hb
        have hsame := hb.same (x := some cr3) fun hmem => hne (Option.some.inj hmem)
        exact hsame
      rw [hmap] at huses₁
      obtain ⟨f, hf, hlive, hleaf, hzero⟩ := Mm.allocMapUser_page hdisj huses.run hmap
      have hf₀ := huses.free f hf
      rw [hpage] at hleaf
      have hphys : m₁.physOf space (heapStart + i * frameSize) = some f := by
        have hoff : (heapStart + i * frameSize) % frameSize = 0 := by
          simp only [heapStart, frameSize]
          omega
        rw [Mm.physOf, hpage, hleaf, setLeafAt, if_pos ⟨rfl, rfl⟩, hoff]
        rfl
      rw [hphys] at h
      dsimp only at h
      obtain ⟨hcopied, hothers⟩ := copyBytes_page (i := i) hfree hread (huses.trans huses₁)
        (hpt₁.trans hpt) hf₀ hzero
      obtain ⟨mem, hmem⟩ := copyBytes_eq cr3 (min (envpLen - i * frameSize) frameSize)
        (envpPtr + i * frameSize) f m₁
      rw [hmem] at h hcopied hothers
      -- this page is done: only its frame was written, which was free before
      have huses₂ : m.UsesFree regions { m₁ with mem } := by
        refine huses₁.write fun a hchanged => ?_
        by_cases ha : pageDown a = f
        · rw [ha]
          exact hf
        · exact absurd (hothers a ha) hchanged
      obtain ⟨hrest, hpages⟩ := ih (i + 1) { m₁ with mem } (huses.trans huses₂) (hpt₁.trans hpt)
        hnext h
      refine ⟨huses₂.trans hrest, fun j hlo hhi => ?_⟩
      rcases Nat.lt_or_ge i j with hlt | hge
      · exact hpages j hlt (by omega)
      · -- the rest of the loop leaves this page and its frame alone
        obtain rfl : j = i := by omega
        have hattempts := copyEnv_attempts cr3 space envpPtr envpLen n (j + 1) { m₁ with mem } hnext
        rw [h] at hattempts
        have hleaf' := (hattempts.fills rfl).others _ hlower (by simp)
        refine ⟨f, hf₀, hrest.live f hlive, ?_, fun o ho => ?_⟩
        · rw [hleaf']
          show m₁.pt.leaf space (heapStart / frameSize + j) = _
          rw [hleaf, setLeafAt, if_pos ⟨rfl, rfl⟩]
        · have hdown := Mm.pageDown_frame hf (Nat.le_add_right f o) (by omega)
          rw [hrest.kept hdisj huses₂.run (by rw [hdown]; exact hlive)]
          exact hcopied o ho

end Copy

/-- Where an address of such a page leads to. -/
lemma EnvPage.physOf {j o : ℕ} (h : EnvPage m₀ m cr3 space envpPtr envpLen j) (ho : o < frameSize) :
    ∃ phys, m.physOf space (heapStart + (j * frameSize + o)) = some phys ∧
      m₀.frames.Free (pageDown phys) ∧
      m.mem phys = envByte m₀ cr3 envpPtr envpLen (j * frameSize + o) := by
  obtain ⟨f, hf, -, hleaf, hbytes⟩ := h
  have hpage : (heapStart + (j * frameSize + o)) / frameSize = heapStart / frameSize + j := by
    simp only [heapStart, frameSize] at ho ⊢
    omega
  have hoff : (heapStart + (j * frameSize + o)) % frameSize = o := by
    simp only [heapStart, frameSize] at ho ⊢
    omega
  refine ⟨f + o, ?_, ?_, hbytes o ho⟩
  · rw [Mm.physOf, hpage, hleaf, hoff]
    rfl
  · rw [Mm.pageDown_frame hf (Nat.le_add_right f o) (by omega)]
    exact hf

/-! ## The call -/

/-- From `m` to `m'`, the `len` bytes at `ptr` in the space `cr3` of the parent became the environment of
`child`: they are at `HEAP_START` in the space of the child now, in frames that the parent has not mapped,
and the parent's own memory is what it was. -/
structure HandsOver (m m' : Mm) (cr3 : ℕ) (child : Process) (ptr len : ℕ) : Prop where
  readable : m.userRangeOk cr3 ptr len false = true
  mapped : m'.WritablePages child.space (heapStart / frameSize)
    (heapStart / frameSize + pagesFor len)
  copied : ∀ i < len, m'.readByte child.space (heapStart + i) = m.readByte cr3 (ptr + i)
  zero : ∀ i, len ≤ i → i < pagesFor len * frameSize → m'.readByte child.space (heapStart + i) = 0
  envp : child.envpUser = heapStart ∧ child.envpLen = len
  heapBreak : IsLeast {b | frameSize ∣ b ∧ heapStart + len ≤ b} child.heapBreak
  apart : ∀ i < pagesFor len * frameSize, ∀ va phys phys', m.Accessible cr3 va →
    m'.physOf child.space (heapStart + i) = some phys → m'.physOf cr3 va = some phys' →
    pageDown phys ≠ pageDown phys'
  tables : m'.pt.user cr3 = m.pt.user cr3
  memory : ∀ va, m.Accessible cr3 va → m'.readByte cr3 va = m.readByte cr3 va

/-- The pages of an environment end at the first page boundary behind it. -/
lemma isLeast_heapBreak (len : ℕ) :
    IsLeast {b | frameSize ∣ b ∧ heapStart + len ≤ b} (heapStart + pagesFor len * frameSize) := by
  refine ⟨⟨?_, ?_⟩, ?_⟩
  · exact Nat.dvd_add (by decide) (Nat.dvd_mul_left _ _)
  · simp only [pagesFor, frameSize]
    omega
  · rintro b ⟨⟨c, rfl⟩, hle⟩
    simp only [heapStart, pagesFor, frameSize] at hle ⊢
    omega

/-- With all its pages in place, an environment is handed over. -/
lemma handsOver_of_pages {child : Process} {len : ℕ}
    (hread : m.userRangeOk cr3 envpPtr len false = true) (hfree : m.FreeUnmapped)
    (huses : m.UsesFree regions m') (hpt : m'.pt.user cr3 = m.pt.user cr3)
    (hpages : ∀ j < pagesFor len, EnvPage m m' cr3 child.space envpPtr len j)
    (henvp : child.envpUser = heapStart ∧ child.envpLen = len)
    (hbreak : child.heapBreak = heapStart + pagesFor len * frameSize) :
    HandsOver m m' cr3 child envpPtr len := by
  -- an address of the block, by its page and its offset
  have haddr : ∀ i < pagesFor len * frameSize, ∃ phys,
      m'.physOf child.space (heapStart + i) = some phys ∧ m.frames.Free (pageDown phys) ∧
      m'.readByte child.space (heapStart + i) = envByte m cr3 envpPtr len i := by
    intro i hi
    have hj : i / frameSize < pagesFor len := (Nat.div_lt_iff_lt_mul frameSize_pos).mpr hi
    obtain ⟨phys, hphys, hframe, hmem⟩ := (hpages _ hj).physOf (Nat.mod_lt i frameSize_pos)
    rw [Nat.div_add_mod'] at hphys hmem
    refine ⟨phys, hphys, hframe, ?_⟩
    rw [Mm.readByte, hphys, ← hmem]
    rfl
  have hlen : len ≤ pagesFor len * frameSize := by
    simp only [pagesFor, frameSize]
    omega
  refine ⟨hread, fun page hlo hhi => ?_, fun i hi => ?_, fun i hlo hhi => ?_, henvp, ?_,
    fun i hi va phys phys' hva hphys hphys' heq => ?_, hpt,
    fun va hva => (huses.readByte hfree hpt hva).2⟩
  · obtain ⟨f, -, -, hleaf, -⟩ := hpages (page - heapStart / frameSize) (by omega)
    rw [show heapStart / frameSize + (page - heapStart / frameSize) = page by omega] at hleaf
    exact ⟨_, ⟨rfl, rfl⟩, hleaf⟩
  · obtain ⟨phys, -, -, hbyte⟩ := haddr i (by omega)
    rw [hbyte, envByte, if_pos hi]
  · obtain ⟨phys, -, -, hbyte⟩ := haddr i hhi
    rw [hbyte, envByte, if_neg (by omega)]
  · rw [hbreak]
    exact isLeast_heapBreak len
  · -- the frame was free, so the parent cannot have mapped it
    obtain ⟨phys₁, hphys₁, hframe, -⟩ := haddr i hi
    obtain rfl : phys₁ = phys := Option.some.inj (hphys₁.symm.trans hphys)
    rw [(huses.readByte hfree hpt hva).1] at hphys'
    rw [heq] at hframe
    exact hfree _ va phys' hva hphys' hframe

/-- What a new process is made of: a space that was not in use, and frames that were free. -/
lemma create_apart {p : Process} (hdisj : plat.RegionsDisjoint)
    (hr : AllocatorRun plat.regions m.frames m.calls) (hup : Elf.UpperFilled plat.image m)
    (hlive : cr3 ∈ handedOut m.calls) (h : create plat m pid = (.done p, m')) :
    cr3 ≠ p.space ∧ m'.pt.user cr3 = m.pt.user cr3 := by
  rcases create_builds plat m pid with ⟨m₁, -, heq⟩ | ⟨space, m₁, ha, hspace, -, hb⟩
  · rw [heq] at h
    cases h
  · have hne : cr3 ≠ space := by
      rintro rfl
      exact (fresh_of_frameAlloc hdisj hr ha).1 hlive
    have hb := hb (.ofSpace space ∅) ⟨rfl, rfl, .inr hup⟩
    rw [h] at hb
    have hsame := hb.same (x := some cr3) fun hmem => hne (Option.some.inj hmem)
    rw [hspace p m' h]
    exact ⟨hne, hsame⟩

/-- If no free frame is mapped, a call that succeeds hands the environment over to the new process. -/
lemma spawnEnv_handsOver (hdisj : plat.RegionsDisjoint)
    (hr : AllocatorRun plat.regions k.mm.frames k.mm.calls) (hup : Elf.UpperFilled plat.image k.mm)
    (hlive : k.cpu.cr3 ∈ handedOut k.mm.calls) (hfree : k.mm.FreeUnmapped)
    (hargs : ¬ (envpLen = 0 ∨ envpPtr = 0))
    (h : k.spawnEnv plat envpPtr envpLen capSlot = (.done pid, k')) :
    pid = k.sched.nextPid ∧ ∃ child, k'.sched.procs[k.sched.procs.length]? = some child ∧
      HandsOver k.mm k'.mm k.cpu.cr3 child envpPtr envpLen := by
  unfold spawnEnv at h
  rw [if_neg hargs] at h
  split at h
  · cases h
  · cases h
  next p m₁ hcreate =>
    obtain ⟨hne, hpt₁⟩ := create_apart hdisj hr hup hlive hcreate
    have huses := create_uses hdisj hr hcreate
    have hleaf := create_leaf k.sched.nextPid hdisj hr hup hlive
    rw [hcreate] at hleaf
    split at h
    · cases h
    split at h
    · cases h
    next hrange =>
      -- the range was checked after the child was made, which changed nothing for the parent
      obtain ⟨haddr, hok⟩ := not_or.mp hrange
      have hok : k.mm.userRangeOk k.cpu.cr3 envpPtr envpLen false = true := by
        rw [← Mm.userRangeOk_congr hleaf]
        simpa using hok
      have hread : ∀ i < envpLen, k.mm.Accessible k.cpu.cr3 (envpPtr + i) := by
        intro i hi
        refine ⟨?_, ((Mm.userRangeOk_iff (by omega)).mp hok).2 i hi⟩
        simp only [userAddrMax] at haddr
        omega
      dsimp only at h
      split at h
      · cases h
      · cases h
      next m₂ hcopy =>
        have hfits := copyEnv_fits _ 0 m₁ (by decide) hcopy
        obtain ⟨huses₂, hpages⟩ := copyEnv_pages hfree hread hdisj hne _ 0 m₁ huses hpt₁ hfits hcopy
        have hpt₂ : m₂.pt.user k.cpu.cr3 = m₁.pt.user k.cpu.cr3 := by
          have htree : some p.space ∈ (Scope.ofSpace p.space ∅).trees := rfl
          have huser : some p.space ∈ (Scope.ofSpace p.space ∅).userTrees := rfl
          have hb := copyEnv_builds k.cpu.cr3 envpPtr envpLen htree huser (pagesFor envpLen) 0 m₁
            (by decide)
          rw [hcopy] at hb
          have hsame := hb.same (x := some k.cpu.cr3) fun hmem => hne (Option.some.inj hmem)
          exact hsame
        obtain ⟨hmm, -, hchild⟩ := addProcess_last h
        have hpid : pid = k.sched.nextPid := by
          rcases addProcess_outcome { k with mm := m₂ } { p with
              envpUser := heapStart
              envpLen
              heapBreak := heapStart + pagesFor envpLen * frameSize } capSlot with
            ⟨hdone, -⟩ | ⟨hfailed, -⟩
          · rw [h] at hdone
            exact Attempt.done.inj hdone
          · rw [h] at hfailed
            cases hfailed
        have hmm : k'.mm = m₂ := hmm
        have huses' : k.mm.UsesFree plat.regions k'.mm := by
          rw [hmm]
          exact huses.trans huses₂
        refine ⟨hpid, _, hchild, handsOver_of_pages hok hfree huses' ?_ ?_ ⟨rfl, rfl⟩ rfl⟩
        · rw [hmm, hpt₂, hpt₁]
        · intro j hj
          rw [hmm]
          exact hpages j (Nat.zero_le j) (by omega)

/-- `GETENVP` in a process reports what the record of the process says. -/
lemma getenvp_reports {e : Event} {out : Option ℕ} {args : Args} (hreach : Reachable (xernel plat) k)
    (hs : Xernel.step plat k e = some (k', out)) (hact : k.activity e = .call .getenvp args)
    (hal : k.mm.pt.Aligned) (hok : k.userSliceMut args.rdi.toNat 16 = true) :
    out = some 0 ∧ k'.mm.readUser k.cpu.cr3 args.rdi.toNat 16 =
      leBytes 8 k.sched.cur.envpUser ++ leBytes 8 k.sched.cur.envpLen := by
  obtain ⟨nr, hw, r, hd, rfl, -, hcore, hout⟩ := reachable_dispatch hreach hs hact
  have hok' : k.entered.userSliceMut args.rdi.toNat 16 = true := hok
  rw [dispatch, hd] at hcore hout
  dsimp only at hcore hout
  rw [show ({ k with cpu := k.cpu.swapgs, exec := .kernel } : Kernel) = k.entered from rfl, sysGetenvp,
    if_pos hok'] at hcore hout
  refine ⟨hout, ?_⟩
  have hmm : k'.mm = _ := congrArg Core.mm hcore
  have hbytes : (leBytes 8 k.sched.cur.envpUser ++ leBytes 8 k.sched.cur.envpLen).length = 16 := by
    rw [List.length_append, length_leBytes, length_leBytes]
  have hread := @copyOut_readUser k.entered args.rdi.toNat
    (leBytes 8 k.sched.cur.envpUser ++ leBytes 8 k.sched.cur.envpLen) hal
    (by rw [hbytes]; decide) (by rw [hbytes]; exact hok')
  rw [hbytes] at hread
  rw [hmm]
  exact hread

end Kernel

/-- In every run, a `SPAWN_ENV` that returns a PID while no free frame is mapped hands the environment of
the caller over to the process with that PID, which finds it with `GETENVP` from then on. -/
theorem spawnEnv_transfers {ts ts' : List KernelStep} {t : KernelStep} (args : Args)
    (hdisj : plat.RegionsDisjoint) (h : Run (xernel plat) (ts ++ t :: ts') k)
    (hact : t.pre.activity t.event = .call .spawnEnv args) (hptr : args.rsi.toNat ≠ 0)
    (hlen : args.rdx.toNat ≠ 0) (hfree : t.pre.mm.FreeUnmapped) (hout : t.out = some pid)
    (hpid : pid ≠ u64Max) :
    ∃ child, t.post.sched.find pid = some child ∧
      Kernel.HandsOver t.pre.mm t.post.mm t.pre.cpu.cr3 child args.rsi.toNat args.rdx.toNat ∧
      ∀ u ∈ ts', ∀ args', u.pre.activity u.event = .call .getenvp args' → u.pre.sched.cur.pid = pid →
        u.pre.userSliceMut args'.rdi.toNat 16 = true →
        u.out = some 0 ∧ u.post.mm.readUser u.pre.cpu.cr3 args'.rdi.toNat 16 =
          leBytes 8 heapStart ++ leBytes 8 args.rdx.toNat := by
  obtain ⟨hpre, hs, hpost⟩ := h.split rfl
  have hreach : Reachable (xernel plat) t.pre := ⟨ts, hpre⟩
  have hspace := spaceInv_run hdisj hpre
  have hlive : t.pre.cpu.cr3 ∈ handedOut t.pre.mm.calls := by
    rw [(reachable_onThread hreach hs).cr3]
    exact hspace.live _ _ (Scheduler.getElem?_current _)
  obtain ⟨nr, hw, r, hd, rfl, -, hcore, hres⟩ := reachable_dispatch hreach hs hact
  rw [Kernel.dispatch, hd] at hcore hres
  have hargs : ¬ (args.rdx.toNat = 0 ∨ args.rsi.toNat = 0) := by
    rintro (hzero | hzero)
    · exact hlen hzero
    · exact hptr hzero
  -- the call has succeeded
  obtain ⟨k₁, hcall, hcore⟩ : ∃ k₁, t.pre.entered.spawnEnv plat args.rsi.toNat args.rdx.toNat
      args.r10.toNat = (.done pid, k₁) ∧ t.post.core = k₁.core := by
    have hres : t.out = (Kernel.orMax (t.pre.entered.spawnEnv plat args.rsi.toNat args.rdx.toNat
      args.r10.toNat)).2 := hres
    have hcore : t.post.core = (Kernel.orMax (t.pre.entered.spawnEnv plat args.rsi.toNat
      args.rdx.toNat args.r10.toNat)).1.core := hcore
    rw [hout] at hres
    cases hr : t.pre.entered.spawnEnv plat args.rsi.toNat args.rdx.toNat args.r10.toNat with
    | mk o k₁ =>
      rw [hr] at hres hcore
      cases o with
      | done v =>
        obtain rfl : pid = v := Option.some.inj hres
        exact ⟨k₁, rfl, hcore⟩
      | failed => exact absurd (Option.some.inj hres) hpid
      | panic => cases hres
  obtain ⟨hnext, child, hchild, hands⟩ := Kernel.spawnEnv_handsOver (k := t.pre.entered) hdisj
    hspace.run hspace.filled hlive hfree hargs hcall
  have hmm : t.post.mm = k₁.mm := congrArg Core.mm hcore
  have hsched : t.post.sched = k₁.sched := congrArg Core.sched hcore
  have hindex : pid = t.pre.sched.procs.length := hnext.trans (tableInv_run hpre).nextPid
  have hget : t.post.sched.procs[pid]? = some child := by
    rw [hsched, hindex]
    exact hchild
  refine ⟨child, ?_, ?_, fun u hu args' hcall' hcaller hok => ?_⟩
  · obtain ⟨p, hp, -, hfind⟩ := (tableInv_run hpost).find (List.getElem?_eq_some_iff.mp hget).1
    exact hfind.trans (hp.symm.trans hget)
  · rw [hmm]
    exact hands
  · -- the record of the child still says the same when the child runs
    obtain ⟨⟨q, hq, hsame⟩, -⟩ := (h.preserved_after
      (P := fun k : Kernel => ∃ q, k.sched.procs[pid]? = some q ∧ child.Same q) rfl
      (fun v _ hv hr => step_same hr hv) ⟨child, hget, .refl child⟩).1 u hu
    obtain ⟨⟨ts₁, hrun⟩, hu⟩ := h.mem_step (List.mem_append_right ts (List.mem_cons_of_mem t hu))
    have hcur := (tableInv_run hrun).cur_pid
    have hcur : u.pre.sched.current = pid := hcur.symm.trans hcaller
    rw [← hcur, Scheduler.getElem?_current] at hq
    obtain rfl := Option.some.inj hq
    have hreport := Kernel.getenvp_reports ⟨ts₁, hrun⟩ hu hcall' (aligned_run hdisj hrun) hok
    rw [hsame.envpUser, hsame.envpLen, hands.envp.1, hands.envp.2] at hreport
    exact hreport

/-- The first process hands over 5000 bytes of its stack, and its child asks for them. -/
theorem spawnEnv_transfers_stack :
    ∃ (a b : List KernelStep) (t u : KernelStep) (k : Kernel) (child : Process),
      Run (xernel smallPlatform) (a ++ t :: b) k ∧ t.out = some 1 ∧
      Kernel.HandsOver t.pre.mm t.post.mm t.pre.cpu.cr3 child 0x80_0000 5000 ∧ u ∈ b ∧
      u.post.mm.readUser u.pre.cpu.cr3 0x80_0000 16 = leBytes 8 heapStart ++ leBytes 8 5000 := by
  have hfacts : (trace smallPlatform [.resume, .call .spawnEnv 0 0x80_0000 5000 20, .call .yield,
      .resume, .call .getenvp 0x80_0000]).map (fun r =>
        (r.1.all fun t => !t.pre.freesMapped t.event, (r.1[1]?).map Transition.out,
          (r.1[4]?).map fun u => (u.pre.sched.cur.pid, u.pre.userSliceMut 0x80_0000 16))) =
      some (true, some (some 1), some (1, true)) := by decide +kernel
  obtain ⟨r, hr, hfacts⟩ := Option.map_eq_some_iff.mp hfacts
  simp only [Prod.mk.injEq, Option.map_eq_some_iff] at hfacts
  obtain ⟨hgood, ⟨t, ht, hout⟩, u, hu, hpid, hok⟩ := hfacts
  have hcut : r.1 = r.1.take 1 ++ t :: r.1.drop 2 := by
    obtain ⟨hlt, rfl⟩ := List.getElem?_eq_some_iff.mp ht
    rw [← List.drop_eq_getElem_cons hlt, List.take_append_drop]
  have hrun := trace_run hr
  rw [hcut] at hrun
  obtain ⟨hpre, -, -⟩ := hrun.split rfl
  have hfree : t.pre.mm.FreeUnmapped := freeUnmapped_run smallPlatform_wellFormed hpre fun v hv => by
    simpa using List.all_eq_true.mp hgood v (List.mem_of_mem_take hv)
  have hevent : t.event = .call .spawnEnv 0 0x80_0000 5000 20 :=
    (Option.some.inj (trace_event hr ht)).symm
  have hevent' : u.event = .call .getenvp 0x80_0000 := (Option.some.inj (trace_event hr hu)).symm
  have hmem : u ∈ r.1.drop 2 := by
    refine List.mem_of_getElem? (i := 2) ?_
    rw [List.getElem?_drop]
    exact hu
  obtain ⟨child, -, hands, hreports⟩ := spawnEnv_transfers
    { rdi := 0, rsi := 0x80_0000, rdx := 5000, r10 := 20, r8 := 0, r9 := 0 }
    smallPlatform_regionsDisjoint hrun (by rw [hevent]; rfl) (by decide) (by decide) hfree hout
    (by decide)
  refine ⟨r.1.take 1, r.1.drop 2, t, u, r.2, child, hrun, hout, hands, hmem, ?_⟩
  exact (hreports u hmem { rdi := 0x80_0000, rsi := 0, rdx := 0, r10 := 0, r8 := 0, r9 := 0 }
    (by rw [hevent']; rfl) hpid hok).2

end Xernel
