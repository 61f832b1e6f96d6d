import Xernel.Isolation
import Xernel.Mappings

/-!
# What ring 3 may execute

The kernel maps pages for ring 3 in two ways: the loader maps the pages of the image with the
permissions of their segments, and everything else (stack, heap, environment, device memory, DMA
buffers, shared frames) is mapped without the right to execute. `Mm.Adds` says which leaf entries a
function adds; entries never change, so what is executable is decided by the image alone.
-/

namespace Xernel

open Mm (MapsAtMost)

variable {plat : Platform} {k k' : Kernel} {m m' m'' : Mm} {Q : ℕ → Leaf → Prop} {out : Option ℕ}
  {l4 page : ℕ}

namespace Mm

/-- The leaf entries that `m'` has and `m` has not satisfy `Q`. -/
def Adds (Q : ℕ → Leaf → Prop) (m m' : Mm) : Prop :=
  ∀ l page leaf, m'.pt.leaf l page = some leaf → m.pt.leaf l page = some leaf ∨ Q page leaf

namespace Adds

/-- A function that leaves the leaf entries alone adds none. -/
lemma of_leaf (h : m'.pt.leaf = m.pt.leaf) : Adds Q m m' := fun l page leaf hleaf => by
  rw [h] at hleaf
  exact .inl hleaf

lemma of_pt (h : m'.pt = m.pt) : Adds Q m m' := .of_leaf (by rw [h])

/-- Two functions in a row add what each of them adds. -/
lemma trans (h : Adds Q m m') (h' : Adds Q m' m'') : Adds Q m m'' := fun l page leaf hleaf =>
  (h' l page leaf hleaf).elim (h l page leaf) .inr

/-- A function that maps at most one page adds at most that entry. -/
lemma of_atMost {L : Set Leaf} (h : MapsAtMost l4 page L m m') (hQ : ∀ leaf ∈ L, Q page leaf) :
    Adds Q m m' := by
  intro l p leaf hleaf
  rcases h with hsame | ⟨leaf', hleaf', hset⟩
  · rw [hsame] at hleaf
    exact .inl hleaf
  · rw [hset, setLeafAt] at hleaf
    split at hleaf
    next hat =>
      obtain rfl := Option.some.inj hleaf
      rw [hat.2]
      exact .inr (hQ _ hleaf')
    next => exact .inl hleaf

end Adds
end Mm

/-! ## Pages without execution -/

/-- The loop adds what its body adds. -/
lemma mapRun_adds {map : Mm → ℕ → ℕ → Mm.MapOutcome × Mm} (n va phys : ℕ)
    (hmap : ∀ (m : Mm) (va phys : ℕ), m.Adds Q (map m va phys).2) :
    m.Adds Q (mapRun map n va phys m).2 := by
  induction n generalizing va phys m with
  | zero => exact .of_pt rfl
  | succ n ih =>
    have hfirst := hmap m va phys
    rw [mapRun]
    split
    next heq => rw [heq] at hfirst; exact hfirst
    next heq => rw [heq] at hfirst; exact hfirst
    next heq => rw [heq] at hfirst; exact hfirst.trans (ih _ _)

section Data

variable (hQ : ∀ page leaf, leaf.flags.noExecute = true → Q page leaf)

include hQ

/-- A run mapped for data is not executable. -/
lemma mapRun_mapUser_adds (l4 n va phys : ℕ) :
    m.Adds Q (mapRun (fun m va phys => m.mapUser l4 va phys true false) n va phys m).2 :=
  mapRun_adds n va phys fun m va phys => .of_atMost (mapUser_atMost m l4 va phys) fun leaf hleaf => by
    rw [Set.mem_singleton_iff.mp hleaf]
    exact hQ _ _ rfl

/-- Neither is a run of device memory. -/
lemma mapRun_mapUserDevice_adds (l4 n va phys : ℕ) :
    m.Adds Q (mapRun (fun m va phys => m.mapUserDevice l4 va phys) n va phys m).2 :=
  mapRun_adds n va phys fun m va phys => .of_atMost (m.mapUserDevice_atMost l4 va phys)
    fun leaf hleaf => by
      rw [Set.mem_singleton_iff.mp hleaf]
      exact hQ _ _ rfl

/-- Nor a fresh page for data. -/
lemma Mm.allocMapUser_adds (m : Mm) (l4 virt : ℕ) :
    m.Adds Q (m.allocMapUser l4 virt true false).2 := by
  rw [allocMapUser]
  split
  next ha => exact .of_leaf (frameAlloc_leaf ha)
  next phys m₁ ha =>
    have hzero : m.Adds Q (m₁.zero phys frameSize) :=
      .of_leaf (show m₁.pt.leaf = m.pt.leaf from frameAlloc_leaf ha)
    refine hzero.trans (.of_atMost (mapUser_atMost _ l4 virt phys) fun leaf hleaf => ?_)
    rw [Set.mem_singleton_iff.mp hleaf]
    exact hQ _ _ rfl

/-- Stack and heap are fresh pages for data. -/
lemma allocMapPages_adds (space n va : ℕ) : m.Adds Q (allocMapPages space n va m).2 :=
  mapRun_adds n va 0 fun m va _ => m.allocMapUser_adds hQ space va

/-- So are the pages of the environment. -/
lemma Kernel.copyEnv_adds (cr3 space envpPtr envpLen n i : ℕ) (m : Mm) :
    m.Adds Q (copyEnv cr3 space envpPtr envpLen n i m).2 := by
  induction n generalizing i m with
  | zero => exact .of_pt rfl
  | succ n ih =>
    have hpage := m.allocMapUser_adds hQ space (heapStart + i * frameSize)
    rw [copyEnv]
    dsimp only
    split
    next heq => rw [heq] at hpage; exact hpage
    next heq => rw [heq] at hpage; exact hpage
    next m₁ heq =>
      rw [heq] at hpage
      split
      · exact hpage
      next dst _ =>
        obtain ⟨mem, hmem⟩ := copyBytes_eq cr3 (min (envpLen - i * frameSize) frameSize)
          (envpPtr + i * frameSize) dst m₁
        have hcopy : m₁.Adds Q (copyBytes cr3 (min (envpLen - i * frameSize) frameSize)
            (envpPtr + i * frameSize) dst m₁) := .of_pt (by rw [hmem])
        exact (hpage.trans hcopy).trans (ih (i + 1) _)

end Data

/-! ## The image -/

/-- The entries that the loader makes for the pages of the image. -/
def Elf.LoadsPage (image : List UInt8) (page : ℕ) (leaf : Leaf) : Prop :=
  ∃ p info, plan image = .ok p ∧ (page * frameSize, info) ∈ p.pages ∧
    leaf.flags = Mm.userFlags info.writable info.executable

section Image

variable (hload : ∀ page leaf, Elf.LoadsPage plat.image page leaf → Q page leaf)

include hload

/-- The loader's first pass maps the pages of the plan, each with the flags collected for it. -/
lemma Elf.mapPages_adds {p : Elf.Plan} (hplan : Elf.plan plat.image = .ok p) (space : ℕ) :
    ∀ (pages : List (ℕ × PageInfo)) (m : Mm), (∀ pg ∈ pages, pg ∈ p.pages) →
      m.Adds Q (mapPages space pages m).2 := by
  intro pages
  induction pages with
  | nil => exact fun m _ => .of_pt rfl
  | cons head rest ih =>
    intro m hpages
    obtain ⟨page, info⟩ := head
    have hmem : (page, info) ∈ p.pages := hpages _ List.mem_cons_self
    have hat : page / frameSize * frameSize = page :=
      Nat.div_mul_cancel (plan_aligned hplan page (List.mem_map.mpr ⟨_, hmem, rfl⟩))
    rw [mapPages]
    split
    next ha => exact .of_leaf (Mm.frameAlloc_leaf ha)
    next phys m₁ ha =>
      have hzero : m.Adds Q (m₁.zero phys frameSize) :=
        .of_leaf (show m₁.pt.leaf = m.pt.leaf from Mm.frameAlloc_leaf ha)
      have hmap : (m₁.zero phys frameSize).Adds Q
          ((m₁.zero phys frameSize).mapUser space page phys info.writable info.executable).2 := by
        rw [Mm.mapUser_eq]
        refine .of_atMost (Mm.mapWithFlags_atMost ..) fun leaf hleaf => hload _ _ ?_
        rw [Set.mem_singleton_iff.mp hleaf]
        exact ⟨p, info, hplan, by rwa [hat], rfl⟩
      have hfirst := hzero.trans hmap
      split
      next heq => rw [heq] at hfirst; exact hfirst
      next heq => rw [heq] at hfirst; exact hfirst
      next m₂ heq =>
        rw [heq] at hfirst
        have hrest := hfirst.trans (ih m₂ fun pg hpg => hpages pg (List.mem_cons_of_mem _ hpg))
        split <;> (next heq' => rw [heq'] at hrest; exact hrest)

/-- The other passes map nothing. -/
lemma Elf.load_adds (m : Mm) (space : ℕ) : m.Adds Q (load m plat.image space).2 := by
  rw [load]
  split
  · exact .of_pt rfl
  next p hplan =>
    have hmap := mapPages_adds hload hplan space p.pages m fun _ h => h
    split
    next heq => rw [heq] at hmap; exact hmap
    next frames m₁ heq =>
      rw [heq] at hmap
      obtain ⟨mem, hmem⟩ := copySegments_eq plat.image frames p.segments m₁
      have hcopy : m₁.Adds Q (copySegments plat.image frames p.segments m₁).2 :=
        .of_pt (by rw [hmem])
      have hcopy := hmap.trans hcopy
      split <;> (next heq' => rw [heq'] at hcopy; exact hcopy)

variable (hQ : ∀ page leaf, leaf.flags.noExecute = true → Q page leaf)

include hQ

/-- A new address space has the pages of the image and of the stack. -/
lemma create_adds (m : Mm) (pid : ℕ) : m.Adds Q (create plat m pid).2 := by
  have hspace : m.Adds Q m.vspaceNew.2 := by
    rw [Mm.vspaceNew]
    split
    next ha => exact .of_leaf (Mm.frameAlloc_leaf ha)
    next space m₁ ha =>
      -- the new space maps nothing
      intro l page leaf hleaf
      rw [PageTables.leaf_eq_half, PageTables.half_newSpace] at hleaf
      split at hleaf
      · cases hleaf
      · rw [← PageTables.leaf_eq_half, Mm.frameAlloc_leaf ha] at hleaf
        exact .inl hleaf
  rw [create]
  split
  next heq => rw [heq] at hspace; exact hspace
  next space m₁ heq =>
    rw [heq] at hspace
    have hloaded := hspace.trans (Elf.load_adds hload m₁ space)
    split
    next heq' => rw [heq'] at hloaded; exact hloaded
    next heq' => rw [heq'] at hloaded; exact hloaded
    next m₂ heq' =>
      rw [heq'] at hloaded
      have hstack := hloaded.trans (allocMapPages_adds hQ space userStackPages userStackVa)
      split <;> (next heq'' => rw [heq''] at hstack; exact hstack)

end Image

/-! ## System calls -/

namespace Kernel

variable (hQ : ∀ page leaf, leaf.flags.noExecute = true → Q page leaf)

/-- Writing to a user buffer maps nothing. -/
lemma copyOut_adds (k : Kernel) (ptr : ℕ) (bytes : List UInt8) :
    k.mm.Adds Q (k.copyOut ptr bytes).mm := .of_pt (copyOut_sameMap k ptr bytes).pt

/-- Freed frames stay as they are mapped. -/
lemma freeRun_adds (m : Mm) (phys n : ℕ) : m.Adds Q (freeRun m phys n) := .of_pt (freeRun_pt m phys n)

lemma frameAllocUnwind_adds (k : Kernel) (phys : Option ℕ) (pages : ℕ) :
    k.mm.Adds Q (k.frameAllocUnwind phys pages).1.mm := by
  have hmm : (k.frameAllocUnwind phys pages).1.mm = phys.elim k.mm fun p => freeRun k.mm p pages := rfl
  rw [hmm]
  cases phys with
  | none => exact .of_pt rfl
  | some phys => exact freeRun_adds _ _ _

include hQ

/-- A heap that grows gets pages for data. -/
lemma orMax_sbrk_adds (k : Kernel) (delta : ℤ) : k.mm.Adds Q (orMax (k.sbrk delta)).1.mm := by
  rw [orMax_mm, sbrk]
  dsimp only
  split
  · exact .of_pt rfl
  split
  · exact .of_pt rfl
  split
  · exact .of_pt rfl
  generalize (if delta > 0 then _ else _ : ℕ) = new
  split
  · exact .of_pt rfl
  split
  · have hrun : k.mm.Adds Q _ := allocMapPages_adds hQ k.sched.cur.space
      ((pageUp new - pageUp k.sched.cur.heapBreak) / frameSize) (pageUp k.sched.cur.heapBreak)
    split <;> (next heq => rw [heq] at hrun; exact hrun)
  · exact .of_pt rfl

/-- The framebuffer is device memory. -/
lemma sysFbInfo_adds (plat : Platform) (k : Kernel) (ptr : ℕ) :
    k.mm.Adds Q (k.sysFbInfo plat ptr).1.mm := by
  rw [sysFbInfo]
  split
  · exact .of_pt rfl
  next fb _ =>
    have hrun : k.mm.Adds Q _ := mapRun_mapUserDevice_adds hQ k.cpu.cr3
      (pagesFor (fb.phys - pageDown fb.phys + fb.height * fb.pitch)) fbUserVa (pageDown fb.phys)
    dsimp only
    split
    next heq => rw [heq] at hrun; exact hrun
    next heq => rw [heq] at hrun; exact hrun
    next mm heq =>
      rw [heq] at hrun
      split
      · exact hrun.trans (copyOut_adds { k with mm } _ _)
      · exact hrun

/-- So is what `SYS_IOMAP` maps. -/
lemma sysIomap_adds (k : Kernel) (phys len : ℕ) : k.mm.Adds Q (k.sysIomap phys len).1.mm := by
  rw [sysIomap]
  split
  · exact .of_pt rfl
  dsimp only
  split
  · exact .of_pt rfl
  split
  · exact .of_pt rfl
  · have hrun : k.mm.Adds Q _ := mapRun_mapUserDevice_adds hQ k.cpu.cr3
      (pagesFor (phys - pageDown phys + len)) k.win.nextMmioVa (pageDown phys)
    split <;> (next heq => rw [heq] at hrun; exact hrun)

/-- A Frame capability is mapped for data, whatever process uses it. -/
lemma mapShared_adds (k : Kernel) (phys pages : ℕ) : k.mm.Adds Q (k.mapShared phys pages).2.mm := by
  rw [mapShared]
  dsimp only
  split
  · exact .of_pt rfl
  · have hrun : k.mm.Adds Q _ := mapRun_mapUser_adds hQ k.cpu.cr3 pages k.win.nextSharedVa phys
    split <;> (next heq => rw [heq] at hrun; exact hrun)

/-- A DMA buffer is mapped for data. -/
lemma dmaAllocCharged_adds (k : Kernel) (pages outPtr : ℕ) :
    k.mm.Adds Q (k.dmaAllocCharged pages outPtr).2.mm := by
  rw [dmaAllocCharged]
  split
  next ha => exact .of_pt (frameAllocContiguous_calls ha).2
  next phys mm ha =>
    have hzero : k.mm.Adds Q (mm.zero phys (pages * frameSize)) :=
      .of_pt (show mm.pt = k.mm.pt from (frameAllocContiguous_calls ha).2)
    dsimp only
    split
    · exact hzero
    · have hrun := hzero.trans (mapRun_mapUser_adds hQ k.cpu.cr3 pages k.win.nextDmaVa phys)
      split
      next heq => rw [heq] at hrun; exact hrun
      next heq => rw [heq] at hrun; exact hrun
      next mm' heq =>
        rw [heq] at hrun
        split
        · exact hrun.trans (copyOut_adds { k with mm := mm', win := _ } _ _)
        · exact hrun

lemma sysDmaAlloc_adds (k : Kernel) (len outPtr : ℕ) :
    k.mm.Adds Q (k.sysDmaAlloc len outPtr).1.mm := by
  rw [sysDmaAlloc]
  split
  · exact .of_pt rfl
  dsimp only
  split
  · exact .of_pt rfl
  next k₁ hcharge =>
    obtain ⟨caps, -, rfl⟩ := currentChargeUntyped_eq_some hcharge
    have hrun := dmaAllocCharged_adds hQ { k with sched := k.sched.setCaps caps } (pagesFor len) outPtr
    split <;> (next heq => rw [heq] at hrun; exact hrun)

lemma sysMapFrame_adds (k : Kernel) (capSlot outPtr : ℕ) :
    k.mm.Adds Q (k.sysMapFrame capSlot outPtr).1.mm := by
  rw [sysMapFrame]
  split
  · exact .of_pt rfl
  next phys pages _ =>
    have hmap := mapShared_adds hQ k phys pages
    split
    next heq => rw [heq] at hmap; exact hmap
    next heq => rw [heq] at hmap; exact hmap
    next va k₁ heq =>
      rw [heq] at hmap
      split
      · exact hmap.trans (copyOut_adds k₁ _ _)
      · exact hmap

/-- A run that is given back after a failure has been mapped for data too. -/
lemma sysFrameAlloc_adds (k : Kernel) (pages capSlot outPtr : ℕ) :
    k.mm.Adds Q (k.sysFrameAlloc pages capSlot outPtr).1.mm := by
  rw [sysFrameAlloc]
  split
  · exact .of_pt rfl
  dsimp only
  split
  · exact .of_pt rfl
  next k₀ hcharge =>
    obtain ⟨caps, -, rfl⟩ := currentChargeUntyped_eq_some hcharge
    dsimp only
    split
    next mm ha =>
      have halloc : k.mm.Adds Q mm := .of_pt (frameAllocContiguous_calls ha).2
      exact halloc.trans (frameAllocUnwind_adds { k with sched := k.sched.setCaps caps, mm } _ _)
    next phys mm ha =>
      have hzero : k.mm.Adds Q (mm.zero phys (pages * frameSize)) :=
        .of_pt (show mm.pt = k.mm.pt from (frameAllocContiguous_calls ha).2)
      have hmap := hzero.trans (mapShared_adds hQ
        { k with sched := k.sched.setCaps caps, mm := mm.zero phys (pages * frameSize) } phys pages)
      split
      next heq => rw [heq] at hmap; exact hmap
      next k₂ heq => rw [heq] at hmap; exact hmap.trans (frameAllocUnwind_adds k₂ _ _)
      next va k₂ heq =>
        rw [heq] at hmap
        split
        next =>
          have hout := hmap.trans (copyOut_adds k₂ outPtr (leBytes 8 va))
          split
          next => exact hout.trans (frameAllocUnwind_adds (k₂.copyOut outPtr (leBytes 8 va)) _ _)
          next k₃ hins =>
            obtain ⟨caps', -, rfl⟩ := currentCapInstall_eq_some hins
            exact hout
        next => exact hmap.trans (frameAllocUnwind_adds k₂ _ _)

variable (hload : ∀ page leaf, Elf.LoadsPage plat.image page leaf → Q page leaf)

include hload

/-- A child has the same image. -/
lemma orMax_spawn_adds (k : Kernel) (capSlot : ℕ) :
    k.mm.Adds Q (orMax (k.spawn plat capSlot)).1.mm := by
  rw [orMax_mm, spawn_mm]
  exact create_adds hload hQ k.mm _

/-- With an environment it has pages for data on top. -/
lemma orMax_spawnEnv_adds (k : Kernel) (envpPtr envpLen capSlot : ℕ) :
    k.mm.Adds Q (orMax (k.spawnEnv plat envpPtr envpLen capSlot)).1.mm := by
  rw [spawnEnv]
  split
  · exact orMax_spawn_adds hQ hload k capSlot
  · have hcreate := create_adds hload hQ k.mm k.sched.nextPid
    rw [orMax_mm]
    split
    next heq => rw [heq] at hcreate; exact hcreate
    next heq => rw [heq] at hcreate; exact hcreate
    next p mm heq =>
      rw [heq] at hcreate
      split
      · exact hcreate
      split
      · exact hcreate
      dsimp only
      have henv := hcreate.trans
        (copyEnv_adds hQ k.cpu.cr3 p.space envpPtr envpLen (pagesFor envpLen) 0 mm)
      split
      next heq' => rw [heq'] at henv; exact henv
      next heq' => rw [heq'] at henv; exact henv
      next heq' =>
        rw [heq'] at henv
        rw [addProcess_mm]
        exact henv

end Kernel

/-! ## Whole runs -/

/-- Every step adds entries without execution, and entries for pages of the image. -/
lemma step_adds {e : Event} (hreach : Reachable (xernel plat) k)
    (hs : Xernel.step plat k e = some (k', out))
    (hQ : ∀ page leaf, leaf.flags.noExecute = true → Q page leaf)
    (hload : ∀ page leaf, Elf.LoadsPage plat.image page leaf → Q page leaf) : k.mm.Adds Q k'.mm := by
  by_cases hmaps : ∀ sys args, k.activity e = .call sys args → sys.mapsPages = false
  · exact .of_pt (step_sameMap hs hmaps).pt
  simp only [not_forall, Bool.not_eq_false] at hmaps
  obtain ⟨sys, args, hact, hsys⟩ := hmaps
  obtain ⟨nr, hw, r, hd, hr, hexit, -, -⟩ := reachable_dispatch hreach hs hact
  suffices hdispatch : k.mm.Adds Q r.1.mm from hdispatch.trans (.of_pt hexit.pt)
  rw [Kernel.dispatch, hd] at hr
  subst hr
  cases sys with
  | sbrk =>
    exact Kernel.orMax_sbrk_adds hQ { k with cpu := k.cpu.swapgs, exec := .kernel } _
  | fbInfo =>
    exact Kernel.sysFbInfo_adds hQ plat { k with cpu := k.cpu.swapgs, exec := .kernel } _
  | iomap => exact Kernel.sysIomap_adds hQ { k with cpu := k.cpu.swapgs, exec := .kernel } _ _
  | dmaAlloc =>
    exact Kernel.sysDmaAlloc_adds hQ { k with cpu := k.cpu.swapgs, exec := .kernel } _ _
  | frameAlloc =>
    exact Kernel.sysFrameAlloc_adds hQ { k with cpu := k.cpu.swapgs, exec := .kernel } _ _ _
  | mapFrame =>
    exact Kernel.sysMapFrame_adds hQ { k with cpu := k.cpu.swapgs, exec := .kernel } _ _
  | spawn =>
    exact Kernel.orMax_spawn_adds hQ hload { k with cpu := k.cpu.swapgs, exec := .kernel } _
  | spawnEnv =>
    exact Kernel.orMax_spawnEnv_adds hQ hload { k with cpu := k.cpu.swapgs, exec := .kernel } _ _ _
  | write | exit | debug | getTicks | sysinfo | read | readNb | getpid | yield | pciRead | portIn
  | portOut | capIdentify | send | recv | signal | wait | getStatus | getenvp | logRead | kill
  | waitPid | capGrant => cases hsys

/-- An entry is closed to ring 3, without execution, or made by the loader. -/
def Platform.Allows (plat : Platform) (page : ℕ) (leaf : Leaf) : Prop :=
  leaf.flags.userAccessible = false ∨ leaf.flags.noExecute = true ∨ Elf.LoadsPage plat.image page leaf

/-- The interrupt controllers are mapped for the kernel only. -/
lemma enableInterrupts_adds (h : enableInterrupts plat m = some m') :
    m.Adds (fun _ leaf => leaf.flags.userAccessible = false) m' := by
  have hmmio : ∀ (m : Mm) (virt phys : ℕ),
      m.Adds (fun _ leaf => leaf.flags.userAccessible = false)
        (m.mapMmio plat.bootSpace virt phys).2 := fun m virt phys =>
    .of_atMost (Mm.mapWithFlags_atMost ..) fun leaf hleaf => by rw [Set.mem_singleton_iff.mp hleaf]
  rw [enableInterrupts] at h
  split at h
  next m₁ heq =>
    have hfirst := hmmio m lapicVirt plat.lapicPhys
    rw [heq] at hfirst
    split at h
    next m₂ heq' =>
      have hsecond := hmmio m₁ ioapicVirt ioapicPhys
      rw [heq'] at hsecond
      obtain rfl := Option.some.inj h
      exact hfirst.trans hsecond
    next => cases h
  next => cases h

/-- Every entry ever made is allowed: nothing else adds any, and none is changed. -/
lemma allows_run {ts : List KernelStep} (hplat : plat.WellFormed) (h : Run (xernel plat) ts k) :
    ∀ l page leaf, k.mm.pt.leaf l page = some leaf → plat.Allows page leaf := by
  refine h.invariant
    (I := fun k => ∀ l page leaf, k.mm.pt.leaf l page = some leaf → plat.Allows page leaf) ?_ ?_
  · intro k hk l page leaf hleaf
    obtain ⟨m₀, m, p, hint, hp, rfl⟩ := boot_cases hk
    have hcreate : m₀.Adds plat.Allows (create plat m₀ 0).2 :=
      create_adds (fun _ _ h => .inr (.inr h)) (fun _ _ h => .inr (.inl h)) m₀ 0
    rw [hp] at hcreate
    rcases hcreate l page leaf hleaf with hleaf | hnew
    · rcases enableInterrupts_adds hint l page leaf hleaf with hleaf | hclosed
      · -- the tables the kernel starts with
        rw [PageTables.leaf, PageTables.tree] at hleaf
        split at hleaf
        · cases hleaf
        · exact .inl (hplat.leaves page leaf hleaf)
      · exact .inl hclosed
    · exact hnew
  · intro k e k' o hreach hinv hs l page leaf hleaf
    rcases step_adds (Q := plat.Allows) hreach hs (fun _ _ h => .inr (.inl h))
      (fun _ _ h => .inr (.inr h)) l page leaf hleaf with hold | hnew
    · exact hinv l page leaf hold
    · exact hnew

/-- A small machine with one page of code. -/
def codePlatform : Platform :=
  { smallPlatform with
    image := [0x7f, 0x45, 0x4c, 0x46, 2, 1, 1, 0] ++ List.replicate 16 0 ++ leBytes 8 0x40_0000 ++
      leBytes 8 64 ++ List.replicate 14 0 ++ leBytes 2 56 ++ leBytes 2 1 ++ List.replicate 6 0 ++
      leBytes 4 Elf.ptLoad ++ leBytes 4 (4 + Elf.pfX) ++ leBytes 8 120 ++ leBytes 8 0x40_0000 ++
      leBytes 8 0 ++ leBytes 8 2 ++ leBytes 8 2 ++ leBytes 8 0 ++ [0xeb, 0xfe] }

end Xernel
