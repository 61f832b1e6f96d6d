import Xernel.Break
import Xernel.ElfTheorems
import Xernel.Isolation
import Xernel.Mappings

/-!
# Frames that are still free

Whatever a new process is made of comes from frames that were free when the call began, and only these
are written: the loader, the stack and the environment of a child leave no mark on memory that somebody
else can read, as long as nobody has a free frame mapped (`Mm.UsesFree.readByte`). That is so in every
run in which no `FRAME_ALLOC` frees what it has mapped.
-/

namespace Xernel

variable {plat : Platform} {regions : List Region} {m m' m'' : Mm} {f l4 virt space pid : ℕ}

/-! ## The allocator -/

namespace PhysFrameAllocator

variable {a a' : PhysFrameAllocator} {live : List ℕ} {n : ℕ} {got : Option ℕ}

/-- The frame at `f` can still be handed out. -/
def Free (a : PhysFrameAllocator) (f : ℕ) : Prop := frameSize ∣ f ∧ (f ∈ a.freeList ∨ a.Ahead f)

/-- A free frame is not in use. -/
lemma Tracks.not_live (h : a.Tracks live) (hf : a.Free f) : f ∉ live := by
  intro hlive
  rcases hf.2 with hfree | hahead
  · exact h.apart f hlive hfree
  · exact (h.settled f (.inr hlive)).2.2 hahead

/-- What is free later was free before. -/
lemma Advances.free (h : Advances a a') (hf : a'.Free f) : a.Free f := by
  refine ⟨hf.1, hf.2.imp (fun hmem => ?_) (h.ahead f)⟩
  rw [← h.freeList]
  exact hmem

/-- The loop takes frames that were free, and makes none free. -/
lemma Tracks.bump_free {fuel : ℕ} (h : a.Tracks live) (hb : PhysFrameAllocator.bump n fuel a = (got, a')) :
    (∀ f, a'.Free f → a.Free f) ∧
      ∀ base, got = some base → ∀ f ∈ blockRun frameSize base n, a.Free f := by
  obtain ⟨-, hsome, hnone⟩ := bump_spec h.laid hb
  cases got with
  | none =>
    obtain ⟨hadv, -⟩ := hnone rfl
    exact ⟨fun f hf => hadv.free hf, fun base hbase => by cases hbase⟩
  | some base =>
    have hrun := hsome base rfl
    refine ⟨fun f hf => hrun.advances.free hf, fun base' hbase f hf => ?_⟩
    obtain rfl := Option.some.inj hbase
    exact ⟨dvd_of_mem_blockRun hrun.aligned hf, .inr (hrun.was_ahead f hf)⟩

lemma Tracks.alloc_free (h : a.Tracks live) (ha : a.alloc = (got, a')) :
    (∀ f, a'.Free f → a.Free f) ∧ ∀ f, got = some f → a.Free f := by
  unfold PhysFrameAllocator.alloc at ha
  split at ha
  next pa rest hlist =>
    -- the head of the free list is handed out, the rest stays free
    obtain ⟨rfl, rfl⟩ := Prod.mk.inj ha
    have hmem : pa ∈ a.freeList := by simp [hlist]
    refine ⟨fun f hf => ⟨hf.1, hf.2.imp (fun hrest => ?_) id⟩, fun f hf => ?_⟩
    · rw [hlist]
      exact List.mem_cons_of_mem pa hrest
    · obtain rfl := Option.some.inj hf
      exact ⟨(h.settled pa (.inl hmem)).1, .inl hmem⟩
  next =>
    obtain ⟨hfree, hgot⟩ := h.bump_free ha
    refine ⟨hfree, fun f hf => hgot f hf f ?_⟩
    rw [blockRun_one]
    exact List.mem_singleton_self f

lemma Tracks.allocContiguous_free (h : a.Tracks live) (ha : a.allocContiguous n = (got, a')) :
    ∀ f, a'.Free f → a.Free f := by
  unfold PhysFrameAllocator.allocContiguous at ha
  split at ha
  · obtain ⟨-, rfl⟩ := Prod.mk.inj ha
    exact fun f hf => hf
  · exact (h.bump_free ha).1

end PhysFrameAllocator

/-! ## Memory that is built up -/

/-- An address of the lower half that ring 3 can read in space `l4`. -/
def Mm.Accessible (m : Mm) (l4 va : ℕ) : Prop := va < 2 ^ 47 ∧ m.userPageOk l4 false va = true

/-- No address space has a free frame mapped. -/
def Mm.FreeUnmapped (m : Mm) : Prop :=
  ∀ l4 va phys, m.Accessible l4 va → m.physOf l4 va = some phys → ¬ m.frames.Free (pageDown phys)

namespace Mm

section Builds

variable (hdisj : (regions.map Region.rounded).Pairwise Region.Disjoint)
  (hr : AllocatorRun regions m.frames m.calls)

include hdisj hr

/-- The frame that is taken was free. -/
lemma frameAlloc_free {got : Option ℕ} (ha : m.frameAlloc = (got, m')) :
    (∀ f, m'.frames.Free f → m.frames.Free f) ∧ ∀ f, got = some f → m.frames.Free f := by
  obtain ⟨rfl, rfl⟩ := Prod.mk.inj ha
  exact (hr.tracks hdisj).alloc_free rfl

/-- A free frame has not been handed out. -/
lemma not_handedOut (hf : m.frames.Free f) : f ∉ handedOut m.calls :=
  (hr.tracks hdisj).not_live hf

/-- Building up memory makes no frame free. -/
lemma Builds.free {s : Scope} {U V : Set ℕ} (h : Builds s m U m' V) (hf : m'.frames.Free f) :
    m.frames.Free f := by
  induction h with
  | refl => exact hf
  | bytes _ _ ih | leak _ _ ih | leaf _ _ _ _ _ ih => exact ih hf
  | alloc h ha ih | space h ha _ ih | table h ha _ _ ih =>
    exact ih ((frameAlloc_free hdisj (h.run hr) ha).1 f hf)
  | contiguous h hn ha ih =>
    obtain ⟨rfl, rfl⟩ := Prod.mk.inj ha
    exact ih (((h.run hr).tracks hdisj).allocContiguous_free rfl f hf)

end Builds

/-! ## Using free frames only -/

/-- From `m` to `m'` the allocator was used as it expects, no frame was made free or given back, and
all bytes that changed are bytes of frames that were free. -/
structure UsesFree (regions : List Region) (m m' : Mm) : Prop where
  run : AllocatorRun regions m'.frames m'.calls
  live : ∀ f ∈ handedOut m.calls, f ∈ handedOut m'.calls
  free : ∀ f, m'.frames.Free f → m.frames.Free f
  bytes : ∀ a, m'.mem a ≠ m.mem a → m.frames.Free (pageDown a)

namespace UsesFree

lemma refl (hr : AllocatorRun regions m.frames m.calls) : m.UsesFree regions m :=
  ⟨hr, fun _ hf => hf, fun _ hf => hf, fun _ hne => absurd rfl hne⟩

/-- Two functions in a row. -/
lemma trans (h : m.UsesFree regions m') (h' : m'.UsesFree regions m'') : m.UsesFree regions m'' := by
  refine ⟨h'.run, fun f hf => h'.live f (h.live f hf), fun f hf => h.free f (h'.free f hf),
    fun a hne => ?_⟩
  by_cases hsame : m''.mem a = m'.mem a
  · rw [hsame] at hne
    exact h.bytes a hne
  · exact h.free _ (h'.bytes a hsame)

/-- Frames and tables may be built up, and bytes of a free frame may change. -/
lemma of_builds {s : Scope} {U V : Set ℕ}
    (hdisj : (regions.map Region.rounded).Pairwise Region.Disjoint)
    (hr : AllocatorRun regions m.frames m.calls) (h : Builds s m U m' V)
    (hbytes : ∀ a, m'.mem a ≠ m.mem a → m.frames.Free (pageDown a)) : m.UsesFree regions m' :=
  ⟨h.run hr, fun _ hf => h.handedOut hf, fun _ hf => h.free hdisj hr hf, hbytes⟩

/-- A frame that was free may be written to, also after it was taken. -/
lemma write (h : m.UsesFree regions m') {mem : ℕ → UInt8}
    (hbytes : ∀ a, mem a ≠ m'.mem a → m.frames.Free (pageDown a)) :
    m.UsesFree regions { m' with mem } := by
  refine ⟨h.run, h.live, h.free, fun a hne => ?_⟩
  by_cases hsame : mem a = m'.mem a
  · refine h.bytes a ?_
    rw [← hsame]
    exact hne
  · exact hbytes a hsame

/-- What the frames in use hold stays as it is. -/
lemma kept (h : m.UsesFree regions m')
    (hdisj : (regions.map Region.rounded).Pairwise Region.Disjoint)
    (hr : AllocatorRun regions m.frames m.calls) {a : ℕ} (ha : pageDown a ∈ handedOut m.calls) :
    m'.mem a = m.mem a := by
  by_contra hne
  exact not_handedOut hdisj hr (h.bytes a hne) ha

/-- So does what ring 3 can read, if no free frame is mapped. -/
lemma readByte (h : m.UsesFree regions m') (hfree : m.FreeUnmapped)
    (hpt : m'.pt.user l4 = m.pt.user l4) {va : ℕ} (hva : m.Accessible l4 va) :
    m'.physOf l4 va = m.physOf l4 va ∧ m'.readByte l4 va = m.readByte l4 va := by
  have hlow : va / frameSize < lowerHalfPages := by
    have hlt := hva.1
    simp only [frameSize, lowerHalfPages]
    omega
  have hphys : m'.physOf l4 va = m.physOf l4 va := by
    unfold physOf PageTables.leaf PageTables.tree
    rw [if_pos hlow, if_pos hlow, hpt]
  refine ⟨hphys, ?_⟩
  unfold Mm.readByte
  rw [hphys]
  cases hat : m.physOf l4 va with
  | none => rfl
  | some phys =>
    show m'.mem phys = m.mem phys
    by_contra hne
    exact hfree l4 va phys hva hat (h.bytes phys hne)

end UsesFree

/-! ## A fresh page -/

/-- An address of a frame is rounded down to that frame. -/
lemma pageDown_frame {a : ℕ} (hf : m.frames.Free f) (hlo : f ≤ a) (hhi : a < f + frameSize) :
    pageDown a = f := by
  obtain ⟨c, rfl⟩ := hf.1
  simp only [pageDown, frameSize] at hlo hhi ⊢
  omega

section Page

variable (hdisj : (regions.map Region.rounded).Pairwise Region.Disjoint)
  (hr : AllocatorRun regions m.frames m.calls)

include hdisj hr

lemma frameAlloc_uses {got : Option ℕ} (ha : m.frameAlloc = (got, m')) :
    m.UsesFree regions m' := by
  have hb : Builds ⟨.univ, .univ, .univ⟩ m ∅ m' _ := Builds.refl.alloc ha
  refine .of_builds hdisj hr hb fun a hne => ?_
  obtain ⟨-, rfl⟩ := Prod.mk.inj ha
  exact absurd rfl hne

/-- Mapping takes frames for tables. -/
lemma mapUser_uses (l4 virt phys : ℕ) (writable executable : Bool) :
    m.UsesFree regions (m.mapUser l4 virt phys writable executable).2 := by
  rw [mapUser_eq]
  have hb : Builds ⟨.univ, .univ, .univ⟩ m ∅
      (m.mapWithFlags l4 virt phys (userFlags writable executable)).2 ∅ :=
    mapWithFlags_builds le_rfl (fun _ => trivial) fun _ _ => ⟨trivial, .inl trivial⟩
  refine .of_builds hdisj hr hb fun a hne => ?_
  rw [mapWithFlags_mem] at hne
  exact absurd rfl hne

/-- A frame is taken and zeroed. -/
lemma zeroed_uses (ha : m.frameAlloc = (some f, m')) : m.UsesFree regions (m'.zero f frameSize) := by
  have hfree := (frameAlloc_free hdisj hr ha).2 f rfl
  refine (frameAlloc_uses hdisj hr ha).write fun a hne => ?_
  have hin : f ≤ a ∧ a < f + frameSize := by
    by_contra hout
    exact hne (if_neg hout)
  rw [pageDown_frame hfree hin.1 hin.2]
  exact hfree

/-- A fresh page takes one more. -/
lemma allocMapUser_uses (l4 virt : ℕ) (writable executable : Bool) :
    m.UsesFree regions (m.allocMapUser l4 virt writable executable).2 := by
  unfold allocMapUser
  split
  next ha => exact frameAlloc_uses hdisj hr ha
  next phys m₁ ha =>
    have hzero := zeroed_uses hdisj hr ha
    exact hzero.trans (mapUser_uses hdisj hzero.run l4 virt phys writable executable)

/-- The page that `alloc_map_user` has mapped: its frame was free, and is zeroed now. -/
lemma allocMapUser_page {writable executable : Bool}
    (h : m.allocMapUser l4 virt writable executable = (.done, m')) :
    ∃ f, m.frames.Free f ∧ f ∈ handedOut m'.calls ∧
      m'.pt.leaf = setLeafAt m.pt.leaf l4 (virt / frameSize) ⟨f, userFlags writable executable⟩ ∧
      ∀ o < frameSize, m'.mem (f + o) = 0 := by
  unfold allocMapUser at h
  split at h
  · cases h
  next phys m₁ ha =>
    have hfree := (frameAlloc_free hdisj hr ha).2 phys rfl
    have hzero := zeroed_uses hdisj hr ha
    have huses := mapUser_uses hdisj hzero.run l4 virt phys writable executable
    have hmem := mapWithFlags_mem (m₁.zero phys frameSize) l4 virt phys
      (userFlags writable executable)
    have hleaf := mapWithFlags_leaf (m₁.zero phys frameSize) l4 virt phys
      (userFlags writable executable)
    rw [h] at huses
    rw [← mapUser_eq, h] at hmem hleaf
    obtain ⟨-, -, hset⟩ | ⟨hfail, -⟩ := hleaf
    swap
    · exact absurd rfl hfail
    refine ⟨phys, hfree, huses.live phys (fresh_of_frameAlloc hdisj hr ha).2, ?_, fun o ho => ?_⟩
    · rw [hset, pageDown_of_dvd hfree.1]
      show setLeafAt m₁.pt.leaf _ _ _ = _
      rw [frameAlloc_leaf ha]
    · have hmem : m'.mem = (m₁.zero phys frameSize).mem := hmem
      rw [hmem]
      exact if_pos ⟨by omega, by omega⟩

end Page

end Mm

/-! ## The memory of a new process -/

section Process

variable (hdisj : (regions.map Region.rounded).Pairwise Region.Disjoint)
  (hr : AllocatorRun regions m.frames m.calls)

include hdisj hr

namespace Elf

variable {image : List UInt8} {pages : List (ℕ × PageInfo)} {frames : List (ℕ × ℕ)}

/-- The pages of the image are put in frames that were free. -/
lemma mapPages_uses (h : mapPages space pages m = (.ok frames, m')) :
    m.UsesFree regions m' ∧ ∀ page phys, (page, phys) ∈ frames → m.frames.Free phys := by
  induction pages generalizing m frames with
  | nil =>
    obtain ⟨hframes, rfl⟩ := Prod.mk.inj h
    obtain rfl := Except.ok.inj hframes
    exact ⟨.refl hr, fun page phys hmem => by simp at hmem⟩
  | cons head rest ih =>
    obtain ⟨page, info⟩ := head
    rw [mapPages] at h
    split at h
    · cases h
    next phys m₁ ha =>
      have hzero := Mm.zeroed_uses hdisj hr ha
      have huses := hzero.trans
        (Mm.mapUser_uses hdisj hzero.run space page phys info.writable info.executable)
      split at h
      · cases h
      · cases h
      next m₂ hmap =>
        rw [hmap] at huses
        split at h
        · cases h
        next frames' m₃ hrest =>
          obtain ⟨hframes, rfl⟩ := Prod.mk.inj h
          obtain rfl := Except.ok.inj hframes
          obtain ⟨huses', hfree⟩ := ih huses.run hrest
          refine ⟨huses.trans huses', fun page' phys' hmem => ?_⟩
          rcases List.mem_cons.mp hmem with heq | hmem
          · obtain ⟨-, rfl⟩ := Prod.mk.inj heq
            exact (Mm.frameAlloc_free hdisj hr ha).2 phys' rfl
          · exact huses.free phys' (hfree page' phys' hmem)

/-- Loading takes free frames. -/
lemma load_uses {entry : ℕ} (h : load m image space = (.ok entry, m')) :
    m.UsesFree regions m' := by
  rw [load] at h
  split at h
  · cases h
  next p hplan =>
    split at h
    · cases h
    next frames m₁ hmap =>
      split at h
      · cases h
      next m₂ hcopy =>
        obtain ⟨-, rfl⟩ := Prod.mk.inj h
        obtain ⟨huses, hfree⟩ := mapPages_uses hdisj hr hmap
        have hmapped := mapPages_ok hdisj hr (plan_touched hplan).sorted (plan_aligned hplan) hmap
        obtain ⟨mem, hmem⟩ := copySegments_eq image frames p.segments m₁
        have hinj : ∀ {va va' a}, locate frames va = some a → locate frames va' = some a → va = va' :=
          hmapped.injective
        obtain ⟨hbytes, -⟩ := copySegments_ok hinj hcopy
        rw [hcopy] at hmem
        obtain rfl : m₂ = { m₁ with mem } := hmem
        refine huses.write fun a hne => ?_
        -- only places of the image are written, and they lie in frames of pass 2
        by_contra hnot
        refine hne (hbytes a fun seg hseg c hc hat => hnot ?_)
        obtain ⟨phys, hphys, rfl⟩ := Option.map_eq_some_iff.mp hat
        have hframe := hfree _ phys (mem_of_lookup hphys)
        have hlt := Nat.mod_lt (seg.vaddr + c) frameSize_pos
        rw [sub_pageDown, Mm.pageDown_frame hframe (Nat.le_add_right _ _) (by omega)]
        exact hframe

end Elf

lemma allocMapPages_uses (space n va : ℕ) :
    m.UsesFree regions (allocMapPages space n va m).2 := by
  unfold allocMapPages
  generalize 0 = phys
  induction n generalizing va phys m with
  | zero => exact .refl hr
  | succ n ih =>
    have hfirst := Mm.allocMapUser_uses hdisj hr space va true false
    rw [mapRun]
    split
    next heq => rw [heq] at hfirst; exact hfirst
    next heq => rw [heq] at hfirst; exact hfirst
    next m₁ heq =>
      rw [heq] at hfirst
      exact hfirst.trans (ih hfirst.run _ _)

/-- So does a new process. -/
lemma create_uses {p : Process} (h : create plat m pid = (.done p, m')) : m.UsesFree regions m' := by
  unfold create Mm.vspaceNew at h
  split at h
  · cases h
  next space m₁ hnew =>
    have hspace : m.UsesFree regions m₁ := by
      split at hnew
      · cases hnew
      next l4 m₂ ha =>
        obtain ⟨-, rfl⟩ := Prod.mk.inj hnew
        have huses := Mm.frameAlloc_uses hdisj hr ha
        exact ⟨huses.run, huses.live, huses.free, huses.bytes⟩
    split at h
    · cases h
    · cases h
    next entry m₂ hload =>
      have hloads := hspace.trans (Elf.load_uses hdisj hspace.run hload)
      have hstack := allocMapPages_uses hdisj hloads.run space userStackPages userStackVa
      split at h
      · cases h
      · cases h
      next m₃ heq =>
        obtain ⟨-, rfl⟩ := Prod.mk.inj h
        rw [heq] at hstack
        exact hloads.trans hstack

end Process

/-! ## Whole runs -/

/-- Only RAM is ever free. -/
lemma AllocatorRun.isRam_of_free {al : PhysFrameAllocator} {calls : List FrameCall}
    (h : AllocatorRun regions al calls)
    (hdisj : (regions.map Region.rounded).Pairwise Region.Disjoint) (hf : al.Free f) :
    IsRam regions f := by
  have hin : al.InRegion f := by
    rcases hf.2 with hmem | hahead
    · exact ((h.tracks hdisj).settled f (.inl hmem)).2.1
    · exact hahead.inRegion
  obtain ⟨r, hr, hlo, hhi⟩ := hin
  obtain ⟨r₀, hr₀, rfl⟩ := h.mem_regions hr
  exact ⟨r₀, hr₀, (le_pageUp _).trans hlo, hhi.trans (pageDown_le _)⟩

/-- No free frame is mapped in any state of a run in which no `FRAME_ALLOC` frees what it has mapped. -/
theorem freeUnmapped_run {ts : List KernelStep} {k : Kernel} (hplat : plat.WellFormed)
    (h : Run (xernel plat) ts k) (hts : ∀ t ∈ ts, t.pre.freesMapped t.event = false) :
    k.mm.FreeUnmapped := by
  have huse := frameUse_run hplat h hts
  have haligned := aligned_run hplat.regions h
  rintro l4 va phys ⟨hva, hok⟩ hphys hfree
  have hlow : va / frameSize < lowerHalfPages := by
    simp only [frameSize, lowerHalfPages]
    omega
  obtain ⟨leaf, hleaf, rfl⟩ := Option.map_eq_some_iff.mp hphys
  unfold Mm.userPageOk at hok
  rw [hleaf] at hok
  have hok : leaf.flags.userAccessible = true := by simpa using hok
  rw [PageTables.leaf, PageTables.tree, if_pos hlow] at hleaf
  -- the address lies in the frame of the page
  have hframe : pageDown (leaf.phys + va % frameSize) = leaf.phys := by
    obtain ⟨c, hc⟩ := haligned _ _ _ hleaf
    rw [hc]
    simp only [pageDown, frameSize]
    omega
  rw [hframe] at hfree
  have hmaps : k.mm.pt.UserMaps (some l4) leaf.phys := ⟨_, leaf, hleaf, hok, rfl⟩
  have hram := huse.run.isRam_of_free hplat.regions hfree
  exact (huse.run.tracks hplat.regions).not_live hfree (huse.mapped _ _ hmaps hram).1

end Xernel
