import Xernel.Arch.KeyboardTheorems
import Xernel.FreeFrames
import Xernel.UserBuffer

/-!
# What a step writes

A step changes bytes of physical memory in two ways: in frames that were free when it began, and where
ring-3 code of the running process could have written itself. `Mm.Writes` says so; it is proved for
every handler, on its failure exits as well, and `step_writes` collects the handlers.
-/

namespace Xernel

open Mm (Builds)

variable {plat : Platform} {regions : List Region} {m m' m'' : Mm} {k k' : Kernel} {l4 a : ℕ}

/-! ## The allocator -/

/-- The frames of a run that is handed out were free. -/
lemma PhysFrameAllocator.Tracks.allocContiguous_run {al al' : PhysFrameAllocator} {live : List ℕ}
    {n : ℕ} {got : Option ℕ} (h : al.Tracks live) (ha : al.allocContiguous n = (got, al')) :
    ∀ base, got = some base → ∀ f ∈ blockRun frameSize base n, al.Free f := by
  unfold PhysFrameAllocator.allocContiguous at ha
  split at ha
  · obtain ⟨rfl, -⟩ := Prod.mk.inj ha
    exact fun base hbase => by cases hbase
  · exact (h.bump_free ha).2

/-- An address of a run lies in one of its frames. -/
lemma pageDown_mem_blockRun {phys n : ℕ} (hal : frameSize ∣ phys) (hlo : phys ≤ a)
    (hhi : a < phys + n * frameSize) : pageDown a ∈ blockRun frameSize phys n := by
  refine mem_blockRun_of_bounds frameSize_pos hal (frameSize_dvd_pageDown a) ?_
    (Nat.lt_of_le_of_lt (pageDown_le a) hhi)
  obtain ⟨c, rfl⟩ := hal
  simp only [pageDown, frameSize] at hlo ⊢
  omega

/-! ## Leaf entries stay -/

/-- Building up memory keeps the leaf entries of a space in use. -/
lemma Mm.Builds.leaf_kept {s : Scope} {U V : Set ℕ} {page : ℕ} {leaf : Leaf}
    (h : Builds s m U m' V) (hdisj : (regions.map Region.rounded).Pairwise Region.Disjoint)
    (hr : AllocatorRun regions m.frames m.calls) (hl4 : l4 ∈ Xernel.handedOut m.calls)
    (hleaf : m.pt.leaf l4 page = some leaf) : m'.pt.leaf l4 page = some leaf := by
  induction h with
  | refl => exact hleaf
  | bytes _ _ ih | leak _ _ ih => exact ih
  | alloc _ ha ih => rw [Mm.frameAlloc_leaf ha]; exact ih
  | contiguous _ _ ha ih => rw [(frameAllocContiguous_calls ha).2]; exact ih
  | @space m₁ m₂ V l h ha _ ih =>
    -- the new space is another one
    have hne : l4 ≠ l := by
      rintro rfl
      exact (fresh_of_frameAlloc hdisj (h.run hr) ha).1 (h.handedOut hl4)
    have hhome : PageTables.home l4 page ≠ some l := by
      rw [PageTables.home]
      split
      · exact fun heq => hne (Option.some.inj heq)
      · exact fun heq => by cases heq
    rw [PageTables.leaf_eq_half, PageTables.half_newSpace, if_neg hhome, ← PageTables.leaf_eq_half,
      Mm.frameAlloc_leaf ha]
    exact ih
  | table _ ha _ _ ih => rw [PageTables.leaf_setTable, Mm.frameAlloc_leaf ha]; exact ih
  | @leaf m₁ V W l p phys flags _ _ hnone _ _ ih =>
    rw [PageTables.leaf_setLeaf, setLeafAt, if_neg]
    · exact ih
    · rintro ⟨hhome, rfl⟩
      rw [PageTables.leaf_eq_half, hhome, ← PageTables.leaf_eq_half, hnone] at ih
      cases ih

/-! ## Writes of a handler -/

namespace Mm

/-- Ring-3 code on space `l4` can write to the byte at physical address `a`. -/
def Writable (m : Mm) (l4 a : ℕ) : Prop :=
  ∃ va, m.userPageOk l4 true va = true ∧ m.physOf l4 va = some a

/-- From `m` to `m'`, with space `l4` active, bytes changed only in frames that were free and where
ring-3 code on `l4` could have changed them. -/
def Touches (l4 : ℕ) (m m' : Mm) : Prop :=
  ∀ a, m'.mem a ≠ m.mem a → m.frames.Free (pageDown a) ∨ m'.Writable l4 a

/-- The same of a piece of a handler, with what the next piece relies on: frames are taken as the
allocator expects, and leaf entries stay. -/
structure Writes (regions : List Region) (l4 : ℕ) (m m' : Mm) : Prop where
  run : AllocatorRun regions m'.frames m'.calls
  live : ∀ f ∈ handedOut m.calls, f ∈ handedOut m'.calls
  free : ∀ f, m'.frames.Free f → m.frames.Free f
  leaves : ∀ page leaf, m.pt.leaf l4 page = some leaf → m'.pt.leaf l4 page = some leaf
  bytes : Touches l4 m m'

/-- A function that writes no byte. -/
lemma Touches.of_mem (h : m'.mem = m.mem) : Touches l4 m m' := fun _ hne => absurd (by rw [h]) hne

/-- What may be written stays so as long as no entry is changed. -/
lemma Writable.mono (h : m.Writable l4 a)
    (hleaves : ∀ page leaf, m.pt.leaf l4 page = some leaf → m'.pt.leaf l4 page = some leaf) :
    m'.Writable l4 a := by
  obtain ⟨va, hok, hphys⟩ := h
  obtain ⟨leaf, hleaf, huser, hw⟩ := userPageOk_iff.mp hok
  refine ⟨va, userPageOk_iff.mpr ⟨leaf, hleaves _ _ hleaf, huser, hw⟩, ?_⟩
  rw [physOf, hleaf] at hphys
  rw [physOf, hleaves _ _ hleaf, hphys]

namespace Writes

lemma refl (hr : AllocatorRun regions m.frames m.calls) : m.Writes regions l4 m :=
  ⟨hr, fun _ hf => hf, fun _ hf => hf, fun _ _ h => h, fun _ hne => absurd rfl hne⟩

/-- Two functions in a row. -/
lemma trans (h : m.Writes regions l4 m') (h' : m'.Writes regions l4 m'') :
    m.Writes regions l4 m'' := by
  refine ⟨h'.run, fun f hf => h'.live f (h.live f hf), fun f hf => h.free f (h'.free f hf),
    fun page leaf hleaf => h'.leaves page leaf (h.leaves page leaf hleaf), fun a hne => ?_⟩
  by_cases hsame : m''.mem a = m'.mem a
  · rw [hsame] at hne
    exact (h.bytes a hne).imp_right fun hw => hw.mono h'.leaves
  · exact (h'.bytes a hsame).imp_left (h.free _)

/-- Building up memory without writing to it. -/
lemma of_builds {s : Scope} {U V : Set ℕ}
    (hdisj : (regions.map Region.rounded).Pairwise Region.Disjoint)
    (hr : AllocatorRun regions m.frames m.calls) (hl4 : l4 ∈ handedOut m.calls)
    (h : Builds s m U m' V) (hmem : m'.mem = m.mem) : m.Writes regions l4 m' :=
  ⟨h.run hr, fun _ hf => h.handedOut hf, fun _ hf => h.free hdisj hr hf,
    fun _ _ hleaf => h.leaf_kept hdisj hr hl4 hleaf, fun a hne => absurd (by rw [hmem]) hne⟩

/-- Only free frames are used, on the way of building up memory. -/
lemma of_uses {s : Scope} {U V : Set ℕ}
    (hdisj : (regions.map Region.rounded).Pairwise Region.Disjoint)
    (hr : AllocatorRun regions m.frames m.calls) (hl4 : l4 ∈ handedOut m.calls)
    (h : Builds s m U m' V) (huses : m.UsesFree regions m') : m.Writes regions l4 m' :=
  ⟨huses.run, huses.live, huses.free, fun _ _ hleaf => h.leaf_kept hdisj hr hl4 hleaf,
    fun a hne => .inl (huses.bytes a hne)⟩

/-- Bytes of a buffer that was checked are written. -/
lemma user (hr : AllocatorRun regions m.frames m.calls) {ptr : ℕ} {bytes : List UInt8}
    (hok : ∀ i < bytes.length, m.userPageOk l4 true (ptr + i) = true) :
    m.Writes regions l4 (m.writeUser l4 ptr bytes) := by
  obtain ⟨mem, hmem⟩ := writeUser_eq m l4 ptr bytes
  have hpt : (m.writeUser l4 ptr bytes).pt = m.pt := by rw [hmem]
  refine ⟨by rw [hmem]; exact hr, fun f hf => by rw [hmem]; exact hf,
    fun f hf => by rw [hmem] at hf; exact hf, fun _ _ hleaf => by rw [hpt]; exact hleaf,
    fun a hne => .inr ?_⟩
  by_contra hnot
  refine hne (writeUser_mem_other fun i hi hphys => hnot ?_)
  refine Writable.mono ⟨ptr + i, hok i hi, hphys⟩ fun _ _ hleaf => ?_
  rw [hpt]
  exact hleaf

end Writes
end Mm

/-! ## Creating a process, whether that succeeds or not -/

section Create

variable (hdisj : (regions.map Region.rounded).Pairwise Region.Disjoint)

include hdisj

namespace Elf

variable {image : List UInt8} {frames : List (ℕ × ℕ)} {space : ℕ}

/-- The loader zeroes the frames it takes. -/
lemma mapPages_onlyFree : ∀ (pages : List (ℕ × PageInfo)) (m : Mm),
    AllocatorRun regions m.frames m.calls → m.UsesFree regions (mapPages space pages m).2 := by
  intro pages
  induction pages with
  | nil => exact fun m hr => .refl hr
  | cons head rest ih =>
    intro m hr
    obtain ⟨page, info⟩ := head
    rw [mapPages]
    split
    next ha => exact Mm.frameAlloc_uses hdisj hr ha
    next phys m₁ ha =>
      have hzero := Mm.zeroed_uses hdisj hr ha
      have huses := hzero.trans
        (Mm.mapUser_uses hdisj hzero.run space page phys info.writable info.executable)
      split
      next heq => rw [heq] at huses; exact huses
      next heq => rw [heq] at huses; exact huses
      next m₂ heq =>
        rw [heq] at huses
        have hrest := huses.trans (ih m₂ huses.run)
        split <;> (next heq' => rw [heq'] at hrest; exact hrest)

omit hdisj

/-- Pass 3 only writes to the frames it is given. -/
lemma copySegment_bytes (seg : Segment) : ∀ (fuel copied : ℕ) (m : Mm) (a : ℕ),
    (copySegment image frames seg fuel copied m).2.mem a ≠ m.mem a →
      ∃ pg ∈ frames, pg.2 ≤ a ∧ a < pg.2 + frameSize := by
  intro fuel
  induction fuel with
  | zero => exact fun copied m a hne => absurd rfl hne
  | succ fuel ih =>
    intro copied m a hne
    rw [copySegment] at hne
    split at hne
    · exact absurd rfl hne
    split at hne
    · exact absurd rfl hne
    dsimp only at hne
    split at hne
    · exact absurd rfl hne
    next phys hphys =>
      split at hne
      · exact absurd rfl hne
      split at hne
      · exact absurd rfl hne
      next hbound =>
        generalize hm : m.writePhys _ _ = m₁ at hne
        by_cases hsame : m₁.mem a = m.mem a
        · rw [← hsame] at hne
          exact ih _ _ _ hne
        · -- the piece that is written lies in one page
          rw [← hm, writePhys_mem] at hsame
          have hpage := sub_pageDown (seg.vaddr + copied)
          have hlt := Nat.mod_lt (seg.vaddr + copied) frameSize_pos
          split at hsame
          next hlo =>
            refine ⟨_, mem_of_lookup hphys, by omega, ?_⟩
            by_contra hhi
            refine hsame ?_
            rw [List.getElem?_eq_none, Option.getD_none]
            rw [List.length_take, List.length_drop]
            omega
          next => exact absurd rfl hsame

/-- The segments are copied into the frames of the pages mapped before. -/
lemma copySegments_bytes : ∀ (segs : List Segment) (m : Mm) (a : ℕ),
    (copySegments image frames segs m).2.mem a ≠ m.mem a →
      ∃ pg ∈ frames, pg.2 ≤ a ∧ a < pg.2 + frameSize := by
  intro segs
  induction segs with
  | nil => exact fun m a hne => absurd rfl hne
  | cons seg segs ih =>
    intro m a hne
    have hseg := @copySegment_bytes image frames seg seg.filesz 0 m a
    rw [copySegments] at hne
    split at hne
    next heq => rw [heq] at hseg; exact hseg hne
    next m₁ heq =>
      rw [heq] at hseg
      by_cases hsame : m₁.mem a = m.mem a
      · rw [← hsame] at hne
        exact ih m₁ a hne
      · exact hseg hsame

include hdisj

/-- Loading writes to frames that were free. -/
lemma load_onlyFree (hr : AllocatorRun regions m.frames m.calls) :
    m.UsesFree regions (load m image space).2 := by
  rw [load]
  split
  · exact .refl hr
  next p hplan =>
    have hmap := @mapPages_onlyFree regions hdisj space p.pages m hr
    split
    next heq => rw [heq] at hmap; exact hmap
    next frames m₁ heq =>
      rw [heq] at hmap
      have hfree := (mapPages_uses hdisj hr heq).2
      obtain ⟨mem, hmem⟩ := copySegments_eq image frames p.segments m₁
      have hcopy : m.UsesFree regions (copySegments image frames p.segments m₁).2 := by
        rw [hmem]
        refine hmap.write fun a hne => ?_
        have hne : (copySegments image frames p.segments m₁).2.mem a ≠ m₁.mem a := by
          rw [hmem]; exact hne
        obtain ⟨⟨page, phys⟩, hpg, hlo, hhi⟩ := copySegments_bytes _ _ _ hne
        have hframe := hfree page phys hpg
        rw [Mm.pageDown_frame hframe hlo hhi]
        exact hframe
      split <;> (next heq' => rw [heq'] at hcopy; exact hcopy)

end Elf

/-- So does the creation of a process. -/
lemma create_onlyFree (hr : AllocatorRun regions m.frames m.calls) (pid : ℕ) :
    m.UsesFree regions (create plat m pid).2 := by
  have hspace : m.UsesFree regions m.vspaceNew.2 := by
    rw [Mm.vspaceNew]
    split
    next ha => exact Mm.frameAlloc_uses hdisj hr ha
    next l4 m₁ ha =>
      have huses := Mm.frameAlloc_uses hdisj hr ha
      exact ⟨huses.run, huses.live, huses.free, huses.bytes⟩
  rw [create]
  split
  next heq => rw [heq] at hspace; exact hspace
  next space m₁ heq =>
    rw [heq] at hspace
    have hload := hspace.trans (@Elf.load_onlyFree regions m₁ hdisj plat.image space hspace.run)
    split
    next heq' => rw [heq'] at hload; exact hload
    next heq' => rw [heq'] at hload; exact hload
    next entry m₂ heq' =>
      rw [heq'] at hload
      have hstack := hload.trans
        (allocMapPages_uses hdisj hload.run space userStackPages userStackVa)
      split <;> (next heq'' => rw [heq''] at hstack; exact hstack)

namespace Kernel

omit hdisj in
/-- A copy changes the destination only. -/
lemma copyBytes_bytes (cr3 : ℕ) : ∀ (n src dst : ℕ) (m : Mm) (a : ℕ),
    (copyBytes cr3 n src dst m).mem a ≠ m.mem a → dst ≤ a ∧ a < dst + n := by
  intro n
  induction n with
  | zero => exact fun src dst m a hne => absurd rfl hne
  | succ n ih =>
    intro src dst m a hne
    rw [copyBytes] at hne
    by_cases ha : a = dst
    · omega
    · have hset : (m.setByte dst (m.readByte cr3 src)).mem a = m.mem a := Function.update_of_ne ha _ _
      rw [← hset] at hne
      have := ih _ _ _ _ hne
      omega

/-- The environment is copied to fresh pages. -/
lemma copyEnv_onlyFree (cr3 space envpPtr envpLen : ℕ) : ∀ (n i : ℕ) (m : Mm),
    AllocatorRun regions m.frames m.calls →
      m.UsesFree regions (copyEnv cr3 space envpPtr envpLen n i m).2 := by
  intro n
  induction n with
  | zero => exact fun i m hr => .refl hr
  | succ n ih =>
    intro i m hr
    have hpage := Mm.allocMapUser_uses hdisj hr space (heapStart + i * frameSize) true false
    rw [copyEnv]
    dsimp only
    split
    next heq => rw [heq] at hpage; exact hpage
    next heq => rw [heq] at hpage; exact hpage
    next m₁ heq =>
      rw [heq] at hpage
      split
      · exact hpage
      next dst hdst =>
        obtain ⟨mem, hmem⟩ := copyBytes_eq cr3 (min (envpLen - i * frameSize) frameSize)
          (envpPtr + i * frameSize) dst m₁
        have hcopy : m.UsesFree regions (copyBytes cr3 (min (envpLen - i * frameSize) frameSize)
            (envpPtr + i * frameSize) dst m₁) := by
          rw [hmem]
          refine hpage.write fun a hne => ?_
          have hne : (copyBytes cr3 (min (envpLen - i * frameSize) frameSize)
              (envpPtr + i * frameSize) dst m₁).mem a ≠ m₁.mem a := by rw [hmem]; exact hne
          obtain ⟨hlo, hhi⟩ := copyBytes_bytes cr3 _ _ _ _ _ hne
          -- the page starts at the frame it was mapped to
          obtain ⟨f, hfree, -, hleaf, -⟩ := Mm.allocMapUser_page hdisj hr heq
          have hat : dst = f := by
            rw [Mm.physOf, hleaf, setLeafAt, if_pos ⟨rfl, rfl⟩] at hdst
            have hoff : (heapStart + i * frameSize) % frameSize = 0 := by
              simp only [heapStart, frameSize]
              omega
            rw [hoff] at hdst
            exact (Option.some.inj hdst).symm
          subst hat
          rw [Mm.pageDown_frame hfree hlo (by omega)]
          exact hfree
        exact hcopy.trans (ih (i + 1) _ hcopy.run)

end Kernel
end Create

/-! ## Mapping -/

section Map

variable (hdisj : (regions.map Region.rounded).Pairwise Region.Disjoint)
  (hr : AllocatorRun regions m.frames m.calls) (hl4 : l4 ∈ handedOut m.calls)

include hdisj hr hl4

namespace Mm

/-- Mapping writes no byte. -/
lemma mapWithFlags_writes (virt phys : ℕ) (flags : PageFlags) :
    m.Writes regions l4 (m.mapWithFlags l4 virt phys flags).2 := by
  have hb : Builds ⟨.univ, .univ, .univ⟩ m ∅ (m.mapWithFlags l4 virt phys flags).2 ∅ :=
    mapWithFlags_builds le_rfl (fun _ => trivial) fun _ _ => ⟨trivial, .inl trivial⟩
  exact .of_builds hdisj hr hl4 hb (mapWithFlags_mem ..)

/-- A fresh page is zeroed. -/
lemma allocMapUser_writes (virt : ℕ) (writable executable : Bool) :
    m.Writes regions l4 (m.allocMapUser l4 virt writable executable).2 := by
  have huses := allocMapUser_uses hdisj hr l4 virt writable executable
  refine ⟨huses.run, huses.live, huses.free, fun page leaf hleaf => ?_,
    fun a hne => .inl (huses.bytes a hne)⟩
  rw [allocMapUser]
  split
  next ha => rw [frameAlloc_leaf ha]; exact hleaf
  next phys m₁ ha =>
    have hzero := zeroed_uses hdisj hr ha
    refine (mapWithFlags_writes hdisj hzero.run (hzero.live _ hl4) virt phys _).leaves page leaf ?_
    show m₁.pt.leaf l4 page = some leaf
    rw [frameAlloc_leaf ha]
    exact hleaf

/-- A run of frames is taken and zeroed. -/
lemma zeroedRun_writes {n phys : ℕ} (hn : n < 2 ^ 40)
    (ha : m.frameAllocContiguous n = (some phys, m')) :
    m.Writes regions l4 (m'.zero phys (n * frameSize)) := by
  have hb : Builds ⟨.univ, .univ, .univ⟩ m ∅ (m'.zero phys (n * frameSize)) _ :=
    (Builds.refl.contiguous hn ha).bytes _
  refine .of_uses hdisj hr hl4 hb (.of_builds hdisj hr hb fun a hne => ?_)
  obtain ⟨hgot, rfl⟩ := Prod.mk.inj ha
  have hin : phys ≤ a ∧ a < phys + n * frameSize := by
    by_contra hout
    exact hne (if_neg hout)
  have hrun := (hr.tracks hdisj).allocContiguous_run rfl phys hgot
  have hal : frameSize ∣ phys := (hrun phys (by
    cases n with
    | zero => omega
    | succ n => rw [blockRun_succ]; exact List.mem_cons_self)).1
  exact hrun _ (pageDown_mem_blockRun hal hin.1 hin.2)

/-- Allocation writes nothing. -/
lemma frameAllocContiguous_writes {n : ℕ} {got : Option ℕ} (hn : n < 2 ^ 40)
    (ha : m.frameAllocContiguous n = (got, m')) : m.Writes regions l4 m' := by
  have hb : Builds ⟨.univ, .univ, .univ⟩ m ∅ m' _ := Builds.refl.contiguous hn ha
  refine .of_builds hdisj hr hl4 hb ?_
  obtain ⟨-, rfl⟩ := Prod.mk.inj ha
  rfl

end Mm

omit hdisj in
/-- A loop that maps pages, one after the other. -/
lemma mapRun_writes {map : Mm → ℕ → ℕ → Mm.MapOutcome × Mm} (n va phys : ℕ)
    (hmap : ∀ (m : Mm) (va phys : ℕ), AllocatorRun regions m.frames m.calls →
      l4 ∈ handedOut m.calls → m.Writes regions l4 (map m va phys).2) :
    m.Writes regions l4 (mapRun map n va phys m).2 := by
  induction n generalizing va phys m with
  | zero => exact .refl hr
  | succ n ih =>
    have hfirst := hmap m va phys hr hl4
    rw [mapRun]
    split
    next heq => rw [heq] at hfirst; exact hfirst
    next heq => rw [heq] at hfirst; exact hfirst
    next m₁ heq =>
      rw [heq] at hfirst
      exact hfirst.trans (ih hfirst.run (hfirst.live _ hl4) _ _)

/-- Mapping a run writes no byte of it. -/
lemma mapRun_mapUser_writes (n va phys : ℕ) :
    m.Writes regions l4 (mapRun (fun m va phys => m.mapUser l4 va phys true false) n va phys m).2 :=
  mapRun_writes hr hl4 n va phys fun m va phys hr hl4 => by
    rw [Mm.mapUser_eq]
    exact m.mapWithFlags_writes hdisj hr hl4 va phys _

/-- Nor does mapping device memory. -/
lemma mapRun_mapUserDevice_writes (n va phys : ℕ) :
    m.Writes regions l4 (mapRun (fun m va phys => m.mapUserDevice l4 va phys) n va phys m).2 :=
  mapRun_writes hr hl4 n va phys fun m va phys hr hl4 => by
    rw [Mm.mapUserDevice_eq]
    exact m.mapWithFlags_writes hdisj hr hl4 va phys _

/-- Fresh pages are zeroed one by one. -/
lemma allocMapPages_writes (n va : ℕ) :
    m.Writes regions l4 (allocMapPages l4 n va m).2 :=
  mapRun_writes hr hl4 n va 0 fun m va _ hr hl4 =>
    m.allocMapUser_writes hdisj hr hl4 va true false

end Map

/-! ## System calls -/

namespace Kernel

/-- `user_slice_mut` has checked every byte of the buffer. -/
lemma userSliceMut_ok {ptr len i : ℕ} (h : k.userSliceMut ptr len = true) (hi : i < len) :
    k.mm.userPageOk k.cpu.cr3 true (ptr + i) = true := by
  have hlen : len ≠ 0 := by omega
  rw [userSliceMut, if_neg hlen] at h
  exact Mm.userPageOk_iff.mpr ((userBufferOk_iff hlen).mp h |>.2.2.2 _ (by omega) (by omega))

/-- Freeing writes nothing. -/
lemma freeRun_mem (m : Mm) (phys n : ℕ) : (freeRun m phys n).mem = m.mem := by
  induction n generalizing m phys with
  | zero => rfl
  | succ n ih => rw [freeRun, ih]; rfl

/-- Giving a run back changes neither bytes nor tables. -/
lemma frameAllocUnwind_touches {m : Mm} {phys : Option ℕ} {pages : ℕ} (h : Mm.Touches l4 m k.mm) :
    Mm.Touches l4 m (k.frameAllocUnwind phys pages).1.mm := by
  have hmm : (k.frameAllocUnwind phys pages).1.mm = phys.elim k.mm fun p => freeRun k.mm p pages := rfl
  rw [hmm]
  cases phys with
  | none => exact h
  | some phys =>
    intro a hne
    rw [Option.elim_some, freeRun_mem] at hne
    refine (h a hne).imp_right fun hw => hw.mono fun _ _ hleaf => ?_
    rw [Option.elim_some, freeRun_pt]
    exact hleaf

lemma waitPidLoop_same_mm (k : Kernel) (pid : ℕ) : (k.waitPidLoop pid).1.mm = k.mm := by
  rw [waitPidLoop]
  dsimp only
  split
  · rfl
  split
  · rfl
  split
  · rfl
  split
  next hy => exact yieldNow_mm hy
  next => rfl

section Calls

variable (hdisj : (regions.map Region.rounded).Pairwise Region.Disjoint)
  (hr : AllocatorRun regions k.mm.frames k.mm.calls) (hcr3 : k.cpu.cr3 ∈ handedOut k.mm.calls)

/-- A result is written to a buffer that was checked before. -/
lemma copyOut_writes (k₀ : Kernel) {ptr : ℕ} {bytes : List UInt8}
    (h : k.mm.Writes regions k.cpu.cr3 k₀.mm) (hsame : k₀.cpu.cr3 = k.cpu.cr3)
    (hok : ∀ i < bytes.length, k₀.mm.userPageOk k.cpu.cr3 true (ptr + i) = true) :
    k.mm.Writes regions k.cpu.cr3 (k₀.copyOut ptr bytes).mm := by
  have huser := Mm.Writes.user h.run hok
  rw [← hsame] at h huser ⊢
  exact h.trans huser

include hr

/-- A buffer that was checked is writable in the space of the caller. -/
lemma copyOut_touches {k₀ : Kernel} {ptr : ℕ} {bytes : List UInt8} (hmm : k₀.mm = k.mm)
    (hsame : k₀.cpu.cr3 = k.cpu.cr3) (hok : k₀.userSliceMut ptr bytes.length = true) :
    Mm.Touches k.cpu.cr3 k.mm (k₀.copyOut ptr bytes).mm := by
  refine (copyOut_writes k₀ (by rw [hmm]; exact .refl hr) hsame fun i hi => ?_).bytes
  rw [← hsame]
  exact userSliceMut_ok hok hi

/-- What was typed goes to such a buffer. -/
lemma readKeys_touches {ptr len : ℕ}
    (hok : ∀ i < len, k.mm.userPageOk k.cpu.cr3 true (ptr + i) = true) :
    Mm.Touches k.cpu.cr3 k.mm (k.readKeys ptr len).2.mm := by
  refine (copyOut_writes { k with dev := _ } (.refl hr) rfl fun i hi => hok i ?_).bytes
  exact Nat.lt_of_lt_of_le hi (Keyboard.Ring.length_drain_le ..)

/-- In a blocking read the pages were checked before the caller was parked. -/
lemma readLoop_touches {ptr len : ℕ}
    (hok : ∀ i < len, k.mm.userPageOk k.cpu.cr3 true (ptr + i) = true) :
    Mm.Touches k.cpu.cr3 k.mm (k.readLoop ptr len).1.mm := by
  have hkeys := readKeys_touches hr hok
  rw [readLoop]
  split
  next => exact .of_mem rfl
  next heq => rw [heq] at hkeys; exact hkeys

/-- The buffer of a receiver is checked when there is a message. -/
lemma deliverMessage_touches {k₀ : Kernel} {msg : Message} {outPtr dstSlot : ℕ}
    (hmm : k₀.mm = k.mm) (hsame : k₀.cpu.cr3 = k.cpu.cr3) :
    Mm.Touches k.cpu.cr3 k.mm (k₀.deliverMessage msg outPtr dstSlot).1.mm := by
  have hwrite : ∀ {k₁ : Kernel}, k₁.mm = k.mm → k₁.cpu.cr3 = k.cpu.cr3 →
      Mm.Touches k.cpu.cr3 k.mm
        (if k₁.userSliceMut outPtr 8 then (k₁.copyOut outPtr (leBytes 8 msg.1), some 0)
          else (k₁, some u64Max)).1.mm := by
    intro k₁ hmm hsame
    split
    next hok => exact copyOut_touches hr hmm hsame (by rwa [length_leBytes])
    next => exact .of_mem (by rw [hmm])
  rw [deliverMessage]
  dsimp only
  split
  · exact hwrite hmm hsame
  split
  · exact hwrite hmm hsame
  split
  · exact .of_mem (by rw [hmm])
  next k₁ hins =>
    obtain ⟨caps, -, rfl⟩ := currentCapInstall_eq_some hins
    exact hwrite hmm hsame

/-- A receive that blocks writes nothing. -/
lemma recvLoop_touches {id outPtr dstSlot : ℕ} :
    Mm.Touches k.cpu.cr3 k.mm (k.recvLoop id outPtr dstSlot).1.mm := by
  rw [recvLoop]
  split
  · exact deliverMessage_touches hr rfl rfl
  · exact .of_mem (by rw [blockOn_mm])

/-- A log is read into a buffer that was checked. -/
lemma sysLogRead_touches {slot outPtr max : ℕ} :
    Mm.Touches k.cpu.cr3 k.mm (k.sysLogRead slot outPtr max).1.mm := by
  rw [sysLogRead]
  split
  · exact .of_mem rfl
  next pid _ =>
    dsimp only
    split
    next hok =>
      obtain ⟨hmm, hsame, hle⟩ : (k.logRead pid (min max 65536)).2.mm = k.mm ∧
          (k.logRead pid (min max 65536)).2.cpu.cr3 = k.cpu.cr3 ∧
          (k.logRead pid (min max 65536)).1.length ≤ min max 65536 := by
        rw [logRead]
        split
        · refine ⟨rfl, rfl, ?_⟩
          rw [List.length_take]
          omega
        · exact ⟨rfl, rfl, Nat.zero_le _⟩
      refine (copyOut_writes (k.logRead pid (min max 65536)).2 (by rw [hmm]; exact .refl hr)
        hsame fun i hi => ?_).bytes
      rw [hmm]
      exact userSliceMut_ok hok (Nat.lt_of_lt_of_le hi hle)
    next => exact .of_mem rfl

include hdisj hcr3

/-- Mapping the framebuffer writes none of its bytes. -/
lemma sysFbInfo_touches (plat : Platform) {ptr : ℕ} :
    Mm.Touches k.cpu.cr3 k.mm (k.sysFbInfo plat ptr).1.mm := by
  rw [sysFbInfo]
  split
  · exact .of_mem rfl
  next fb _ =>
    dsimp only
    have hrun := mapRun_mapUserDevice_writes hdisj hr hcr3
      (pagesFor (fb.phys - pageDown fb.phys + fb.height * fb.pitch)) fbUserVa (pageDown fb.phys)
    split
    next heq => rw [heq] at hrun; exact hrun.bytes
    next heq => rw [heq] at hrun; exact hrun.bytes
    next mm heq =>
      rw [heq] at hrun
      split
      next hok =>
        refine (copyOut_writes { k with mm } hrun rfl fun i hi => userSliceMut_ok hok ?_).bytes
        simpa [length_leBytes] using hi
      next => exact hrun.bytes

/-- Nor does mapping device memory. -/
lemma sysIomap_touches {phys len : ℕ} :
    Mm.Touches k.cpu.cr3 k.mm (k.sysIomap phys len).1.mm := by
  rw [sysIomap]
  split
  · exact .of_mem rfl
  dsimp only
  split
  · exact .of_mem rfl
  split
  · exact .of_mem rfl
  · have hrun := mapRun_mapUserDevice_writes hdisj hr hcr3
      (pagesFor (phys - pageDown phys + len)) k.win.nextMmioVa (pageDown phys)
    split <;> (next heq => rw [heq] at hrun; exact hrun.bytes)

/-- The heap grows by fresh pages. -/
lemma orMax_sbrk_touches {delta : ℤ} (hspace : k.cpu.cr3 = k.sched.cur.space) :
    Mm.Touches k.cpu.cr3 k.mm (orMax (k.sbrk delta)).1.mm := by
  rw [orMax_mm, sbrk]
  dsimp only
  split
  · exact .of_mem rfl
  split
  · exact .of_mem rfl
  split
  · exact .of_mem rfl
  generalize (if delta > 0 then _ else _ : ℕ) = new
  split
  · exact .of_mem rfl
  split
  · rw [← hspace]
    have hrun := allocMapPages_writes hdisj hr hcr3
      ((pageUp new - pageUp k.sched.cur.heapBreak) / frameSize) (pageUp k.sched.cur.heapBreak)
    split <;> (next heq => rw [heq] at hrun; exact hrun.bytes)
  · exact .of_mem rfl

/-- A DMA buffer is zeroed when it is allocated. -/
lemma dmaAllocCharged_touches {pages outPtr : ℕ} (hpages : pages < 2 ^ 40) :
    Mm.Touches k.cpu.cr3 k.mm (k.dmaAllocCharged pages outPtr).2.mm := by
  rw [dmaAllocCharged]
  split
  next mm ha => exact (Mm.frameAllocContiguous_writes hdisj hr hcr3 hpages ha).bytes
  next phys mm ha =>
    have hzero := Mm.zeroedRun_writes hdisj hr hcr3 hpages ha
    dsimp only
    split
    · exact hzero.bytes
    · have hrun := hzero.trans (mapRun_mapUser_writes hdisj hzero.run (hzero.live _ hcr3) pages
        k.win.nextDmaVa phys)
      split
      next heq => rw [heq] at hrun; exact hrun.bytes
      next heq => rw [heq] at hrun; exact hrun.bytes
      next mm' heq =>
        rw [heq] at hrun
        split
        next hok =>
          refine (copyOut_writes { k with mm := mm', win := _ } hrun rfl
            fun i hi => userSliceMut_ok hok ?_).bytes
          simpa [length_leBytes] using hi
        next => exact hrun.bytes

/-- The charge is not in memory. -/
lemma sysDmaAlloc_touches {len outPtr : ℕ} :
    Mm.Touches k.cpu.cr3 k.mm (k.sysDmaAlloc len outPtr).1.mm := by
  rw [sysDmaAlloc]
  split
  · exact .of_mem rfl
  next hlen =>
    have hpages : pagesFor len < 2 ^ 40 := by
      simp only [pagesFor, frameSize]
      omega
    dsimp only
    split
    · exact .of_mem rfl
    next k₁ hcharge =>
      obtain ⟨caps, -, rfl⟩ := currentChargeUntyped_eq_some hcharge
      have hrun : Mm.Touches k.cpu.cr3 k.mm
          ({ k with sched := k.sched.setCaps caps }.dmaAllocCharged (pagesFor len) outPtr).2.mm :=
        dmaAllocCharged_touches (k := { k with sched := k.sched.setCaps caps }) hdisj hr hcr3 hpages
      split <;> (next heq => rw [heq] at hrun; exact hrun)

/-- `map_shared` only writes to the tables. -/
lemma mapShared_writes (phys pages : ℕ) :
    k.mm.Writes regions k.cpu.cr3 (k.mapShared phys pages).2.mm ∧
      (k.mapShared phys pages).2.cpu = k.cpu := by
  rw [mapShared]
  dsimp only
  split
  · exact ⟨.refl hr, rfl⟩
  · have hrun := mapRun_mapUser_writes hdisj hr hcr3 pages k.win.nextSharedVa phys
    split <;> (next heq => rw [heq] at hrun; exact ⟨hrun, rfl⟩)

/-- Mapping a Frame capability writes none of its bytes. -/
lemma sysMapFrame_touches {capSlot outPtr : ℕ} :
    Mm.Touches k.cpu.cr3 k.mm (k.sysMapFrame capSlot outPtr).1.mm := by
  rw [sysMapFrame]
  split
  · exact .of_mem rfl
  next phys pages _ =>
    obtain ⟨hmap, hcpu⟩ := mapShared_writes hdisj hr hcr3 phys pages
    split
    next heq => rw [heq] at hmap; exact hmap.bytes
    next heq => rw [heq] at hmap; exact hmap.bytes
    next va k₁ heq =>
      rw [heq] at hmap hcpu
      have hsame : k₁.cpu.cr3 = k.cpu.cr3 := congrArg Cpu.cr3 hcpu
      split
      next hok =>
        refine (copyOut_writes k₁ hmap hsame fun i hi => ?_).bytes
        rw [← hsame]
        exact userSliceMut_ok hok (by simpa [length_leBytes] using hi)
      next => exact hmap.bytes

/-- On the failure exits as well: a run that is given back keeps what was written to it. -/
lemma sysFrameAlloc_touches {pages capSlot outPtr : ℕ} :
    Mm.Touches k.cpu.cr3 k.mm (k.sysFrameAlloc pages capSlot outPtr).1.mm := by
  rw [sysFrameAlloc]
  split
  · exact .of_mem rfl
  next hpages =>
    have hlt : pages < 2 ^ 40 := by
      simp only [maxSharedPages] at hpages
      omega
    dsimp only
    split
    · exact .of_mem rfl
    next k₀ hcharge =>
      obtain ⟨caps, -, rfl⟩ := currentChargeUntyped_eq_some hcharge
      dsimp only
      split
      next mm ha =>
        exact frameAllocUnwind_touches
          (k := { k with sched := k.sched.setCaps caps, mm })
          (Mm.frameAllocContiguous_writes hdisj hr hcr3 hlt ha).bytes
      next phys mm ha =>
        have hzero := Mm.zeroedRun_writes hdisj hr hcr3 hlt ha
        obtain ⟨hmap, hcpu⟩ := mapShared_writes
          (k := { k with sched := k.sched.setCaps caps, mm := mm.zero phys (pages * frameSize) })
          hdisj hzero.run (hzero.live _ hcr3) phys pages
        have hmap : k.mm.Writes regions k.cpu.cr3 _ := hzero.trans hmap
        split
        next heq => rw [heq] at hmap; exact hmap.bytes
        next heq => rw [heq] at hmap; exact frameAllocUnwind_touches hmap.bytes
        next va k₂ heq =>
          rw [heq] at hmap hcpu
          have hsame : k₂.cpu.cr3 = k.cpu.cr3 := congrArg Cpu.cr3 hcpu
          split
          next hok =>
            have hout : k.mm.Writes regions k.cpu.cr3 (k₂.copyOut outPtr (leBytes 8 va)).mm :=
              copyOut_writes k₂ hmap hsame fun i hi => by
                rw [← hsame]
                exact userSliceMut_ok hok (by simpa [length_leBytes] using hi)
            split
            next => exact frameAllocUnwind_touches hout.bytes
            next k₃ hins =>
              obtain ⟨caps', -, rfl⟩ := currentCapInstall_eq_some hins
              exact hout.bytes
          next => exact frameAllocUnwind_touches hmap.bytes

omit hcr3

/-- Nothing but free frames is written when a process is created. -/
lemma orMax_spawn_touches (plat : Platform) {capSlot : ℕ} :
    Mm.Touches k.cpu.cr3 k.mm (orMax (k.spawn plat capSlot)).1.mm := by
  rw [orMax_mm, spawn_mm]
  exact fun a hne => .inl ((create_onlyFree hdisj hr _).bytes a hne)

/-- The parts of a child are all fresh. -/
lemma orMax_spawnEnv_touches (plat : Platform) {envpPtr envpLen capSlot : ℕ} :
    Mm.Touches k.cpu.cr3 k.mm (orMax (k.spawnEnv plat envpPtr envpLen capSlot)).1.mm := by
  rw [spawnEnv]
  split
  · exact orMax_spawn_touches hdisj hr plat
  · have hcreate := @create_onlyFree plat regions k.mm hdisj hr k.sched.nextPid
    rw [orMax_mm]
    split
    next heq => rw [heq] at hcreate; exact fun a hne => .inl (hcreate.bytes a hne)
    next heq => rw [heq] at hcreate; exact fun a hne => .inl (hcreate.bytes a hne)
    next p mm heq =>
      rw [heq] at hcreate
      split
      · exact fun a hne => .inl (hcreate.bytes a hne)
      split
      · exact fun a hne => .inl (hcreate.bytes a hne)
      dsimp only
      have henv := hcreate.trans (copyEnv_onlyFree hdisj k.cpu.cr3 p.space envpPtr envpLen
        (pagesFor envpLen) 0 mm hcreate.run)
      split
      next heq' => rw [heq'] at henv; exact fun a hne => .inl (henv.bytes a hne)
      next heq' => rw [heq'] at henv; exact fun a hne => .inl (henv.bytes a hne)
      next heq' =>
        rw [heq'] at henv
        rw [addProcess_mm]
        exact fun a hne => .inl (henv.bytes a hne)

end Calls

/-- Every system call writes only to free frames and where its caller could write. -/
theorem dispatch_touches (hdisj : (regions.map Region.rounded).Pairwise Region.Disjoint)
    (hr : AllocatorRun regions k.mm.frames k.mm.calls) (hcr3 : k.cpu.cr3 ∈ handedOut k.mm.calls)
    (hspace : k.cpu.cr3 = k.sched.cur.space) (plat : Platform) (nr : UInt64) (args : Args) (hw : Hw) :
    Mm.Touches k.cpu.cr3 k.mm (k.dispatch plat nr args hw).1.mm := by
  rw [dispatch]
  generalize Sys.decode nr = decoded
  cases decoded with
  | none => exact .of_mem rfl
  | some sys =>
    cases sys with
    | read =>
      show Mm.Touches _ _ (k.sysRead _ _).1.mm
      rw [sysRead]
      split
      next hok => exact readLoop_touches hr fun i hi => userSliceMut_ok hok hi
      next => exact .of_mem rfl
    | readNb =>
      show Mm.Touches _ _ (k.sysReadNb _ _).1.mm
      rw [sysReadNb]
      split
      next hok => exact readKeys_touches hr fun i hi => userSliceMut_ok hok hi
      next => exact .of_mem rfl
    | sbrk => exact orMax_sbrk_touches hdisj hr hcr3 hspace
    | fbInfo => exact sysFbInfo_touches hdisj hr hcr3 plat
    | iomap => exact sysIomap_touches hdisj hr hcr3
    | dmaAlloc => exact sysDmaAlloc_touches hdisj hr hcr3
    | frameAlloc => exact sysFrameAlloc_touches hdisj hr hcr3
    | mapFrame => exact sysMapFrame_touches hdisj hr hcr3
    | spawn => exact orMax_spawn_touches hdisj hr plat
    | spawnEnv => exact orMax_spawnEnv_touches hdisj hr plat
    | capIdentify =>
      show Mm.Touches _ _ (k.sysCapIdentify _ _).1.mm
      rw [sysCapIdentify]
      split
      · exact .of_mem rfl
      · split
        next hok => exact copyOut_touches hr rfl rfl (by simpa [length_leBytes] using hok)
        next => exact .of_mem rfl
    | getenvp =>
      show Mm.Touches _ _ (k.sysGetenvp _).1.mm
      rw [sysGetenvp]
      split
      next hok => exact copyOut_touches hr rfl rfl (by simpa [length_leBytes] using hok)
      next => exact .of_mem rfl
    | recv =>
      show Mm.Touches _ _ (k.sysRecv _ _ _).1.mm
      rw [sysRecv]
      split
      · exact .of_mem rfl
      · exact recvLoop_touches hr
    | logRead => exact sysLogRead_touches hr
    -- the rest leaves memory alone
    | exit => exact .of_mem (by rw [exitInner_mm])
    | send => exact .of_mem (by rw [sysSend_mm])
    | kill => exact .of_mem (by rw [sysKill_mm])
    | capGrant => exact .of_mem (by rw [sysCapGrant_mm])
    | wait =>
      refine .of_mem ?_
      show (k.sysWait _).1.mm.mem = _
      rw [sysWait]
      split
      · rfl
      · rw [waitLoop]
        split
        · rfl
        · rw [blockOn_mm]
    | waitPid =>
      refine .of_mem ?_
      show (k.sysWaitPid _).1.mm.mem = _
      rw [sysWaitPid]
      split
      · rfl
      · rw [waitPid]
        split
        · rfl
        · rw [waitPidLoop_same_mm]
    | write =>
      refine .of_mem ?_
      show (k.sysWrite _ _ _).1.mm.mem = _
      rw [sysWrite]
      split
      · rfl
      · split <;> rfl
    | yield =>
      refine .of_mem ?_
      dsimp only
      split
      next hy => rw [yieldNow_mm hy]
      next => rfl
    | portIn =>
      refine .of_mem ?_
      show (k.sysPortIn _ _ _).1.mm.mem = _
      rw [sysPortIn]
      split <;> rfl
    | portOut =>
      refine .of_mem ?_
      show (k.sysPortOut _ _ _).1.mm.mem = _
      rw [sysPortOut]
      split <;> rfl
    | signal =>
      refine .of_mem ?_
      show (k.sysSignal _ _).1.mm.mem = _
      rw [sysSignal]
      split
      · rfl
      · split <;> rfl
    | getStatus =>
      refine .of_mem ?_
      show (k.sysGetStatus _).1.mm.mem = _
      rw [sysGetStatus]
      split <;> rfl
    | debug | getTicks | sysinfo | getpid | pciRead => exact .of_mem rfl

end Kernel

end Xernel
