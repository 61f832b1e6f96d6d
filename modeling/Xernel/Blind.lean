import Xernel.Permissions
import Xernel.Writes

/-!
# What the kernel does not read

The kernel reads the bytes of physical memory in few places: the buffer of a `WRITE`, the environment of
a `SPAWN_ENV`. Everything else depends on tables, lists and registers alone. `Mm.Blind` compares a
function on two memories that differ in some bytes: it returns the same value, the bytes that agreed
still agree, and whatever the function maps for ring 3 agrees, because new frames are zeroed.
-/

namespace Xernel

open Mm (Builds)

variable {α β : Type*} {plat : Platform} {regions : List Region} {m m' m'' : Mm} {k k' : Kernel}
  {μ μ' μ'' : ℕ → UInt8} {l4 a : ℕ}

namespace Mm

/-- The same memory with other bytes in it. -/
def withMem (m : Mm) (μ : ℕ → UInt8) : Mm := { m with mem := μ }

/-- The `len` bytes from `phys` on are the same in `m` and in `μ`. -/
def SameAt (m : Mm) (μ : ℕ → UInt8) (phys len : ℕ) : Prop :=
  ∀ off < len, μ (phys + off) = m.mem (phys + off)

/-- From `m` to `m'`, next to the bytes `μ` that became `μ'`: what agreed still agrees, and so do the
pages newly mapped and the runs handed out. -/
structure Agrees (m : Mm) (μ : ℕ → UInt8) (m' : Mm) (μ' : ℕ → UInt8) : Prop where
  bytes : ∀ a, μ a = m.mem a → μ' a = m'.mem a
  pages : m.Adds (fun _ leaf => m'.SameAt μ' leaf.phys frameSize) m'
  runs : ∃ l, m'.calls = m.calls ++ l ∧ ∀ n phys, .allocContiguous n (some phys) ∈ l →
    m'.SameAt μ' phys (n * frameSize)

namespace Agrees

/-- A run that is the same in both stays so. -/
lemma sameAt {phys len : ℕ} (h : Agrees m μ m' μ') (hs : m.SameAt μ phys len) :
    m'.SameAt μ' phys len := fun off hoff => h.bytes _ (hs off hoff)

/-- What agrees after each of two functions agrees after both. -/
lemma trans (h : Agrees m μ m' μ') (h' : Agrees m' μ' m'' μ'') : Agrees m μ m'' μ'' := by
  refine ⟨fun a ha => h'.bytes a (h.bytes a ha), fun l page leaf hleaf => ?_, ?_⟩
  · rcases h'.pages l page leaf hleaf with hleaf | hnew
    · exact (h.pages l page leaf hleaf).imp_right h'.sameAt
    · exact .inr hnew
  · obtain ⟨l, hl, hruns⟩ := h.runs
    obtain ⟨l', hl', hruns'⟩ := h'.runs
    refine ⟨l ++ l', by rw [hl', hl, List.append_assoc], fun n phys hmem => ?_⟩
    rcases List.mem_append.mp hmem with hmem | hmem
    · exact h'.sameAt (hruns n phys hmem)
    · exact hruns' n phys hmem

/-- Nothing is mapped, and no run is taken. -/
lemma of_pt {calls : List FrameCall} (hpt : m'.pt = m.pt) (hcalls : m'.calls = m.calls ++ calls)
    (hnone : ∀ n phys, .allocContiguous n (some phys) ∉ calls)
    (hbytes : ∀ a, μ a = m.mem a → μ' a = m'.mem a) : Agrees m μ m' μ' :=
  ⟨hbytes, .of_pt hpt, calls, hcalls, fun n phys hmem => absurd hmem (hnone n phys)⟩

/-- A function that only writes bytes, the same ones in both. -/
lemma of_bytes {mem : ℕ → UInt8} (hbytes : ∀ a, μ a = m.mem a → μ' a = mem a) :
    Agrees m μ { m with mem } μ' :=
  of_pt rfl (List.append_nil _).symm (fun _ _ => List.not_mem_nil) hbytes

lemma refl (m : Mm) (μ : ℕ → UInt8) : Agrees m μ m μ := of_bytes fun _ h => h

end Agrees

/-- Two results of a function on `m`, on its own bytes and on the bytes `μ`: they differ in bytes only,
and those agree as `Agrees` says. -/
def Blind (regions : List Region) (m : Mm) (μ : ℕ → UInt8) (r r' : α × Mm) : Prop :=
  AllocatorRun regions r.2.frames r.2.calls ∧
    ∃ μ', r' = (r.1, r.2.withMem μ') ∧ Agrees m μ r.2 μ'

namespace Blind

variable {r r' : α × Mm} {s s' : β × Mm}

lemma refl (hr : AllocatorRun regions m.frames m.calls) (μ : ℕ → UInt8) (x : α) :
    Blind regions m μ (x, m) (x, m.withMem μ) := ⟨hr, μ, rfl, .refl m μ⟩

/-- A function that goes on from a state that agrees. -/
lemma of_agrees (hag : Agrees m μ m' μ') (h : Blind regions m' μ' r r') : Blind regions m μ r r' := by
  obtain ⟨hr, μ'', heq, hag'⟩ := h
  exact ⟨hr, μ'', heq, hag.trans hag'⟩

/-- What follows starts from bytes that agree. -/
lemma bind (h : Blind regions m μ r r')
    (h' : ∀ μ', r' = (r.1, r.2.withMem μ') → Agrees m μ r.2 μ' →
      AllocatorRun regions r.2.frames r.2.calls → Blind regions r.2 μ' s s') :
    Blind regions m μ s s' := by
  obtain ⟨hr, μ₁, rfl, hag⟩ := h
  exact .of_agrees hag (h' μ₁ rfl hag hr)

end Blind

/-! ## Mapping -/

lemma frameAlloc_withMem (m : Mm) (μ : ℕ → UInt8) :
    (m.withMem μ).frameAlloc = (m.frameAlloc.1, m.frameAlloc.2.withMem μ) := rfl

/-- Tables are not read from the memory that is compared. -/
lemma createNextTable_withMem (m : Mm) (μ : ℕ → UInt8) (l4 page level : ℕ) :
    (m.withMem μ).createNextTable l4 page level =
      ((m.createNextTable l4 page level).1, (m.createNextTable l4 page level).2.withMem μ) := by
  have htable : ((m.withMem μ).pt.tree l4 page).tables level (page / 512 ^ level) =
      (m.pt.tree l4 page).tables level (page / 512 ^ level) := rfl
  rw [createNextTable, createNextTable, frameAlloc_withMem, htable]
  cases (m.pt.tree l4 page).tables level (page / 512 ^ level) with
  | some _ => rfl
  | none => cases m.frameAlloc with | mk got m₁ => cases got <;> rfl

/-- The tables on the way to a page are made in the same way. -/
lemma createTables_withMem (l4 page : ℕ) (levels : List ℕ) (m : Mm) (μ : ℕ → UInt8) :
    createTables l4 page levels (m.withMem μ) =
      ((createTables l4 page levels m).1, (createTables l4 page levels m).2.withMem μ) := by
  induction levels generalizing m with
  | nil => rfl
  | cons level levels ih =>
    rw [createTables, createTables, createNextTable_withMem]
    cases m.createNextTable l4 page level with
    | mk ok m₁ => cases ok with
      | false => rfl
      | true => exact ih m₁

/-- So is the entry. -/
lemma mapWithFlags_withMem (m : Mm) (μ : ℕ → UInt8) (l4 virt phys : ℕ) (flags : PageFlags) :
    (m.withMem μ).mapWithFlags l4 virt phys flags =
      ((m.mapWithFlags l4 virt phys flags).1, (m.mapWithFlags l4 virt phys flags).2.withMem μ) := by
  have hmap : ∀ (page : ℕ) (leaf : Leaf), (m.withMem μ).mapTo l4 page leaf =
      ((m.mapTo l4 page leaf).1, (m.mapTo l4 page leaf).2.withMem μ) := by
    intro page leaf
    rw [mapTo, mapTo, createTables_withMem]
    cases createTables l4 page [3, 2, 1] m with
    | mk ok m₁ => cases ok with
      | false => rfl
      | true =>
        have hleaf : (m₁.withMem μ).pt.leaf l4 page = m₁.pt.leaf l4 page := rfl
        dsimp only
        rw [hleaf]
        cases m₁.pt.leaf l4 page <;> rfl
  rw [mapWithFlags, mapWithFlags, hmap]
  split
  · cases m.mapTo l4 (virt / frameSize) { phys := pageDown phys, flags } with
    | mk e m₁ => cases e <;> rfl
  · rfl

/-- A page of device memory is mapped in the same way. -/
lemma mapUserDevice_withMem (m : Mm) (μ : ℕ → UInt8) (l4 virt phys : ℕ) :
    (m.withMem μ).mapUserDevice l4 virt phys =
      ((m.mapUserDevice l4 virt phys).1, (m.mapUserDevice l4 virt phys).2.withMem μ) := by
  rw [mapUserDevice, mapUserDevice, mapWithFlags_withMem]
  generalize m.mapWithFlags l4 virt phys _ = r
  obtain ⟨o, m₁⟩ := r
  cases o with
  | done | panic => rfl
  | failed e => cases e <;> rfl

/-- Mapping takes frames for tables one by one. -/
lemma createTables_calls (l4 page : ℕ) (levels : List ℕ) (m : Mm) :
    ∃ l, (createTables l4 page levels m).2.calls = m.calls ++ l ∧
      ∀ n phys, .allocContiguous n (some phys) ∉ l := by
  induction levels generalizing m with
  | nil => exact ⟨[], by simp [createTables], by simp⟩
  | cons level levels ih =>
    have hnext : ∃ l, (m.createNextTable l4 page level).2.calls = m.calls ++ l ∧
        ∀ n phys, .allocContiguous n (some phys) ∉ l := by
      rw [createNextTable]
      split
      · exact ⟨[], by simp, by simp⟩
      · split <;>
          (next ha => have hcalls := frameAlloc_calls ha; exact ⟨_, hcalls, by simp⟩)
    rw [createTables]
    split
    next heq => rw [heq] at hnext; exact hnext
    next m₁ heq =>
      rw [heq] at hnext
      obtain ⟨l, hl, hnone⟩ := hnext
      obtain ⟨l', hl', hnone'⟩ := ih m₁
      refine ⟨l ++ l', by rw [hl', hl, List.append_assoc], fun n phys hmem => ?_⟩
      exact (List.mem_append.mp hmem).elim (hnone n phys) (hnone' n phys)

/-- Mapping takes single frames only. -/
lemma mapWithFlags_calls (m : Mm) (l4 virt phys : ℕ) (flags : PageFlags) :
    ∃ l, (m.mapWithFlags l4 virt phys flags).2.calls = m.calls ++ l ∧
      ∀ n phys, .allocContiguous n (some phys) ∉ l := by
  have hmap : ∀ (page : ℕ) (leaf : Leaf), (m.mapTo l4 page leaf).2.calls =
      (createTables l4 page [3, 2, 1] m).2.calls := by
    intro page leaf
    rw [mapTo]
    split
    next heq => rw [heq]
    next heq => rw [heq]; split <;> rfl
  rw [mapWithFlags]
  split
  · have htables := createTables_calls l4 (virt / frameSize) [3, 2, 1] m
    rw [← hmap (virt / frameSize) { phys := pageDown phys, flags }] at htables
    split <;> (next heq => rw [heq] at htables; exact htables)
  · exact ⟨[], by simp, by simp⟩

end Mm

section Alloc

variable (hr : AllocatorRun regions m.frames m.calls)

include hr

namespace Mm

/-- A frame whose bytes agree is mapped. -/
lemma mapWithFlags_blind {phys : ℕ} (flags : PageFlags)
    (hframe : m.SameAt μ (pageDown phys) frameSize) (l4 virt : ℕ) :
    Blind regions m μ (m.mapWithFlags l4 virt phys flags)
      ((m.withMem μ).mapWithFlags l4 virt phys flags) := by
  have hb : Builds ⟨.univ, .univ, .univ⟩ m ∅ (m.mapWithFlags l4 virt phys flags).2 ∅ :=
    mapWithFlags_builds le_rfl (fun _ => trivial) fun _ _ => ⟨trivial, .inl trivial⟩
  have hmem := m.mapWithFlags_mem l4 virt phys flags
  obtain ⟨l, hl, hnone⟩ := m.mapWithFlags_calls l4 virt phys flags
  refine ⟨hb.run hr, μ, mapWithFlags_withMem .., fun a ha => by rw [hmem]; exact ha, ?_,
    l, hl, fun n f hf => absurd hf (hnone n f)⟩
  refine .of_atMost (mapWithFlags_atMost ..) fun leaf hleaf off hoff => ?_
  rw [Set.mem_singleton_iff.mp hleaf, hmem]
  exact hframe off hoff

/-- A frame whose bytes are the same in both may be mapped. -/
lemma mapUserDevice_blind {phys : ℕ} (hframe : m.SameAt μ (pageDown phys) frameSize) (l4 virt : ℕ) :
    Blind regions m μ (m.mapUserDevice l4 virt phys) ((m.withMem μ).mapUserDevice l4 virt phys) := by
  obtain ⟨hrun, μ', heq, hag⟩ := mapWithFlags_blind hr deviceFlags hframe l4 virt
  have hmm : (m.mapUserDevice l4 virt phys).2 = (m.mapWithFlags l4 virt phys deviceFlags).2 := by
    rw [mapUserDevice_eq]
    rfl
  have hμ : (m.mapWithFlags l4 virt phys deviceFlags).2.withMem μ =
      (m.mapWithFlags l4 virt phys deviceFlags).2.withMem μ' := by
    rw [mapWithFlags_withMem] at heq
    exact (Prod.mk.inj heq).2
  refine ⟨by rw [hmm]; exact hrun, μ', ?_, by rw [hmm]; exact hag⟩
  rw [mapUserDevice_withMem, hmm, hμ]

/-- The same with other flags. -/
lemma mapUser_blind {phys : ℕ} (hframe : m.SameAt μ (pageDown phys) frameSize) (l4 virt : ℕ)
    (writable executable : Bool) :
    Blind regions m μ (m.mapUser l4 virt phys writable executable)
      ((m.withMem μ).mapUser l4 virt phys writable executable) :=
  mapWithFlags_blind hr _ hframe l4 virt

end Mm

/-- A loop that maps pages is blind if its body is. -/
lemma mapRun_blind {map : Mm → ℕ → ℕ → Mm.MapOutcome × Mm} (n va phys : ℕ)
    (hmap : ∀ m' μ', AllocatorRun regions m'.frames m'.calls → Mm.Agrees m μ m' μ' → ∀ i < n,
      Mm.Blind regions m' μ' (map m' (va + i * frameSize) (phys + i * frameSize))
        (map (m'.withMem μ') (va + i * frameSize) (phys + i * frameSize))) :
    Mm.Blind regions m μ (mapRun map n va phys m) (mapRun map n va phys (m.withMem μ)) := by
  induction n generalizing va phys m μ with
  | zero => exact .refl hr μ _
  | succ n ih =>
    have hfirst := hmap m μ hr (.refl m μ) 0 (Nat.succ_pos n)
    rw [Nat.zero_mul, Nat.add_zero, Nat.add_zero] at hfirst
    refine hfirst.bind fun μ₁ heq hag hr₁ => ?_
    rw [mapRun, mapRun, heq]
    generalize hres : map m va phys = res at hag hr₁
    obtain ⟨o, m₁⟩ := res
    cases o with
    | panic => exact .refl hr₁ μ₁ _
    | failed e => exact .refl hr₁ μ₁ _
    | done =>
      refine ih hr₁ (va + frameSize) (phys + frameSize) fun m' μ' hr' hag' i hi => ?_
      have hnext := hmap m' μ' hr' (hag.trans hag') (i + 1) (Nat.succ_lt_succ hi)
      rw [Nat.succ_mul, Nat.add_comm (i * frameSize), ← Nat.add_assoc, ← Nat.add_assoc] at hnext
      exact hnext

/-- A run of such frames may be mapped. -/
lemma mapRun_mapUser_blind {n phys : ℕ}
    (hrun : ∀ i < n, m.SameAt μ (pageDown (phys + i * frameSize)) frameSize) (l4 va : ℕ) :
    Mm.Blind regions m μ (mapRun (fun m va phys => m.mapUser l4 va phys true false) n va phys m)
      (mapRun (fun m va phys => m.mapUser l4 va phys true false) n va phys (m.withMem μ)) :=
  mapRun_blind hr n va phys fun _ _ hr' hag i hi =>
    Mm.mapUser_blind hr' (hag.sameAt (hrun i hi)) l4 _ true false

/-- A run of device memory may be. -/
lemma mapRun_mapUserDevice_blind {n phys : ℕ}
    (hrun : ∀ i < n, m.SameAt μ (pageDown (phys + i * frameSize)) frameSize) (l4 va : ℕ) :
    Mm.Blind regions m μ (mapRun (fun m va phys => m.mapUserDevice l4 va phys) n va phys m)
      (mapRun (fun m va phys => m.mapUserDevice l4 va phys) n va phys (m.withMem μ)) :=
  mapRun_blind hr n va phys fun _ _ hr' hag i hi =>
    Mm.mapUserDevice_blind hr' (hag.sameAt (hrun i hi)) l4 _

end Alloc

/-! ## New frames -/

namespace Mm

/-- Frames that are zeroed agree afterwards. -/
lemma zero_agrees (m : Mm) (μ : ℕ → UInt8) (phys len : ℕ) : ∃ μ',
    (m.withMem μ).zero phys len = (m.zero phys len).withMem μ' ∧
      (∀ a, μ a = m.mem a → μ' a = (m.zero phys len).mem a) ∧
      (m.zero phys len).SameAt μ' phys len := by
  refine ⟨fun a => if phys ≤ a ∧ a < phys + len then 0 else μ a, rfl, fun a ha => ?_,
    fun off hoff => ?_⟩
  · show (if _ then _ else _) = if _ then _ else _
    rw [ha]
  · have hin : phys ≤ phys + off ∧ phys + off < phys + len := by omega
    show (if _ then _ else _) = if _ then _ else _
    rw [if_pos hin, if_pos hin]

lemma frameAlloc_agrees {got : Option ℕ} (ha : m.frameAlloc = (got, m')) (μ : ℕ → UInt8) :
    Agrees m μ m' μ := by
  obtain ⟨rfl, rfl⟩ := Prod.mk.inj ha
  exact .of_pt rfl rfl (by simp) fun _ h => h

/-! ## Writing -/

/-- A byte that is written is the same in both afterwards. -/
lemma setByte_agrees (m : Mm) (μ : ℕ → UInt8) (phys : ℕ) (b : UInt8) :
    Agrees m μ (m.setByte phys b) (Function.update μ phys b) := by
  refine .of_bytes fun a ha => ?_
  rw [Function.update_apply, Function.update_apply, ha]

/-- So are several bytes. -/
lemma writePhys_agrees (m : Mm) (μ : ℕ → UInt8) (phys : ℕ) (bytes : List UInt8) : ∃ μ',
    (m.withMem μ).writePhys phys bytes = (m.writePhys phys bytes).withMem μ' ∧
      Agrees m μ (m.writePhys phys bytes) μ' := by
  induction bytes generalizing m μ phys with
  | nil => exact ⟨μ, rfl, .refl m μ⟩
  | cons b bytes ih =>
    obtain ⟨μ', heq, hag⟩ := ih (m.setByte phys b) (Function.update μ phys b) (phys + 1)
    exact ⟨μ', heq, (setByte_agrees m μ phys b).trans hag⟩

/-- The same bytes are written on both sides. -/
lemma writeUser_agrees (m : Mm) (μ : ℕ → UInt8) (l4 ptr : ℕ) (bytes : List UInt8) : ∃ μ',
    (m.withMem μ).writeUser l4 ptr bytes = (m.writeUser l4 ptr bytes).withMem μ' ∧
      Agrees m μ (m.writeUser l4 ptr bytes) μ' := by
  induction bytes generalizing m μ ptr with
  | nil => exact ⟨μ, rfl, .refl m μ⟩
  | cons b bytes ih =>
    have hphys : (m.withMem μ).physOf l4 ptr = m.physOf l4 ptr := rfl
    have hbyte : ∃ μ₁, (m.withMem μ).writeByte l4 ptr b = (m.writeByte l4 ptr b).withMem μ₁ ∧
        Agrees m μ (m.writeByte l4 ptr b) μ₁ := by
      rw [writeByte, writeByte, hphys]
      cases m.physOf l4 ptr with
      | none => exact ⟨μ, rfl, .refl m μ⟩
      | some phys => exact ⟨_, rfl, setByte_agrees m μ phys b⟩
    obtain ⟨μ₁, heq₁, hag₁⟩ := hbyte
    obtain ⟨μ₂, heq₂, hag₂⟩ := ih (m.writeByte l4 ptr b) μ₁ (ptr + 1)
    refine ⟨μ₂, ?_, hag₁.trans hag₂⟩
    rw [writeUser, heq₁, heq₂]
    rfl

variable (hdisj : (regions.map Region.rounded).Pairwise Region.Disjoint)

include hdisj

/-- A run that is handed out agrees once it is zeroed. -/
lemma zeroedRun_agrees (hr : AllocatorRun regions m.frames m.calls) {n phys : ℕ} (hn : n < 2 ^ 40)
    (ha : m.frameAllocContiguous n = (some phys, m')) (μ : ℕ → UInt8) : ∃ μ',
    (m'.withMem μ).zero phys (n * frameSize) = (m'.zero phys (n * frameSize)).withMem μ' ∧
      Agrees m μ (m'.zero phys (n * frameSize)) μ' ∧
      AllocatorRun regions m'.frames m'.calls ∧
      ∀ i < n, (m'.zero phys (n * frameSize)).SameAt μ' (pageDown (phys + i * frameSize)) frameSize := by
  have hrun : AllocatorRun regions m'.frames m'.calls :=
    (Builds.refl.contiguous hn ha : Builds ⟨.univ, .univ, .univ⟩ m ∅ m' _).run hr
  obtain ⟨hgot, rfl⟩ := Prod.mk.inj ha
  obtain ⟨μ', heq, hbytes, hsame⟩ :=
    zero_agrees { m with frames := _, calls := _ } μ phys (n * frameSize)
  refine ⟨μ', heq, ⟨hbytes, .of_pt rfl, _, rfl, fun n' phys' hmem => ?_⟩, hrun, fun i hi off hoff => ?_⟩
  · rw [hgot] at hmem
    obtain ⟨rfl, hphys⟩ := FrameCall.allocContiguous.inj (List.mem_singleton.mp hmem)
    obtain rfl := Option.some.inj hphys
    exact hsame
  · have hfree := (hr.tracks hdisj).allocContiguous_run rfl phys hgot _ (mem_blockRun.mpr ⟨i, hi, rfl⟩)
    rw [pageDown_of_dvd hfree.1, Nat.add_assoc]
    refine hsame _ ?_
    have hpage : (i + 1) * frameSize ≤ n * frameSize := Nat.mul_le_mul_right _ hi
    rw [Nat.succ_mul] at hpage
    omega

/-- A fresh page is zeroed before it is mapped. -/
lemma allocMapUser_blind (hr : AllocatorRun regions m.frames m.calls) (μ : ℕ → UInt8)
    (l4 virt : ℕ) (writable executable : Bool) :
    Blind regions m μ (m.allocMapUser l4 virt writable executable)
      ((m.withMem μ).allocMapUser l4 virt writable executable) := by
  rw [allocMapUser, allocMapUser, frameAlloc_withMem]
  cases ha : m.frameAlloc with
  | mk got m₁ => cases got with
    | none =>
      have huses := frameAlloc_uses hdisj hr ha
      exact .of_agrees (frameAlloc_agrees ha μ) (.refl huses.run μ _)
    | some phys =>
      have hzero := zeroed_uses hdisj hr ha
      have hal : pageDown phys = phys := pageDown_of_dvd ((frameAlloc_free hdisj hr ha).2 phys rfl).1
      obtain ⟨μ', heq, hbytes, hsame⟩ := zero_agrees m₁ μ phys frameSize
      have hag := (frameAlloc_agrees ha μ).trans
        (.of_bytes hbytes : Agrees m₁ μ (m₁.zero phys frameSize) μ')
      dsimp only
      rw [heq]
      exact .of_agrees hag (mapUser_blind hzero.run (by rw [hal]; exact hsame) l4 virt writable executable)

end Mm

section Create

variable (hdisj : (regions.map Region.rounded).Pairwise Region.Disjoint)

include hdisj

/-- Stack and heap are made of fresh pages. -/
lemma allocMapPages_blind (hr : AllocatorRun regions m.frames m.calls) (μ : ℕ → UInt8)
    (space n va : ℕ) :
    Mm.Blind regions m μ (allocMapPages space n va m) (allocMapPages space n va (m.withMem μ)) :=
  mapRun_blind hr n va 0 fun _ μ' hr' _ _ _ => Mm.allocMapUser_blind hdisj hr' μ' space _ true false

namespace Elf

variable (image : List UInt8) (frames : List (ℕ × ℕ)) (space : ℕ)

/-- The pages of the image are fresh. -/
lemma mapPages_blind : ∀ (pages : List (ℕ × PageInfo)) (m : Mm) (μ : ℕ → UInt8),
    AllocatorRun regions m.frames m.calls →
      Mm.Blind regions m μ (mapPages space pages m) (mapPages space pages (m.withMem μ)) := by
  intro pages
  induction pages with
  | nil => exact fun m μ hr => .refl hr μ _
  | cons head rest ih =>
    intro m μ hr
    obtain ⟨page, info⟩ := head
    have hpage := Mm.allocMapUser_blind hdisj hr μ space page info.writable info.executable
    rw [mapPages, mapPages, Mm.frameAlloc_withMem]
    rw [Mm.allocMapUser, Mm.allocMapUser, Mm.frameAlloc_withMem] at hpage
    cases ha : m.frameAlloc with
    | mk got m₁ =>
      rw [ha] at hpage
      cases got with
      | none =>
        obtain ⟨hr', μ', heq, hag⟩ := hpage
        exact ⟨hr', μ', Prod.ext rfl (Prod.mk.inj heq).2, hag⟩
      | some phys =>
        refine hpage.bind fun μ' heq hag hr' => ?_
        dsimp only at heq hag hr' ⊢
        rw [heq]
        generalize Mm.mapUser _ _ _ _ _ _ = res at hag hr'
        obtain ⟨o, m₂⟩ := res
        cases o with
        | panic => exact .refl hr' μ' _
        | failed e => exact .refl hr' μ' _
        | done =>
          refine (ih m₂ μ' hr').bind fun μ₂ heq₂ hag₂ hr₂ => ?_
          dsimp only
          rw [heq₂]
          cases hm : mapPages space rest m₂ with
          | mk got' m₃ =>
            rw [hm] at hr₂
            cases got' with
            | error e => exact .refl hr₂ μ₂ _
            | ok frames => exact .refl hr₂ μ₂ _

omit hdisj in
/-- The bytes of a segment come from the image. -/
lemma copySegment_blind (seg : Segment) : ∀ (fuel copied : ℕ) (m : Mm) (μ : ℕ → UInt8),
    AllocatorRun regions m.frames m.calls →
      Mm.Blind regions m μ (copySegment image frames seg fuel copied m)
        (copySegment image frames seg fuel copied (m.withMem μ)) := by
  intro fuel
  induction fuel with
  | zero => exact fun copied m μ hr => .refl hr μ _
  | succ fuel ih =>
    intro copied m μ hr
    rw [copySegment, copySegment]
    split
    · exact .refl hr μ _
    split
    · exact .refl hr μ _
    dsimp only
    split
    · exact .refl hr μ _
    split
    · exact .refl hr μ _
    split
    · exact .refl hr μ _
    next phys _ _ _ =>
      generalize hbytes : List.take _ _ = bytes
      generalize hdst : phys + _ = dst
      obtain ⟨μ', heq, hag⟩ := m.writePhys_agrees μ dst bytes
      rw [heq]
      refine .of_agrees hag (ih _ _ μ' ?_)
      obtain ⟨mem, hmem⟩ := Mm.writePhys_eq m dst bytes
      rw [hmem]
      exact hr

omit hdisj in
/-- So do all segments. -/
lemma copySegments_blind : ∀ (segs : List Segment) (m : Mm) (μ : ℕ → UInt8),
    AllocatorRun regions m.frames m.calls →
      Mm.Blind regions m μ (copySegments image frames segs m)
        (copySegments image frames segs (m.withMem μ)) := by
  intro segs
  induction segs with
  | nil => exact fun m μ hr => .refl hr μ _
  | cons seg segs ih =>
    intro m μ hr
    refine (copySegment_blind image frames seg seg.filesz 0 m μ hr).bind
      fun μ' heq hag hr' => ?_
    rw [copySegments, copySegments, heq]
    generalize copySegment image frames seg seg.filesz 0 m = res at hr'
    obtain ⟨o, m₁⟩ := res
    cases o with
    | error e => exact .refl hr' μ' _
    | ok => exact ih m₁ μ' hr'

/-- Loading depends on the image only. -/
lemma load_blind (hr : AllocatorRun regions m.frames m.calls) (μ : ℕ → UInt8) :
    Mm.Blind regions m μ (load m image space) (load (m.withMem μ) image space) := by
  rw [load, load]
  cases plan image with
  | error e => exact .refl hr μ _
  | ok p =>
    refine (mapPages_blind hdisj space p.pages m μ hr).bind fun μ₁ heq hag hr₁ => ?_
    dsimp only
    rw [heq]
    generalize mapPages space p.pages m = res at hr₁
    obtain ⟨o, m₁⟩ := res
    cases o with
    | error e => exact .refl hr₁ μ₁ _
    | ok frames =>
      refine (copySegments_blind image frames p.segments m₁ μ₁ hr₁).bind
        fun μ₂ heq₂ hag₂ hr₂ => ?_
      dsimp only
      rw [heq₂]
      generalize copySegments image frames p.segments m₁ = res₂ at hr₂
      obtain ⟨o₂, m₂⟩ := res₂
      cases o₂ with
      | error e => exact .refl hr₂ μ₂ _
      | ok => exact .refl hr₂ μ₂ _

end Elf

/-- A new space maps nothing. -/
lemma Mm.vspaceNew_blind (hr : AllocatorRun regions m.frames m.calls) (μ : ℕ → UInt8) :
    Blind regions m μ m.vspaceNew (m.withMem μ).vspaceNew := by
  rw [vspaceNew, vspaceNew, frameAlloc_withMem]
  cases ha : m.frameAlloc with
  | mk got m₁ =>
    have huses := frameAlloc_uses hdisj hr ha
    cases got with
    | none => exact .of_agrees (frameAlloc_agrees ha μ) (.refl huses.run μ _)
    | some l4 =>
      have hag := frameAlloc_agrees ha μ
      refine ⟨huses.run, μ, rfl, hag.bytes, fun l page leaf hleaf => ?_, hag.runs⟩
      rw [PageTables.leaf_eq_half, PageTables.half_newSpace] at hleaf
      split at hleaf
      · cases hleaf
      · rw [← PageTables.leaf_eq_half, frameAlloc_leaf ha] at hleaf
        exact .inl hleaf

/-- So does a new process. -/
lemma create_blind (plat : Platform) (hr : AllocatorRun regions m.frames m.calls) (μ : ℕ → UInt8)
    (pid : ℕ) :
    Mm.Blind regions m μ (create plat m pid) (create plat (m.withMem μ) pid) := by
  refine (Mm.vspaceNew_blind hdisj hr μ).bind fun μ₁ heq hag hr₁ => ?_
  rw [create, create, heq]
  generalize m.vspaceNew = res at hr₁
  obtain ⟨o, m₁⟩ := res
  cases o with
  | none => exact .refl hr₁ μ₁ _
  | some space =>
    refine (Elf.load_blind hdisj plat.image space hr₁ μ₁).bind fun μ₂ heq₂ hag₂ hr₂ => ?_
    dsimp only
    rw [heq₂]
    generalize Elf.load m₁ plat.image space = res₂ at hr₂
    obtain ⟨o₂, m₂⟩ := res₂
    cases o₂ with
    | error e => cases e <;> exact .refl hr₂ μ₂ _
    | ok entry =>
      refine (allocMapPages_blind hdisj hr₂ μ₂ space userStackPages userStackVa).bind
        fun μ₃ heq₃ hag₃ hr₃ => ?_
      dsimp only
      rw [heq₃]
      generalize allocMapPages space userStackPages userStackVa m₂ = res₃ at hr₃
      obtain ⟨o₃, m₃⟩ := res₃
      cases o₃ with
      | panic => exact .refl hr₃ μ₃ _
      | failed => exact .refl hr₃ μ₃ _
      | done => exact .refl hr₃ μ₃ _

end Create

/-! ## Reading -/

namespace Mm

/-- Reads of space `l4` at the addresses in `S` find the same bytes. -/
def ReadsSame (m : Mm) (μ : ℕ → UInt8) (l4 : ℕ) (S : Set ℕ) : Prop :=
  ∀ va ∈ S, ∀ a, m.physOf l4 va = some a → μ a = m.mem a

variable {S S' : Set ℕ}

lemma ReadsSame.mono (h : m.ReadsSame μ l4 S) (hS : S' ⊆ S) : m.ReadsSame μ l4 S' :=
  fun va hva => h va (hS hva)

/-- A new page agrees, and an old one still does. -/
lemma ReadsSame.agrees (h : m.ReadsSame μ l4 S) (hag : Agrees m μ m' μ') : m'.ReadsSame μ' l4 S := by
  intro va hva a hphys
  rw [physOf, Option.map_eq_some_iff] at hphys
  obtain ⟨leaf, hleaf, rfl⟩ := hphys
  rcases hag.pages _ _ _ hleaf with hold | hnew
  · refine hag.bytes _ (h va hva _ ?_)
    rw [physOf, hold, Option.map_some]
  · exact hnew _ (Nat.mod_lt va frameSize_pos)

/-- The addresses that ring-3 code on space `l4` can read. -/
def Readable (m : Mm) (l4 : ℕ) : Set ℕ := {va | m.userPageOk l4 false va = true}

/-- What became readable agrees as well. -/
lemma ReadsSame.readable (h : m.ReadsSame μ l4 (m.Readable l4)) (hag : Agrees m μ m' μ') :
    m'.ReadsSame μ' l4 (m'.Readable l4) := by
  intro va hva a hphys
  obtain ⟨leaf, hleaf, huser, -⟩ := userPageOk_iff.mp hva
  rw [physOf, hleaf, Option.map_some, Option.some.injEq] at hphys
  subst hphys
  rcases hag.pages _ _ _ hleaf with hold | hnew
  · refine hag.bytes _ (h va (userPageOk_iff.mpr ⟨leaf, hold, huser, by simp⟩) _ ?_)
    rw [physOf, hold, Option.map_some]
  · exact hnew _ (Nat.mod_lt va frameSize_pos)

/-- A byte that is the same in both is read as the same. -/
lemma ReadsSame.readByte {va : ℕ} (h : m.ReadsSame μ l4 S) (hva : va ∈ S) :
    (m.withMem μ).readByte l4 va = m.readByte l4 va := by
  have hphys : (m.withMem μ).physOf l4 va = m.physOf l4 va := rfl
  rw [Mm.readByte, Mm.readByte, hphys]
  cases hp : m.physOf l4 va with
  | none => rfl
  | some a => exact h va hva a hp

/-- So is a buffer. -/
lemma ReadsSame.readUser {ptr len : ℕ} (h : m.ReadsSame μ l4 S) (hS : ∀ i < len, ptr + i ∈ S) :
    (m.withMem μ).readUser l4 ptr len = m.readUser l4 ptr len :=
  List.map_congr_left fun i hi => h.readByte (hS i (List.mem_range.mp hi))

end Mm

/-! ## The environment of a child -/

namespace Kernel

variable {S : Set ℕ}

/-- Bytes copied from where reads are the same make both agree at the destination. -/
lemma copyBytes_agrees (cr3 : ℕ) : ∀ (n src dst : ℕ) (m : Mm) (μ : ℕ → UInt8),
    m.ReadsSame μ cr3 S → (∀ j < n, src + j ∈ S) → ∃ μ',
      copyBytes cr3 n src dst (m.withMem μ) = (copyBytes cr3 n src dst m).withMem μ' ∧
        Mm.Agrees m μ (copyBytes cr3 n src dst m) μ' := by
  intro n
  induction n with
  | zero => exact fun _ _ m μ _ _ => ⟨μ, rfl, .refl m μ⟩
  | succ n ih =>
    intro src dst m μ hread hS
    have hbyte := hread.readByte (hS 0 (Nat.succ_pos n))
    rw [Nat.add_zero] at hbyte
    have hset := m.setByte_agrees μ dst (m.readByte cr3 src)
    obtain ⟨μ', heq, hag⟩ := ih (src + 1) (dst + 1) (m.setByte dst (m.readByte cr3 src)) _
      (hread.agrees hset) fun j hj => by
        rw [Nat.add_right_comm, Nat.add_assoc]
        exact hS (j + 1) (Nat.succ_lt_succ hj)
    refine ⟨μ', ?_, hset.trans hag⟩
    rw [copyBytes, hbyte]
    exact heq

/-- The environment is read where the parent can read it. -/
lemma copyEnv_blind (hdisj : (regions.map Region.rounded).Pairwise Region.Disjoint)
    (cr3 space envpPtr envpLen : ℕ) (hS : ∀ j < envpLen, envpPtr + j ∈ S) :
    ∀ (n i : ℕ) (m : Mm) (μ : ℕ → UInt8), AllocatorRun regions m.frames m.calls →
      m.ReadsSame μ cr3 S →
      Mm.Blind regions m μ (copyEnv cr3 space envpPtr envpLen n i m)
        (copyEnv cr3 space envpPtr envpLen n i (m.withMem μ)) := by
  intro n
  induction n with
  | zero => exact fun _ m μ hr _ => .refl hr μ _
  | succ n ih =>
    intro i m μ hr hread
    refine (Mm.allocMapUser_blind hdisj hr μ space (heapStart + i * frameSize) true false).bind
      fun μ₁ heq hag hr₁ => ?_
    rw [copyEnv, copyEnv]
    dsimp only
    rw [heq]
    generalize m.allocMapUser space (heapStart + i * frameSize) true false = res at hag hr₁
    obtain ⟨o, m₁⟩ := res
    cases o with
    | panic => exact .refl hr₁ μ₁ _
    | failed e => exact .refl hr₁ μ₁ _
    | done =>
      have hread₁ := hread.agrees hag
      have hphys : (m₁.withMem μ₁).physOf space (heapStart + i * frameSize) =
          m₁.physOf space (heapStart + i * frameSize) := rfl
      dsimp only
      rw [hphys]
      cases m₁.physOf space (heapStart + i * frameSize) with
      | none => exact .refl hr₁ μ₁ _
      | some dst =>
        obtain ⟨μ₂, heq₂, hag₂⟩ := copyBytes_agrees cr3 (min (envpLen - i * frameSize) frameSize)
          (envpPtr + i * frameSize) dst m₁ μ₁ hread₁ fun j hj => by
            rw [Nat.add_assoc]
            exact hS _ (by omega)
        obtain ⟨mem, hmem⟩ := copyBytes_eq cr3 (min (envpLen - i * frameSize) frameSize)
          (envpPtr + i * frameSize) dst m₁
        dsimp only
        rw [heq₂]
        exact .of_agrees hag₂ (ih (i + 1) _ μ₂ (by rw [hmem]; exact hr₁) (hread₁.agrees hag₂))

end Kernel

end Xernel
