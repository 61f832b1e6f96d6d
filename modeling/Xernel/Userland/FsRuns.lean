import Mathlib.Data.List.Pairwise
import Mathlib.Order.CompletePartialOrder
import Mathlib.Order.Interval.Set.Disjoint
import Xernel.Userland.FsTheorems

/-!
# Runs of XernelFS

The file system is formatted once and then only creates files, on a device whose calls fail as `ok`
says. Without faults every accepted file can be read back from then on. With faults this depends on one
write: a create fills its directory entry first and bumps the free pointer last, so that a create whose
last write fails leaves an entry for sectors that the next create takes again.
-/

namespace Xernel
namespace Fs

/-- The arguments of `fs_create`. -/
structure Create where
  name : List UInt8
  data : List UInt8
  deriving Repr, DecidableEq

/-- A formatted device, on which files are created. -/
def xernelFs (ok : ℕ → Bool) : TransitionSystem Blk Create Bool where
  init b := ∃ disk calls, fsFormat ⟨disk, ok, calls⟩ = (true, b)
  step b c := some ((fsCreate b c.name c.data).2, (fsCreate b c.name c.data).1)

/-- Names a directory entry can be told from an empty one by. -/
def Named (name : List UInt8) : Prop := name ≠ [] ∧ name.head? ≠ some 0

instance (name : List UInt8) : Decidable (Named name) := by
  unfold Named
  infer_instance

lemma Named.getD {name : List UInt8} (h : Named name) : name.getD 0 0 ≠ 0 := by
  obtain ⟨hne, hhead⟩ := h
  cases name with
  | nil => exact absurd rfl hne
  | cons c name =>
    intro hc
    exact hhead (congrArg some hc)

/-! ## What the directory says -/

/-- Entry `i` of the directory is in use. -/
def Used (disk : ℕ → Sector) (i : ℕ) : Prop := i < dirEntries ∧ disk dirSector (i * entSize) ≠ 0

instance (disk : ℕ → Sector) (i : ℕ) : Decidable (Used disk i) := by
  unfold Used
  infer_instance

/-- The sectors entry `i` of the directory gives to its file. -/
def extent (disk : ℕ → Sector) (i : ℕ) : Set ℕ :=
  Set.Ico ((disk dirSector).rdU32 (i * entSize + 28))
    ((disk dirSector).rdU32 (i * entSize + 28) +
      sectorsFor ((disk dirSector).rdU32 (i * entSize + 24)))

/-- The free pointer of the superblock. -/
def nextFreeOf (disk : ℕ → Sector) : ℕ := (disk sbSector).rdU32 16

/-- The used extents are apart from each other and lie in the data region in use. -/
structure Consistent (disk : ℕ → Sector) : Prop where
  apart : ∀ i j, Used disk i → Used disk j → i ≠ j → Disjoint (extent disk i) (extent disk j)
  inside : ∀ i, Used disk i → extent disk i ⊆ Set.Ico dataStart (nextFreeOf disk)

/-- `fs_read` finds the file, and copies its contents to the front of any buffer with room for them. -/
def ReadsBack (b : Blk) (c : Create) : Prop :=
  ∀ out : List UInt8, c.data.length ≤ out.length →
    (fsRead b c.name out).1 = some c.data.length ∧
    (fsRead b c.name out).2.1 = c.data ++ out.drop c.data.length

/-- A buffer with room for the file starts with its contents after `fs_read`. -/
def FoundIn (b : Blk) (c : Create) : Prop :=
  ∀ out : List UInt8, c.data.length ≤ out.length →
    (fsRead b c.name out).1 = some c.data.length ∧
      (fsRead b c.name out).2.1.take c.data.length = c.data

lemma ReadsBack.foundIn {b : Blk} {c : Create} (h : ReadsBack b c) : FoundIn b c := by
  intro out hout
  obtain ⟨hsize, hbytes⟩ := h out hout
  refine ⟨hsize, ?_⟩
  rw [hbytes]
  exact List.take_left

section Holds

variable {disk : ℕ → Sector} {files : List File} {nextFree : ℕ} {b : Blk}

lemma Holds.used_iff (h : Holds disk files nextFree) {i : ℕ} :
    Used disk i ↔ i < files.length := by
  constructor
  · rintro ⟨-, hne⟩
    by_contra hle
    exact hne (h.free _ (Nat.mul_le_mul_right _ (Nat.le_of_not_lt hle)))
  · intro hi
    exact ⟨lt_of_lt_of_le hi h.count, h.stores.used hi⟩

lemma Holds.extent_eq (h : Holds disk files nextFree) {i : ℕ} {f : File}
    (hf : files[i]? = some f) : Fs.extent disk i = Set.Ico f.start f.stop := by
  rw [Fs.extent, h.size i f hf, h.start i f hf, File.stop]

lemma Holds.consistent (h : Holds disk files nextFree) : Consistent disk := by
  -- of two files the earlier one ends before the later one starts
  have hlt : ∀ i j, i < j → j < files.length → Disjoint (Fs.extent disk i) (Fs.extent disk j) := by
    intro i j hij hj
    have hi : i < files.length := lt_trans hij hj
    have hstop : files[i].stop ≤ files[j].start := List.pairwise_iff_getElem.mp h.apart i j hi hj hij
    rw [h.extent_eq (List.getElem?_eq_getElem hi), h.extent_eq (List.getElem?_eq_getElem hj)]
    rw [Set.disjoint_left]
    rintro s ⟨-, hs⟩ ⟨hs', -⟩
    omega
  constructor
  · intro i j hi hj hne
    rw [h.used_iff] at hi hj
    rcases Nat.lt_or_gt_of_ne hne with hij | hij
    · exact hlt i j hij hj
    · exact (hlt j i hij hi).symm
  · intro i hi
    rw [h.used_iff] at hi
    obtain ⟨hstart, hstop⟩ := h.extent files[i] (List.getElem_mem hi)
    rw [h.extent_eq (List.getElem?_eq_getElem hi), nextFreeOf, h.next]
    exact Set.Ico_subset_Ico hstart hstop

/-- The first file of a name is the one that is read back. -/
lemma Stores.readsBack (h : Stores b.disk files nextFree) (hok : ∀ n, b.ok n = true) {name : List UInt8}
    {f : File} (hf : files.find? (fun f => SameName f.name name) = some f) :
    ReadsBack b ⟨name, f.data⟩ := by
  intro out hout
  have hfind : Fs.fsFind (b.disk dirSector) name = some (f.data.length, f.start) := by
    rw [h.fsFind, hf, Option.map_some]
  obtain ⟨htrue, hbytes⟩ := readData_spec (h.contents f (List.mem_of_find?_eq_some hf))
    (b := { b with calls := b.calls + 1 }) rfl hok hout
  have hread : b.read dirSector = (some (b.disk dirSector), { b with calls := b.calls + 1 }) := by
    rw [Blk.read, if_pos (hok _)]
  rw [fsRead, hread]
  dsimp only
  rw [hfind]
  dsimp only
  generalize readData f.data.length _ 0 f.start out _ = r at htrue hbytes ⊢
  obtain ⟨done, out', b'⟩ := r
  obtain rfl : done = true := htrue
  refine ⟨rfl, List.ext_getElem? fun x => ?_⟩
  rw [hbytes x]
  split
  next hx => rw [List.getElem?_append_left hx]
  next hx =>
    rw [List.getElem?_append_right (by omega), List.getElem?_drop]
    congr 1
    omega

/-- What is found under a name is the first file that is stored under it. -/
lemma Stores.foundIn_iff (h : Stores b.disk files nextFree) (hok : ∀ n, b.ok n = true) {c : Create} :
    FoundIn b c ↔ ∃ f, files.find? (fun f => SameName f.name c.name) = some f ∧ f.data = c.data := by
  constructor
  · intro hfound
    cases hfind : files.find? (fun f => SameName f.name c.name) with
    | none =>
      -- nothing is found, so that `fs_read` ends without a size
      have hnone : (fsRead b c.name c.data).1 = none := by
        rw [fsRead, Blk.read, if_pos (hok _)]
        dsimp only
        rw [h.fsFind, hfind, Option.map_none]
      rw [(hfound c.data le_rfl).1] at hnone
      cases hnone
    | some f =>
      refine ⟨f, rfl, ?_⟩
      -- both are what one buffer with room for them then starts with
      obtain ⟨out, hout⟩ : ∃ out : List UInt8, out.length = c.data.length + f.data.length :=
        ⟨List.replicate _ 0, List.length_replicate⟩
      obtain ⟨hsize, hbytes⟩ := hfound out (by omega)
      obtain ⟨hsize', hbytes'⟩ := h.readsBack hok hfind out (by simp only; omega)
      have hlen : f.data.length = c.data.length := Option.some.inj (hsize'.symm.trans hsize)
      rw [hbytes', ← hlen, List.take_left] at hbytes
      exact hbytes
  · rintro ⟨f, hfind, hdata⟩ out hout
    have hback : ReadsBack b ⟨c.name, f.data⟩ := h.readsBack hok hfind
    rw [hdata] at hback
    exact hback.foundIn out hout

end Holds

/-! ## Without faults -/

section Faultless

variable {files : List File} {nextFree : ℕ} {b : Blk} {c : Create}

/-- A create that reports success has added its file, whatever the device. -/
lemma Holds.create_true (h : Holds b.disk files nextFree) (hname : Named c.name)
    (htrue : (fsCreate b c.name c.data).1 = true) :
    Holds (fsCreate b c.name c.data).2.disk (files ++ [⟨c.name, nextFree, c.data⟩])
      (nextFree + sectorsFor c.data.length) := by
  obtain ⟨-, habandons | hcommits⟩ := fsCreate_cases h.stores c.name c.data
  · rw [habandons.result] at htrue
    cases htrue
  · exact hcommits.holds h hname.getD (.inl htrue)

/-- A successful setup leaves its two files on the disk, in this order. -/
theorem fsSetup_holds {b' : Blk} (h : fsSetup b = (true, b')) :
    Holds b'.disk [⟨ascii "hallo.txt", 3, ascii "Hallo von XernelFS!"⟩,
      ⟨ascii "readme", 4, ascii "Xernel filesystem v1 - flach, 16 Dateien."⟩] 5 := by
  rw [fsSetup] at h
  split at h
  · cases h
  next b₁ hformat =>
    split at h
    · cases h
    next b₂ hhallo =>
      split at h
      · cases h
      next b₃ hreadme =>
        have h₁ := fsFormat_holds hformat
        have h₂ := h₁.create_true (c := ⟨ascii "hallo.txt", ascii "Hallo von XernelFS!"⟩)
          (by decide +kernel) (congrArg Prod.fst hhallo)
        rw [hhallo] at h₂
        have h₃ := h₂.create_true (c := ⟨ascii "readme",
          ascii "Xernel filesystem v1 - flach, 16 Dateien."⟩) (by decide +kernel)
          (congrArg Prod.fst hreadme)
        rw [hreadme] at h₃
        obtain ⟨-, rfl⟩ := Prod.mk.inj h
        exact h₃

/-- Without faults a create adds the file, or is refused and changes nothing. -/
lemma Holds.create_faultless (h : Holds b.disk files nextFree) (hok : ∀ n, b.ok n = true)
    (hname : Named c.name) :
    ((fsCreate b c.name c.data).1 = false ∧ (fsCreate b c.name c.data).2.disk = b.disk) ∨
    ((fsCreate b c.name c.data).1 = true ∧ Holds (fsCreate b c.name c.data).2.disk
      (files ++ [⟨c.name, nextFree, c.data⟩]) (nextFree + sectorsFor c.data.length)) := by
  obtain ⟨-, habandons | hcommits⟩ := fsCreate_cases h.stores c.name c.data
  · exact .inl ⟨habandons.result, habandons.faultless hok⟩
  · have htrue : (fsCreate b c.name c.data).1 = true := by rw [hcommits.last, hok]
    exact .inr ⟨htrue, h.create_true hname htrue⟩

/-- What a file was created with. -/
def File.create (f : File) : Create := ⟨f.name, f.data⟩

/-- The disk holds exactly the accepted files, in the order of their creation. -/
lemma run_holds {ts : List (Transition Blk Create Bool)} (hrun : Run (xernelFs fun _ => true) ts b)
    (hnamed : ∀ t ∈ ts, Named t.event.name) :
    b.ok = (fun _ => true) ∧ ∃ files nextFree, Holds b.disk files nextFree ∧
      files.map File.create = (ts.filter fun t => t.out).map fun t => t.event := by
  induction hrun with
  | start hinit =>
    obtain ⟨disk, calls, hformat⟩ := hinit
    exact ⟨(fsFormat_ok hformat).symm, [], dataStart, fsFormat_holds hformat, rfl⟩
  | @next ts b b' c o hrun hstep ih =>
    obtain ⟨hok, files, nextFree, h, hfiles⟩ := ih fun t ht => hnamed t (by simp [ht])
    have hname : Named c.name := hnamed ⟨b, c, o, b'⟩ (by simp)
    obtain ⟨rfl, rfl⟩ := Prod.mk.inj (Option.some.inj hstep)
    refine ⟨(fsCreate_cases h.stores c.name c.data).1.trans hok, ?_⟩
    rcases h.create_faultless (fun n => by rw [hok]) hname with ⟨hfalse, hdisk⟩ | ⟨htrue, hholds⟩
    · refine ⟨files, nextFree, by rwa [hdisk], ?_⟩
      simp [hfiles, hfalse]
    · refine ⟨_, _, hholds, ?_⟩
      simp [hfiles, htrue, File.create]

lemma SameName.symm {name name' : List UInt8} (h : SameName name name') : SameName name' name :=
  fun x hx => (h x hx).symm

/-- Among files of distinct names each is found by its own. -/
lemma find?_name {f : File} (hapart : files.Pairwise fun f g => ¬ SameName f.name g.name)
    (hf : f ∈ files) : files.find? (fun g => SameName g.name f.name) = some f := by
  have hsymm : Std.Symm fun f g : File => ¬ SameName f.name g.name :=
    ⟨fun f g hnot hsame => hnot hsame.symm⟩
  cases hfind : files.find? (fun g => SameName g.name f.name) with
  | none =>
    have hnot : ¬ SameName f.name f.name := by simpa using List.find?_eq_none.mp hfind f hf
    exact absurd (fun _ _ => rfl) hnot
  | some g =>
    by_contra hne
    have hsame : SameName g.name f.name := by simpa using List.find?_some hfind
    have hdiff : g ≠ f := fun heq => hne (congrArg some heq)
    exact hapart.forall (List.mem_of_find?_eq_some hfind) hf hdiff hsame

/-- A file system without faults holds every file it accepted: the extents in the directory are apart
and inside the data region in use, the used entries come first, data is never written below the data
region, a create that is refused changes no sector, and every accepted file is read back. -/
theorem files_held {ts : List (Transition Blk Create Bool)} (hrun : Run (xernelFs fun _ => true) ts b)
    (hnamed : ∀ t ∈ ts, Named t.event.name)
    (hapart : ts.Pairwise fun t u => ¬ SameName t.event.name u.event.name) :
    Consistent b.disk ∧ nextFreeOf b.disk ≤ totalSectors ∧
    (∀ i j, i ≤ j → Used b.disk j → Used b.disk i) ∧
    (∀ t ∈ ts, ∀ (dev : Blk) (s : ℕ), s < dataStart →
      (writeData t.event.data (sectorsFor t.event.data.length) 0 (nextFreeOf t.pre.disk) dev).2.disk s
        = dev.disk s) ∧
    (∀ t ∈ ts, t.out = false → t.post.disk = t.pre.disk) ∧
    ∀ t ∈ ts, t.out = true → ReadsBack b t.event := by
  obtain ⟨hok, files, nextFree, h, hfiles⟩ := run_holds hrun hnamed
  -- the files on the disk have distinct names because the creates have
  have hdistinct : files.Pairwise fun f g => ¬ SameName f.name g.name := by
    have hcreates : (files.map File.create).Pairwise fun c d => ¬ SameName c.name d.name := by
      rw [hfiles, List.pairwise_map]
      exact hapart.filter _
    rwa [List.pairwise_map] at hcreates
  -- the state before a step is reached by the steps before it
  have hbefore : ∀ t ∈ ts, t.pre.ok = (fun _ => true) ∧
      ∃ files nextFree, Holds t.pre.disk files nextFree := by
    intro t ht
    obtain ⟨a, c, hts⟩ := List.append_of_mem ht
    obtain ⟨hok, files, nextFree, h, -⟩ := run_holds (hrun.split hts).1 fun u hu =>
      hnamed u (by simp [hts, hu])
    exact ⟨hok, files, nextFree, h⟩
  refine ⟨h.consistent, ?_, ?_, ?_, ?_, ?_⟩
  · rw [nextFreeOf, h.next]
    exact h.room.2
  · intro i j hij hj
    rw [h.used_iff] at hj ⊢
    exact lt_of_le_of_lt hij hj
  · intro t ht dev s hs
    obtain ⟨-, files, nextFree, h⟩ := hbefore t ht
    have hroom := h.room.1
    have hdata := writeData_spec t.event.data nextFree _ 0 dev (Nat.zero_add _)
    rw [nextFreeOf, h.next]
    exact hdata.outside s (.inl (by omega))
  · intro t ht hfalse
    obtain ⟨hok, files, nextFree, h⟩ := hbefore t ht
    obtain ⟨-, hstep⟩ := hrun.mem_step ht
    obtain ⟨hpost, hout⟩ := Prod.mk.inj (Option.some.inj hstep)
    rw [hfalse] at hout
    rw [← hpost]
    rcases h.create_faultless (fun n => by rw [hok]) (hnamed t ht) with ⟨-, hdisk⟩ | ⟨htrue, -⟩
    · exact hdisk
    · rw [hout] at htrue
      cases htrue
  · intro t ht htrue
    have hmem : t.event ∈ files.map File.create := by
      rw [hfiles]
      exact List.mem_map_of_mem (List.mem_filter.mpr ⟨ht, htrue⟩)
    obtain ⟨f, hf, hcreate⟩ := List.mem_map.mp hmem
    rw [← hcreate]
    exact h.stores.readsBack (fun n => by rw [hok]) (find?_name hdistinct hf)

/-- A device of zeros, with all its calls to come. -/
def blank (ok : ℕ → Bool) : Blk := ⟨fun _ => Sector.zero, ok, 0⟩

/-- The formatted device is a state the file system starts in. -/
lemma init_blank {ok : ℕ → Bool} (h : (fsFormat (blank ok)).1 = true) :
    (xernelFs ok).init (fsFormat (blank ok)).2 :=
  ⟨_, _, Prod.ext h rfl⟩

lemma named_of_events {ts : List (Transition Blk Create Bool)} {cs : List Create}
    (hevents : ts.map Transition.event = cs) (hcs : ∀ c ∈ cs, Named c.name) :
    ∀ t ∈ ts, Named t.event.name := by
  intro t ht
  apply hcs
  rw [← hevents]
  exact List.mem_map_of_mem ht

/-- A file of two sectors and an empty one, whose name ends in a zero. -/
theorem files_held_two :
    ∃ (ts : List (Transition Blk Create Bool)) (b : Blk),
      Run (xernelFs fun _ => true) ts b ∧
      ts.map Transition.event = [⟨[97], List.replicate 513 7⟩, ⟨[98, 0], []⟩] ∧
      ts.map Transition.out = [true, true] ∧ Consistent b.disk ∧
      ReadsBack b ⟨[97], List.replicate 513 7⟩ ∧ ReadsBack b ⟨[98, 0], []⟩ := by
  have houts : ((xernelFs fun _ => true).replay (fsFormat (blank fun _ => true)).2
      [⟨[97], List.replicate 513 7⟩, ⟨[98, 0], []⟩]).map (fun r => r.1.map Transition.out) =
      some [true, true] := by decide +kernel
  obtain ⟨⟨ts, b⟩, hreplay, hout⟩ := Option.map_eq_some_iff.mp houts
  have hrun : Run (xernelFs fun _ => true) ts b :=
    (Run.start (init_blank (by decide +kernel))).append_replay hreplay
  have hevents : ts.map Transition.event = [⟨[97], List.replicate 513 7⟩, ⟨[98, 0], []⟩] :=
    TransitionSystem.replay_events hreplay
  have haccepted : ∀ t ∈ ts, t.out = true := by
    intro t ht
    have hmem : t.out ∈ ts.map Transition.out := List.mem_map_of_mem ht
    rw [hout] at hmem
    simpa using hmem
  have hnamed : ∀ t ∈ ts, Named t.event.name := named_of_events hevents (by decide)
  have hapart : ts.Pairwise fun t u => ¬ SameName t.event.name u.event.name := by
    have hpair : (ts.map Transition.event).Pairwise fun c d => ¬ SameName c.name d.name := by
      rw [hevents, List.pairwise_pair]
      decide
    rwa [List.pairwise_map] at hpair
  obtain ⟨hconsistent, -, -, -, -, hread⟩ := files_held hrun hnamed hapart
  have hback : ∀ c ∈ ts.map Transition.event, ReadsBack b c := by
    intro c hc
    obtain ⟨t, ht, rfl⟩ := List.mem_map.mp hc
    exact hread t ht (haccepted t ht)
  rw [hevents] at hback
  exact ⟨ts, b, hrun, hevents, hout, hconsistent, hback _ List.mem_cons_self,
    hback _ (List.mem_cons_of_mem _ List.mem_cons_self)⟩

end Faultless

/-! ## With faults -/

section Faults

variable {ok : ℕ → Bool} {files : List File} {nextFree : ℕ} {b : Blk} {c : Create}

/-- The create finds its place and all its calls succeed but the last, the write of the superblock with
the free pointer behind its data. -/
def LosesBump (b : Blk) (c : Create) : Prop :=
  c.data ≠ [] ∧ (freeSlot (b.disk dirSector)).isSome ∧
  nextFreeOf b.disk + sectorsFor c.data.length ≤ totalSectors ∧
  (∀ i < 3 + sectorsFor c.data.length, b.ok (b.calls + i) = true) ∧
  b.ok (b.calls + (3 + sectorsFor c.data.length)) = false

instance (b : Blk) (c : Create) : Decidable (LosesBump b c) := by
  unfold LosesBump
  infer_instance

/-- The device as it answers once its faults are over. -/
def Blk.recovered (b : Blk) : Blk := { b with ok := fun _ => true }

/-- In every state of the run the directory is consistent, and what could once be read back by the name
and with the contents it was created with can be read back in every later state. -/
def Survives (ts : List (Transition Blk Create Bool)) : Prop :=
  (∀ t ∈ ts, Consistent t.pre.disk ∧ Consistent t.post.disk) ∧
  ∀ (i j : ℕ) (t u : Transition Blk Create Bool), i ≤ j → ts[i]? = some t → ts[j]? = some u →
    ∀ k ≤ i, ∀ v, ts[k]? = some v → ReadsBack t.post.recovered v.event →
      ReadsBack u.post.recovered v.event

/-- A create that does not lose its last write keeps the files, whether it adds one or not. -/
lemma Holds.create (h : Holds b.disk files nextFree) (hname : Named c.name) (hc : ¬ LosesBump b c) :
    ∃ files' nextFree', files <+: files' ∧
      Holds (fsCreate b c.name c.data).2.disk files' nextFree' := by
  obtain ⟨-, habandons | hcommits⟩ := fsCreate_cases h.stores c.name c.data
  · exact ⟨files, nextFree, List.prefix_rfl, habandons.holds h⟩
  · refine ⟨_, _, List.prefix_append _ _, hcommits.holds h hname.getD ?_⟩
    by_contra hnot
    push Not at hnot
    have hfails : b.ok (b.calls + (3 + sectorsFor c.data.length)) = false := by
      rw [← hcommits.last]
      simpa using hnot.1
    refine hc ⟨hnot.2, ?_, ?_, hcommits.earlier, hfails⟩
    · rw [h.stores.freeSlot, if_pos hcommits.slot]
      rfl
    · rw [nextFreeOf, h.next]
      exact hcommits.room

/-- A create that does lose its last write leaves an entry that reaches past the free pointer. -/
lemma Holds.not_consistent (h : Holds b.disk files nextFree) (hname : Named c.name)
    (hc : LosesBump b c) : ¬ Consistent (fsCreate b c.name c.data).2.disk := by
  obtain ⟨hdata, hslot, hroom, hearlier, hlast⟩ := hc
  rw [h.stores.freeSlot, Option.isSome_iff_exists] at hslot
  rw [nextFreeOf, h.next] at hroom
  have hlt : files.length < dirEntries := by
    by_contra hge
    rw [if_neg hge] at hslot
    obtain ⟨_, hslot⟩ := hslot
    cases hslot
  obtain ⟨-, habandons | hcommits⟩ := fsCreate_cases h.stores c.name c.data
  · exact absurd ⟨hlt, hroom, hearlier⟩ habandons.stopped
  · intro hconsistent
    have hfalse : (fsCreate b c.name c.data).1 = false := by rw [hcommits.last, hlast]
    have hlen : 0 < c.data.length := List.length_pos_iff.mpr hdata
    have htotal : totalSectors = 2048 := rfl
    have hsmall : c.data.length ≤ 512 * 2048 := sectorsFor_le.mp (by omega)
    have hsectors : 0 < sectorsFor c.data.length := by
      by_contra hle
      have := sectorsFor_le.mp (Nat.le_of_not_lt hle)
      omega
    have hused : Used (fsCreate b c.name c.data).2.disk files.length := by
      have hbyte : putEntry (b.disk dirSector) files.length c.name c.data.length nextFree
          (files.length * entSize + 0) = c.name.getD 0 0 := putEntry_name h.free (by decide)
      refine ⟨hlt, ?_⟩
      rw [hcommits.dir, ← Nat.add_zero (files.length * entSize), hbyte]
      exact hname.getD
    have hextent : Fs.extent (fsCreate b c.name c.data).2.disk files.length =
        Set.Ico nextFree (nextFree + sectorsFor c.data.length) := by
      rw [Fs.extent, hcommits.dir, putEntry_size (by omega), putEntry_start (by omega)]
    have hnext : nextFreeOf (fsCreate b c.name c.data).2.disk = nextFree := by
      rw [nextFreeOf, hcommits.sb, hfalse]
      exact h.next
    have hinside := hconsistent.inside _ hused
    rw [hextent, hnext] at hinside
    exact lt_irrefl _ (hinside ⟨le_rfl, by omega⟩).2

/-- What can be read back is the first file of its name. -/
lemma Holds.file_of_readsBack (h : Holds b.disk files nextFree) (hread : ReadsBack b.recovered c) :
    ∃ f, files.find? (fun f => SameName f.name c.name) = some f ∧ f.data = c.data := by
  have h' : Stores b.recovered.disk files nextFree := h.stores
  exact (h'.foundIn_iff fun _ => rfl).mp hread.foundIn

/-- The disk holds some files. -/
def Formatted (b : Blk) : Prop := ∃ files nextFree, Holds b.disk files nextFree

/-- Without a lost last write the disk holds some files in every state. -/
lemma run_formatted {ts : List (Transition Blk Create Bool)} (hrun : Run (xernelFs ok) ts b)
    (hnamed : ∀ t ∈ ts, Named t.event.name) (hts : ∀ t ∈ ts, ¬ LosesBump t.pre t.event) :
    Formatted b ∧ ∀ t ∈ ts, Formatted t.pre ∧ Formatted t.post := by
  have hinit : ∀ b, (xernelFs ok).init b → Formatted b := by
    rintro b ⟨disk, calls, hformat⟩
    exact ⟨[], dataStart, fsFormat_holds hformat⟩
  have hstep : ∀ b c b' o, Reachable (xernelFs ok) b → Formatted b →
      (Named c.name ∧ ¬ LosesBump b c) → (xernelFs ok).step b c = some (b', o) → Formatted b' := by
    rintro b c b' o - ⟨files, nextFree, h⟩ ⟨hname, hc⟩ hs
    obtain ⟨rfl, -⟩ := Prod.mk.inj (Option.some.inj hs)
    obtain ⟨files', nextFree', -, h'⟩ := h.create hname hc
    exact ⟨files', nextFree', h'⟩
  have hC : ∀ t ∈ ts, Named t.event.name ∧ ¬ LosesBump t.pre t.event :=
    fun t ht => ⟨hnamed t ht, hts t ht⟩
  exact ⟨Run.invariant_of hinit hstep hrun hC, Run.invariant_of_mem hinit hstep hrun hC⟩

/-- While the directory stays consistent no create has lost its last write. -/
lemma not_losesBump {ts : List (Transition Blk Create Bool)} (hrun : Run (xernelFs ok) ts b)
    (hnamed : ∀ t ∈ ts, Named t.event.name) (hts : ∀ t ∈ ts, Consistent t.post.disk) :
    ∀ t ∈ ts, ¬ LosesBump t.pre t.event := by
  induction hrun with
  | start =>
    intro t ht
    cases ht
  | @next ts b b' c o hrun hs ih =>
    have hnot := ih (fun t ht => hnamed t (by simp [ht])) fun t ht => hts t (by simp [ht])
    obtain ⟨⟨files, nextFree, h⟩, -⟩ := run_formatted hrun (fun t ht => hnamed t (by simp [ht])) hnot
    have hlast : ¬ LosesBump b c := by
      intro hc
      have hname : Named c.name := hnamed ⟨b, c, o, b'⟩ (by simp)
      have hconsistent : Consistent b'.disk := hts ⟨b, c, o, b'⟩ (by simp)
      obtain ⟨rfl, -⟩ := Prod.mk.inj (Option.some.inj hs)
      exact h.not_consistent hname hc hconsistent
    intro t ht
    rcases List.mem_append.mp ht with ht | ht
    · exact hnot t ht
    · rw [List.mem_singleton.mp ht]
      exact hlast

/-- The file system survives the errors of its device exactly when no create loses the write of the
superblock after it has written the directory. -/
theorem survives_iff {ts : List (Transition Blk Create Bool)} (hrun : Run (xernelFs ok) ts b)
    (hnamed : ∀ t ∈ ts, Named t.event.name) :
    Survives ts ↔ ∀ t ∈ ts, ¬ LosesBump t.pre t.event := by
  constructor
  · rintro ⟨hconsistent, -⟩
    exact not_losesBump hrun hnamed fun t ht => (hconsistent t ht).2
  · intro hts
    obtain ⟨-, hholds⟩ := run_formatted hrun hnamed hts
    refine ⟨fun t ht => ?_, fun i j t u hij hi hj k hk v hv hread => ?_⟩
    · obtain ⟨⟨files, nextFree, h⟩, ⟨files', nextFree', h'⟩⟩ := hholds t ht
      exact ⟨h.consistent, h'.consistent⟩
    · -- one create keeps what can be read back
      let P : Blk → Prop := fun b => ReadsBack b.recovered v.event
      have hkeep : ∀ w ∈ ts, (xernelFs ok).step w.pre w.event = some (w.post, w.out) →
          Reachable (xernelFs ok) w.pre → P w.pre → P w.post := by
        intro w hw hs _ hback
        obtain ⟨⟨files, nextFree, h⟩, -⟩ := hholds w hw
        obtain ⟨f, hfind, hdata⟩ := h.file_of_readsBack hback
        obtain ⟨files', nextFree', hfront, h'⟩ := h.create (hnamed w hw) (hts w hw)
        obtain ⟨hpost, -⟩ := Prod.mk.inj (Option.some.inj hs)
        rw [hpost] at h'
        have h'' : Holds w.post.recovered.disk files' nextFree' := h'
        have hnew : ReadsBack w.post.recovered ⟨v.event.name, f.data⟩ :=
          h''.stores.readsBack (fun _ => rfl) (hfront.find?_eq_some hfind)
        rwa [hdata] at hnew
      rcases Nat.lt_or_eq_of_le hij with hlt | rfl
      · exact (hrun.preserved_between (P := P) hlt hi hj hkeep hread).2
      · obtain rfl := Option.some.inj (hi.symm.trans hj)
        exact hread

/-- The directory write of the first create fails; the second takes the same sector, and the file is
there to stay. -/
theorem survives_iff_retried :
    ∃ (ts : List (Transition Blk Create Bool)) (b : Blk), Run (xernelFs fun n => n ≠ 5) ts b ∧
      ts.map Transition.event = [⟨[97], [1]⟩, ⟨[98], [2]⟩] ∧
      ts.map Transition.out = [false, true] ∧ Survives ts := by
  have hfacts : ((xernelFs fun n => n ≠ 5).replay (fsFormat (blank fun n => n ≠ 5)).2
      [⟨[97], [1]⟩, ⟨[98], [2]⟩]).map (fun r => (r.1.map Transition.out,
        r.1.all fun t => ¬ LosesBump t.pre t.event)) = some ([false, true], true) := by
    decide +kernel
  obtain ⟨⟨ts, b⟩, hreplay, hfacts⟩ := Option.map_eq_some_iff.mp hfacts
  obtain ⟨hout, hall⟩ := Prod.mk.inj hfacts
  have hrun : Run (xernelFs fun n => n ≠ 5) ts b :=
    (Run.start (init_blank (by decide +kernel))).append_replay hreplay
  have hevents : ts.map Transition.event = [⟨[97], [1]⟩, ⟨[98], [2]⟩] :=
    TransitionSystem.replay_events hreplay
  have hnamed : ∀ t ∈ ts, Named t.event.name := named_of_events hevents (by decide)
  refine ⟨ts, b, hrun, hevents, hout, (survives_iff hrun hnamed).mpr fun t ht => ?_⟩
  exact of_decide_eq_true (List.all_eq_true.mp hall t ht)

/-- The superblock write of the first create fails after its entry was written, and the second create
takes the same sector again: both files have it, and reading the first gives the second. -/
theorem not_survives :
    ∃ (ts : List (Transition Blk Create Bool)) (b : Blk), Run (xernelFs fun n => n ≠ 6) ts b ∧
      ts.map Transition.event = [⟨[97], [1]⟩, ⟨[98], [2]⟩] ∧
      ts.map Transition.out = [false, true] ∧
      (ts.map fun t => (fsRead t.post.recovered [97] [0]).2.1) = [[1], [2]] ∧ ¬ Survives ts := by
  have hfacts : ((xernelFs fun n => n ≠ 6).replay (fsFormat (blank fun n => n ≠ 6)).2
      [⟨[97], [1]⟩, ⟨[98], [2]⟩]).map (fun r => (r.1.map Transition.out,
        (r.1.map fun t => (fsRead t.post.recovered [97] [0]).2.1),
        r.1.any fun t => LosesBump t.pre t.event)) =
      some ([false, true], [[1], [2]], true) := by decide +kernel
  obtain ⟨⟨ts, b⟩, hreplay, hfacts⟩ := Option.map_eq_some_iff.mp hfacts
  obtain ⟨hout, hfacts⟩ := Prod.mk.inj hfacts
  obtain ⟨hreads, hany⟩ := Prod.mk.inj hfacts
  have hrun : Run (xernelFs fun n => n ≠ 6) ts b :=
    (Run.start (init_blank (by decide +kernel))).append_replay hreplay
  have hevents : ts.map Transition.event = [⟨[97], [1]⟩, ⟨[98], [2]⟩] :=
    TransitionSystem.replay_events hreplay
  have hnamed : ∀ t ∈ ts, Named t.event.name := named_of_events hevents (by decide)
  refine ⟨ts, b, hrun, hevents, hout, hreads, ?_⟩
  rintro ⟨hconsistent, -⟩
  obtain ⟨t, ht, hloses⟩ := List.any_eq_true.mp hany
  exact not_losesBump hrun hnamed (fun t ht => (hconsistent t ht).2) t ht (of_decide_eq_true hloses)

end Faults

end Fs
end Xernel
