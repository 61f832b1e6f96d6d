import Xernel.Lib.Run
import Xernel.Userland.Fs

/-!
# What XernelFS keeps on disk

`Holds disk files nextFree` says that the disk holds the given files: the superblock points to `nextFree`, the
first directory entries describe the files and the others are empty, and the extents of the files hold
their data, one after the other up to `nextFree`. A freshly formatted disk holds no file, and a create that
does not lose its last write adds one; reading by name finds the first file of that name.
-/

namespace Xernel
namespace Fs

/-! ## Buffers -/

namespace Sector

variable {s : Sector} {off i : ℕ} {bytes : List UInt8}

lemma put_outside (h : i < off ∨ off + bytes.length ≤ i) : s.put off bytes i = s i := by
  rw [put]
  split
  next hle => rw [List.getElem?_eq_none (by omega), Option.getD_none]
  next => rfl

lemma put_inside (h : i < bytes.length) : s.put off bytes (off + i) = bytes[i] := by
  rw [put, if_pos (Nat.le_add_right _ _), Nat.add_sub_cancel_left, List.getElem?_eq_getElem h,
    Option.getD_some]

lemma bytes_congr {s' : Sector} {n : ℕ} (h : ∀ i < n, s' (off + i) = s (off + i)) :
    s'.bytes off n = s.bytes off n :=
  List.map_congr_left fun i hi => h i (List.mem_range.mp hi)

/-- Reading back what was put. -/
lemma bytes_put : (s.put off bytes).bytes off bytes.length = bytes := by
  refine List.ext_getElem (by simp [Sector.bytes]) fun i hi hi' => ?_
  simp only [Sector.bytes, List.getElem_map, List.getElem_range]
  exact put_inside hi'

lemma rdU32_wrU32 {v : ℕ} (hv : v < 2 ^ 32) : (s.wrU32 off v).rdU32 off = v := by
  have hread : (s.put off (leBytes 4 v)).bytes off 4 = leBytes 4 v := by
    have hput : (s.put off (leBytes 4 v)).bytes off (leBytes 4 v).length = leBytes 4 v := bytes_put
    rwa [length_leBytes] at hput
  rw [rdU32, wrU32, hread, leNat_leBytes]
  exact Nat.mod_eq_of_lt hv

lemma rdU32_put (h : off + 4 ≤ i ∨ i + bytes.length ≤ off) :
    (s.put i bytes).rdU32 off = s.rdU32 off := by
  rw [rdU32, rdU32, bytes_congr fun j hj => put_outside (by omega)]

lemma wrU32_outside {v : ℕ} (h : i < off ∨ off + 4 ≤ i) : s.wrU32 off v i = s i :=
  put_outside (by rw [length_leBytes]; exact h)

lemma rdU32_wrU32_other {v : ℕ} (h : off + 4 ≤ i ∨ i + 4 ≤ off) :
    (s.wrU32 i v).rdU32 off = s.rdU32 off :=
  rdU32_put (by rw [length_leBytes]; exact h)

end Sector

/-! ## Files -/

structure File where
  name : List UInt8
  start : ℕ
  data : List UInt8
  deriving Repr, DecidableEq

/-- The sector after the extent of the file. -/
def File.stop (f : File) : ℕ := f.start + sectorsFor f.data.length

/-- Two names are the same after truncation and padding to 24 bytes. -/
def SameName (name name' : List UInt8) : Prop := ∀ x < nameLen, name.getD x 0 = name'.getD x 0

instance (name name' : List UInt8) : Decidable (SameName name name') := by
  unfold SameName
  infer_instance

/-- The disk holds these files and no others. -/
structure Holds (disk : ℕ → Sector) (files : List File) (nextFree : ℕ) : Prop where
  magic : (disk sbSector).bytes 0 8 = fsMagic
  next : (disk sbSector).rdU32 16 = nextFree
  count : files.length ≤ dirEntries
  name : ∀ (i : ℕ) (f : File), files[i]? = some f →
    ∀ x < nameLen, disk dirSector (i * entSize + x) = f.name.getD x 0
  size : ∀ (i : ℕ) (f : File), files[i]? = some f →
    (disk dirSector).rdU32 (i * entSize + 24) = f.data.length
  start : ∀ (i : ℕ) (f : File), files[i]? = some f →
    (disk dirSector).rdU32 (i * entSize + 28) = f.start
  named : ∀ f ∈ files, f.name.getD 0 0 ≠ 0
  free : ∀ x, files.length * entSize ≤ x → disk dirSector x = 0
  contents : ∀ f ∈ files, ∀ x < f.data.length,
    f.data[x]? = some (disk (f.start + x / sectorSize) (x % sectorSize))
  extent : ∀ f ∈ files, dataStart ≤ f.start ∧ f.stop ≤ nextFree
  apart : files.Pairwise fun f g => f.stop ≤ g.start
  room : dataStart ≤ nextFree ∧ nextFree ≤ totalSectors

/-- The directory lists these files and no others, but unused entries may hold anything behind a first
byte of zero. -/
structure Stores (disk : ℕ → Sector) (files : List File) (nextFree : ℕ) : Prop where
  magic : (disk sbSector).bytes 0 8 = fsMagic
  next : (disk sbSector).rdU32 16 = nextFree
  count : files.length ≤ dirEntries
  name : ∀ (i : ℕ) (f : File), files[i]? = some f →
    ∀ x < nameLen, disk dirSector (i * entSize + x) = f.name.getD x 0
  size : ∀ (i : ℕ) (f : File), files[i]? = some f →
    (disk dirSector).rdU32 (i * entSize + 24) = f.data.length
  start : ∀ (i : ℕ) (f : File), files[i]? = some f →
    (disk dirSector).rdU32 (i * entSize + 28) = f.start
  named : ∀ f ∈ files, f.name.getD 0 0 ≠ 0
  free : ∀ i, files.length ≤ i → i < dirEntries → disk dirSector (i * entSize) = 0
  contents : ∀ f ∈ files, ∀ x < f.data.length,
    f.data[x]? = some (disk (f.start + x / sectorSize) (x % sectorSize))
  extent : ∀ f ∈ files, dataStart ≤ f.start ∧ f.stop ≤ nextFree
  apart : files.Pairwise fun f g => f.stop ≤ g.start
  room : dataStart ≤ nextFree ∧ nextFree ≤ totalSectors

lemma Holds.stores {disk : ℕ → Sector} {files : List File} {nextFree : ℕ}
    (h : Holds disk files nextFree) : Stores disk files nextFree :=
  { h with free := fun _ hi _ => h.free _ (Nat.mul_le_mul_right _ hi) }

lemma Stores.holds {disk : ℕ → Sector} {files : List File} {nextFree : ℕ}
    (h : Stores disk files nextFree)
    (hfree : ∀ x, files.length * entSize ≤ x → disk dirSector x = 0) : Holds disk files nextFree :=
  { h with free := hfree }

namespace Blk

variable {b b' : Blk} {sector : ℕ} {buf : Sector}

lemma write_eq_true (h : b.write sector buf = (true, b')) :
    b.ok b.calls = true ∧ b'.disk = Function.update b.disk sector buf ∧ b'.ok = b.ok ∧
      b'.calls = b.calls + 1 := by
  rw [write] at h
  split at h
  next hok =>
    obtain ⟨-, rfl⟩ := Prod.mk.inj h
    exact ⟨hok, rfl, rfl, rfl⟩
  next => cases h

lemma write_eq_false (h : b.write sector buf = (false, b')) :
    b.ok b.calls = false ∧ b'.disk = b.disk ∧ b'.ok = b.ok := by
  rw [write] at h
  split at h
  · cases h
  next hok =>
    obtain ⟨-, rfl⟩ := Prod.mk.inj h
    exact ⟨by simpa using hok, rfl, rfl⟩

lemma read_eq_none (h : b.read sector = (none, b')) :
    b.ok b.calls = false ∧ b'.disk = b.disk ∧ b'.ok = b.ok := by
  obtain ⟨hnone, rfl⟩ := Prod.mk.inj h
  refine ⟨?_, rfl, rfl⟩
  by_contra hok
  rw [if_pos (by simpa using hok)] at hnone
  cases hnone

lemma read_eq_some (h : b.read sector = (some buf, b')) :
    b.ok b.calls = true ∧ buf = b.disk sector ∧ b'.disk = b.disk ∧ b'.ok = b.ok ∧
      b'.calls = b.calls + 1 := by
  obtain ⟨hsome, rfl⟩ := Prod.mk.inj h
  split at hsome
  next hok => exact ⟨hok, (Option.some.inj hsome).symm, rfl, rfl, rfl⟩
  next => cases hsome

end Blk

lemma fsFormat_ok {b b' : Blk} (h : fsFormat b = (true, b')) : b.ok = b'.ok := by
  rw [fsFormat] at h
  split at h
  · cases h
  next b₁ hw =>
    obtain ⟨-, -, hok₁, -⟩ := Blk.write_eq_true hw
    obtain ⟨-, -, hok, -⟩ := Blk.write_eq_true h
    exact (hok.trans hok₁).symm

/-- A formatted disk holds no file. -/
lemma fsFormat_holds {b b' : Blk} (h : fsFormat b = (true, b')) : Holds b'.disk [] dataStart := by
  rw [fsFormat] at h
  split at h
  · cases h
  next b₁ hw =>
    obtain ⟨-, hdisk₁, -⟩ := Blk.write_eq_true hw
    obtain ⟨-, hdisk, -⟩ := Blk.write_eq_true h
    have hsb : b'.disk sbSector = (((Sector.zero.put 0 fsMagic).wrU32 8 1).wrU32 12
        totalSectors).wrU32 16 dataStart := by
      rw [hdisk, hdisk₁, Function.update_of_ne (by decide), Function.update_self]
    have hdir : b'.disk dirSector = Sector.zero := by rw [hdisk, Function.update_self]
    exact {
      magic := by rw [hsb]; decide
      next := by rw [hsb]; decide
      count := Nat.zero_le _
      name := fun i f hf => by cases hf
      size := fun i f hf => by cases hf
      start := fun i f hf => by cases hf
      named := fun f hf => by cases hf
      free := fun x _ => by rw [hdir]; rfl
      contents := fun f hf => by cases hf
      extent := fun f hf => by cases hf
      apart := .nil
      room := by decide }

/-! ## Writing data -/

lemma sectorsFor_le {len : ℕ} {j : ℕ} : sectorsFor len ≤ j ↔ len ≤ sectorSize * j := by
  simp only [sectorsFor, sectorSize]
  omega

/-- What the data loop does from chunk `j` on, with `n` chunks to go. -/
structure WritesData (data : List UInt8) (start j n : ℕ) (b : Blk) (r : Bool × Blk) : Prop where
  ok : r.2.ok = b.ok
  outside : ∀ s, s < start + j ∨ start + j + n ≤ s → r.2.disk s = b.disk s
  inside : r.1 = true → ∀ x < data.length, sectorSize * j ≤ x →
    data[x]? = some (r.2.disk (start + x / sectorSize) (x % sectorSize))
  calls : r.1 = true → r.2.calls = b.calls + n
  succeeds : r.1 = true ↔ ∀ i < n, b.ok (b.calls + i) = true

lemma writeData_spec (data : List UInt8) (start : ℕ) : ∀ (n j : ℕ) (b : Blk),
    j + n = sectorsFor data.length →
    WritesData data start j n b (writeData data n (sectorSize * j) (start + j) b) := by
  intro n
  induction n with
  | zero =>
    intro j b hj
    have hlen : data.length ≤ sectorSize * j := sectorsFor_le.mp (by omega)
    exact ⟨rfl, fun _ _ => rfl, fun _ x hx hjx => by omega, fun _ => rfl, by simp [writeData]⟩
  | succ n ih =>
    intro j b hj
    have hoff : sectorSize * j < data.length := by
      by_contra hle
      have := sectorsFor_le.mpr (Nat.le_of_not_lt hle)
      omega
    have hzero : b.calls + 0 = b.calls := rfl
    rw [writeData, if_pos hoff]
    dsimp only
    generalize hbuf : Sector.zero.put 0 ((data.drop (sectorSize * j)).take
      (min sectorSize (data.length - sectorSize * j))) = buf
    split
    next b₁ hw =>
      obtain ⟨hfail, hdisk, hoks⟩ := Blk.write_eq_false hw
      refine ⟨hoks, fun _ _ => by rw [hdisk], by simp, by simp, ?_⟩
      simp only [Bool.false_eq_true, false_iff]
      intro hall
      have hfirst := hall 0 (Nat.succ_pos n)
      rw [hzero, hfail] at hfirst
      cases hfirst
    next b₁ hw =>
      obtain ⟨hok, hdisk, hoks, hcalls⟩ := Blk.write_eq_true hw
      -- the rest of the loop starts at the next whole sector, or has nothing left to do
      have hrest : writeData data n (sectorSize * j + min sectorSize (data.length - sectorSize * j))
          (start + j + 1) b₁ = writeData data n (sectorSize * (j + 1)) (start + (j + 1)) b₁ := by
        cases n with
        | zero => rfl
        | succ n =>
          have hmore : sectorSize * (j + 1) < data.length := by
            by_contra hle
            have := sectorsFor_le.mpr (Nat.le_of_not_lt hle)
            omega
          have hmin : min sectorSize (data.length - sectorSize * j) = sectorSize := by
            rw [Nat.mul_succ] at hmore
            omega
          rw [hmin, Nat.mul_succ, Nat.add_assoc start j 1]
      rw [hrest]
      obtain ⟨hok', hout, hin, hcalls', hsucc⟩ := ih (j + 1) b₁ (by omega)
      refine ⟨hok'.trans hoks, fun s hs => ?_, fun htrue x hx hjx => ?_, fun htrue => ?_, ?_⟩
      · rw [hout s (by omega), hdisk, Function.update_of_ne (by omega)]
      · by_cases hchunk : x < sectorSize * (j + 1)
        · -- a byte of this chunk: the rest of the loop does not come back to its sector
          have hdiv : x / sectorSize = j := by
            simp only [sectorSize] at hjx hchunk ⊢
            omega
          have hmod : x % sectorSize = x - sectorSize * j := by
            simp only [sectorSize] at hjx hchunk ⊢
            omega
          have hlt : x - sectorSize * j < sectorSize := by
            rw [Nat.mul_succ] at hchunk
            omega
          have hbyte : x - sectorSize * j < ((data.drop (sectorSize * j)).take
              (min sectorSize (data.length - sectorSize * j))).length := by
            rw [List.length_take, List.length_drop]
            omega
          rw [hdiv, hmod, hout _ (by omega), hdisk, Function.update_self, ← hbuf,
            ← Nat.zero_add (x - sectorSize * j), Sector.put_inside hbyte, List.getElem_take,
            List.getElem_drop, List.getElem?_eq_getElem hx]
          congr 2
          omega
        · exact hin htrue x hx (Nat.le_of_not_lt hchunk)
      · rw [hcalls' htrue, hcalls]
        omega
      · rw [hsucc, hoks, hcalls]
        constructor
        · intro hall i hi
          cases i with
          | zero => exact hok
          | succ i =>
            have hnext := hall i (by omega)
            rwa [Nat.add_right_comm, Nat.add_assoc] at hnext
        · intro hall i hi
          have hnext := hall (i + 1) (by omega)
          rwa [Nat.add_right_comm, Nat.add_assoc]

/-! ## The directory -/

variable {b b' : Blk} {disk disk' : ℕ → Sector} {files : List File} {nextFree : ℕ}
  {name data : List UInt8}

lemma Stores.used (h : Stores disk files nextFree) {i : ℕ} (hi : i < files.length) :
    disk dirSector (i * entSize) ≠ 0 := by
  have hname := h.name i files[i] (List.getElem?_eq_getElem hi) 0 (by decide)
  rw [Nat.add_zero] at hname
  rw [hname]
  exact h.named _ (List.getElem_mem hi)

/-- The first free entry is the one after the last file. -/
lemma Stores.freeSlot (h : Stores disk files nextFree) :
    freeSlot (disk dirSector) = if files.length < dirEntries then some files.length else none := by
  rw [Fs.freeSlot]
  split
  next hlt =>
    rw [List.find?_range_eq_some]
    refine ⟨?_, List.mem_range.mpr hlt, fun j hj => ?_⟩
    · simpa using h.free _ le_rfl hlt
    · simpa using h.used hj
  next hge =>
    rw [List.find?_range_eq_none]
    intro i hi
    have hi : i < dirEntries := hi
    simpa using h.used (i := i) (by omega)

section PutEntry

variable {dir : Sector} {slot size start x : ℕ}

lemma putEntry_outside (hx : x < slot * entSize ∨ slot * entSize + entSize ≤ x) :
    putEntry dir slot name size start x = dir x := by
  have hlen : (name.take (min nameLen name.length)).length ≤ 24 := by
    rw [List.length_take]
    exact le_trans (min_le_left _ _) (min_le_left _ _)
  simp only [entSize] at hx
  simp only [putEntry, entSize]
  rw [Sector.wrU32_outside (by omega), Sector.wrU32_outside (by omega),
    Sector.put_outside (by omega)]

/-- A name byte of the entry; behind a short name the entry keeps what it held. -/
lemma putEntry_byte (hx : x < nameLen) :
    putEntry dir slot name size start (slot * entSize + x) =
      if x < name.length then name.getD x 0 else dir (slot * entSize + x) := by
  have hlen : (name.take (min nameLen name.length)).length = min nameLen name.length := by
    rw [List.length_take, min_eq_left (min_le_right _ _)]
  simp only [nameLen] at hx
  rw [putEntry, Sector.wrU32_outside (by omega), Sector.wrU32_outside (by omega)]
  by_cases hlt : x < name.length
  · have hlt' : x < (name.take (min nameLen name.length)).length := by
      rw [hlen, nameLen]
      omega
    rw [if_pos hlt, Sector.put_inside hlt', List.getElem_take, List.getD_eq_getElem?_getD,
      List.getElem?_eq_getElem hlt, Option.getD_some]
  · rw [if_neg hlt, Sector.put_outside (by rw [hlen]; omega)]

/-- The entry was empty, so that the name is padded with zeros. -/
lemma putEntry_name (hdir : ∀ x, slot * entSize ≤ x → dir x = 0) (hx : x < nameLen) :
    putEntry dir slot name size start (slot * entSize + x) = name.getD x 0 := by
  rw [putEntry_byte hx]
  split
  · rfl
  next hge =>
    rw [hdir _ (Nat.le_add_right _ _), List.getD_eq_getElem?_getD,
      List.getElem?_eq_none (by omega), Option.getD_none]

lemma putEntry_size (hsize : size < 2 ^ 32) :
    (putEntry dir slot name size start).rdU32 (slot * entSize + 24) = size := by
  rw [putEntry, Sector.rdU32_wrU32_other (by omega), Sector.rdU32_wrU32 hsize]

lemma putEntry_start (hstart : start < 2 ^ 32) :
    (putEntry dir slot name size start).rdU32 (slot * entSize + 28) = start := by
  rw [putEntry, Sector.rdU32_wrU32 hstart]

end PutEntry

/-! ## Creating a file -/

/-- A create that ends before it has written the directory. -/
structure Abandons (b : Blk) (files : List File) (nextFree nsec : ℕ) (r : Bool × Blk) : Prop where
  result : r.1 = false
  outside : ∀ s, s < nextFree ∨ nextFree + nsec ≤ s → r.2.disk s = b.disk s
  faultless : (∀ n, b.ok n = true) → r.2.disk = b.disk
  stopped : ¬ (files.length < dirEntries ∧ nextFree + nsec ≤ totalSectors ∧
    ∀ i < 3 + nsec, b.ok (b.calls + i) = true)

/-- A create that has written the directory; its last call decides whether the superblock follows. -/
structure Commits (b : Blk) (files : List File) (nextFree : ℕ) (name data : List UInt8)
    (r : Bool × Blk) : Prop where
  slot : files.length < dirEntries
  room : nextFree + sectorsFor data.length ≤ totalSectors
  earlier : ∀ i < 3 + sectorsFor data.length, b.ok (b.calls + i) = true
  last : r.1 = b.ok (b.calls + (3 + sectorsFor data.length))
  dir : r.2.disk dirSector = putEntry (b.disk dirSector) files.length name data.length nextFree
  sb : r.2.disk sbSector = if r.1 then
    (b.disk sbSector).wrU32 16 (nextFree + sectorsFor data.length) else b.disk sbSector
  outside : ∀ s, s ≠ sbSector → s ≠ dirSector →
    s < nextFree ∨ nextFree + sectorsFor data.length ≤ s → r.2.disk s = b.disk s
  inside : ∀ x < data.length,
    data[x]? = some (r.2.disk (nextFree + x / sectorSize) (x % sectorSize))

/-- The end of a create, once data and directory are written: the write of the superblock. -/
lemma commits_of_written {b₃ b₄ : Blk}
    (hroom : nextFree + sectorsFor data.length ≤ totalSectors) (hslot : files.length < dirEntries)
    (hstart : dataStart ≤ nextFree)
    (hearlier : ∀ i < 3 + sectorsFor data.length, b.ok (b.calls + i) = true)
    (hok : b₄.ok = b.ok) (hcalls : b₄.calls = b.calls + (3 + sectorsFor data.length))
    (hdisk : b₄.disk = Function.update b₃.disk dirSector
      (putEntry (b.disk dirSector) files.length name data.length nextFree))
    (houtside : ∀ s, s < nextFree ∨ nextFree + sectorsFor data.length ≤ s →
      b₃.disk s = b.disk s)
    (hinside : ∀ x < data.length,
      data[x]? = some (b₃.disk (nextFree + x / sectorSize) (x % sectorSize))) :
    (b₄.write sbSector ((b.disk sbSector).wrU32 16 (nextFree + sectorsFor data.length))).2.ok =
      b.ok ∧
    Commits b files nextFree name data
      (b₄.write sbSector ((b.disk sbSector).wrU32 16 (nextFree + sectorsFor data.length))) := by
  have hdata : dataStart = 3 := rfl
  have hsb : sbSector = 1 := rfl
  have hdir : dirSector = 2 := rfl
  have hsb₃ : b₄.disk sbSector = b.disk sbSector := by
    rw [hdisk, Function.update_of_ne (by decide), houtside _ (.inl (by omega))]
  have hdata_sb : ∀ q, nextFree + q ≠ sbSector := by omega
  have hdata_dir : ∀ q, nextFree + q ≠ dirSector := by omega
  -- whether the superblock is written decides about everything but data and directory
  generalize hr : b₄.write sbSector _ = r
  obtain ⟨_ | _, b₅⟩ := r
  · obtain ⟨hfail, hdisk₅, hok₅⟩ := Blk.write_eq_false hr
    refine ⟨hok₅.trans hok, ⟨hslot, hroom, hearlier, ?_, ?_, ?_, fun s hs hs' hout => ?_,
      fun x hx => ?_⟩⟩
    · rw [← hcalls, ← hok, hfail]
    · rw [hdisk₅, hdisk, Function.update_self]
    · rw [hdisk₅]
      exact hsb₃
    · rw [hdisk₅, hdisk, Function.update_of_ne hs', houtside s hout]
    · rw [hdisk₅, hdisk, Function.update_of_ne (hdata_dir _)]
      exact hinside x hx
  · obtain ⟨hdone, hdisk₅, hok₅, -⟩ := Blk.write_eq_true hr
    refine ⟨hok₅.trans hok, ⟨hslot, hroom, hearlier, ?_, ?_, ?_, fun s hs hs' hout => ?_,
      fun x hx => ?_⟩⟩
    · rw [← hcalls, ← hok, hdone]
    · rw [hdisk₅, Function.update_of_ne (by decide), hdisk, Function.update_self]
    · rw [hdisk₅, Function.update_self, if_pos rfl]
    · rw [hdisk₅, Function.update_of_ne hs, hdisk, Function.update_of_ne hs', houtside s hout]
    · rw [hdisk₅, Function.update_of_ne (hdata_sb _), hdisk, Function.update_of_ne (hdata_dir _)]
      exact hinside x hx

lemma fsCreate_cases (h : Stores b.disk files nextFree) (name data : List UInt8) :
    (fsCreate b name data).2.ok = b.ok ∧
    (Abandons b files nextFree (sectorsFor data.length) (fsCreate b name data) ∨
      Commits b files nextFree name data (fsCreate b name data)) := by
  -- the first call that fails is one of those before the last
  have hstop : ∀ {i : ℕ} {P Q : Prop}, i < 3 + sectorsFor data.length → b.ok (b.calls + i) = false →
      ¬ (P ∧ Q ∧ ∀ i < 3 + sectorsFor data.length, b.ok (b.calls + i) = true) := by
    rintro i P Q hi hfail ⟨-, -, hall⟩
    rw [hall i hi] at hfail
    cases hfail
  have hnever : ∀ {i : ℕ} {P : Prop}, b.ok i = false → (∀ n, b.ok n = true) → P := by
    intro i P hfail hall
    rw [hall i] at hfail
    cases hfail
  rw [fsCreate]
  split
  next b₁ hsb =>
    obtain ⟨hfail, hdisk₁, hok₁⟩ := Blk.read_eq_none hsb
    exact ⟨hok₁, .inl ⟨rfl, fun s _ => by rw [hdisk₁], fun _ => hdisk₁,
      hstop (i := 0) (by omega) hfail⟩⟩
  next sb b₁ hsb =>
    obtain ⟨hread₁, rfl, hdisk₁, hok₁, hcalls₁⟩ := Blk.read_eq_some hsb
    rw [if_neg (not_not.mpr h.magic), h.next]
    dsimp only
    split
    next b₂ hdir =>
      obtain ⟨hfail, hdisk₂, hok₂⟩ := Blk.read_eq_none hdir
      rw [hok₁, hcalls₁] at hfail
      have hdisk := hdisk₂.trans hdisk₁
      exact ⟨hok₂.trans hok₁, .inl ⟨rfl, fun s _ => by rw [hdisk], fun _ => hdisk,
        hstop (i := 1) (by omega) hfail⟩⟩
    next dir b₂ hdir =>
      obtain ⟨hread₂, rfl, hdisk₂, hok₂, hcalls₂⟩ := Blk.read_eq_some hdir
      have hdisk := hdisk₂.trans hdisk₁
      have hok := hok₂.trans hok₁
      have hcalls : b₂.calls = b.calls + 2 := by omega
      rw [hok₁, hcalls₁] at hread₂
      rw [hdisk₁, h.freeSlot]
      by_cases hslot : files.length < dirEntries
      · rw [if_pos hslot]
        dsimp only
        split
        next hfull =>
          exact ⟨hok, .inl ⟨rfl, fun s _ => by rw [hdisk], fun _ => hdisk,
            fun hall => absurd hall.2.1 (by omega)⟩⟩
        next hroom =>
          have hwrite := writeData_spec data nextFree (sectorsFor data.length) 0 b₂
            (Nat.zero_add _)
          rw [Nat.mul_zero, Nat.add_zero] at hwrite
          have houtside := hwrite.outside
          rw [Nat.add_zero] at houtside
          -- the calls of the data loop are those after the two reads
          have hdata : (∀ i < sectorsFor data.length, b₂.ok (b₂.calls + i) = true) ↔
              ∀ i < sectorsFor data.length, b.ok (b.calls + (2 + i)) = true := by
            rw [hok, hcalls]
            simp only [Nat.add_assoc]
          split
          next b₃ heq =>
            rw [heq] at hwrite houtside
            have hfails : ¬ ∀ i < sectorsFor data.length, b.ok (b.calls + (2 + i)) = true := by
              rw [← hdata, ← hwrite.succeeds]
              simp
            refine ⟨hwrite.ok.trans hok, .inl ⟨rfl, fun s hs => ?_, fun hall => ?_, ?_⟩⟩
            · rw [← hdisk]
              exact houtside s hs
            · exact absurd (fun i _ => hall _) hfails
            · exact fun hall => hfails fun i hi => hall.2.2 (2 + i) (by omega)
          next b₃ heq =>
            rw [heq] at hwrite houtside
            have hcalls₃ : b₃.calls = b.calls + (2 + sectorsFor data.length) := by
              have := hwrite.calls rfl
              dsimp only at this
              omega
            have hok₃ : b₃.ok = b.ok := hwrite.ok.trans hok
            have hwrites := hdata.mp (hwrite.succeeds.mp rfl)
            split
            next b₄ hw =>
              obtain ⟨hfail, hdisk₄, hok₄⟩ := Blk.write_eq_false hw
              rw [hok₃, hcalls₃] at hfail
              refine ⟨hok₄.trans hok₃, .inl ⟨rfl, fun s hs => ?_, hnever hfail,
                hstop (by omega) hfail⟩⟩
              rw [hdisk₄, ← hdisk]
              exact houtside s hs
            next b₄ hw =>
              obtain ⟨hwrite₄, hdisk₄, hok₄, hcalls₄⟩ := Blk.write_eq_true hw
              rw [hok₃, hcalls₃] at hwrite₄
              have hearlier : ∀ i < 3 + sectorsFor data.length, b.ok (b.calls + i) = true := by
                intro i hi
                rcases Nat.lt_or_ge i 2 with hlt | hge
                · rcases (by omega : i = 0 ∨ i = 1) with rfl | rfl
                  · exact hread₁
                  · exact hread₂
                · by_cases hlast : i = 2 + sectorsFor data.length
                  · rw [hlast]
                    exact hwrite₄
                  · have := hwrites (i - 2) (by omega)
                    rwa [show 2 + (i - 2) = i by omega] at this
              obtain ⟨hok₅, hcommits⟩ := commits_of_written (Nat.le_of_not_lt hroom) hslot
                h.room.1 hearlier (hok₄.trans hok₃) (by omega) hdisk₄ (fun s hs => by
                  rw [← hdisk]
                  exact houtside s hs) fun x hx => hwrite.inside rfl x hx (Nat.zero_le _)
              exact ⟨hok₅, .inr hcommits⟩
      · rw [if_neg hslot]
        exact ⟨hok, .inl ⟨rfl, fun s _ => by rw [hdisk], fun _ => hdisk, fun hall => hslot hall.1⟩⟩

/-- The sector of a byte of a file is one of the data region in use. -/
lemma Stores.sector (h : Stores disk files nextFree) {f : File} (hf : f ∈ files) {x : ℕ}
    (hx : x < f.data.length) : dataStart ≤ f.start + x / sectorSize ∧
      f.start + x / sectorSize < nextFree := by
  obtain ⟨hstart, hstop⟩ := h.extent f hf
  have hsector : x / sectorSize < sectorsFor f.data.length := by
    by_contra hle
    have := sectorsFor_le.mp (Nat.le_of_not_lt hle)
    simp only [sectorSize] at this
    omega
  rw [File.stop] at hstop
  exact ⟨le_trans hstart (Nat.le_add_right _ _), by omega⟩

lemma Stores.disk_eq (h : Stores disk files nextFree)
    (hsame : ∀ s < nextFree, disk' s = disk s) : Stores disk' files nextFree := by
  have hroom : 3 ≤ nextFree := h.room.1
  have hsb : disk' sbSector = disk sbSector := hsame 1 (by omega)
  have hdir : disk' dirSector = disk dirSector := hsame 2 (by omega)
  refine ⟨?_, ?_, h.count, ?_, ?_, ?_, h.named, ?_, fun f hf x hx => ?_, h.extent, h.apart, h.room⟩
  · rw [hsb]
    exact h.magic
  · rw [hsb]
    exact h.next
  · rw [hdir]
    exact h.name
  · rw [hdir]
    exact h.size
  · rw [hdir]
    exact h.start
  · rw [hdir]
    exact h.free
  · rw [hsame _ (h.sector hf hx).2]
    exact h.contents f hf x hx

/-- A create that is abandoned leaves the files alone. -/
lemma Abandons.stores {nsec : ℕ} {r : Bool × Blk} (hr : Abandons b files nextFree nsec r)
    (h : Stores b.disk files nextFree) : Stores r.2.disk files nextFree :=
  h.disk_eq fun s hs => hr.outside s (.inl hs)

lemma Abandons.holds {nsec : ℕ} {r : Bool × Blk} (hr : Abandons b files nextFree nsec r)
    (h : Holds b.disk files nextFree) : Holds r.2.disk files nextFree := by
  have hroom : 3 ≤ nextFree := h.room.1
  have hdir : r.2.disk dirSector = b.disk dirSector := hr.outside 2 (.inl (by omega))
  refine (hr.stores h.stores).holds ?_
  rw [hdir]
  exact h.free

/-- The sectors of a create that wrote the directory, as far as they are in use before. -/
lemma Commits.outside_eq {r : Bool × Blk} (hr : Commits b files nextFree name data r)
    {s : ℕ} (hlo : dataStart ≤ s) (hs : s < nextFree) :
    r.2.disk s = b.disk s := by
  have hsb : sbSector < dataStart := by decide
  have hdir : dirSector < dataStart := by decide
  exact hr.outside _ (by omega) (by omega) (.inl hs)

/-- An entry of the directory before the one that a create fills. -/
lemma Commits.entry_eq {r : Bool × Blk} (hr : Commits b files nextFree name data r) {i x : ℕ}
    (hi : i < files.length) (hx : x < entSize) :
    r.2.disk dirSector (i * entSize + x) = b.disk dirSector (i * entSize + x) := by
  have hle := Nat.mul_le_mul_right entSize (Nat.succ_le_of_lt hi)
  rw [Nat.succ_mul] at hle
  rw [hr.dir, putEntry_outside (.inl (by omega))]

lemma Commits.entryU32_eq {r : Bool × Blk} (hr : Commits b files nextFree name data r) {i off : ℕ}
    (hi : i < files.length) (hoff : off + 4 ≤ entSize) :
    (r.2.disk dirSector).rdU32 (i * entSize + off) = (b.disk dirSector).rdU32 (i * entSize + off) := by
  rw [Sector.rdU32, Sector.rdU32]
  congr 1
  refine Sector.bytes_congr fun j hj => ?_
  rw [Nat.add_assoc]
  exact hr.entry_eq hi (by omega)

lemma Commits.superblock {r : Bool × Blk} (hr : Commits b files nextFree name data r)
    (h : Stores b.disk files nextFree) (hlast : r.1 = true ∨ data = []) :
    (r.2.disk sbSector).bytes 0 8 = fsMagic ∧
      (r.2.disk sbSector).rdU32 16 = nextFree + sectorsFor data.length := by
  have hfits := hr.room
  have htotal : totalSectors = 2048 := rfl
  rw [hr.sb]
  split
  · refine ⟨?_, Sector.rdU32_wrU32 (by omega)⟩
    rw [← h.magic]
    exact Sector.bytes_congr fun i hi => Sector.wrU32_outside (by omega)
  next hfalse =>
    obtain rfl : data = [] := hlast.resolve_left (by simpa using hfalse)
    exact ⟨h.magic, h.next⟩

/-- A create that wrote the directory, and the superblock where that changes anything, adds the file
under the name that its entry holds then. -/
lemma Commits.stores {r : Bool × Blk} {stored : List UInt8}
    (hr : Commits b files nextFree name data r) (h : Stores b.disk files nextFree)
    (hstored : ∀ x < nameLen, r.2.disk dirSector (files.length * entSize + x) = stored.getD x 0)
    (hname : stored.getD 0 0 ≠ 0) (hlast : r.1 = true ∨ data = []) :
    Stores r.2.disk (files ++ [⟨stored, nextFree, data⟩]) (nextFree + sectorsFor data.length) := by
  have hroom := h.room
  have hfits := hr.room
  have htotal : totalSectors = 2048 := rfl
  have hlen : data.length ≤ 512 * 2048 := sectorsFor_le.mp (by omega)
  -- a position below the new entry belongs to an old file, the next one to the new file
  have hcases : ∀ (i : ℕ) (f : File), (files ++ [⟨stored, nextFree, data⟩])[i]? = some f →
      (i < files.length ∧ files[i]? = some f) ∨
        (i = files.length ∧ f = ⟨stored, nextFree, data⟩) := by
    intro i f hf
    rcases Nat.lt_trichotomy i files.length with hlt | heq | hgt
    · rw [List.getElem?_append_left hlt] at hf
      exact .inl ⟨hlt, hf⟩
    · rw [heq, List.getElem?_concat_length] at hf
      exact .inr ⟨heq, (Option.some.inj hf).symm⟩
    · rw [List.getElem?_eq_none (by simp; omega)] at hf
      cases hf
  have hmem : ∀ f ∈ files ++ [⟨stored, nextFree, data⟩],
      f ∈ files ∨ f = ⟨stored, nextFree, data⟩ := by
    intro f hf
    rcases List.mem_append.mp hf with hf | hf
    · exact .inl hf
    · exact .inr (List.mem_singleton.mp hf)
  obtain ⟨hmagic, hnext⟩ := hr.superblock h hlast
  refine ⟨hmagic, hnext, ?_, fun i f hf x hx => ?_, fun i f hf => ?_, fun i f hf => ?_,
    fun f hf => ?_, fun i hi hi' => ?_, fun f hf x hx => ?_, fun f hf => ?_, ?_, by omega⟩
  · rw [List.length_append, List.length_singleton]
    exact hr.slot
  · rcases hcases i f hf with ⟨hi, hf⟩ | ⟨rfl, rfl⟩
    · rw [hr.entry_eq hi (lt_trans hx (by decide))]
      exact h.name i f hf x hx
    · exact hstored x hx
  · rcases hcases i f hf with ⟨hi, hf⟩ | ⟨rfl, rfl⟩
    · rw [hr.entryU32_eq hi (by decide)]
      exact h.size i f hf
    · rw [hr.dir]
      exact putEntry_size (by omega)
  · rcases hcases i f hf with ⟨hi, hf⟩ | ⟨rfl, rfl⟩
    · rw [hr.entryU32_eq hi (by decide)]
      exact h.start i f hf
    · rw [hr.dir]
      exact putEntry_start (by omega)
  · rcases hmem f hf with hf | rfl
    · exact h.named f hf
    · exact hname
  · rw [List.length_append, List.length_singleton] at hi
    have hle := Nat.mul_le_mul_right entSize hi
    rw [Nat.succ_mul] at hle
    rw [hr.dir, putEntry_outside (.inr hle)]
    exact h.free i (by omega) hi'
  · rcases hmem f hf with hf | rfl
    · obtain ⟨hstart, hstop⟩ := h.sector hf hx
      rw [hr.outside_eq hstart hstop]
      exact h.contents f hf x hx
    · exact hr.inside x hx
  · rcases hmem f hf with hf | rfl
    · have := h.extent f hf
      omega
    · exact ⟨hroom.1, le_rfl⟩
  · rw [List.pairwise_append]
    refine ⟨h.apart, List.pairwise_singleton _ _, fun f hf g hg => ?_⟩
    obtain rfl := List.mem_singleton.mp hg
    exact (h.extent f hf).2

/-- Into a clean directory the file goes under its own name. -/
lemma Commits.holds {r : Bool × Blk} (hr : Commits b files nextFree name data r)
    (h : Holds b.disk files nextFree) (hname : name.getD 0 0 ≠ 0) (hlast : r.1 = true ∨ data = []) :
    Holds r.2.disk (files ++ [⟨name, nextFree, data⟩]) (nextFree + sectorsFor data.length) := by
  have hstored : ∀ x < nameLen,
      r.2.disk dirSector (files.length * entSize + x) = name.getD x 0 := by
    intro x hx
    rw [hr.dir]
    exact putEntry_name h.free hx
  refine (hr.stores h.stores hstored hname hlast).holds fun x hx => ?_
  rw [List.length_append, List.length_singleton, Nat.succ_mul] at hx
  rw [hr.dir, putEntry_outside (.inr hx)]
  exact h.free x (by omega)

/-! ## Reading a file -/

lemma findSome?_congr {α β : Type*} {g g' : α → Option β} {l : List α}
    (h : ∀ a ∈ l, g a = g' a) : l.findSome? g = l.findSome? g' := by
  induction l with
  | nil => rfl
  | cons a l ih =>
    rw [List.findSome?_cons, List.findSome?_cons, h a List.mem_cons_self,
      ih fun a ha => h a (List.mem_cons_of_mem _ ha)]

/-- Searching a list through its indices. -/
lemma findSome?_range_getElem? {α β : Type*} (g : α → Option β) (l : List α) :
    ∀ n, l.length ≤ n → (List.range n).findSome? (fun i => l[i]?.bind g) = l.findSome? g := by
  induction l with
  | nil =>
    intro n _
    simp
  | cons a l ih =>
    intro n hn
    obtain ⟨n, rfl⟩ : ∃ m, n = m + 1 := ⟨n - 1, by simp at hn; omega⟩
    rw [List.range_succ_eq_map, List.findSome?_cons, List.findSome?_cons, List.findSome?_map]
    cases hg : g a with
    | some c => simp [hg]
    | none =>
      simp only [List.getElem?_cons_zero, Option.bind_some, hg]
      exact ih n (by simpa using hn)

lemma Stores.nameMatches (h : Stores disk files nextFree) {i : ℕ} {f : File}
    (hf : files[i]? = some f) :
    nameMatches (disk dirSector) i name = true ↔ SameName f.name name := by
  rw [Fs.nameMatches, List.all_eq_true]
  constructor
  · intro hall x hx
    have hbyte := of_decide_eq_true (hall x (List.mem_range.mpr hx))
    rwa [h.name i f hf x hx] at hbyte
  · intro hsame x hx
    rw [h.name i f hf x (List.mem_range.mp hx)]
    exact decide_eq_true (hsame x (List.mem_range.mp hx))

/-- A lookup finds the first file of that name. -/
lemma Stores.fsFind (h : Stores disk files nextFree) (name : List UInt8) :
    fsFind (disk dirSector) name = (files.find? fun f => SameName f.name name).map
      fun f => (f.data.length, f.start) := by
  rw [Fs.fsFind, ← List.findSome?_guard, List.map_findSome?,
    ← findSome?_range_getElem? _ files dirEntries h.count]
  refine findSome?_congr fun i hmem => ?_
  have hdir : i < dirEntries := List.mem_range.mp hmem
  cases hf : files[i]? with
  | none =>
    have hi : files.length ≤ i := List.getElem?_eq_none_iff.mp hf
    rw [if_pos (h.free _ hi hdir), Option.bind_none]
  | some f =>
    have hi : i < files.length := (List.getElem?_eq_some_iff.mp hf).1
    rw [if_neg (h.used hi), Option.bind_some, h.size i f hf, h.start i f hf]
    by_cases hsame : SameName f.name name
    · simp [Option.guard, hsame, (h.nameMatches hf).mpr hsame]
    · rw [if_neg fun hm => hsame ((h.nameMatches hf).mp hm)]
      simp [Option.guard, hsame]

/-- A byte of a buffer into which `bytes` were copied at `off`. -/
lemma getElem?_splice {out bytes : List UInt8} {off x : ℕ} (hlen : off + bytes.length ≤ out.length) :
    (out.take off ++ bytes ++ out.drop (off + bytes.length))[x]? =
      if off ≤ x ∧ x < off + bytes.length then bytes[x - off]? else out[x]? := by
  have htake : (out.take off).length = off := by rw [List.length_take]; omega
  split
  next hx =>
    rw [List.getElem?_append_left (by rw [List.length_append, htake]; exact hx.2),
      List.getElem?_append_right (by rw [htake]; exact hx.1), htake]
  next hx =>
    by_cases hlt : x < off
    · rw [List.append_assoc, List.getElem?_append_left (by rwa [htake]), List.getElem?_take,
        if_pos hlt]
    · have hge : off + bytes.length ≤ x := by omega
      rw [List.getElem?_append_right (by rwa [List.length_append, htake]), List.length_append,
        htake, List.getElem?_drop]
      congr 1
      omega

/-- Byte `x` of a file of `size` bytes is copied into a buffer of `cap` bytes: all of the piece it lies in
fits. -/
def Copied (size cap x : ℕ) : Prop :=
  x < size ∧ min (sectorSize * (x / sectorSize + 1)) size ≤ cap

instance (size cap x : ℕ) : Decidable (Copied size cap x) := by
  unfold Copied
  infer_instance

/-- What the loop of `fs_read` does from chunk `j` on, with `n` chunks to go, on a device without
faults. -/
lemma readData_bytes {size start : ℕ} {disk : ℕ → Sector} :
    ∀ (n j : ℕ) (out : List UInt8) (b : Blk), j + n = sectorsFor size → b.disk = disk →
    (∀ i, b.ok i = true) →
    (readData size n (sectorSize * j) (start + j) out b).1 = true ∧
    ∀ x, (readData size n (sectorSize * j) (start + j) out b).2.1[x]? =
      if sectorSize * j ≤ x ∧ Copied size out.length x then
        some (disk (start + x / sectorSize) (x % sectorSize))
      else out[x]? := by
  intro n
  induction n with
  | zero =>
    intro j out b hj _ _
    have hlen : size ≤ sectorSize * j := sectorsFor_le.mp (by omega)
    refine ⟨rfl, fun x => ?_⟩
    rw [if_neg (fun h => by have := h.2.1; omega), readData]
  | succ n ih =>
    intro j out b hj hdisk hok
    have hoff : sectorSize * j < size := by
      by_contra hle
      have := sectorsFor_le.mpr (Nat.le_of_not_lt hle)
      omega
    have hread : b.read (start + j) = (some (disk (start + j)), { b with calls := b.calls + 1 }) := by
      rw [Blk.read, if_pos (hok _), hdisk]
    generalize hk : min sectorSize (size - sectorSize * j) = k
    have hbytes : ((disk (start + j)).bytes 0 k).length = k := by simp [Sector.bytes]
    rw [readData, if_pos hoff, hread]
    dsimp only
    rw [hk]
    generalize hout' : (if sectorSize * j + k ≤ out.length then
      out.take (sectorSize * j) ++ (disk (start + j)).bytes 0 k ++ out.drop (sectorSize * j + k)
      else out) = out'
    -- the piece is copied as a whole or not at all
    have hchunk : ∀ x, out'[x]? =
        if (sectorSize * j ≤ x ∧ x < sectorSize * j + k) ∧ sectorSize * j + k ≤ out.length then
          some (disk (start + x / sectorSize) (x % sectorSize))
        else out[x]? := by
      intro x
      rw [← hout']
      by_cases hfits : sectorSize * j + k ≤ out.length
      · have hsplice := @getElem?_splice out ((disk (start + j)).bytes 0 k) (sectorSize * j) x
          (by omega)
        rw [hbytes] at hsplice
        rw [if_pos hfits, hsplice]
        by_cases hx : sectorSize * j ≤ x ∧ x < sectorSize * j + k
        · have hdiv : x / sectorSize = j := by
            simp only [sectorSize] at hx hk ⊢
            omega
          have hmod : x % sectorSize = x - sectorSize * j := by
            simp only [sectorSize] at hx hk ⊢
            omega
          rw [if_pos hx, if_pos ⟨hx, hfits⟩, hdiv, hmod, Sector.bytes, List.getElem?_map,
            List.getElem?_range (by omega), Option.map_some, Nat.zero_add]
        · rw [if_neg hx, if_neg fun h => hx h.1]
      · rw [if_neg hfits, if_neg fun h => hfits h.2]
    have hlen' : out'.length = out.length := by
      rw [← hout']
      split
      · simp only [List.length_append, List.length_take, List.length_drop, hbytes]
        omega
      · rfl
    have hrest : readData size n (sectorSize * j + k) (start + j + 1) out'
        { b with calls := b.calls + 1 } = readData size n (sectorSize * (j + 1))
        (start + (j + 1)) out' { b with calls := b.calls + 1 } := by
      cases n with
      | zero => rfl
      | succ n =>
        have hmore : sectorSize * (j + 1) < size := by
          by_contra hle
          have := sectorsFor_le.mpr (Nat.le_of_not_lt hle)
          omega
        rw [Nat.mul_succ] at hmore
        rw [show k = sectorSize by omega, Nat.mul_succ, Nat.add_assoc start j 1]
    rw [hrest]
    obtain ⟨htrue, hbytes'⟩ := ih (j + 1) out' { b with calls := b.calls + 1 } (by omega) hdisk hok
    refine ⟨htrue, fun x => ?_⟩
    rw [hbytes' x, hlen', hchunk x, Nat.mul_succ]
    -- in this piece, or in one of the rest
    by_cases hx : sectorSize * j ≤ x ∧ x < sectorSize * j + k
    · have hcopied : Copied size out.length x ↔ sectorSize * j + k ≤ out.length := by
        have hpiece : min (sectorSize * (x / sectorSize + 1)) size = sectorSize * j + k := by
          simp only [sectorSize] at hx hk ⊢
          omega
        rw [Copied, hpiece]
        exact and_iff_right (by omega)
      rw [if_neg (fun h => by omega)]
      by_cases hfits : sectorSize * j + k ≤ out.length
      · rw [if_pos ⟨hx, hfits⟩, if_pos ⟨hx.1, hcopied.mpr hfits⟩]
      · rw [if_neg fun h => hfits h.2, if_neg fun h => hfits (hcopied.mp h.2)]
    · have hother : ¬ ((sectorSize * j ≤ x ∧ x < sectorSize * j + k) ∧
          sectorSize * j + k ≤ out.length) := fun h => hx h.1
      rw [if_neg hother]
      by_cases hlater : sectorSize * j + sectorSize ≤ x
      · by_cases hcopied : Copied size out.length x
        · rw [if_pos ⟨hlater, hcopied⟩, if_pos ⟨by omega, hcopied⟩]
        · rw [if_neg fun h => hcopied h.2, if_neg fun h => hcopied h.2]
      · rw [if_neg fun h => hlater h.1, if_neg fun h => ?_]
        have hsize := h.2.1
        omega

/-- A buffer with room for the file gets all of it. -/
lemma readData_spec {data : List UInt8} {start : ℕ} {disk : ℕ → Sector}
    (hdata : ∀ x < data.length, data[x]? = some (disk (start + x / sectorSize) (x % sectorSize)))
    {out : List UInt8} {b : Blk} (hdisk : b.disk = disk) (hok : ∀ i, b.ok i = true)
    (hout : data.length ≤ out.length) :
    (readData data.length (sectorsFor data.length) 0 start out b).1 = true ∧
    ∀ x, (readData data.length (sectorsFor data.length) 0 start out b).2.1[x]? =
      if x < data.length then data[x]? else out[x]? := by
  have h := @readData_bytes data.length start disk (sectorsFor data.length) 0 out b
    (Nat.zero_add _) hdisk hok
  rw [Nat.mul_zero, Nat.add_zero] at h
  refine ⟨h.1, fun x => ?_⟩
  rw [h.2 x]
  by_cases hx : x < data.length
  · have hcopied : Copied data.length out.length x := ⟨hx, le_trans (Nat.min_le_right _ _) hout⟩
    rw [if_pos ⟨Nat.zero_le _, hcopied⟩, if_pos hx, hdata x hx]
  · rw [if_neg fun h => hx h.2.1, if_neg hx]

end Fs
end Xernel
