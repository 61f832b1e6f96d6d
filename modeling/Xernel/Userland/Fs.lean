import Xernel.Word
import Mathlib.Logic.Function.Basic

/-!
# XernelFS (`userland/init/src/main.rs`)

The file system of the service host: a superblock, a directory of 16 entries and a data region in
which files lie one after the other. It works on the block device through `blk_rw` only. A device is
modelled by the contents of its sectors and by which of its calls succeed; a call that fails changes
nothing. Buffers of 512 bytes are functions of the offset, of which the first 512 values matter.
-/

namespace Xernel
namespace Fs

def sectorSize : ℕ := 512
def pageBytes : ℕ := 4096
def fsMagic : List UInt8 := [0x58, 0x45, 0x52, 0x4e, 0x46, 0x53, 0x30, 0x31]
def sbSector : ℕ := 1
def dirSector : ℕ := 2
def dataStart : ℕ := 3
def totalSectors : ℕ := 2048
def dirEntries : ℕ := 16
def entSize : ℕ := 32
def nameLen : ℕ := 24

/-- A buffer of one sector, by offset. -/
abbrev Sector := ℕ → UInt8

namespace Sector

/-- `[0u8; SECTOR]`. -/
def zero : Sector := fun _ => 0

/-- `buf[off..off + bytes.len()].copy_from_slice(bytes)`. -/
def put (s : Sector) (off : ℕ) (bytes : List UInt8) : Sector := fun i =>
  if off ≤ i then (bytes[i - off]?).getD (s i) else s i

/-- `buf[off..off + n]`. -/
def bytes (s : Sector) (off n : ℕ) : List UInt8 := (List.range n).map fun i => s (off + i)

/-- `rd_u32`. -/
def rdU32 (s : Sector) (off : ℕ) : ℕ := leNat (s.bytes off 4)

/-- `wr_u32`, with the cast of its value to `u32`. -/
def wrU32 (s : Sector) (off v : ℕ) : Sector := s.put off (leBytes 4 v)

end Sector

/-- A block device: its sectors, which calls of `blk_rw` succeed, and how many were made. -/
structure Blk where
  disk : ℕ → Sector
  ok : ℕ → Bool
  calls : ℕ

namespace Blk

/-- `blk_rw(b, sector, false, ..)`. -/
def read (b : Blk) (sector : ℕ) : Option Sector × Blk :=
  (if b.ok b.calls then some (b.disk sector) else none, { b with calls := b.calls + 1 })

/-- `blk_rw(b, sector, true, ..)`. -/
def write (b : Blk) (sector : ℕ) (buf : Sector) : Bool × Blk :=
  if b.ok b.calls then
    (true, { b with disk := Function.update b.disk sector buf, calls := b.calls + 1 })
  else (false, { b with calls := b.calls + 1 })

end Blk

/-- `len.div_ceil(SECTOR)`. -/
def sectorsFor (len : ℕ) : ℕ := (len + sectorSize - 1) / sectorSize

def fsFormat (b : Blk) : Bool × Blk :=
  let sb := (((Sector.zero.put 0 fsMagic).wrU32 8 1).wrU32 12 totalSectors).wrU32 16 dataStart
  match b.write sbSector sb with
  | (false, b) => (false, b)
  | (true, b) => b.write dirSector Sector.zero

/-- The loop of `fs_create` that writes the data from byte `off` on, into sector `s` and the ones after
it. The first number bounds the iterations. -/
def writeData (data : List UInt8) : ℕ → ℕ → ℕ → Blk → Bool × Blk
  | 0, _, _, b => (true, b)
  | fuel + 1, off, s, b =>
    if off < data.length then
      let n := min sectorSize (data.length - off)
      match b.write s (Sector.zero.put 0 ((data.drop off).take n)) with
      | (false, b) => (false, b)
      | (true, b) => writeData data fuel (off + n) (s + 1) b
    else (true, b)

/-- The first free directory entry. -/
def freeSlot (dir : Sector) : Option ℕ :=
  (List.range dirEntries).find? fun i => dir (i * entSize) = 0

/-- The directory with entry `slot` filled in. -/
def putEntry (dir : Sector) (slot : ℕ) (name : List UInt8) (size start : ℕ) : Sector :=
  let base := slot * entSize
  let nl := min nameLen name.length
  ((dir.put base (name.take nl)).wrU32 (base + 24) size).wrU32 (base + 28) start

def fsCreate (b : Blk) (name data : List UInt8) : Bool × Blk :=
  match b.read sbSector with
  | (none, b) => (false, b)
  | (some sb, b) =>
    if sb.bytes 0 8 ≠ fsMagic then (false, b)
    else
      let nextFree := sb.rdU32 16
      match b.read dirSector with
      | (none, b) => (false, b)
      | (some dir, b) =>
        match freeSlot dir with
        | none => (false, b)
        | some slot =>
          let nsec := sectorsFor data.length
          if totalSectors < nextFree + nsec then (false, b)
          else
            match writeData data nsec 0 nextFree b with
            | (false, b) => (false, b)
            | (true, b) =>
              match b.write dirSector (putEntry dir slot name data.length nextFree) with
              | (false, b) => (false, b)
              | (true, b) => b.write sbSector (sb.wrU32 16 (nextFree + nsec))

/-- The bytes of a byte string literal. -/
def ascii (s : String) : List UInt8 := s.toList.map fun c => UInt8.ofNat c.toNat

/-- Formats the disk and creates the files to serve. The catalogue printed at the end costs one read. -/
def fsSetup (b : Blk) : Bool × Blk :=
  match fsFormat b with
  | (false, b) => (false, b)
  | (true, b) =>
    match fsCreate b (ascii "hallo.txt") (ascii "Hallo von XernelFS!") with
    | (false, b) => (false, b)
    | (true, b) =>
      match fsCreate b (ascii "readme") (ascii "Xernel filesystem v1 - flach, 16 Dateien.") with
      | (false, b) => (false, b)
      | (true, b) => (true, (b.read dirSector).2)

/-- Whether entry `i` of the directory has this name. -/
def nameMatches (dir : Sector) (i : ℕ) (name : List UInt8) : Bool :=
  (List.range nameLen).all fun x => dir (i * entSize + x) = name.getD x 0

/-- `(size, start_sector)` of the file `name`. -/
def fsFind (dir : Sector) (name : List UInt8) : Option (ℕ × ℕ) :=
  (List.range dirEntries).findSome? fun i =>
    let base := i * entSize
    if dir base = 0 then none
    else if nameMatches dir i name then some (dir.rdU32 (base + 24), dir.rdU32 (base + 28))
    else none

/-- The loop of `fs_read`, from byte `off` and sector `s` on: whether it got to the end, and what it has
put into `out`. The second number bounds the iterations. -/
def readData (size : ℕ) : ℕ → ℕ → ℕ → List UInt8 → Blk → Bool × List UInt8 × Blk
  | 0, _, _, out, b => (true, out, b)
  | fuel + 1, off, s, out, b =>
    if off < size then
      match b.read s with
      | (none, b) => (false, out, b)
      | (some secbuf, b) =>
        let n := min sectorSize (size - off)
        let out :=
          if off + n ≤ out.length then out.take off ++ secbuf.bytes 0 n ++ out.drop (off + n) else out
        readData size fuel (off + n) (s + 1) out b
    else (true, out, b)

/-- The size of the file `name`, or `None`, and the buffer `out` afterwards. -/
def fsRead (b : Blk) (name out : List UInt8) : Option ℕ × List UInt8 × Blk :=
  match b.read dirSector with
  | (none, b) => (none, out, b)
  | (some dir, b) =>
    match fsFind dir name with
    | none => (none, out, b)
    | some (size, start) =>
      match readData size (sectorsFor size) 0 start out b with
      | (false, out, b) => (none, out, b)
      | (true, out, b) => (some size, out, b)

lemma length_readData (size : ℕ) : ∀ (n off s : ℕ) (out : List UInt8) (b : Blk),
    (readData size n off s out b).2.1.length = out.length := by
  intro n
  induction n with
  | zero => exact fun _ _ _ _ => rfl
  | succ n ih =>
    intro off s out b
    rw [readData]
    split
    · split
      · rfl
      · rw [ih]
        split
        · simp only [List.length_append, List.length_take, List.length_drop, Sector.bytes,
            List.length_map, List.length_range]
          omega
        · rfl
    · rfl

/-- Reading a file does not change the length of the buffer. -/
lemma length_fsRead (b : Blk) (name out : List UInt8) :
    (fsRead b name out).2.1.length = out.length := by
  rw [fsRead]
  split
  · rfl
  · split
    · rfl
    next size start _ =>
      have hlen := length_readData size (sectorsFor size) 0 start out
      split
      next heq => rw [← hlen, heq]
      next heq => rw [← hlen, heq]

end Fs
end Xernel
