import Xernel.Arch.Paging

/-!
# The ELF64 loader (`elf.rs`)

`load` reads the program headers, collects the pages its `PT_LOAD` segments cover (pass 1), maps
each of them once to a fresh zeroed frame (pass 2) and copies the file bytes in (pass 3). The dev
profile checks integer overflow, so a sum that leaves `u64` is a panic here.
-/

namespace Xernel

inductive ElfError
  | tooSmall | badMagic | notElf64Le | noFrame | mapFailed | malformed
  deriving Repr, DecidableEq

/-- How a load can end without an entry point: an error it returns, or a kernel panic. -/
inductive LoadError
  | elf (e : ElfError)
  | panic
  deriving Repr, DecidableEq

namespace Elf

def elfMagic : List UInt8 := [0x7f, 0x45, 0x4c, 0x46]
def elfClass64 : UInt8 := 2
def elfData2Lsb : UInt8 := 1
def ptLoad : ℕ := 1
def pfX : ℕ := 1
def pfW : ℕ := 2

/-- `rd_u16`, `rd_u32` and `rd_u64` (with `n = 2, 4, 8`) followed by `ok_or(Malformed)`. -/
def rd (n : ℕ) (b : List UInt8) (off : ℕ) : Except LoadError ℕ :=
  if u64Max < off + n then .error .panic
  else if off + n ≤ b.length then .ok (leNat ((b.drop off).take n))
  else .error (.elf .malformed)

structure Segment where
  offset : ℕ
  vaddr : ℕ
  filesz : ℕ
  memsz : ℕ
  writable : Bool
  executable : Bool
  deriving Repr, DecidableEq

/-- The permissions of a page, without the frame that pass 2 fills in. -/
structure PageInfo where
  writable : Bool
  executable : Bool
  deriving Repr, DecidableEq

/-- The `PT_LOAD` entries among the next `n` program headers from header `i` on. -/
def segments (image : List UInt8) (phoff phentsize : ℕ) :
    ℕ → ℕ → Except LoadError (List Segment)
  | 0, _ => .ok []
  | n + 1, i => do
    let ph := phoff + i * phentsize
    let ptype ← rd 4 image ph
    if ptype ≠ ptLoad then segments image phoff phentsize n (i + 1)
    else
      let flags ← rd 4 image (ph + 4)
      let offset ← rd 8 image (ph + 8)
      let vaddr ← rd 8 image (ph + 16)
      let filesz ← rd 8 image (ph + 32)
      let memsz ← rd 8 image (ph + 40)
      let rest ← segments image phoff phentsize n (i + 1)
      .ok ({ offset, vaddr, filesz, memsz, writable := flags &&& pfW != 0,
             executable := flags &&& pfX != 0 } :: rest)

/-- `pages.entry(page).or_insert(..)` with the permissions or-ed in; the map is a list sorted by
page address. -/
def touchPage (page : ℕ) (seg : Segment) : List (ℕ × PageInfo) → List (ℕ × PageInfo)
  | [] => [(page, ⟨seg.writable, seg.executable⟩)]
  | (p, info) :: rest =>
    if page < p then (page, ⟨seg.writable, seg.executable⟩) :: (p, info) :: rest
    else if page = p then
      (p, ⟨info.writable || seg.writable, info.executable || seg.executable⟩) :: rest
    else (p, info) :: touchPage page seg rest

/-- The next `n` pages from `page` on. -/
def touchPages (seg : Segment) : ℕ → ℕ → List (ℕ × PageInfo) → List (ℕ × PageInfo)
  | 0, _, pages => pages
  | n + 1, page, pages => touchPages seg n (page + frameSize) (touchPage page seg pages)

/-- Pass 1 for one segment. -/
def coverSegment (pages : List (ℕ × PageInfo)) (seg : Segment) :
    Except LoadError (List (ℕ × PageInfo)) :=
  let start := pageDown seg.vaddr
  if u64Max < seg.vaddr + seg.memsz then .error (.elf .malformed)
  else
    let stop := pagesFor (seg.vaddr + seg.memsz) * frameSize
    if u64Max < stop then .error .panic
    else .ok (touchPages seg ((stop - start) / frameSize) start pages)

/-- What the headers ask for: the entry point, the segments and the pages they cover. -/
structure Plan where
  entry : ℕ
  segments : List Segment
  pages : List (ℕ × PageInfo)

/-- The part of `load` that only reads the image: header checks, header walk and pass 1. -/
def plan (image : List UInt8) : Except LoadError Plan :=
  if image.length < 64 then .error (.elf .tooSmall)
  else if image.take 4 ≠ elfMagic then .error (.elf .badMagic)
  else if image[4]? ≠ some elfClass64 ∨ image[5]? ≠ some elfData2Lsb then
    .error (.elf .notElf64Le)
  else do
    let entry ← rd 8 image 24
    let phoff ← rd 8 image 32
    let phentsize ← rd 2 image 54
    let phnum ← rd 2 image 56
    let segments ← segments image phoff phentsize phnum 0
    let pages ← segments.foldlM coverSegment []
    .ok { entry, segments, pages }

/-- Pass 2: allocate, zero and map each page, returning the frame of each. -/
def mapPages (space : ℕ) :
    List (ℕ × PageInfo) → Mm → Except LoadError (List (ℕ × ℕ)) × Mm
  | [], m => (.ok [], m)
  | (page, info) :: rest, m =>
    match m.frameAlloc with
    | (none, m) => (.error (.elf .noFrame), m)
    | (some phys, m) =>
      match (m.zero phys frameSize).mapUser space page phys info.writable info.executable with
      | (.panic, m) => (.error .panic, m)
      | (.failed _, m) => (.error (.elf .mapFailed), m)
      | (.done, m) =>
        match mapPages space rest m with
        | (.error e, m) => (.error e, m)
        | (.ok frames, m) => (.ok ((page, phys) :: frames), m)

/-- Pass 3 for one segment, from byte `copied` on. The first argument bounds the iterations. -/
def copySegment (image : List UInt8) (frames : List (ℕ × ℕ)) (seg : Segment) :
    ℕ → ℕ → Mm → Except LoadError Unit × Mm
  | 0, _, m => (.ok (), m)
  | fuel + 1, copied, m =>
    if seg.filesz ≤ copied then (.ok (), m)
    else if u64Max < seg.vaddr + copied then (.error .panic, m)
    else
      let va := seg.vaddr + copied
      let page := pageDown va
      let pageOff := va - page
      let n := min (frameSize - pageOff) (seg.filesz - copied)
      match frames.lookup page with
      | none => (.error (.elf .malformed), m)
      | some phys =>
        let srcOff := seg.offset + copied
        if u64Max < srcOff + n then (.error .panic, m)
        else if image.length < srcOff + n then (.error (.elf .malformed), m)
        else
          copySegment image frames seg fuel (copied + n)
            (m.writePhys (phys + pageOff) ((image.drop srcOff).take n))

/-- Pass 3. -/
def copySegments (image : List UInt8) (frames : List (ℕ × ℕ)) :
    List Segment → Mm → Except LoadError Unit × Mm
  | [], m => (.ok (), m)
  | seg :: segs, m =>
    match copySegment image frames seg seg.filesz 0 m with
    | (.error e, m) => (.error e, m)
    | (.ok (), m) => copySegments image frames segs m

/-- Load `image` into address space `space`, returning the entry address. -/
def load (m : Mm) (image : List UInt8) (space : ℕ) : Except LoadError ℕ × Mm :=
  match plan image with
  | .error e => (.error e, m)
  | .ok p =>
    match mapPages space p.pages m with
    | (.error e, m) => (.error e, m)
    | (.ok frames, m) =>
      match copySegments image frames p.segments m with
      | (.error e, m) => (.error e, m)
      | (.ok (), m) => (.ok p.entry, m)

end Elf
end Xernel
