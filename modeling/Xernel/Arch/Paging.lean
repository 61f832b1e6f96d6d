import Xernel.Mm.Frame
import Mathlib.Logic.Function.Basic

/-!
# Page tables and address spaces (`arch/x86_64/paging.rs`, `arch/x86_64/vspace.rs`)

An address space is named by the physical address of its PML4. The `x86_64` crate's mapper is
modelled by what `map_to` documents: it walks down the three lower levels, taking a frame for
each table that is missing, and sets the leaf entry unless it is in use. Tables are keyed by
level and index prefix instead of being bytes in memory; the lower half of the address space is
private to its PML4, the upper half is one tree that all spaces share. That sharing is what
`vspace::new` sets up by copying the upper PML4 entries of the running space.

`Mm` bundles the memory the kernel manages: the frame allocator, the page tables and the bytes of
physical memory. `calls` is a history variable: the allocator calls made so far. What the mapper
writes to a table goes to `pt` alone; in a frame that holds a table, `mem` has what anything else wrote
there, and the translations are those of `pt` as long as that is nothing. `Kernel.TablesApart` says that
nothing can be written there, and in which runs.
-/

namespace Xernel

/-- The leaf-entry flags the kernel sets besides `PRESENT`. -/
structure PageFlags where
  userAccessible : Bool
  writable : Bool
  noCache : Bool := false
  writeThrough : Bool := false
  noExecute : Bool := false
  deriving Repr, DecidableEq

/-- A present leaf entry: the physical frame it maps and its flags. -/
structure Leaf where
  phys : ℕ
  flags : PageFlags
  deriving Repr, DecidableEq

/-- The tables and leaf entries of one half of an address space. -/
structure TableTree where
  /-- The frame holding the table of this level and index prefix (level 1 tables hold leaves). -/
  tables : ℕ → ℕ → Option ℕ
  /-- The leaf entry of this page number. -/
  leaves : ℕ → Option Leaf

def TableTree.empty : TableTree := { tables := fun _ _ => none, leaves := fun _ => none }

namespace TableTree

def setTable (t : TableTree) (level idx frame : ℕ) : TableTree :=
  { t with tables := fun l i => if l = level ∧ i = idx then some frame else t.tables l i }

def setLeaf (t : TableTree) (page : ℕ) (leaf : Leaf) : TableTree :=
  { t with leaves := Function.update t.leaves page (some leaf) }

end TableTree

/-- The number of pages in the lower half, `2 ^ 47` bytes. -/
def lowerHalfPages : ℕ := 2 ^ 35

structure PageTables where
  /-- The upper half, shared by all address spaces. -/
  kernel : TableTree
  /-- The lower half of the space with this PML4. -/
  user : ℕ → TableTree

namespace PageTables

/-- The tree that `page` of space `l4` lives in. -/
def tree (pt : PageTables) (l4 page : ℕ) : TableTree :=
  if page < lowerHalfPages then pt.user l4 else pt.kernel

def setTree (pt : PageTables) (l4 page : ℕ) (t : TableTree) : PageTables :=
  if page < lowerHalfPages then { pt with user := Function.update pt.user l4 t }
  else { pt with kernel := t }

/-- The leaf entry of `page` in space `l4`. -/
def leaf (pt : PageTables) (l4 page : ℕ) : Option Leaf := (pt.tree l4 page).leaves page

end PageTables

structure Mm where
  frames : PhysFrameAllocator
  calls : List FrameCall
  pt : PageTables
  mem : ℕ → UInt8

namespace Mm

/-! ## The global frame allocator -/

/-- `frame::alloc`. -/
def frameAlloc (m : Mm) : Option ℕ × Mm :=
  let r := m.frames.alloc
  (r.1, { m with frames := r.2, calls := m.calls ++ [.alloc r.1] })

/-- `frame::alloc_contiguous`. -/
def frameAllocContiguous (m : Mm) (n : ℕ) : Option ℕ × Mm :=
  let r := m.frames.allocContiguous n
  (r.1, { m with frames := r.2, calls := m.calls ++ [.allocContiguous n r.1] })

/-- `frame::free`. -/
def frameFree (m : Mm) (pa : ℕ) : Mm :=
  { m with frames := m.frames.free pa, calls := m.calls ++ [.free pa] }

/-! ## Physical bytes, reached through the direct map -/

/-- `core::ptr::write_bytes(phys + hhdm, 0, len)`. -/
def zero (m : Mm) (phys len : ℕ) : Mm :=
  { m with mem := fun a => if phys ≤ a ∧ a < phys + len then 0 else m.mem a }

def setByte (m : Mm) (phys : ℕ) (b : UInt8) : Mm :=
  { m with mem := Function.update m.mem phys b }

/-! ## Mapping -/

/-- The errors of `map_to` on 4 KiB pages. -/
inductive MapToError
  | frameAllocationFailed | pageAlreadyMapped
  deriving Repr, DecidableEq

/-- What a mapping function does: `panic` is `VirtAddr::new` refusing a non-canonical address. -/
inductive MapOutcome
  | done | failed (e : MapToError) | panic
  deriving Repr, DecidableEq

/-- `create_next_table`: the table of this level on the path to `page`, made if missing. -/
def createNextTable (m : Mm) (l4 page level : ℕ) : Bool × Mm :=
  let idx := page / 512 ^ level
  match (m.pt.tree l4 page).tables level idx with
  | some _ => (true, m)
  | none =>
    match m.frameAlloc with
    | (none, m) => (false, m)
    | (some frame, m) =>
      (true, { m with pt := m.pt.setTree l4 page ((m.pt.tree l4 page).setTable level idx frame) })

/-- The tables of the given levels on the path to `page`, top down, stopping at the first that
cannot be made. -/
def createTables (l4 page : ℕ) : List ℕ → Mm → Bool × Mm
  | [], m => (true, m)
  | level :: levels, m =>
    match m.createNextTable l4 page level with
    | (false, m) => (false, m)
    | (true, m) => createTables l4 page levels m

/-- `map_to`. -/
def mapTo (m : Mm) (l4 page : ℕ) (leaf : Leaf) : Option MapToError × Mm :=
  match createTables l4 page [3, 2, 1] m with
  | (false, m) => (some .frameAllocationFailed, m)
  | (true, m) =>
    match m.pt.leaf l4 page with
    | some _ => (some .pageAlreadyMapped, m)
    | none =>
      (none, { m with pt := m.pt.setTree l4 page ((m.pt.tree l4 page).setLeaf page leaf) })

/-- The addresses `VirtAddr::new` accepts. -/
def canonical (va : ℕ) : Bool := decide (va < 2 ^ 47) || decide (2 ^ 64 - 2 ^ 47 ≤ va)

/-- `map_with_flags`, on any address space. -/
def mapWithFlags (m : Mm) (l4 virt phys : ℕ) (flags : PageFlags) : MapOutcome × Mm :=
  if canonical virt then
    match m.mapTo l4 (virt / frameSize) { phys := pageDown phys, flags } with
    | (none, m) => (.done, m)
    | (some e, m) => (.failed e, m)
  else (.panic, m)

/-- `map_user`, of `paging` (on the active space) and of `vspace` (on any). -/
def mapUser (m : Mm) (l4 virt phys : ℕ) (writable executable : Bool) : MapOutcome × Mm :=
  m.mapWithFlags l4 virt phys { userAccessible := true, writable, noExecute := !executable }

/-- `map_user_device_idempotent`: a page that is already mapped counts as mapped. -/
def mapUserDevice (m : Mm) (l4 virt phys : ℕ) : MapOutcome × Mm :=
  match m.mapWithFlags l4 virt phys
      { userAccessible := true, writable := true, noCache := true, writeThrough := true,
        noExecute := true } with
  | (.failed .pageAlreadyMapped, m) => (.done, m)
  | r => r

/-- `map_mmio`: a device page for the kernel only. -/
def mapMmio (m : Mm) (l4 virt phys : ℕ) : MapOutcome × Mm :=
  m.mapWithFlags l4 virt phys
    { userAccessible := false, writable := true, noCache := true, writeThrough := true }

/-! ## Address spaces -/

/-- `vspace::new`: a PML4 with an empty lower half. -/
def vspaceNew (m : Mm) : Option ℕ × Mm :=
  match m.frameAlloc with
  | (none, m) => (none, m)
  | (some l4, m) =>
    (some l4, { m with
      pt := { m.pt with user := Function.update m.pt.user l4 (TableTree.empty.setTable 4 0 l4) } })

/-- `vspace::alloc_map_user`: a fresh zeroed frame mapped at `virt`. -/
def allocMapUser (m : Mm) (l4 virt : ℕ) (writable executable : Bool) : MapOutcome × Mm :=
  match m.frameAlloc with
  | (none, m) => (.failed .frameAllocationFailed, m)
  | (some phys, m) => (m.zero phys frameSize).mapUser l4 virt phys writable executable

/-- `vspace::phys_of`. -/
def physOf (m : Mm) (l4 virt : ℕ) : Option ℕ :=
  (m.pt.leaf l4 (virt / frameSize)).map fun leaf => leaf.phys + virt % frameSize

/-! ## User memory -/

/-- The page walk of `user_range_ok`: every page from `page` to `last` satisfies `ok`. The last
argument bounds the iterations. -/
def userRangeWalk (ok : ℕ → Bool) (last : ℕ) : ℕ → ℕ → Bool
  | _, 0 => false
  | page, fuel + 1 =>
    if ok page then
      if last ≤ page then true else userRangeWalk ok last (page + frameSize) fuel
    else false

/-- Whether the page at `va` is mapped user-accessible, and writable if asked for. -/
def userPageOk (m : Mm) (l4 : ℕ) (writable : Bool) (va : ℕ) : Bool :=
  match m.pt.leaf l4 (va / frameSize) with
  | none => false
  | some leaf => leaf.flags.userAccessible && (!writable || leaf.flags.writable)

/-- `user_range_ok`. -/
def userRangeOk (m : Mm) (l4 virt len : ℕ) (writable : Bool) : Bool :=
  if len = 0 then true
  else if u64Max < virt + (len - 1) then false
  else
    let lastPage := pageDown (virt + (len - 1))
    let page := pageDown virt
    userRangeWalk (m.userPageOk l4 writable) lastPage page ((lastPage - page) / frameSize + 1)

/-- The byte at user address `va`, as an access in space `l4` sees it. -/
def readByte (m : Mm) (l4 va : ℕ) : UInt8 :=
  (m.physOf l4 va).elim 0 m.mem

/-- A store to user address `va` in space `l4`. -/
def writeByte (m : Mm) (l4 va : ℕ) (b : UInt8) : Mm :=
  (m.physOf l4 va).elim m fun phys => m.setByte phys b

/-- The `len` bytes from user address `ptr` on. -/
def readUser (m : Mm) (l4 ptr len : ℕ) : List UInt8 :=
  (List.range len).map fun i => m.readByte l4 (ptr + i)

/-- Consecutive bytes written at physical address `phys`. -/
def writePhys (m : Mm) : ℕ → List UInt8 → Mm
  | _, [] => m
  | phys, b :: bytes => (m.setByte phys b).writePhys (phys + 1) bytes

/-- `copy_from_slice` into a user buffer at `ptr`. -/
def writeUser (m : Mm) (l4 : ℕ) : ℕ → List UInt8 → Mm
  | _, [] => m
  | ptr, b :: bytes => (m.writeByte l4 ptr b).writeUser l4 (ptr + 1) bytes

end Mm

end Xernel
