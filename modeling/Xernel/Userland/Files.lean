import Xernel.Userland.FsRuns
import Xernel.Userland.Answers

/-!
# What a created file can be read as

Nothing restricts the names of `fs_create`. A name that starts with a zero byte leaves its entry free
but fills in the rest of it, and a later name shorter than that is stored with what is left behind it.
So a create that reports success may not be found by its name, or may be hidden by an earlier file. The
buffer of a read may be too short for the file; the file service reads into buffers of two sizes.
-/

namespace Xernel
namespace Fs

variable {disk : ℕ → Sector} {files : List File} {nextFree : ℕ} {b : Blk} {c : Create}
  {name data : List UInt8}

/-! ## Any names -/

lemma named_iff : Named name ↔ name.getD 0 0 ≠ 0 := by
  refine ⟨Named.getD, fun h => ?_⟩
  cases name with
  | nil => exact absurd rfl h
  | cons c name => exact ⟨List.cons_ne_nil _ _, fun hc => h (Option.some.inj hc)⟩

/-- A create whose name starts with a zero byte takes sectors, but its entry stays free. -/
lemma Commits.stores_unnamed {r : Bool × Blk} (hr : Commits b files nextFree name data r)
    (h : Stores b.disk files nextFree) (hname : name.getD 0 0 = 0) (hlast : r.1 = true ∨ data = []) :
    Stores r.2.disk files (nextFree + sectorsFor data.length) := by
  have hroom := h.room
  have hfits := hr.room
  obtain ⟨hmagic, hnext⟩ := hr.superblock h hlast
  have hlt : ∀ (i : ℕ) (f : File), files[i]? = some f → i < files.length :=
    fun i f hf => (List.getElem?_eq_some_iff.mp hf).1
  refine ⟨hmagic, hnext, h.count, fun i f hf x hx => ?_, fun i f hf => ?_, fun i f hf => ?_, h.named,
    fun i hi hi' => ?_, fun f hf x hx => ?_, fun f hf => ?_, h.apart, by omega⟩
  · rw [hr.entry_eq (hlt i f hf) (lt_trans hx (by decide))]
    exact h.name i f hf x hx
  · rw [hr.entryU32_eq (hlt i f hf) (by decide)]
    exact h.size i f hf
  · rw [hr.entryU32_eq (hlt i f hf) (by decide)]
    exact h.start i f hf
  · rw [hr.dir]
    rcases Nat.lt_or_eq_of_le hi with hafter | rfl
    · have hle := Nat.mul_le_mul_right entSize (Nat.succ_le_of_lt hafter)
      rw [Nat.succ_mul] at hle
      rw [putEntry_outside (.inr hle)]
      exact h.free i hi hi'
    · -- the entry of this create
      have hbyte := @putEntry_byte name (b.disk dirSector) files.length data.length nextFree 0
        (by decide)
      rw [Nat.add_zero] at hbyte
      rw [hbyte]
      split
      · exact hname
      · exact h.free _ le_rfl hi'
  · obtain ⟨hstart, hstop⟩ := h.sector hf hx
    rw [hr.outside_eq hstart hstop]
    exact h.contents f hf x hx
  · have := h.extent f hf
    omega

/-- The name that entry `slot` holds. -/
def storedName (disk : ℕ → Sector) (slot : ℕ) : List UInt8 :=
  (disk dirSector).bytes (slot * entSize) nameLen

lemma getD_storedName {slot x : ℕ} (hx : x < nameLen) :
    (storedName disk slot).getD x 0 = disk dirSector (slot * entSize + x) := by
  simp [storedName, Sector.bytes, List.getD_eq_getElem?_getD, hx]

/-- What a create without faults does, whatever the name. -/
lemma Stores.create (h : Stores b.disk files nextFree) (hok : ∀ n, b.ok n = true) (c : Create) :
    ((fsCreate b c.name c.data).1 = false ∧ (fsCreate b c.name c.data).2.disk = b.disk) ∨
    ((fsCreate b c.name c.data).1 = true ∧
      Commits b files nextFree c.name c.data (fsCreate b c.name c.data)) := by
  obtain ⟨-, habandons | hcommits⟩ := fsCreate_cases h c.name c.data
  · exact .inl ⟨habandons.result, habandons.faultless hok⟩
  · exact .inr ⟨by rw [hcommits.last, hok], hcommits⟩

lemma Commits.stores_named {r : Bool × Blk} (hr : Commits b files nextFree name data r)
    (h : Stores b.disk files nextFree) (hname : name.getD 0 0 ≠ 0) (hlast : r.1 = true ∨ data = []) :
    Stores r.2.disk (files ++ [⟨storedName r.2.disk files.length, nextFree, data⟩])
      (nextFree + sectorsFor data.length) := by
  refine hr.stores h (fun x hx => (getD_storedName hx).symm) ?_ hlast
  rw [getD_storedName (by decide), hr.dir, putEntry_byte (by decide), if_pos]
  · exact hname
  · exact List.length_pos_of_ne_nil (named_iff.mpr hname).1

/-- Without faults the disk holds some files in every state, whatever the names. -/
lemma run_stores {ts : List (Transition Blk Create Bool)} (hrun : Run (xernelFs fun _ => true) ts b) :
    b.ok = (fun _ => true) ∧ ∃ files nextFree, Stores b.disk files nextFree := by
  refine hrun.invariant (I := fun b => b.ok = (fun _ => true) ∧
    ∃ files nextFree, Stores b.disk files nextFree) ?_ ?_
  · rintro b ⟨disk, calls, hformat⟩
    exact ⟨(fsFormat_ok hformat).symm, [], dataStart, (fsFormat_holds hformat).stores⟩
  · rintro b c b' o - ⟨hok, files, nextFree, h⟩ hs
    obtain ⟨rfl, rfl⟩ := Prod.mk.inj (Option.some.inj hs)
    refine ⟨(fsCreate_cases h c.name c.data).1.trans hok, ?_⟩
    rcases h.create (fun n => by rw [hok]) c with ⟨-, hdisk⟩ | ⟨htrue, hcommits⟩
    · exact ⟨files, nextFree, by rwa [hdisk]⟩
    · by_cases hname : c.name.getD 0 0 = 0
      · exact ⟨_, _, hcommits.stores_unnamed h hname (.inl htrue)⟩
      · exact ⟨_, _, hcommits.stores_named h hname (.inl htrue)⟩

/-! ## Finding what was created -/

/-- The name does not start with a zero byte. If the directory lists that name already, the first file
of it has the same contents; else the free entry holds zeros behind the name. -/
def Findable (b : Blk) (c : Create) : Prop :=
  Named c.name ∧
  match fsFind (b.disk dirSector) c.name with
  | some (size, start) => size = c.data.length ∧
    ∀ x < size, c.data[x]? = some (b.disk (start + x / sectorSize) (x % sectorSize))
  | none => ∀ slot, freeSlot (b.disk dirSector) = some slot →
    ∀ x < nameLen, c.name.length ≤ x → b.disk dirSector (slot * entSize + x) = 0

/-- The contents of a file are what its sectors hold. -/
lemma Stores.data_eq_iff (h : Stores disk files nextFree) {f : File} (hf : f ∈ files) :
    f.data = data ↔ f.data.length = data.length ∧ ∀ x < f.data.length,
      data[x]? = some (disk (f.start + x / sectorSize) (x % sectorSize)) := by
  constructor
  · rintro rfl
    exact ⟨rfl, h.contents f hf⟩
  · rintro ⟨hlen, hbytes⟩
    apply List.ext_getElem?
    intro x
    by_cases hx : x < f.data.length
    · rw [hbytes x hx, h.contents f hf x hx]
    · rw [List.getElem?_eq_none (by omega), List.getElem?_eq_none (by omega)]

/-- After a create that reports success, the file is found exactly if the name was fit for it. -/
lemma Stores.found_iff (h : Stores b.disk files nextFree) (hok : ∀ n, b.ok n = true)
    (htrue : (fsCreate b c.name c.data).1 = true) :
    FoundIn (fsCreate b c.name c.data).2 c ↔ Findable b c := by
  have hcommits : Commits b files nextFree c.name c.data (fsCreate b c.name c.data) := by
    rcases h.create hok c with ⟨hfalse, -⟩ | ⟨-, hcommits⟩
    · rw [htrue] at hfalse
      cases hfalse
    · exact hcommits
  have hok' : ∀ n, (fsCreate b c.name c.data).2.ok n = true := by
    rw [(fsCreate_cases h c.name c.data).1]
    exact hok
  have hfind := h.fsFind c.name
  have hslot := h.freeSlot
  rw [if_pos hcommits.slot] at hslot
  unfold Findable
  by_cases hname : c.name.getD 0 0 = 0
  · -- no entry in use has a name with a zero in front
    refine iff_of_false (fun hfound => ?_) fun hn => named_iff.mp hn.1 hname
    have hstores := hcommits.stores_unnamed h hname (.inl htrue)
    obtain ⟨f, hf, -⟩ := (hstores.foundIn_iff hok').mp hfound
    have hmatch := List.find?_some hf
    have hsame : SameName f.name c.name := of_decide_eq_true hmatch
    have hfirst := hsame 0 (by decide)
    rw [hname] at hfirst
    exact h.named f (List.mem_of_find?_eq_some hf) hfirst
  · have hstores := hcommits.stores_named h hname (.inl htrue)
    rw [hstores.foundIn_iff hok', and_iff_right (named_iff.mpr hname), hfind, List.find?_append]
    cases hold : files.find? (fun f => SameName f.name c.name) with
    | some f =>
      -- an earlier file of this name comes first
      rw [Option.some_or, Option.map_some]
      dsimp only
      rw [← h.data_eq_iff (List.mem_of_find?_eq_some hold)]
      constructor
      · rintro ⟨g, hg, hdata⟩
        obtain rfl := Option.some.inj hg
        exact hdata
      · exact fun hdata => ⟨f, rfl, hdata⟩
    | none =>
      -- the new entry is the only one that may match
      rw [Option.none_or, Option.map_none]
      dsimp only
      have hsame : SameName (storedName (fsCreate b c.name c.data).2.disk files.length) c.name ↔
          ∀ x < nameLen, c.name.length ≤ x →
            b.disk dirSector (files.length * entSize + x) = 0 := by
        unfold SameName
        refine forall₂_congr fun x hx => ?_
        rw [getD_storedName hx, hcommits.dir, putEntry_byte hx]
        by_cases hlt : x < c.name.length
        · rw [if_pos hlt]
          exact iff_of_true rfl fun hge => by omega
        · rw [if_neg hlt, List.getD_eq_getElem?_getD, List.getElem?_eq_none (by omega),
            Option.getD_none]
          exact ⟨fun h _ => h, fun h => h (by omega)⟩
      constructor
      · rintro ⟨f, hf, -⟩ slot hs
        obtain rfl := Option.some.inj (hslot.symm.trans hs)
        have hmatch := List.find?_some hf
        obtain rfl := List.mem_singleton.mp (List.mem_of_find?_eq_some hf)
        exact hsame.mp (of_decide_eq_true hmatch)
      · intro hzero
        refine ⟨⟨storedName (fsCreate b c.name c.data).2.disk files.length, nextFree, c.data⟩, ?_, rfl⟩
        rw [List.find?_cons_of_pos]
        exact decide_eq_true (hsame.mpr (hzero _ hslot))

/-- Whenever a create on a device without faults reports success, reading the file right after it gives
its contents exactly if the name was fit for it. -/
theorem create_found_iff {ts : List (Transition Blk Create Bool)}
    (hrun : Run (xernelFs fun _ => true) ts b) :
    ∀ t ∈ ts, t.out = true → (FoundIn t.post t.event ↔ Findable t.pre t.event) := by
  intro t ht htrue
  obtain ⟨a, d, hts⟩ := List.append_of_mem ht
  obtain ⟨hbefore, hs, -⟩ := hrun.split hts
  obtain ⟨hok, files, nextFree, h⟩ := run_stores hbefore
  obtain ⟨hpost, hout⟩ := Prod.mk.inj (Option.some.inj hs)
  rw [← hpost]
  exact h.found_iff (fun n => by rw [hok]) (hout.trans htrue)

/-- A first create on a fresh disk is found. -/
theorem create_found_iff_first :
    ∃ (ts : List (Transition Blk Create Bool)) (b : Blk), Run (xernelFs fun _ => true) ts b ∧
      ts.map Transition.event = [⟨[97], [1, 2]⟩] ∧ ∀ t ∈ ts, FoundIn t.post t.event := by
  have hfacts : ((xernelFs fun _ => true).replay (fsFormat (blank fun _ => true)).2
      [⟨[97], [1, 2]⟩]).map (fun r => (r.1.map Transition.out,
        r.1.map fun t => fsFind (t.pre.disk dirSector) t.event.name,
        r.1.map fun t => (t.pre.disk dirSector).bytes 0 512)) =
      some ([true], [none], [List.replicate 512 0]) := by decide +kernel
  obtain ⟨⟨ts, b⟩, hreplay, hfacts⟩ := Option.map_eq_some_iff.mp hfacts
  have hrun : Run (xernelFs fun _ => true) ts b :=
    (Run.start (init_blank (by decide +kernel))).append_replay hreplay
  have hevents : ts.map Transition.event = [⟨[97], [1, 2]⟩] := TransitionSystem.replay_events hreplay
  obtain ⟨t, rfl⟩ : ∃ t, ts = [t] := List.length_eq_one_iff.mp (by simpa using congrArg List.length hevents)
  simp only [List.map_cons, List.map_nil, List.cons.injEq, and_true, Prod.mk.injEq] at hfacts hevents
  obtain ⟨hout, hfind, hzero⟩ := hfacts
  refine ⟨[t], b, hrun, by rw [List.map_singleton, hevents], fun u hu => ?_⟩
  obtain rfl := List.mem_singleton.mp hu
  refine (create_found_iff hrun u hu hout).mpr ⟨?_, ?_⟩
  · rw [hevents]
    decide
  · rw [hfind]
    rintro slot hslot x hx -
    -- the directory is empty
    have hlt : slot * entSize + x < 512 := by
      have hmem := List.mem_range.mp (List.mem_of_find?_eq_some hslot)
      simp only [dirEntries, entSize, nameLen] at hmem hx ⊢
      omega
    have hbyte := congrArg (fun l : List UInt8 => l[slot * entSize + x]?) hzero
    rw [Sector.bytes, List.getElem?_map, List.getElem?_range hlt, Option.map_some, Nat.zero_add,
      List.getElem?_replicate, if_pos hlt] at hbyte
    exact Option.some.inj hbyte

/-- A second create of a name succeeds as well, but reading the name then gives the first file. -/
theorem not_create_found :
    ∃ (ts : List (Transition Blk Create Bool)) (b : Blk), Run (xernelFs fun _ => true) ts b ∧
      ts.map Transition.event = [⟨[97], [1]⟩, ⟨[97], [2]⟩] ∧ ts.map Transition.out = [true, true] ∧
      ¬ ∀ t ∈ ts, t.out = true → FoundIn t.post t.event := by
  have hfacts : ((xernelFs fun _ => true).replay (fsFormat (blank fun _ => true)).2
      [⟨[97], [1]⟩, ⟨[97], [2]⟩]).map (fun r => (r.1.map Transition.out,
        (r.1[1]?).map fun t => (t.event, (fsRead t.post [97] [0]).2.1))) =
      some ([true, true], some (⟨[97], [2]⟩, [1])) := by decide +kernel
  obtain ⟨⟨ts, b⟩, hreplay, hfacts⟩ := Option.map_eq_some_iff.mp hfacts
  obtain ⟨hout, hsecond⟩ := Prod.mk.inj hfacts
  obtain ⟨t, ht, hsecond⟩ := Option.map_eq_some_iff.mp hsecond
  obtain ⟨hevent, hread⟩ := Prod.mk.inj hsecond
  have hrun : Run (xernelFs fun _ => true) ts b :=
    (Run.start (init_blank (by decide +kernel))).append_replay hreplay
  refine ⟨ts, b, hrun, TransitionSystem.replay_events hreplay, hout, fun hall => ?_⟩
  have htrue : t.out = true := by
    have hget := congrArg (fun l : List Bool => l[1]?) hout
    rw [List.getElem?_map, ht] at hget
    exact Option.some.inj hget
  obtain ⟨-, hbytes⟩ := hall t (List.mem_of_getElem? ht) htrue [0] (by rw [hevent]; decide)
  rw [hevent, hread] at hbytes
  exact absurd hbytes (by decide)

/-! ## Buffers -/

/-- Byte `x` of a file that starts at sector `start`. -/
def fileByte (disk : ℕ → Sector) (start x : ℕ) : UInt8 := disk (start + x / sectorSize) (x % sectorSize)

/-- What `fs_read` of a listed file does without faults. -/
lemma fsRead_of_find {size start : ℕ} (hok : ∀ n, b.ok n = true)
    (hfind : fsFind (b.disk dirSector) name = some (size, start)) (out : List UInt8) :
    (fsRead b name out).1 = some size ∧ ∀ x, (fsRead b name out).2.1[x]? =
      if Copied size out.length x then some (fileByte b.disk start x) else out[x]? := by
  obtain ⟨htrue, hbytes⟩ := @readData_bytes size start b.disk (sectorsFor size) 0 out
    { b with calls := b.calls + 1 } (Nat.zero_add _) rfl hok
  rw [Nat.mul_zero, Nat.add_zero] at htrue hbytes
  rw [fsRead, Blk.read, if_pos (hok _)]
  dsimp only
  rw [hfind]
  dsimp only
  generalize readData size _ 0 start out _ = r at htrue hbytes ⊢
  obtain ⟨done, out', b'⟩ := r
  obtain rfl : done = true := htrue
  refine ⟨rfl, fun x => ?_⟩
  have hx := hbytes x
  simp only [Nat.zero_le, true_and] at hx
  exact hx

/-- A read that gives a size has found a file of that size. -/
lemma fsFind_of_fsRead {size : ℕ} {out : List UInt8} (hok : ∀ n, b.ok n = true)
    (h : (fsRead b name out).1 = some size) :
    ∃ start, fsFind (b.disk dirSector) name = some (size, start) := by
  cases hfind : fsFind (b.disk dirSector) name with
  | none =>
    rw [fsRead, Blk.read, if_pos (hok _)] at h
    dsimp only at h
    rw [hfind] at h
    cases h
  | some r =>
    obtain ⟨size', start⟩ := r
    rw [(fsRead_of_find hok hfind out).1] at h
    obtain rfl := Option.some.inj h
    exact ⟨start, rfl⟩

/-- The front of the buffer is the front of the file, as much of it as fits, and the rest of the buffer
is as it was. -/
def Fills (disk : ℕ → Sector) (size start : ℕ) (out out' : List UInt8) : Prop :=
  out'.length = out.length ∧ ∀ x < out.length,
    out'[x]? = if x < min size out.length then some (fileByte disk start x) else out[x]?

/-- The file fits, or the buffer ends with a sector of it, or the buffer holds the bytes behind its last
whole sector already. -/
def NothingCutOff (disk : ℕ → Sector) (size start : ℕ) (out : List UInt8) : Prop :=
  size ≤ out.length ∨ sectorSize ∣ out.length ∨
    ∀ x, sectorSize * (out.length / sectorSize) ≤ x → x < out.length →
      out[x]? = some (fileByte disk start x)

/-- On a device without faults `fs_read` fills the buffer of the caller up to its capacity exactly if no
piece of a sector is cut off by the end of the buffer. -/
theorem fsRead_fills_iff {size : ℕ} (out : List UInt8) (hok : ∀ n, b.ok n = true)
    (hread : (fsRead b name out).1 = some size) :
    ∃ start, fsFind (b.disk dirSector) name = some (size, start) ∧
      (Fills b.disk size start out (fsRead b name out).2.1 ↔ NothingCutOff b.disk size start out) := by
  obtain ⟨start, hfind⟩ := fsFind_of_fsRead hok hread
  obtain ⟨-, hbytes⟩ := fsRead_of_find hok hfind out
  refine ⟨start, hfind, ?_⟩
  have hlen := length_fsRead b name out
  unfold Fills NothingCutOff
  rw [and_iff_right hlen]
  constructor
  · intro hfills
    by_contra hnot
    simp only [not_or] at hnot
    obtain ⟨hshort, hpart, hrest⟩ := hnot
    refine hrest fun x hlo hhi => ?_
    -- the piece at the end of the buffer does not fit
    have hcut : ¬ Copied size out.length x := by
      unfold Copied
      rw [Nat.dvd_iff_mod_eq_zero] at hpart
      simp only [sectorSize] at hlo hpart ⊢
      omega
    have hx := hfills x hhi
    rw [hbytes x, if_neg hcut, if_pos (by omega)] at hx
    exact hx
  · intro hnone x hx
    rw [hbytes x]
    by_cases hsize : x < size
    · have hfront : x < min size out.length := by omega
      by_cases hcopied : Copied size out.length x
      · rw [if_pos hcopied, if_pos hfront]
      · rw [if_neg hcopied, if_pos hfront]
        have hcut : out.length < size ∧ sectorSize * (out.length / sectorSize) ≤ x ∧
            ¬ sectorSize ∣ out.length := by
          unfold Copied at hcopied
          rw [Nat.dvd_iff_mod_eq_zero]
          simp only [sectorSize] at hcopied ⊢
          omega
        rcases hnone with hfits | hwhole | hsame
        · exact absurd hcut.1 (by omega)
        · exact absurd hwhole hcut.2.2
        · exact hsame x hcut.2.1 hx
    · rw [if_neg fun h => hsize h.1, if_neg (by omega)]

/-- The state after a create on a fresh disk. -/
lemma run_create (c : Create) :
    Run (xernelFs fun _ => true)
      [⟨(fsFormat (blank fun _ => true)).2, c,
        (fsCreate (fsFormat (blank fun _ => true)).2 c.name c.data).1,
        (fsCreate (fsFormat (blank fun _ => true)).2 c.name c.data).2⟩]
      (fsCreate (fsFormat (blank fun _ => true)).2 c.name c.data).2 :=
  (Run.start (init_blank (by decide +kernel))).next rfl

/-- A file of two bytes is read into a buffer of three. -/
theorem fsRead_fills_iff_room :
    ∃ b, Reachable (xernelFs fun _ => true) b ∧
      Fills b.disk 2 3 [7, 7, 7] (fsRead b [97] [7, 7, 7]).2.1 := by
  have hrun := run_create ⟨[97], [1, 2]⟩
  have hfacts : (fsRead (fsCreate (fsFormat (blank fun _ => true)).2 [97] [1, 2]).2 [97]
      [7, 7, 7]).1 = some 2 ∧
    fsFind ((fsCreate (fsFormat (blank fun _ => true)).2 [97] [1, 2]).2.disk dirSector) [97] =
      some (2, 3) := by decide +kernel
  obtain ⟨start, hfind, hiff⟩ := fsRead_fills_iff [7, 7, 7]
    (fun n => by rw [(run_stores hrun).1]) hfacts.1
  obtain rfl : start = 3 := congrArg Prod.snd (Option.some.inj (hfind.symm.trans hfacts.2))
  exact ⟨_, ⟨_, hrun⟩, hiff.mpr (.inl (by decide))⟩

/-- Of a file of two bytes a buffer of one byte gets nothing. -/
theorem not_fsRead_fills :
    ∃ b, Reachable (xernelFs fun _ => true) b ∧ (fsRead b [97] [7]).1 = some 2 ∧
      fsFind (b.disk dirSector) [97] = some (2, 3) ∧
      ¬ Fills b.disk 2 3 [7] (fsRead b [97] [7]).2.1 := by
  have hfacts : (fsRead (fsCreate (fsFormat (blank fun _ => true)).2 [97] [1, 2]).2 [97] [7]).1 =
      some 2 ∧
    fsFind ((fsCreate (fsFormat (blank fun _ => true)).2 [97] [1, 2]).2.disk dirSector) [97] =
      some (2, 3) ∧
    (fsRead (fsCreate (fsFormat (blank fun _ => true)).2 [97] [1, 2]).2 [97] [7]).2.1 = [7] ∧
    fileByte (fsCreate (fsFormat (blank fun _ => true)).2 [97] [1, 2]).2.disk 3 0 = 1 := by
    decide +kernel
  obtain ⟨hread, hfind, hout, hbyte⟩ := hfacts
  refine ⟨_, ⟨_, run_create ⟨[97], [1, 2]⟩⟩, hread, hfind, fun hfills => ?_⟩
  have hfirst := hfills.2 0 (by decide)
  rw [if_pos (by decide), hbyte, hout] at hfirst
  exact absurd hfirst (by decide)

end Fs

/-! ## The two ways to a file of the service -/

namespace Host

open Fs

variable {h : Host} {i : ℕ} {page : Page}

/-- The entry `i` that a request names is in use. -/
lemma unusedEntry_of_used {disk : ℕ → Sector} (hused : Used disk i) :
    unusedEntry (disk dirSector) i = .ok false := by
  obtain ⟨hi, hne⟩ := hused
  have hlt : i * entSize < sectorSize := by
    simp only [dirEntries, entSize, sectorSize] at hi ⊢
    omega
  unfold unusedEntry
  rw [if_neg (Nat.not_le.mpr hi), dirByte, if_pos hlt]
  exact congrArg Except.ok (decide_eq_false hne)

lemma dirName_of_lt {disk : ℕ → Sector} (hi : i < dirEntries) :
    dirName (disk dirSector) (i * entSize) = .ok (storedName disk i) := by
  unfold dirName
  rw [if_pos]
  · rfl
  · simp only [dirEntries, entSize, nameLen, sectorSize] at hi ⊢
    omega

/-- The size in entry `i`. -/
def entrySize (disk : ℕ → Sector) (i : ℕ) : ℕ := (disk dirSector).rdU32 (i * entSize + 24)

/-- The name of an entry in use is found, at that entry or before it. -/
lemma find_storedName {disk : ℕ → Sector} (hused : Used disk i) :
    ∃ r, fsFind (disk dirSector) (storedName disk i) = some r := by
  obtain ⟨hi, hne⟩ := hused
  rw [← Option.isSome_iff_exists, fsFind, List.findSome?_isSome_iff]
  refine ⟨i, List.mem_range.mpr hi, ?_⟩
  have hmatch : nameMatches (disk dirSector) i (storedName disk i) = true := by
    rw [nameMatches, List.all_eq_true]
    intro x hx
    exact decide_eq_true (getD_storedName (List.mem_range.mp hx)).symm
  dsimp only
  rw [if_neg hne, if_pos hmatch]
  rfl

/-- `OP_FSIZE`. -/
lemma serveOne_fsize (hok : ∀ n, h.blk.ok n = true) (hused : Used h.blk.disk i) :
    ∃ blk, serveOne h.blk opFsize i = .ok (entrySize h.blk.disk i, blk) := by
  have hi := hused.1
  have hlt : i * entSize + 24 + 4 ≤ sectorSize := by
    simp only [dirEntries, entSize, sectorSize] at hi ⊢
    omega
  refine ⟨{ h.blk with calls := h.blk.calls + 1 }, ?_⟩
  unfold serveOne
  rw [Blk.read, if_pos (hok _)]
  dsimp only
  rw [if_neg (by decide), if_pos rfl, unusedEntry_of_used hused, Checked.ok_bind,
    if_neg Bool.false_ne_true, dirU32, if_pos hlt, Checked.ok_bind]
  rfl

/-- `OP_NAMECH`. -/
lemma serveOne_namech {pos : ℕ} (hok : ∀ n, h.blk.ok n = true) (hused : Used h.blk.disk i)
    (hpos : pos < nameLen) :
    ∃ blk, serveOne h.blk opNamech (i * 2 ^ 8 + pos) =
      .ok (((storedName h.blk.disk i).getD pos 0).toNat, blk) := by
  have hi := hused.1
  have hdiv : (i * 2 ^ 8 + pos) / 2 ^ 8 = i ∧ (i * 2 ^ 8 + pos) % 2 ^ 8 = pos := by
    simp only [nameLen] at hpos
    omega
  have hlt : i * entSize + pos < sectorSize := by
    simp only [dirEntries, entSize, sectorSize, nameLen] at hi hpos ⊢
    omega
  refine ⟨{ h.blk with calls := h.blk.calls + 1 }, ?_⟩
  unfold serveOne
  rw [Blk.read, if_pos (hok _)]
  dsimp only
  rw [if_neg (by decide), if_neg (by decide), if_pos rfl, hdiv.1, hdiv.2, if_neg (by omega),
    unusedEntry_of_used hused, Checked.ok_bind, if_neg Bool.false_ne_true, dirByte, if_pos hlt,
    Checked.ok_bind, getD_storedName hpos]
  rfl

/-- `OP_DATACH`: one byte of the first sector of the file that the name of the entry leads to, and zero
behind that. -/
lemma serveOne_datach {off size start : ℕ} (hok : ∀ n, h.blk.ok n = true)
    (hused : Used h.blk.disk i) (hoff : off < 2 ^ 16)
    (hfind : fsFind (h.blk.disk dirSector) (storedName h.blk.disk i) = some (size, start)) :
    ∃ blk, serveOne h.blk opDatach (i * 2 ^ 16 + off) =
      .ok (if off < size ∧ off < sectorSize then (fileByte h.blk.disk start off).toNat else 0, blk) := by
  have hdiv : (i * 2 ^ 16 + off) / 2 ^ 16 = i ∧ (i * 2 ^ 16 + off) % 2 ^ 16 = off := by omega
  obtain ⟨hsize, hbytes⟩ := fsRead_of_find (b := { h.blk with calls := h.blk.calls + 1 }) hok hfind
    (List.replicate sectorSize 0)
  have hlen := length_fsRead { h.blk with calls := h.blk.calls + 1 } (storedName h.blk.disk i)
    (List.replicate sectorSize 0)
  unfold serveOne
  rw [Blk.read, if_pos (hok _)]
  dsimp only
  rw [if_neg (by decide), if_neg (by decide), if_neg (by decide), if_pos rfl, hdiv.1, hdiv.2,
    unusedEntry_of_used hused, Checked.ok_bind, if_neg Bool.false_ne_true, dirName_of_lt hused.1,
    Checked.ok_bind]
  generalize fsRead { h.blk with calls := h.blk.calls + 1 } (storedName h.blk.disk i)
    (List.replicate sectorSize 0) = r at hsize hbytes hlen ⊢
  obtain ⟨got, buf, blk⟩ := r
  obtain rfl : got = some size := hsize
  have hlen : buf.length = sectorSize := by rw [hlen, List.length_replicate]
  dsimp only
  rw [hlen]
  -- the buffer is one sector, and behind the end of the file it keeps its zeros
  by_cases hin : off < size ∧ off < sectorSize
  · have hcopied : Copied size (List.replicate sectorSize (0 : UInt8)).length off := by
      rw [List.length_replicate, Copied]
      simp only [sectorSize] at hin ⊢
      omega
    have hbyte : buf[off]? = some (fileByte h.blk.disk start off) := by
      have := hbytes off
      rw [if_pos hcopied] at this
      exact this
    obtain ⟨hlt, hget⟩ := List.getElem?_eq_some_iff.mp hbyte
    rw [if_pos hin, if_pos hin, Checked.slice_of_le (by omega) (by omega), Checked.ok_bind,
      List.drop_eq_getElem_cons hlt, show off + 1 - off = 0 + 1 by omega, List.take_succ_cons,
      List.take_zero, hget]
    exact ⟨blk, by simp [leNat]; rfl⟩
  · rw [if_neg hin, if_neg hin]
    exact ⟨blk, rfl⟩

/-- `OP_READFILE`. -/
lemma readfile_spec {size start : ℕ} (hok : ∀ n, h.blk.ok n = true) (hused : Used h.blk.disk i)
    (hshm : h.shm 0 = some page)
    (hfind : fsFind (h.blk.disk dirSector) (storedName h.blk.disk i) = some (size, start)) :
    ∃ h' page', h.readfile i = .ok h' ∧ h'.replies = h.replies ++ [⟨size, shmFrameSlot⟩] ∧
      h'.shm 0 = some page' ∧
      ∀ off < min size pageBytes, page'.bytes[off]? = some (fileByte h.blk.disk start off) := by
  obtain ⟨hsize, hbytes⟩ := fsRead_of_find (b := { h.blk with calls := h.blk.calls + 1 }) hok hfind
    page.bytes
  have hread : readByIndex h.blk i page =
      .ok (fsReadPage { h.blk with calls := h.blk.calls + 1 } (storedName h.blk.disk i) page) := by
    unfold readByIndex
    rw [Blk.read, if_pos (hok _)]
    dsimp only
    rw [unusedEntry_of_used hused, Checked.ok_bind, if_neg Bool.false_ne_true,
      dirName_of_lt hused.1, Checked.ok_bind]
    rfl
  have hpage : ∀ off < min size pageBytes,
      (fsReadPage { h.blk with calls := h.blk.calls + 1 } (storedName h.blk.disk i) page).2.1.bytes[off]? =
        some (fileByte h.blk.disk start off) := by
    intro off hoff
    have hcopied : Copied size page.bytes.length off := by
      rw [page.length_bytes, Copied]
      simp only [pageBytes, sectorSize] at hoff ⊢
      omega
    have := hbytes off
    rw [if_pos hcopied] at this
    exact this
  have hgot : (fsReadPage { h.blk with calls := h.blk.calls + 1 } (storedName h.blk.disk i) page).1 =
      some size := hsize
  unfold readfile
  rw [hshm]
  dsimp only
  rw [hread, Checked.ok_bind]
  generalize fsReadPage { h.blk with calls := h.blk.calls + 1 } (storedName h.blk.disk i) page = r
    at hpage hgot ⊢
  obtain ⟨got, page', blk⟩ := r
  obtain rfl : got = some size := hgot
  refine ⟨_, page', rfl, rfl, ?_, hpage⟩
  show Function.update h.shm 0 (some page') 0 = some page'
  rw [Function.update_self]

/-- The byte path and the bulk path show the same file at entry `i`: `OP_READFILE` replies what
`OP_FSIZE` does, and its page holds the bytes that `OP_DATACH` gives. -/
inductive PathsAgree (h : Host) (i : ℕ) : Prop
  | intro (size : ℕ) (blk : Blk) (h' : Host) (page' : Page)
      (hfsize : serveOne h.blk opFsize i = .ok (size, blk)) (hreadfile : h.readfile i = .ok h')
      (hreply : h'.replies = h.replies ++ [⟨size, shmFrameSlot⟩]) (hpage : h'.shm 0 = some page')
      (hbytes : ∀ off : ℕ, off < min size pageBytes → ∃ (v : UInt8) (blk : Blk),
        serveOne h.blk opDatach (i * 2 ^ 16 + off) = .ok (v.toNat, blk) ∧ page'.bytes[off]? = some v)

/-- The first file of the name of entry `i` has the size that entry `i` says, and from byte 512 on it has
only zeros where the page reaches. -/
def ZeroTail (disk : ℕ → Sector) (i : ℕ) : Prop :=
  ∃ start, fsFind (disk dirSector) (storedName disk i) = some (entrySize disk i, start) ∧
    ∀ off, sectorSize ≤ off → off < min (entrySize disk i) pageBytes → fileByte disk start off = 0

lemma pathsAgree_zeroTail (hok : ∀ n, h.blk.ok n = true) (hshm : h.shm 0 = some page)
    (hused : Used h.blk.disk i) : h.PathsAgree i ↔ ZeroTail h.blk.disk i := by
  obtain ⟨⟨size, start⟩, hfind⟩ := find_storedName hused
  obtain ⟨blk₁, hfsize⟩ := serveOne_fsize hok hused
  obtain ⟨h', page', hreadfile, hreply, hshm', hpage⟩ := readfile_spec hok hused hshm hfind
  have hmax : pageBytes = 4096 := rfl
  unfold ZeroTail
  constructor
  · rintro ⟨size', blk, h'', page'', hsize', hread', hreply', hshm'', hagree⟩
    obtain rfl : entrySize h.blk.disk i = size' :=
      congrArg Prod.fst (Except.ok.inj (hfsize.symm.trans hsize'))
    obtain rfl : h' = h'' := Except.ok.inj (hreadfile.symm.trans hread')
    obtain rfl : page' = page'' := Option.some.inj (hshm'.symm.trans hshm'')
    obtain rfl : size = entrySize h.blk.disk i := by
      have := List.append_cancel_left (hreply.symm.trans hreply')
      exact congrArg Reply.word (List.head_eq_of_cons_eq this)
    refine ⟨start, hfind, fun off hlo hhi => ?_⟩
    -- the byte path gives zero there
    obtain ⟨v, blk', hv, hbyte⟩ := hagree off hhi
    have hword : off < 2 ^ 16 := by omega
    obtain ⟨blk'', hdatach⟩ := serveOne_datach hok hused hword hfind
    rw [if_neg (fun hin => by omega)] at hdatach
    have hzero : v.toNat = 0 := congrArg Prod.fst (Except.ok.inj (hv.symm.trans hdatach))
    rw [hpage off hhi] at hbyte
    rw [Option.some.inj hbyte]
    exact UInt8.toNat_inj.mp hzero
  · rintro ⟨start', hfind', hzero⟩
    obtain ⟨rfl, rfl⟩ := Prod.mk.inj (Option.some.inj (hfind.symm.trans hfind'))
    refine ⟨_, blk₁, h', page', hfsize, hreadfile, hreply, hshm', fun off hoff => ?_⟩
    have hword : off < 2 ^ 16 := by omega
    obtain ⟨blk₂, hdatach⟩ := serveOne_datach hok hused hword hfind
    refine ⟨fileByte h.blk.disk start off, blk₂, ?_, hpage off hoff⟩
    rw [hdatach]
    by_cases hin : off < sectorSize
    · rw [if_pos ⟨by omega, hin⟩]
    · rw [if_neg fun h => hin h.2, hzero off (by omega) hoff]
      rfl

/-- On a device without faults the two paths agree about an entry in use exactly if the file has nothing
that the byte path cannot show; `OP_NAMECH` gives the name by which both of them look the file up. -/
theorem pathsAgree_iff (hok : ∀ n, h.blk.ok n = true) (hshm : h.shm 0 = some page)
    (hused : Used h.blk.disk i) :
    (∀ pos < nameLen, ∃ blk, serveOne h.blk opNamech (i * 2 ^ 8 + pos) =
      .ok (((storedName h.blk.disk i).getD pos 0).toNat, blk)) ∧
    (h.PathsAgree i ↔ ZeroTail h.blk.disk i) :=
  ⟨fun _ hpos => serveOne_namech hok hused hpos, pathsAgree_zeroTail hok hshm hused⟩

/-- They agree about a file of two bytes. -/
theorem pathsAgree_iff_short :
    ∃ b, Reachable (xernelFs fun _ => true) b ∧ Used b.disk 0 ∧
      PathsAgree { booted [] with blk := b } 0 := by
  have hrun := run_create ⟨[97], [1, 2]⟩
  have hfacts : Used (fsCreate (fsFormat (blank fun _ => true)).2 [97] [1, 2]).2.disk 0 ∧
    fsFind ((fsCreate (fsFormat (blank fun _ => true)).2 [97] [1, 2]).2.disk dirSector)
      (storedName (fsCreate (fsFormat (blank fun _ => true)).2 [97] [1, 2]).2.disk 0) =
        some (2, 3) ∧
    entrySize (fsCreate (fsFormat (blank fun _ => true)).2 [97] [1, 2]).2.disk 0 = 2 := by
    decide +kernel
  generalize (fsCreate (fsFormat (blank fun _ => true)).2 [97] [1, 2]).2 = b at hrun hfacts
  obtain ⟨hused, hfind, hsize⟩ := hfacts
  have hok : ∀ n, b.ok n = true := fun n => by rw [(run_stores hrun).1]
  refine ⟨b, ⟨_, hrun⟩, hused, ?_⟩
  refine (pathsAgree_iff (h := { booted [] with blk := b }) hok rfl hused).2.mpr
    ⟨3, ?_, fun off hlo hhi => ?_⟩
  · rw [hfind, hsize]
  · rw [hsize] at hhi
    simp only [sectorSize] at hlo
    omega

/-- Of a file of 513 ones the byte path gives a zero for the last. -/
theorem not_pathsAgree :
    ∃ b, Reachable (xernelFs fun _ => true) b ∧ Used b.disk 0 ∧
      ¬ PathsAgree { booted [] with blk := b } 0 := by
  have hrun := run_create ⟨[97], List.replicate 513 1⟩
  have hfacts : Used (fsCreate (fsFormat (blank fun _ => true)).2 [97] (List.replicate 513 1)).2.disk 0 ∧
    fsFind ((fsCreate (fsFormat (blank fun _ => true)).2 [97] (List.replicate 513 1)).2.disk dirSector)
      (storedName (fsCreate (fsFormat (blank fun _ => true)).2 [97] (List.replicate 513 1)).2.disk 0) =
        some (513, 3) ∧
    entrySize (fsCreate (fsFormat (blank fun _ => true)).2 [97] (List.replicate 513 1)).2.disk 0 =
      513 ∧
    fileByte (fsCreate (fsFormat (blank fun _ => true)).2 [97] (List.replicate 513 1)).2.disk 3 512 =
      1 := by decide +kernel
  generalize (fsCreate (fsFormat (blank fun _ => true)).2 [97] (List.replicate 513 1)).2 = b
    at hrun hfacts
  obtain ⟨hused, hfind, hsize, hbyte⟩ := hfacts
  have hok : ∀ n, b.ok n = true := fun n => by rw [(run_stores hrun).1]
  refine ⟨b, ⟨_, hrun⟩, hused, fun hagree => ?_⟩
  have htail := (pathsAgree_zeroTail (h := { booted [] with blk := b }) hok rfl hused).mp hagree
  obtain ⟨start, hfind', hzero⟩ := htail
  obtain rfl : start = 3 := congrArg Prod.snd (Option.some.inj (hfind'.symm.trans hfind))
  have hlast := hzero 512 le_rfl (by rw [hsize, pageBytes]; omega)
  rw [hbyte] at hlast
  exact absurd hlast (by decide)

end Host
end Xernel
