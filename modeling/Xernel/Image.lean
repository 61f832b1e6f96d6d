import Xernel.Spawn

/-!
# Malformed images (`elf.rs`)

Every field of an image may have any value, and `load` combines them by sums and products that are not
all checked. The header walk and each of the three passes stop at the first entry they cannot handle.
What is wrong with that entry decides whether `load` returns an error or panics.
-/

namespace Xernel

namespace Elf

/-- `isize::MAX`: no slice has more bytes. -/
def isizeMax : ℕ := 2 ^ 63 - 1

/-- What `load` is given, a `&[u8]`. -/
structure Image where
  bytes : List UInt8
  length_le : bytes.length ≤ isizeMax

section First

variable {α : Type} {P Q : α → Prop} {a : α} {l : List α}

/-- A loop over `l` that goes on while the entries satisfy `P` gets to an entry with `Q`. -/
def Hits (P Q : α → Prop) : List α → Prop
  | [] => False
  | a :: l => Q a ∨ P a ∧ Hits P Q l

lemma hits_cons : Hits P Q (a :: l) ↔ Q a ∨ P a ∧ Hits P Q l := Iff.rfl

lemma hits_congr {P' : α → Prop} (h : ∀ a ∈ l, (P a ↔ P' a)) : Hits P Q l ↔ Hits P' Q l := by
  induction l with
  | nil => rfl
  | cons a l ih =>
    obtain ⟨ha, hl⟩ := List.forall_mem_cons.mp h
    rw [hits_cons, hits_cons, ha, ih hl]

/-- The entry is behind others that all satisfy `P`. -/
lemma hits_iff : Hits P Q l ↔ ∃ done a rest, l = done ++ a :: rest ∧ (∀ b ∈ done, P b) ∧ Q a := by
  induction l with
  | nil => simp [Hits]
  | cons b l ih =>
    rw [hits_cons, ih]
    constructor
    · rintro (hQ | ⟨hP, done, a, rest, rfl, hdone, hQ⟩)
      · exact ⟨[], b, l, rfl, by simp, hQ⟩
      · exact ⟨b :: done, a, rest, rfl, List.forall_mem_cons.mpr ⟨hP, hdone⟩, hQ⟩
    · rintro ⟨done, a, rest, heq, hdone, hQ⟩
      cases done with
      | nil =>
        obtain ⟨rfl, rfl⟩ := List.cons.inj heq
        exact .inl hQ
      | cons c done =>
        obtain ⟨rfl, rfl⟩ := List.cons.inj heq
        obtain ⟨hP, hdone⟩ := List.forall_mem_cons.mp hdone
        exact .inr ⟨hP, done, a, rest, rfl, hdone, hQ⟩

end First

variable {image : List UInt8} {seg : Segment} {segs : List Segment} {n off i : ℕ}

/-! ## Fields -/

/-- A field fits its type. -/
lemma field_lt (image : List UInt8) (n off : ℕ) : field image n off < 256 ^ n := by
  unfold field
  have hlt := leNat_lt ((image.drop off).take n)
  have hle : ((image.drop off).take n).length ≤ n := List.length_take_le _ _
  exact Nat.lt_of_lt_of_le hlt (Nat.pow_le_pow_right (by decide) hle)

section Read

variable (hlen : image.length ≤ isizeMax)

include hlen

lemma rd_of_le (h : off + n ≤ image.length) : rd n image off = .ok (field image n off) := by
  have hbound : isizeMax ≤ u64Max := by decide
  unfold rd
  rw [if_neg (by omega), if_pos h]
  rfl

omit hlen in
/-- A field beyond the end, at an address that is a word. -/
lemma rd_of_lt (h : image.length < off + n) (hword : off + n ≤ u64Max) :
    rd n image off = .error (.elf .malformed) := by
  unfold rd
  rw [if_neg (by omega), if_neg (by omega)]

lemma rd_cases (hword : off + n ≤ u64Max) :
    rd n image off = .error (.elf .malformed) ∨ ∃ v, rd n image off = .ok v := by
  by_cases h : off + n ≤ image.length
  · exact .inr ⟨_, rd_of_le hlen h⟩
  · exact .inl (rd_of_lt (by omega) hword)

end Read

/-- Once the rest is malformed, so is the whole. -/
lemma bind_malformed {α β : Type} {x : Except LoadError α} {f : α → Except LoadError β}
    (hx : x = .error (.elf .malformed) ∨ ∃ a, x = .ok a)
    (hf : ∀ a, f a = .error (.elf .malformed)) : (x >>= f) = .error (.elf .malformed) := by
  rcases hx with rfl | ⟨a, rfl⟩
  · rfl
  · exact hf a

/-! ## The header walk -/

/-- Where program header `i` begins. -/
def headerOffset (image : List UInt8) (i : ℕ) : ℕ := field image 8 32 + i * field image 2 54

/-- Program header `i` is within the image as far as it is read: up to its type, and up to `p_memsz` if
it is a `PT_LOAD` entry. -/
def HeaderIn (image : List UInt8) (i : ℕ) : Prop :=
  headerOffset image i + 4 ≤ image.length ∧
    (field image 4 (headerOffset image i) = ptLoad → headerOffset image i + 48 ≤ image.length)

section Walk

variable (hlen : image.length ≤ isizeMax)

include hlen

/-- The walk goes on behind a header that is within the image. -/
lemma segments_succ (hin : HeaderIn image i) (n : ℕ) :
    segments image (field image 8 32) (field image 2 54) (n + 1) i =
      segments image (field image 8 32) (field image 2 54) n (i + 1) >>=
        fun rest => .ok ((programHeader image i).toList ++ rest) := by
  have htype := rd_of_le hlen hin.1
  have hfits := hin.2
  unfold headerOffset at htype hfits
  rw [segments, htype, programHeader]
  dsimp only [bind, Except.bind]
  by_cases hload : field image 4 (field image 8 32 + i * field image 2 54) = ptLoad
  · have hfits := hfits hload
    rw [if_neg (not_not.mpr hload), if_pos hload, rd_of_le hlen (by omega),
      rd_of_le hlen (by omega), rd_of_le hlen (by omega), rd_of_le hlen (by omega),
      rd_of_le hlen (by omega)]
    rfl
  · rw [if_pos hload, if_neg hload]
    cases segments image (field image 8 32) (field image 2 54) n (i + 1) <;> rfl

/-- It ends at one that is not. -/
lemma segments_of_not_in (hword : headerOffset image i + 4 ≤ u64Max) (hin : ¬ HeaderIn image i)
    (n : ℕ) : segments image (field image 8 32) (field image 2 54) (n + 1) i =
      .error (.elf .malformed) := by
  unfold HeaderIn at hin
  have hbound : isizeMax + 48 ≤ u64Max := by decide
  by_cases htype : headerOffset image i + 4 ≤ image.length
  · obtain ⟨hload, hshort⟩ := Classical.not_imp.mp fun h => hin ⟨htype, h⟩
    have hrd := rd_of_le hlen htype
    unfold headerOffset at hrd hload hshort htype
    rw [segments, hrd]
    dsimp only [bind, Except.bind]
    rw [if_neg (not_not.mpr hload)]
    -- the fields behind the type are words away, and the last one is beyond the end
    refine bind_malformed (rd_cases hlen (by omega)) fun flags => ?_
    refine bind_malformed (rd_cases hlen (by omega)) fun offset => ?_
    refine bind_malformed (rd_cases hlen (by omega)) fun vaddr => ?_
    refine bind_malformed (rd_cases hlen (by omega)) fun filesz => ?_
    rw [rd_of_lt (by omega) (by omega)]
  · unfold headerOffset at hword htype
    rw [segments, rd_of_lt (by omega) hword]
    rfl

/-- The headers are all within the image: the walk gets to the end. -/
lemma segments_ok : ∀ n i, (∀ j, i ≤ j → j < i + n → HeaderIn image j) →
    ∃ segs, segments image (field image 8 32) (field image 2 54) n i = .ok segs := by
  intro n
  induction n with
  | zero => exact fun i _ => ⟨[], rfl⟩
  | succ n ih =>
    intro i hin
    obtain ⟨rest, hrest⟩ := ih (i + 1) fun j hlo hhi => hin j (by omega) (by omega)
    rw [segments_succ hlen (hin i le_rfl (by omega)), hrest]
    exact ⟨_, rfl⟩

/-- One is not, and the walk gets to no address beyond a word: an error. -/
lemma segments_malformed : ∀ n i, headerOffset image i + 4 ≤ u64Max →
    ¬ (∀ j, i ≤ j → j < i + n → HeaderIn image j) →
    segments image (field image 8 32) (field image 2 54) n i = .error (.elf .malformed) := by
  intro n
  induction n with
  | zero => exact fun i _ hnot => absurd (fun j hlo hhi => by omega) hnot
  | succ n ih =>
    intro i hword hnot
    by_cases hin : HeaderIn image i
    · -- the next header is at most 65535 bytes further on
      have hsize : field image 2 54 < 256 ^ 2 := field_lt image 2 54
      have hnext : headerOffset image (i + 1) = headerOffset image i + field image 2 54 := by
        unfold headerOffset
        rw [Nat.succ_mul]
        omega
      have hbound : isizeMax + 256 ^ 2 ≤ u64Max := by decide
      have htype := hin.1
      rw [segments_succ hlen hin, ih (i + 1) (by omega)]
      · rfl
      · intro hall
        refine hnot fun j hlo hhi => ?_
        rcases Nat.eq_or_lt_of_le hlo with rfl | hlt
        · exact hin
        · exact hall j (by omega) (by omega)
    · exact segments_of_not_in hlen hword hin n

end Walk

/-! ## Pass 1 -/

/-- The pages of the segment end at an address that is a word. -/
def Segment.EndsIn (seg : Segment) : Prop := pageUp (seg.vaddr + seg.memsz) ≤ u64Max

/-- The segment ends in the last page there is, so that the address behind that page is no word. -/
def Segment.EndsLate (seg : Segment) : Prop :=
  seg.vaddr + seg.memsz ≤ u64Max ∧ u64Max < pageUp (seg.vaddr + seg.memsz)

lemma coverSegment_cases (pages : List (ℕ × PageInfo)) (seg : Segment) :
    (seg.EndsIn ∧ ¬ seg.EndsLate ∧ ∃ pages', coverSegment pages seg = .ok pages') ∨
    (¬ seg.EndsIn ∧ seg.EndsLate ∧ coverSegment pages seg = .error .panic) ∨
    (¬ seg.EndsIn ∧ ¬ seg.EndsLate ∧ coverSegment pages seg = .error (.elf .malformed)) := by
  have hle := le_pageUp (seg.vaddr + seg.memsz)
  unfold Segment.EndsIn Segment.EndsLate coverSegment
  rw [pagesFor_mul]
  dsimp only
  by_cases hsum : u64Max < seg.vaddr + seg.memsz
  · rw [if_pos hsum]
    exact .inr (.inr ⟨by omega, by omega, rfl⟩)
  rw [if_neg hsum]
  by_cases hstop : u64Max < pageUp (seg.vaddr + seg.memsz)
  · rw [if_pos hstop]
    exact .inr (.inl ⟨by omega, by omega, rfl⟩)
  · rw [if_neg hstop]
    exact .inl ⟨by omega, by omega, _, rfl⟩

/-- Pass 1 gets to the end if all segments end early enough, and panics at one that is the first not to
do so and ends in the last page. -/
lemma foldlM_coverSegment (segs : List Segment) : ∀ pages : List (ℕ × PageInfo),
    ((∃ pages', segs.foldlM coverSegment pages = .ok pages') ↔ ∀ seg ∈ segs, seg.EndsIn) ∧
    (segs.foldlM coverSegment pages = .error .panic ↔
      Hits Segment.EndsIn Segment.EndsLate segs) := by
  induction segs with
  | nil => exact fun pages => ⟨by simp [pure, Except.pure], by simp [Hits, pure, Except.pure]⟩
  | cons seg segs ih =>
    intro pages
    rw [List.foldlM_cons, hits_cons, List.forall_mem_cons]
    rcases coverSegment_cases pages seg with
      ⟨hin, hlate, pages', heq⟩ | ⟨hin, hlate, heq⟩ | ⟨hin, hlate, heq⟩
    · obtain ⟨hok, hpanic⟩ := ih pages'
      rw [heq]
      exact ⟨hok.trans (and_iff_right hin).symm,
        hpanic.trans ((or_iff_right hlate).trans (and_iff_right hin)).symm⟩
    · rw [heq]
      refine ⟨iff_of_false ?_ fun h => hin h.1, iff_of_true rfl (.inl hlate)⟩
      rintro ⟨_, h⟩
      cases h
    · rw [heq]
      refine ⟨iff_of_false ?_ fun h => hin h.1, iff_of_false ?_ fun h => ?_⟩
      · rintro ⟨_, h⟩
        cases h
      · intro h
        cases h
      · exact h.elim hlate fun h => hin h.1

/-! ## The plan -/

/-- The magic number, the class and the byte order are those `load` looks for. -/
def Identified (image : List UInt8) : Prop :=
  64 ≤ image.length ∧ image.take 4 = elfMagic ∧ image[4]? = some elfClass64 ∧
    image[5]? = some elfData2Lsb

/-- The program headers are within the image. -/
def HeadersIn (image : List UInt8) : Prop := ∀ i < field image 2 56, HeaderIn image i

/-- There is a program header, and it begins where its type does not end at an address that is a
word. -/
def HeadersLate (image : List UInt8) : Prop :=
  0 < field image 2 56 ∧ u64Max < field image 8 32 + 4

/-- `load` finds out which pages it has to map. -/
structure WellFormed (image : List UInt8) : Prop where
  identified : Identified image
  headers : HeadersIn image
  ends : ∀ seg ∈ loadSegments image, seg.EndsIn

section Plan

variable (hlen : image.length ≤ isizeMax)

include hlen

lemma plan_of_identified (h : Identified image) : plan image =
    segments image (field image 8 32) (field image 2 54) (field image 2 56) 0 >>= fun segs =>
      segs.foldlM coverSegment [] >>= fun pages =>
        .ok { entry := field image 8 24, segments := segs, pages } := by
  obtain ⟨hsize, hmagic, hclass, hdata⟩ := h
  unfold plan
  rw [if_neg (by omega), if_neg (not_not.mpr hmagic), if_neg (by rw [hclass, hdata]; simp),
    rd_of_le hlen (by omega), rd_of_le hlen (by omega), rd_of_le hlen (by omega),
    rd_of_le hlen (by omega)]
  rfl

omit hlen in
lemma plan_of_not_identified (h : ¬ Identified image) : ∃ e, plan image = .error (.elf e) := by
  unfold plan
  split
  · exact ⟨_, rfl⟩
  split
  · exact ⟨_, rfl⟩
  split
  · exact ⟨_, rfl⟩
  next hsize hmagic hident =>
    refine absurd ⟨by omega, not_not.mp hmagic, ?_⟩ h
    simpa [not_or] using hident

omit hlen in
lemma headersIn_iff : HeadersIn image ↔ ∀ j, 0 ≤ j → j < 0 + field image 2 56 → HeaderIn image j := by
  unfold HeadersIn
  simp

omit hlen in
lemma not_headersIn (h : HeadersLate image) (hlen : image.length ≤ isizeMax) :
    ¬ HeadersIn image := by
  intro hin
  have hfirst := (hin 0 h.1).1
  have hlate := h.2
  have hbound : isizeMax ≤ u64Max := by decide
  unfold headerOffset at hfirst
  omega

/-- A header walk that gets to the end has found the `PT_LOAD` entries. -/
lemma segments_headersIn (h : HeadersIn image) :
    segments image (field image 8 32) (field image 2 54) (field image 2 56) 0 =
      .ok (loadSegments image) := by
  obtain ⟨segs, hsegs⟩ := segments_ok hlen _ 0 (headersIn_iff.mp h)
  rw [hsegs, segments_eq hsegs, ← List.range_eq_range']
  rfl

/-- What comes out of the headers and pass 1. -/
lemma plan_iff : ((∃ p, plan image = .ok p) ↔ WellFormed image) ∧
    (plan image = .error .panic ↔ Identified image ∧ (HeadersLate image ∨
      HeadersIn image ∧ Hits Segment.EndsIn Segment.EndsLate (loadSegments image))) := by
  by_cases hident : Identified image
  swap
  · obtain ⟨e, he⟩ := plan_of_not_identified hident
    rw [he]
    refine ⟨iff_of_false ?_ fun h => hident h.identified, iff_of_false (by simp) fun h => hident h.1⟩
    rintro ⟨_, h⟩
    cases h
  rw [plan_of_identified hlen hident]
  by_cases hlate : HeadersLate image
  · -- the sum is computed before the image is looked at
    have hzero : headerOffset image 0 = field image 8 32 := by simp [headerOffset]
    have hpanic : segments image (field image 8 32) (field image 2 54) (field image 2 56) 0 =
        .error .panic := by
      obtain ⟨n, hn⟩ := Nat.exists_eq_succ_of_ne_zero (Nat.pos_iff_ne_zero.mp hlate.1)
      rw [hn, segments, rd, if_pos (by rw [Nat.zero_mul]; exact hlate.2)]
      rfl
    rw [hpanic]
    refine ⟨iff_of_false ?_ fun h => not_headersIn hlate hlen h.headers,
      iff_of_true rfl ⟨hident, .inl hlate⟩⟩
    rintro ⟨_, h⟩
    cases h
  by_cases hin : HeadersIn image
  · obtain ⟨hok, hpanic⟩ := foldlM_coverSegment (loadSegments image) []
    rw [segments_headersIn hlen hin]
    dsimp only [bind, Except.bind]
    refine ⟨Iff.trans ?_ (hok.trans ⟨fun h => ⟨hident, hin, h⟩, WellFormed.ends⟩), Iff.trans ?_
      (hpanic.trans ⟨fun h => ⟨hident, .inr ⟨hin, h⟩⟩, fun h => (h.2.resolve_left hlate).2⟩)⟩
    · cases (loadSegments image).foldlM coverSegment [] <;> simp
    · cases (loadSegments image).foldlM coverSegment [] <;> simp
  · have hmal : segments image (field image 8 32) (field image 2 54) (field image 2 56) 0 =
        .error (.elf .malformed) := by
      by_cases hnone : field image 2 56 = 0
      · exact absurd (fun i hi => by omega) hin
      · refine segments_malformed hlen _ 0 ?_ fun h => hin (headersIn_iff.mpr h)
        unfold headerOffset
        unfold HeadersLate at hlate
        omega
    rw [hmal]
    refine ⟨iff_of_false ?_ fun h => hin h.headers, iff_of_false ?_ ?_⟩
    · rintro ⟨_, h⟩
      cases h
    · intro h
      cases h
    · rintro ⟨-, h | h⟩
      · exact hlate h
      · exact hin h.1

end Plan

/-! ## Pass 2 -/

section Map

variable {m m' : Mm} {space : ℕ} {pages : List (ℕ × PageInfo)}

/-- The page can be mapped if the frames suffice. -/
def Mappable (m : Mm) (space : ℕ) (pg : ℕ × PageInfo) : Prop :=
  Mm.canonical pg.1 = true ∧ m.pt.leaf space (pg.1 / frameSize) = none

/-- Pass 2, if it is refused no frame: it gets to the end if all pages can be mapped, and panics at an
address that is not canonical. -/
lemma mapPages_refusals (hsorted : (pages.map Prod.fst).Pairwise (· < ·))
    (haligned : ∀ page ∈ pages.map Prod.fst, frameSize ∣ page) (space : ℕ) (m : Mm) :
    m.refusals ≤ (mapPages space pages m).2.refusals ∧
    ((mapPages space pages m).2.refusals = m.refusals →
      ((∃ frames, (mapPages space pages m).1 = .ok frames) ↔ ∀ pg ∈ pages, Mappable m space pg) ∧
      ((mapPages space pages m).1 = .error .panic ↔
        Hits (Mappable m space) (fun pg => Mm.canonical pg.1 = false) pages)) := by
  induction pages generalizing m with
  | nil => exact ⟨le_rfl, fun _ => ⟨by simp [mapPages], by simp [mapPages, Hits]⟩⟩
  | cons pg rest ih =>
    obtain ⟨page, info⟩ := pg
    rw [List.map_cons, List.pairwise_cons] at hsorted
    have hother := Mm.allocMapUser_atMost m space page info.writable info.executable
    obtain ⟨hle, hone⟩ := Mm.allocMapUser_refusals m space page info.writable info.executable
    rw [hits_cons, List.forall_mem_cons]
    by_cases hdone : (m.allocMapUser space page info.writable info.executable).1 = .done
    · obtain ⟨hstate, hok, hend⟩ := mapPages_done rest hdone
      obtain ⟨hle', hrest⟩ := ih hsorted.2 (fun q hq => haligned q (List.mem_cons_of_mem _ hq))
        (m.allocMapUser space page info.writable info.executable).2
      rw [hstate, hok, hend]
      refine ⟨hle.trans hle', fun hsuff => ?_⟩
      obtain ⟨hok', hpanic'⟩ := hrest (by omega)
      -- the pages of the rest have other numbers
      have hsame : ∀ pg ∈ rest, (Mappable (m.allocMapUser space page info.writable
          info.executable).2 space pg ↔ Mappable m space pg) := by
        intro pg hpg
        have hlt := hsorted.1 pg.1 (List.mem_map_of_mem hpg)
        have hdvd := haligned page List.mem_cons_self
        have hdvd' := haligned pg.1 (List.mem_cons_of_mem _ (List.mem_map_of_mem hpg))
        have hne : pg.1 / frameSize ≠ page / frameSize := by
          intro heq
          rw [← Nat.div_mul_cancel hdvd, ← Nat.div_mul_cancel hdvd', heq] at hlt
          exact Nat.lt_irrefl _ hlt
        unfold Mappable
        rw [hother.of_ne hne]
      rcases hone (by omega) with ⟨hcan, hempty, -⟩ | ⟨-, -, e, he⟩ | ⟨-, he⟩
      · have hfirst : Mappable m space (page, info) := ⟨hcan, hempty⟩
        have hnot : ¬ Mm.canonical page = false := by simp [hcan]
        rw [hok', hpanic', and_iff_right hfirst, or_iff_right hnot, and_iff_right hfirst]
        exact ⟨forall₂_congr hsame, hits_congr hsame⟩
      · rw [hdone] at he
        cases he
      · rw [hdone] at he
        cases he
    · obtain ⟨hstate, hok, hend⟩ := mapPages_not_done rest hdone
      rw [hstate, hend]
      refine ⟨hle, fun hsuff => ?_⟩
      rcases hone hsuff with ⟨-, -, he⟩ | ⟨hcan, hused, e, he⟩ | ⟨hcan, he⟩
      · exact absurd he hdone
      · rw [he]
        refine ⟨iff_of_false hok fun h => hused h.1.2, iff_of_false (by simp) ?_⟩
        rintro (h | h)
        · rw [hcan] at h
          cases h
        · exact hused h.1.2
      · refine ⟨iff_of_false hok fun h => ?_, iff_of_true he (.inl hcan)⟩
        rw [h.1.1] at hcan
        cases hcan

/-- In the order of their addresses, the first page that is not canonical is behind those of the lower
half. -/
lemma hits_notCanonical (hsorted : (pages.map Prod.fst).Pairwise (· < ·)) :
    Hits (Mappable m space) (fun pg => Mm.canonical pg.1 = false) pages ↔
      ∃ pg ∈ pages, Mm.canonical pg.1 = false ∧
        ∀ q ∈ pages, q.1 < 2 ^ 47 → m.pt.leaf space (q.1 / frameSize) = none := by
  constructor
  · intro h
    obtain ⟨done, pg, rest, rfl, hdone, hcan⟩ := hits_iff.mp h
    refine ⟨pg, by simp, hcan, fun q hq hlow => ?_⟩
    have hge := (Mm.canonical_eq_false_iff.mp hcan).1
    rw [List.map_append, List.map_cons, List.pairwise_append, List.pairwise_cons] at hsorted
    rcases List.mem_append.mp hq with hq | hq
    · exact (hdone q hq).2
    · rcases List.mem_cons.mp hq with rfl | hq
      · omega
      · have hlt := hsorted.2.1.1 q.1 (List.mem_map_of_mem hq)
        omega
  · rintro ⟨pg, hpg, hcan, hempty⟩
    induction pages with
    | nil => exact absurd hpg List.not_mem_nil
    | cons first rest ih =>
      rw [List.map_cons, List.pairwise_cons] at hsorted
      cases hfirst : Mm.canonical first.1 with
      | false => exact .inl hfirst
      | true =>
        rcases List.mem_cons.mp hpg with rfl | hpg
        · rw [hcan] at hfirst
          cases hfirst
        · have hlt := hsorted.1 pg.1 (List.mem_map_of_mem hpg)
          have hbound := (Mm.canonical_eq_false_iff.mp hcan).2
          -- a canonical page in front of it is not in the upper half
          have hlow : first.1 < 2 ^ 47 := by
            by_contra hge
            rw [Mm.canonical_eq_false_iff.mpr ⟨Nat.not_lt.mp hge, hlt.trans hbound⟩] at hfirst
            cases hfirst
          exact .inr ⟨⟨hfirst, hempty first List.mem_cons_self hlow⟩,
            ih hsorted.2 hpg fun q hq => hempty q (List.mem_cons_of_mem _ hq)⟩

end Map

/-! ## Pass 3 -/

/-- The file bytes of the segment are in the image, and their pages are covered. -/
def Segment.Copies (image : List UInt8) (seg : Segment) : Prop :=
  ∀ c < seg.filesz, Covered image (pageDown (seg.vaddr + c)) ∧ seg.offset + c < image.length

/-- The page of the segment's first file byte is covered, but the bytes for that page end in the image
at an address that is no word. -/
def Segment.SourceLate (image : List UInt8) (seg : Segment) : Prop :=
  0 < seg.filesz ∧ Covered image (pageDown seg.vaddr) ∧
    u64Max < seg.offset + min (frameSize - seg.vaddr % frameSize) seg.filesz

section Copy

variable {m : Mm} {frames : List (ℕ × ℕ)} (hlen : image.length ≤ isizeMax)
  (hfound : ∀ page, frames.lookup page ≠ none ↔ Covered image page)
  (hends : ∀ page, Covered image page → page + frameSize ≤ u64Max)

include hlen hfound hends

/-- From an offset within the image on, no sum leaves the words. -/
lemma copySegment_within (seg : Segment) : ∀ (fuel copied : ℕ) (m : Mm), seg.filesz - copied ≤ fuel →
    seg.vaddr + copied ≤ u64Max → seg.offset + copied ≤ image.length →
    ((copySegment image frames seg fuel copied m).1 = .ok () ∧ ∀ c, copied ≤ c → c < seg.filesz →
      Covered image (pageDown (seg.vaddr + c)) ∧ seg.offset + c < image.length) ∨
    ((copySegment image frames seg fuel copied m).1 = .error (.elf .malformed) ∧
      ¬ ∀ c, copied ≤ c → c < seg.filesz →
        Covered image (pageDown (seg.vaddr + c)) ∧ seg.offset + c < image.length) := by
  have hbound : isizeMax + frameSize ≤ u64Max := by decide
  intro fuel
  induction fuel with
  | zero => exact fun copied m hfuel _ _ => .inl ⟨rfl, fun c hlo hhi => by omega⟩
  | succ fuel ih =>
    intro copied m hfuel hva hsrc
    unfold copySegment
    by_cases hdone : seg.filesz ≤ copied
    · rw [if_pos hdone]
      exact .inl ⟨rfl, fun c hlo hhi => by omega⟩
    rw [if_neg hdone, if_neg (by omega)]
    dsimp only
    cases hlook : frames.lookup (pageDown (seg.vaddr + copied)) with
    | none =>
      refine .inr ⟨rfl, fun hall => ?_⟩
      exact (hfound _).mpr (hall copied le_rfl (by omega)).1 hlook
    | some phys =>
      have hcov : Covered image (pageDown (seg.vaddr + copied)) :=
        (hfound _).mp (by rw [hlook]; simp)
      have hend := hends _ hcov
      have hsub := sub_pageDown (seg.vaddr + copied)
      have hmod := Nat.mod_lt (seg.vaddr + copied) frameSize_pos
      have hle := pageDown_le (seg.vaddr + copied)
      dsimp only
      generalize hn : min (frameSize - (seg.vaddr + copied - pageDown (seg.vaddr + copied)))
        (seg.filesz - copied) = n
      have hpos : 0 < n := by omega
      rw [if_neg (by omega)]
      by_cases himg : image.length < seg.offset + copied + n
      · rw [if_pos himg]
        refine .inr ⟨rfl, fun hall => ?_⟩
        have hlast := (hall (copied + n - 1) (by omega) (by omega)).2
        omega
      rw [if_neg himg]
      -- the bytes of this round are in one page
      have hround : ∀ c, copied ≤ c → c < copied + n →
          Covered image (pageDown (seg.vaddr + c)) ∧ seg.offset + c < image.length := by
        intro c hlo hhi
        have hpage : pageDown (seg.vaddr + c) = pageDown (seg.vaddr + copied) := by
          simp only [pageDown, frameSize] at *
          omega
        rw [hpage]
        exact ⟨hcov, by omega⟩
      rcases ih (copied + n) _ (by omega) (by omega) (by omega) with ⟨hok, hall⟩ | ⟨herr, hnot⟩
      · refine .inl ⟨hok, fun c hlo hhi => ?_⟩
        by_cases hc : c < copied + n
        · exact hround c hlo hc
        · exact hall c (by omega) hhi
      · exact .inr ⟨herr, fun hall => hnot fun c hlo hhi => hall c (by omega) hhi⟩

lemma copySegment_cases (hva : seg.vaddr ≤ u64Max) (m : Mm) :
    (seg.Copies image ∧ ¬ seg.SourceLate image ∧
      (copySegment image frames seg seg.filesz 0 m).1 = .ok ()) ∨
    (¬ seg.Copies image ∧ seg.SourceLate image ∧
      (copySegment image frames seg seg.filesz 0 m).1 = .error .panic) ∨
    (¬ seg.Copies image ∧ ¬ seg.SourceLate image ∧
      (copySegment image frames seg seg.filesz 0 m).1 = .error (.elf .malformed)) := by
  have hbound : isizeMax + frameSize ≤ u64Max := by decide
  unfold Segment.SourceLate
  by_cases hsrc : seg.offset ≤ image.length
  · have hlate : ¬ u64Max < seg.offset + min (frameSize - seg.vaddr % frameSize) seg.filesz := by
      omega
    have hiff : seg.Copies image ↔ ∀ c, 0 ≤ c → c < seg.filesz →
        Covered image (pageDown (seg.vaddr + c)) ∧ seg.offset + c < image.length := by
      unfold Segment.Copies
      simp
    rw [hiff]
    rcases copySegment_within hlen hfound hends seg seg.filesz 0 m (by omega) hva hsrc with
      ⟨hok, hall⟩ | ⟨herr, hnot⟩
    · exact .inl ⟨hall, fun h => hlate h.2.2, hok⟩
    · exact .inr (.inr ⟨hnot, fun h => hlate h.2.2, herr⟩)
  by_cases hzero : seg.filesz = 0
  · refine .inl ⟨fun c hc => by omega, fun h => by omega, ?_⟩
    rw [hzero]
    rfl
  have hnot : ¬ seg.Copies image := by
    intro h
    have hfirst := (h 0 (by omega)).2
    omega
  obtain ⟨fuel, hfuel⟩ := Nat.exists_eq_succ_of_ne_zero hzero
  have hsub := sub_pageDown seg.vaddr
  -- the first round does not get to its copy
  have hstep : (copySegment image frames seg seg.filesz 0 m).1 =
      if frames.lookup (pageDown seg.vaddr) = none then .error (.elf .malformed)
      else if u64Max < seg.offset + min (frameSize - seg.vaddr % frameSize) seg.filesz then
        .error .panic
      else .error (.elf .malformed) := by
    have hmod := Nat.mod_lt seg.vaddr frameSize_pos
    rw [hfuel, copySegment, if_neg (by omega), if_neg (by omega)]
    dsimp only
    rw [Nat.add_zero, Nat.add_zero, Nat.sub_zero, hsub]
    cases frames.lookup (pageDown seg.vaddr) with
    | none => rfl
    | some phys =>
      have hsome : ¬ some phys = none := by simp
      dsimp only
      rw [if_neg hsome, ← hfuel]
      by_cases hlate : u64Max < seg.offset + min (frameSize - seg.vaddr % frameSize) seg.filesz
      · rw [if_pos hlate, if_pos hlate]
      · rw [if_neg hlate, if_neg hlate, if_pos (by omega)]
  rw [hstep]
  by_cases hcov : Covered image (pageDown seg.vaddr)
  · rw [if_neg ((hfound _).mpr hcov)]
    by_cases hlate : u64Max < seg.offset + min (frameSize - seg.vaddr % frameSize) seg.filesz
    · rw [if_pos hlate]
      exact .inr (.inl ⟨hnot, ⟨by omega, hcov, hlate⟩, rfl⟩)
    · rw [if_neg hlate]
      exact .inr (.inr ⟨hnot, fun h => hlate h.2.2, rfl⟩)
  · rw [if_pos (not_not.mp fun h => hcov ((hfound _).mp h))]
    exact .inr (.inr ⟨hnot, fun h => hcov h.2.1, rfl⟩)

lemma copySegments_panic_iff (hva : ∀ seg ∈ segs, seg.vaddr ≤ u64Max) (m : Mm) :
    (copySegments image frames segs m).1 = .error .panic ↔
      Hits (Segment.Copies image) (Segment.SourceLate image) segs := by
  induction segs generalizing m with
  | nil => exact iff_of_false (by simp [copySegments]) id
  | cons seg segs ih =>
    obtain ⟨hfirst, hrest⟩ := List.forall_mem_cons.mp hva
    have hcases := copySegment_cases hlen hfound hends hfirst m
    unfold copySegments
    rw [hits_cons]
    cases hr : copySegment image frames seg seg.filesz 0 m with
    | mk res m₁ =>
      rw [hr] at hcases
      rcases hcases with ⟨hin, hlate, heq⟩ | ⟨hin, hlate, heq⟩ | ⟨hin, hlate, heq⟩
      · obtain rfl : res = .ok () := heq
        rw [or_iff_right hlate, and_iff_right hin]
        exact ih hrest m₁
      · obtain rfl : res = .error .panic := heq
        exact iff_of_true rfl (.inl hlate)
      · obtain rfl : res = .error (.elf .malformed) := heq
        refine iff_of_false (by simp) ?_
        rintro (h | h)
        · exact hlate h
        · exact hin h.1

end Copy

/-! ## The whole load -/

/-- How `load` comes to panic on an image, given the address space it is to load it into. -/
inductive Panics (m : Mm) (space : ℕ) (image : List UInt8) : Prop
  /-- The end of the first program header's type is no word. -/
  | header (h : Identified image) (hlate : HeadersLate image)
  /-- The first segment that does not end early enough ends in the last page. -/
  | segment (h : Identified image) (hin : HeadersIn image)
      (hlate : Hits Segment.EndsIn Segment.EndsLate (loadSegments image))
  /-- A covered page is not canonical, and the covered pages of the lower half are free. -/
  | page (h : WellFormed image) (page : ℕ) (hcov : Covered image page)
      (hcan : Mm.canonical page = false)
      (hempty : ∀ q, Covered image q → q < 2 ^ 47 → m.pt.leaf space (q / frameSize) = none)
  /-- The pages can be mapped, and the first segment whose bytes cannot all be copied asks for bytes that
  end at no word. -/
  | source (h : WellFormed image)
      (hmaps : ∀ page, Covered image page →
        Mm.canonical page = true ∧ m.pt.leaf space (page / frameSize) = none)
      (hlate : Hits (Segment.Copies image) (Segment.SourceLate image) (loadSegments image))

section Load

variable {m : Mm} {space : ℕ}

/-- A covered page of a well-formed image ends at a word. -/
lemma WellFormed.page_end (h : WellFormed image) {page : ℕ} (hcov : Covered image page) :
    page + frameSize ≤ u64Max := by
  obtain ⟨seg, hseg, hdvd, -, hlt⟩ := hcov
  have hend : pageUp (seg.vaddr + seg.memsz) ≤ u64Max := h.ends seg hseg
  obtain ⟨a, rfl⟩ := hdvd
  obtain ⟨b, hb⟩ := frameSize_dvd_pageUp (seg.vaddr + seg.memsz)
  rw [hb] at hlt hend
  have hab := Nat.lt_of_mul_lt_mul_left hlt
  have hle : frameSize * (a + 1) ≤ frameSize * b := Nat.mul_le_mul_left _ hab
  rw [Nat.mul_add, Nat.mul_one] at hle
  omega

lemma vaddr_le (hseg : seg ∈ loadSegments image) : seg.vaddr ≤ u64Max := by
  obtain ⟨i, -, hi⟩ := List.mem_filterMap.mp hseg
  unfold programHeader at hi
  dsimp only at hi
  split at hi
  · obtain rfl := Option.some.inj hi
    have hlt := field_lt image 8 (field image 8 32 + i * field image 2 54 + 16)
    have hsize : 256 ^ 8 = u64Max + 1 := by decide
    dsimp only
    omega
  · cases hi

lemma forall_covered {p : Plan} {P : ℕ → Prop} (hplan : plan image = .ok p) :
    (∀ pg ∈ p.pages, P pg.1) ↔ ∀ page, Covered image page → P page := by
  have hcov : ∀ page, Covered image page ↔ page ∈ p.pages.map Prod.fst := fun page =>
    (plan_touched hplan).covered
  constructor
  · intro h page hpage
    obtain ⟨pg, hpg, rfl⟩ := List.mem_map.mp ((hcov page).mp hpage)
    exact h pg hpg
  · intro h pg hpg
    exact h pg.1 ((hcov pg.1).mpr (List.mem_map_of_mem hpg))

/-- With a plan, what is left is the panic of pass 2 or of pass 3. -/
lemma load_panic_of_plan (hlen : image.length ≤ isizeMax) {p : Plan} (hplan : plan image = .ok p)
    (hframes : (load m image space).2.refusals = m.refusals) :
    (load m image space).1 = .error .panic ↔
      Hits (Mappable m space) (fun pg => Mm.canonical pg.1 = false) p.pages ∨
      (∀ pg ∈ p.pages, Mappable m space pg) ∧
        Hits (Segment.Copies image) (Segment.SourceLate image) (loadSegments image) := by
  have htouched := plan_touched hplan
  have hwf := (plan_iff hlen).1.mp ⟨p, hplan⟩
  obtain ⟨-, hmaps⟩ := mapPages_refusals htouched.sorted (plan_aligned hplan) space m
  obtain ⟨-, hsegs, -⟩ := plan_eq_ok hplan
  unfold load at hframes ⊢
  rw [hplan] at hframes ⊢
  dsimp only at hframes ⊢
  cases hmap : mapPages space p.pages m with
  | mk res m₁ =>
    rw [hmap] at hmaps hframes
    cases res with
    | error e =>
      -- not all pages can be mapped, so only pass 2 can have panicked
      obtain ⟨hok, hpanic⟩ := hmaps hframes
      rw [or_iff_left fun h => by simpa using hok.mpr h.1, ← hpanic]
      simp
    | ok frames =>
      -- all pages are mapped: pass 3 finds a frame for each covered page, and decides
      have hkeys := mapPages_keys hmap
      have hfound : ∀ page, frames.lookup page ≠ none ↔ Covered image page := by
        intro page
        rw [htouched.covered, ← hkeys]
        exact lookup_ne_none_iff
      have hva : ∀ seg ∈ loadSegments image, seg.vaddr ≤ u64Max := fun _ => vaddr_le
      have hcopy := copySegments_panic_iff hlen hfound (fun _ => hwf.page_end) hva m₁
      obtain ⟨mem, hmem⟩ := copySegments_eq image frames (loadSegments image) m₁
      rw [hsegs] at hframes ⊢
      dsimp only at hframes ⊢
      have hrefusals : m₁.refusals = m.refusals := by
        have hsame : (copySegments image frames (loadSegments image) m₁).2.refusals =
            m₁.refusals := by
          rw [hmem]
          rfl
        rw [← hsame, ← hframes]
        cases copySegments image frames (loadSegments image) m₁ with
        | mk res m₂ => cases res <;> rfl
      obtain ⟨hok, hpanic⟩ := hmaps hrefusals
      have hall := hok.mp ⟨frames, rfl⟩
      have hnot : ¬ Hits (Mappable m space) (fun pg => Mm.canonical pg.1 = false) p.pages :=
        fun h => by simpa using hpanic.mpr h
      rw [or_iff_right hnot, and_iff_right hall, ← hcopy]
      cases copySegments image frames (loadSegments image) m₁ with
      | mk res m₂ => cases res <;> simp

/-- If it is refused no frame, `load` panics on the images of `Panics` and returns on all others. -/
theorem load_ne_panic_iff (image : Image) (m : Mm) (space : ℕ)
    (hframes : (load m image.bytes space).2.refusals = m.refusals) :
    (load m image.bytes space).1 ≠ .error .panic ↔ ¬ Panics m space image.bytes := by
  have hlen := image.length_le
  obtain ⟨hok, hpanic⟩ := plan_iff hlen
  rw [not_iff_not]
  cases hplan : plan image.bytes with
  | error e =>
    -- pass 1 ends the call: no image that it turns down is well formed
    have hnot : ¬ WellFormed image.bytes := by
      intro h
      obtain ⟨p, hp⟩ := hok.mpr h
      rw [hplan] at hp
      cases hp
    have hload : (load m image.bytes space).1 = .error e := by
      unfold load
      rw [hplan]
    rw [hload]
    rw [hplan] at hpanic
    have heq : (Except.error e : Except LoadError ℕ) = .error .panic ↔
        (Except.error e : Except LoadError Plan) = .error .panic := by simp
    rw [heq, hpanic]
    constructor
    · rintro ⟨hident, hlate | ⟨hin, hlate⟩⟩
      · exact .header hident hlate
      · exact .segment hident hin hlate
    · intro h
      cases h with
      | header hident hlate => exact ⟨hident, .inl hlate⟩
      | segment hident hin hlate => exact ⟨hident, .inr ⟨hin, hlate⟩⟩
      | page h => exact absurd h hnot
      | source h => exact absurd h hnot
  | ok p =>
    have hwf := hok.mp ⟨p, hplan⟩
    have hnot : ¬ plan image.bytes = .error .panic := by
      rw [hplan]
      simp
    rw [hpanic, not_and_or] at hnot
    have hsorted := (plan_touched hplan).sorted
    rw [load_panic_of_plan hlen hplan hframes, hits_notCanonical hsorted]
    have hempty := forall_covered (P := fun q => q < 2 ^ 47 →
      m.pt.leaf space (q / frameSize) = none) hplan
    have hmaps := forall_covered (P := fun page => Mm.canonical page = true ∧
      m.pt.leaf space (page / frameSize) = none) hplan
    constructor
    · rintro (⟨pg, hpg, hcan, hall⟩ | ⟨hall, hlate⟩)
      · have hpage := (plan_touched hplan).covered.mpr (List.mem_map_of_mem hpg)
        exact .page hwf pg.1 hpage hcan (hempty.mp hall)
      · exact .source hwf (hmaps.mp hall) hlate
    · intro h
      cases h with
      | header hident hlate => exact absurd hwf.headers (not_headersIn hlate hlen)
      | segment hident hin hlate =>
        exact (hnot.elim (absurd hident) fun h => absurd (.inr ⟨hin, hlate⟩) h)
      | page _ page hpage hcan hall =>
        obtain ⟨pg, hpg, rfl⟩ := List.mem_map.mp ((plan_touched hplan).covered.mp hpage)
        exact .inl ⟨pg, hpg, hcan, hempty.mpr hall⟩
      | source _ hall hlate => exact .inr ⟨hmaps.mpr hall, hlate⟩

/-- The image with two file bytes can be loaded wherever its pages are free. -/
theorem load_ne_panic_iff_splitImage :
    (load (initMm smallPlatform) splitImage 0).2.refusals = (initMm smallPlatform).refusals ∧
    ¬ Panics (initMm smallPlatform) 0 splitImage := by
  have hlen : splitImage.length ≤ isizeMax := by decide +kernel
  have hframes : (load (initMm smallPlatform) splitImage 0).2.refusals =
      (initMm smallPlatform).refusals := by decide +kernel
  have hok : (load (initMm smallPlatform) splitImage 0).1 = .ok 0x40_1fff := by decide +kernel
  refine ⟨hframes, (load_ne_panic_iff ⟨splitImage, hlen⟩ (initMm smallPlatform) 0 hframes).mp ?_⟩
  show (load (initMm smallPlatform) splitImage 0).1 ≠ .error .panic
  rw [hok]
  simp

/-- A bare ELF header with one program header, which is said to begin at `phoff`. -/
def bareImage (phoff : ℕ) : List UInt8 :=
  [0x7f, 0x45, 0x4c, 0x46, 2, 1, 1, 0] ++ List.replicate 16 0 ++ leBytes 8 0x40_0000 ++
    leBytes 8 phoff ++ List.replicate 14 0 ++ leBytes 2 56 ++ leBytes 2 1 ++ List.replicate 6 0

/-- It begins at the last address there is: the sum with the size of its type overflows. -/
theorem not_load_ne_panic : ∃ image : Image,
    image.bytes = bareImage u64Max ∧
    (load (initMm smallPlatform) image.bytes 0).2.refusals = (initMm smallPlatform).refusals ∧
    (load (initMm smallPlatform) image.bytes 0).1 = .error .panic := by
  have hlen : (bareImage u64Max).length ≤ isizeMax := by decide +kernel
  have hframes : (load (initMm smallPlatform) (bareImage u64Max) 0).2.refusals =
      (initMm smallPlatform).refusals := by decide +kernel
  have hpanic : (load (initMm smallPlatform) (bareImage u64Max) 0).1 = .error .panic := by
    decide +kernel
  exact ⟨⟨bareImage u64Max, hlen⟩, rfl, hframes, hpanic⟩

end Load

end Elf
end Xernel
