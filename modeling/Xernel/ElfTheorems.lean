import Xernel.Arch.Leaves
import Xernel.Spaces

/-!
# Loading an ELF image

What `load` leaves behind when it succeeds. The three passes agree on the page of an address: pass 1
collects the pages that some segment covers, pass 2 maps each of them to a fresh zeroed frame, and
pass 3 writes a byte of a segment into the frame of its page and nowhere else.
-/

namespace Xernel
namespace Elf

variable {image : List UInt8} {seg : Segment} {segs : List Segment}

/-! ## What the headers say -/

/-- The little-endian `n`-byte field of the image at `off`. -/
def field (image : List UInt8) (n off : ℕ) : ℕ := leNat ((image.drop off).take n)

/-- The segment that program header `i` describes, if that is a `PT_LOAD` entry. -/
def programHeader (image : List UInt8) (i : ℕ) : Option Segment :=
  let ph := field image 8 32 + i * field image 2 54
  if field image 4 ph = ptLoad then
    some { offset := field image 8 (ph + 8)
           vaddr := field image 8 (ph + 16)
           filesz := field image 8 (ph + 32)
           memsz := field image 8 (ph + 40)
           writable := field image 4 (ph + 4) &&& pfW != 0
           executable := field image 4 (ph + 4) &&& pfX != 0 }
  else none

/-- The `PT_LOAD` entries of the program-header table. -/
def loadSegments (image : List UInt8) : List Segment :=
  (List.range (field image 2 56)).filterMap (programHeader image)

/-- `page` is the address of a page that the segment covers. -/
def Segment.Covers (seg : Segment) (page : ℕ) : Prop :=
  frameSize ∣ page ∧ pageDown seg.vaddr ≤ page ∧ page < pageUp (seg.vaddr + seg.memsz)

lemma rd_eq_ok {n off v : ℕ} (h : rd n image off = .ok v) : v = field image n off := by
  rw [rd] at h
  split at h
  · cases h
  · split at h
    · exact (Except.ok.inj h).symm
    · cases h

lemma bind_eq_ok {α β : Type} {x : Except LoadError α} {f : α → Except LoadError β} {b : β}
    (h : (x >>= f) = .ok b) : ∃ a, x = .ok a ∧ f a = .ok b := by
  cases x with
  | error e => cases h
  | ok a => exact ⟨a, rfl, h⟩

/-- The header walk collects the `PT_LOAD` entries in order. -/
lemma segments_eq {n i : ℕ}
    (h : segments image (field image 8 32) (field image 2 54) n i = .ok segs) :
    segs = (List.range' i n).filterMap (programHeader image) := by
  induction n generalizing i segs with
  | zero => exact (Except.ok.inj h).symm
  | succ n ih =>
    rw [segments] at h
    obtain ⟨ptype, hptype, h⟩ := bind_eq_ok h
    rw [List.range'_succ, List.filterMap_cons, programHeader, ← rd_eq_ok hptype]
    split at h
    next hne => rw [if_neg hne]; exact ih h
    next heq =>
      obtain ⟨flags, hflags, h⟩ := bind_eq_ok h
      obtain ⟨offset, hoffset, h⟩ := bind_eq_ok h
      obtain ⟨vaddr, hvaddr, h⟩ := bind_eq_ok h
      obtain ⟨filesz, hfilesz, h⟩ := bind_eq_ok h
      obtain ⟨memsz, hmemsz, h⟩ := bind_eq_ok h
      obtain ⟨rest, hrest, h⟩ := bind_eq_ok h
      obtain rfl := Except.ok.inj h
      rw [if_pos (not_not.mp heq), ih hrest, rd_eq_ok hflags, rd_eq_ok hoffset, rd_eq_ok hvaddr,
        rd_eq_ok hfilesz, rd_eq_ok hmemsz]

lemma plan_eq_ok {p : Plan} (h : plan image = .ok p) :
    p.entry = field image 8 24 ∧ p.segments = loadSegments image ∧
      (loadSegments image).foldlM coverSegment [] = .ok p.pages := by
  rw [plan] at h
  split at h
  · cases h
  split at h
  · cases h
  split at h
  · cases h
  obtain ⟨entry, hentry, h⟩ := bind_eq_ok h
  obtain ⟨phoff, hphoff, h⟩ := bind_eq_ok h
  obtain ⟨phentsize, hphentsize, h⟩ := bind_eq_ok h
  obtain ⟨phnum, hphnum, h⟩ := bind_eq_ok h
  obtain ⟨segs, hsegs, h⟩ := bind_eq_ok h
  obtain ⟨pages, hpages, h⟩ := bind_eq_ok h
  obtain rfl := Except.ok.inj h
  rw [rd_eq_ok hphoff, rd_eq_ok hphentsize, rd_eq_ok hphnum] at hsegs
  have heq := segments_eq hsegs
  rw [← List.range_eq_range'] at heq
  subst heq
  exact ⟨rd_eq_ok hentry, rfl, hpages⟩

/-! ## Pass 1: the covered pages -/

/-- The page map after the pairs `T` of a page and a segment were entered: one entry a page, sorted,
with the union of the permissions. -/
structure Touched (T : Set (ℕ × Segment)) (pages : List (ℕ × PageInfo)) : Prop where
  sorted : (pages.map Prod.fst).Pairwise (· < ·)
  mem : ∀ page, page ∈ pages.map Prod.fst ↔ ∃ seg, (page, seg) ∈ T
  writable : ∀ page info, (page, info) ∈ pages →
    (info.writable = true ↔ ∃ seg, (page, seg) ∈ T ∧ seg.writable = true)
  executable : ∀ page info, (page, info) ∈ pages →
    (info.executable = true ↔ ∃ seg, (page, seg) ∈ T ∧ seg.executable = true)

section TouchPage

variable {page q : ℕ} {info : PageInfo} {pages : List (ℕ × PageInfo)}

lemma keys_touchPage :
    q ∈ (touchPage page seg pages).map Prod.fst ↔ q = page ∨ q ∈ pages.map Prod.fst := by
  induction pages with
  | nil => simp [touchPage]
  | cons head rest ih =>
    obtain ⟨p, old⟩ := head
    rw [touchPage]
    split
    · simp
    · split
      next heq => simp [heq]
      next => rw [List.map_cons, List.mem_cons, ih, List.map_cons, List.mem_cons]; tauto

lemma sorted_touchPage (h : (pages.map Prod.fst).Pairwise (· < ·)) :
    ((touchPage page seg pages).map Prod.fst).Pairwise (· < ·) := by
  induction pages with
  | nil => simp [touchPage]
  | cons head rest ih =>
    obtain ⟨p, old⟩ := head
    rw [List.map_cons, List.pairwise_cons] at h
    rw [touchPage]
    split
    next hlt =>
      refine List.pairwise_cons.mpr ⟨fun q hq => ?_, List.pairwise_cons.mpr h⟩
      rcases List.mem_cons.mp hq with rfl | hq
      · exact hlt
      · exact Nat.lt_trans hlt (h.1 q hq)
    next hge =>
      split
      · exact List.pairwise_cons.mpr h
      next hne =>
        refine List.pairwise_cons.mpr ⟨fun q hq => ?_, ih h.2⟩
        rcases keys_touchPage.mp hq with rfl | hq
        · exact Nat.lt_of_le_of_ne (Nat.not_lt.mp hge) (Ne.symm hne)
        · exact h.1 q hq

lemma mem_touchPage_of_ne (hne : q ≠ page) :
    (q, info) ∈ touchPage page seg pages ↔ (q, info) ∈ pages := by
  induction pages with
  | nil => simp [touchPage, hne]
  | cons head rest ih =>
    obtain ⟨p, old⟩ := head
    rw [touchPage]
    split
    · simp [hne]
    · split
      next heq =>
        subst heq
        simp [hne]
      next => rw [List.mem_cons, ih, List.mem_cons]

/-- The entry of the page itself: the permissions are added to those of an old entry, if there is
one. -/
lemma mem_touchPage_self (h : (pages.map Prod.fst).Pairwise (· < ·))
    (hmem : (page, info) ∈ touchPage page seg pages) :
    (∃ old, (page, old) ∈ pages ∧ info =
      ⟨old.writable || seg.writable, old.executable || seg.executable⟩) ∨
    page ∉ pages.map Prod.fst ∧ info = ⟨seg.writable, seg.executable⟩ := by
  induction pages with
  | nil => exact .inr ⟨by simp, by simpa [touchPage] using hmem⟩
  | cons head rest ih =>
    obtain ⟨p, old⟩ := head
    rw [List.map_cons, List.pairwise_cons] at h
    have hrest : ∀ {info}, (page, info) ∈ rest → p < page := fun hin =>
      h.1 page (List.mem_map_of_mem hin)
    rw [touchPage] at hmem
    split at hmem
    next hlt =>
      rcases List.mem_cons.mp hmem with heq | hin
      · refine .inr ⟨fun hkey => ?_, (Prod.mk.inj heq).2⟩
        rcases List.mem_cons.mp hkey with heq | hkey
        · omega
        · have := h.1 page hkey
          omega
      · rcases List.mem_cons.mp hin with heq | hin
        · have := (Prod.mk.inj heq).1
          omega
        · have := hrest hin
          omega
    next hge =>
      split at hmem
      next heq =>
        -- the page is there: the flags of both segments are joined
        subst heq
        rcases List.mem_cons.mp hmem with heq | hin
        · exact .inl ⟨old, List.mem_cons_self, (Prod.mk.inj heq).2⟩
        · exact absurd (hrest hin) (Nat.lt_irrefl _)
      next hne =>
        rcases List.mem_cons.mp hmem with heq | hin
        · exact absurd (Prod.mk.inj heq).1 hne
        · rcases ih h.2 hin with ⟨old', hold, hinfo⟩ | ⟨hkey, hinfo⟩
          · exact .inl ⟨old', List.mem_cons_of_mem _ hold, hinfo⟩
          · refine .inr ⟨fun hkey' => ?_, hinfo⟩
            rcases List.mem_cons.mp hkey' with heq | hkey'
            · exact hne heq
            · exact hkey hkey'

lemma Touched.touch {T : Set (ℕ × Segment)} (h : Touched T pages) (page : ℕ) (seg : Segment) :
    Touched (insert (page, seg) T) (touchPage page seg pages) := by
  -- how a permission of an entry after the touch comes about
  have hperm : ∀ (f : PageInfo → Bool) (g : Segment → Bool),
      (∀ old : PageInfo, f ⟨old.writable || seg.writable, old.executable || seg.executable⟩ =
        (f old || g seg)) → f ⟨seg.writable, seg.executable⟩ = g seg →
      (∀ q info, (q, info) ∈ pages → (f info = true ↔ ∃ seg, (q, seg) ∈ T ∧ g seg = true)) →
      ∀ q info, (q, info) ∈ touchPage page seg pages →
        (f info = true ↔ ∃ s, (q, s) ∈ insert (page, seg) T ∧ g s = true) := by
    intro f g hmerge hnew hold q info hmem
    by_cases hq : q = page
    · subst hq
      have hins : (∃ s, (q, s) ∈ insert (q, seg) T ∧ g s = true) ↔
          g seg = true ∨ ∃ s, (q, s) ∈ T ∧ g s = true := by
        constructor
        · rintro ⟨s, hs, hg⟩
          rcases Set.mem_insert_iff.mp hs with heq | hs
          · exact .inl ((Prod.mk.inj heq).2 ▸ hg)
          · exact .inr ⟨s, hs, hg⟩
        · rintro (hg | ⟨s, hs, hg⟩)
          · exact ⟨seg, Set.mem_insert _ _, hg⟩
          · exact ⟨s, Set.mem_insert_of_mem _ hs, hg⟩
      rw [hins]
      rcases mem_touchPage_self h.sorted hmem with ⟨old, hin, rfl⟩ | ⟨hkey, rfl⟩
      · rw [hmerge, Bool.or_eq_true, hold q old hin, or_comm]
      · have hnone : ¬ ∃ s, (q, s) ∈ T ∧ g s = true := by
          rintro ⟨s, hs, -⟩
          exact hkey ((h.mem q).mpr ⟨s, hs⟩)
        rw [hnew, or_iff_left hnone]
    · rw [hold q info ((mem_touchPage_of_ne hq).mp hmem)]
      simp [hq]
  refine ⟨sorted_touchPage h.sorted, fun q => ?_, ?_, ?_⟩
  · rw [keys_touchPage, h.mem]
    constructor
    · rintro (rfl | ⟨s, hs⟩)
      · exact ⟨seg, Set.mem_insert _ _⟩
      · exact ⟨s, Set.mem_insert_of_mem _ hs⟩
    · rintro ⟨s, hs⟩
      rcases Set.mem_insert_iff.mp hs with heq | hs
      · exact .inl (Prod.mk.inj heq).1
      · exact .inr ⟨s, hs⟩
  · exact hperm PageInfo.writable Segment.writable (fun _ => rfl) rfl h.writable
  · exact hperm PageInfo.executable Segment.executable (fun _ => rfl) rfl h.executable

lemma Touched.touchPages {T : Set (ℕ × Segment)} (h : Touched T pages) (seg : Segment)
    (n start : ℕ) :
    Touched (T ∪ {t | t.2 = seg ∧ ∃ i < n, t.1 = start + i * frameSize})
      (touchPages seg n start pages) := by
  induction n generalizing start pages T with
  | zero => simpa [Elf.touchPages] using h
  | succ n ih =>
    suffices hset : T ∪ {t | t.2 = seg ∧ ∃ i < n + 1, t.1 = start + i * frameSize} =
        insert (start, seg) T ∪ {t | t.2 = seg ∧ ∃ i < n, t.1 = start + frameSize + i * frameSize} by
      rw [hset, Elf.touchPages]
      exact ih (h.touch start seg) (start + frameSize)
    ext ⟨q, s⟩
    simp only [Set.mem_union, Set.mem_ofPred_eq, Set.mem_insert_iff, Prod.mk.injEq]
    constructor
    · rintro (hT | ⟨rfl, i, hi, rfl⟩)
      · exact .inl (.inr hT)
      · cases i with
        | zero => exact .inl (.inl ⟨by simp, rfl⟩)
        | succ i => exact .inr ⟨rfl, i, by omega, by rw [Nat.succ_mul]; omega⟩
    · rintro ((⟨rfl, rfl⟩ | hT) | ⟨rfl, i, hi, rfl⟩)
      · exact .inr ⟨rfl, 0, by omega, by simp⟩
      · exact .inl hT
      · exact .inr ⟨rfl, i + 1, by omega, by rw [Nat.succ_mul]; omega⟩

lemma pagesFor_mul (x : ℕ) : pagesFor x * frameSize = pageUp x := rfl

/-- The pages that pass 1 enters for one segment are those it covers. -/
lemma covers_iff :
    seg.Covers page ↔ ∃ i < (pagesFor (seg.vaddr + seg.memsz) * frameSize - pageDown seg.vaddr) /
      frameSize, page = pageDown seg.vaddr + i * frameSize := by
  rw [Segment.Covers, pagesFor_mul]
  obtain ⟨a, ha⟩ := frameSize_dvd_pageDown seg.vaddr
  obtain ⟨b, hb⟩ := frameSize_dvd_pageUp (seg.vaddr + seg.memsz)
  rw [ha, hb, ← Nat.mul_sub, Nat.mul_div_cancel_left _ frameSize_pos]
  constructor
  · rintro ⟨⟨c, rfl⟩, hlo, hhi⟩
    have hac := Nat.le_of_mul_le_mul_left hlo frameSize_pos
    have hcb := Nat.lt_of_mul_lt_mul_left hhi
    refine ⟨c - a, by omega, ?_⟩
    rw [Nat.mul_comm (c - a), ← Nat.mul_add]
    congr 1
    omega
  · rintro ⟨i, hi, rfl⟩
    rw [Nat.mul_comm i, ← Nat.mul_add]
    exact ⟨Nat.dvd_mul_right _ _, Nat.mul_le_mul_left _ (by omega),
      Nat.mul_lt_mul_of_pos_left (by omega) frameSize_pos⟩

/-- Pass 1 enters exactly the covered pages. -/
lemma touched_foldlM {done segs : List Segment} {pages' : List (ℕ × PageInfo)}
    (h : Touched {t | t.2 ∈ done ∧ t.2.Covers t.1} pages)
    (hfold : segs.foldlM coverSegment pages = .ok pages') :
    Touched {t | t.2 ∈ done ++ segs ∧ t.2.Covers t.1} pages' := by
  induction segs generalizing done pages with
  | nil =>
    obtain rfl := Except.ok.inj hfold
    simpa using h
  | cons seg segs ih =>
    rw [List.foldlM_cons] at hfold
    obtain ⟨pages₁, hcover, hrest⟩ := bind_eq_ok hfold
    rw [coverSegment] at hcover
    dsimp only at hcover
    split at hcover
    · cases hcover
    next =>
      split at hcover
      · cases hcover
      · obtain rfl := Except.ok.inj hcover
        have htouch := h.touchPages seg ((pagesFor (seg.vaddr + seg.memsz) * frameSize -
          pageDown seg.vaddr) / frameSize) (pageDown seg.vaddr)
        have hset : {t : ℕ × Segment | t.2 ∈ done ∧ t.2.Covers t.1} ∪ {t | t.2 = seg ∧
            ∃ i < (pagesFor (seg.vaddr + seg.memsz) * frameSize - pageDown seg.vaddr) / frameSize,
              t.1 = pageDown seg.vaddr + i * frameSize} =
            {t | t.2 ∈ done ++ [seg] ∧ t.2.Covers t.1} := by
          ext ⟨q, s⟩
          simp only [Set.mem_union, Set.mem_ofPred_eq, List.mem_append, List.mem_singleton]
          rw [← covers_iff]
          constructor
          · rintro (⟨hs, hc⟩ | ⟨rfl, hc⟩)
            · exact ⟨.inl hs, hc⟩
            · exact ⟨.inr rfl, hc⟩
          · rintro ⟨hs | rfl, hc⟩
            · exact .inl ⟨hs, hc⟩
            · exact .inr ⟨rfl, hc⟩
        rw [hset] at htouch
        simpa using ih htouch hrest

/-- The page map of a plan. -/
lemma plan_touched {p : Plan} (h : plan image = .ok p) :
    Touched {t | t.2 ∈ loadSegments image ∧ t.2.Covers t.1} p.pages := by
  have hnil : Touched {t : ℕ × Segment | t.2 ∈ [] ∧ t.2.Covers t.1} [] :=
    ⟨by simp, by simp, by simp, by simp⟩
  simpa using touched_foldlM hnil (plan_eq_ok h).2.2

end TouchPage

/-! ## Pass 2: the frames of the pages -/

section MapPages

variable {m m' : Mm} {space page phys : ℕ} {regions : List Region}

/-- Two frames that have a byte in common are one. -/
lemma frame_eq_of_overlap {f f' o : ℕ} (hf' : frameSize ∣ f') (hf : frameSize ∣ f)
    (ho : o < frameSize) (hlo : f' ≤ f + o) (hhi : f + o < f' + frameSize) : f' = f := by
  obtain ⟨x, rfl⟩ := hf'
  obtain ⟨y, rfl⟩ := hf
  simp only [frameSize] at *
  omega

/-- What pass 2 does: every page gets a frame of its own, zeroed and mapped with the permissions of the
page, and nothing else is mapped or written. -/
structure Mapped (space : ℕ) (pages : List (ℕ × PageInfo)) (frames : List (ℕ × ℕ)) (m m' : Mm) :
    Prop where
  keys : frames.map Prod.fst = pages.map Prod.fst
  fresh : ∀ page phys, (page, phys) ∈ frames → phys ∉ handedOut m.calls
  aligned : ∀ page phys, (page, phys) ∈ frames → frameSize ∣ phys
  nodup : (frames.map Prod.snd).Nodup
  empty : ∀ page ∈ pages.map Prod.fst, m.pt.leaf space (page / frameSize) = none
  leaf : ∀ page info, (page, info) ∈ pages → ∃ phys, (page, phys) ∈ frames ∧
    m'.pt.leaf space (page / frameSize) =
      some ⟨phys, Mm.userFlags info.writable info.executable⟩
  other : ∀ l p, m'.pt.leaf l p ≠ m.pt.leaf l p → ∃ page ∈ pages.map Prod.fst,
    PageTables.home l p = PageTables.home space (page / frameSize) ∧ p = page / frameSize
  zero : ∀ page phys, (page, phys) ∈ frames → ∀ o < frameSize, m'.mem (phys + o) = 0
  bytes : ∀ a, (∀ page phys, (page, phys) ∈ frames → ¬ (phys ≤ a ∧ a < phys + frameSize)) →
    m'.mem a = m.mem a

lemma mapPages_ok {pages : List (ℕ × PageInfo)} {frames : List (ℕ × ℕ)}
    (hdisj : (regions.map Region.rounded).Pairwise Region.Disjoint)
    (hr : AllocatorRun regions m.frames m.calls)
    (hsorted : (pages.map Prod.fst).Pairwise (· < ·))
    (haligned : ∀ page ∈ pages.map Prod.fst, frameSize ∣ page)
    (h : mapPages space pages m = (.ok frames, m')) : Mapped space pages frames m m' := by
  induction pages generalizing m frames with
  | nil =>
    obtain ⟨hf, rfl⟩ := Prod.mk.inj h
    obtain rfl := Except.ok.inj hf
    exact ⟨rfl, by simp, by simp, by simp, by simp, by simp, fun l p hne => absurd rfl hne, by simp,
      fun _ _ => rfl⟩
  | cons head rest ih =>
    obtain ⟨page, info⟩ := head
    rw [List.map_cons, List.pairwise_cons] at hsorted
    rw [mapPages] at h
    split at h
    · cases h
    next phys m₁ ha =>
      split at h
      · cases h
      · cases h
      next m₂ hmap =>
        split at h
        · cases h
        next frames' m₃ hrest =>
          obtain ⟨hf, rfl⟩ := Prod.mk.inj h
          obtain rfl := Except.ok.inj hf
          obtain ⟨hfresh, hlive₁⟩ := fresh_of_frameAlloc hdisj hr ha
          have halloc : Mm.Builds ⟨.univ, .univ, .univ⟩ m ∅ m₁ _ := Mm.Builds.refl.alloc ha
          have hb : Mm.Builds ⟨.univ, .univ, .univ⟩ (m₁.zero phys frameSize) ∅
              ((m₁.zero phys frameSize).mapUser space page phys info.writable info.executable).2 ∅ :=
            Mm.mapWithFlags_builds le_rfl (fun _ => trivial) fun _ _ => ⟨trivial, .inl trivial⟩
          have hleaf := Mm.mapWithFlags_leaf (m₁.zero phys frameSize) space page phys
            (Mm.userFlags info.writable info.executable)
          have hmem := Mm.mapWithFlags_mem (m₁.zero phys frameSize) space page phys
            (Mm.userFlags info.writable info.executable)
          rw [← Mm.mapUser_eq, hmap] at hleaf hmem
          rw [hmap] at hb
          obtain ⟨-, hnone, hset⟩ | ⟨hfail, -⟩ := hleaf
          swap
          · exact absurd rfl hfail
          have hr₁ := halloc.run hr
          have hlive₂ : phys ∈ handedOut m₂.calls := hb.handedOut hlive₁
          have hkept : ∀ {f}, f ∈ handedOut m.calls → f ∈ handedOut m₂.calls := fun hf =>
            hb.handedOut (halloc.handedOut hf)
          have hphys : frameSize ∣ phys := ((hr₁.tracks hdisj).settled phys (.inr hlive₁)).1
          have hpages := ih (hb.run hr₁) hsorted.2
            (fun q hq => haligned q (List.mem_cons_of_mem _ hq)) hrest
          -- the pages of the rest differ from this one
          have hdiv : ∀ q ∈ rest.map Prod.fst, q / frameSize ≠ page / frameSize := by
            intro q hq heq
            have hlt := hsorted.1 q hq
            rw [← Nat.div_mul_cancel (haligned q (List.mem_cons_of_mem _ hq)), heq,
              Nat.div_mul_cancel (haligned page List.mem_cons_self)] at hlt
            exact Nat.lt_irrefl _ hlt
          have hleaf₁ : m₁.pt.leaf = m.pt.leaf := Mm.frameAlloc_leaf ha
          have hset₂ : m₂.pt.leaf = setLeafAt m.pt.leaf space (page / frameSize)
              ⟨phys, Mm.userFlags info.writable info.executable⟩ := by
            rw [hset, pageDown_of_dvd hphys]
            exact congrArg (fun leaves => setLeafAt leaves _ _ _) hleaf₁
          have hnone' : m.pt.leaf space (page / frameSize) = none := by rw [← hleaf₁]; exact hnone
          refine ⟨?_, fun q f hf => ?_, fun q f hf => ?_, ?_, fun q hq => ?_, fun q info' hq => ?_,
            fun l p hne => ?_, fun q f hf o ho => ?_, fun a hout => ?_⟩
          · rw [List.map_cons, List.map_cons, hpages.keys]
          · rcases List.mem_cons.mp hf with heq | hf
            · rw [(Prod.mk.inj heq).2]
              exact hfresh
            · exact fun hin => hpages.fresh q f hf (hkept hin)
          · rcases List.mem_cons.mp hf with heq | hf
            · rw [(Prod.mk.inj heq).2]
              exact hphys
            · exact hpages.aligned q f hf
          · refine List.nodup_cons.mpr ⟨fun hin => ?_, hpages.nodup⟩
            obtain ⟨⟨q, f⟩, hf', heq⟩ := List.mem_map.mp hin
            have heq' : f = phys := heq
            exact hpages.fresh q f hf' (heq' ▸ hlive₂)
          · rcases List.mem_cons.mp hq with rfl | hq
            · exact hnone'
            · have hq' := hpages.empty q hq
              rwa [hset₂, setLeafAt, if_neg fun h => hdiv q hq h.2] at hq'
          · rcases List.mem_cons.mp hq with heq | hq
            · obtain ⟨rfl, rfl⟩ := Prod.mk.inj heq
              refine ⟨phys, List.mem_cons_self, ?_⟩
              by_contra hne
              have hself : m₂.pt.leaf space (q / frameSize) =
                  some ⟨phys, Mm.userFlags info'.writable info'.executable⟩ := by
                rw [hset₂, setLeafAt, if_pos ⟨rfl, rfl⟩]
              rw [← hself] at hne
              obtain ⟨q', hq', -, heq⟩ := hpages.other _ _ hne
              exact hdiv q' hq' heq.symm
            · obtain ⟨f, hf, hleaf⟩ := hpages.leaf q info' hq
              exact ⟨f, List.mem_cons_of_mem _ hf, hleaf⟩
          · by_cases hrest' : m₃.pt.leaf l p = m₂.pt.leaf l p
            · rw [hrest', hset₂, setLeafAt] at hne
              split at hne
              next hat => exact ⟨page, List.mem_cons_self, hat⟩
              next => exact absurd rfl hne
            · obtain ⟨q, hq, hat⟩ := hpages.other l p hrest'
              exact ⟨q, List.mem_cons_of_mem _ hq, hat⟩
          · rcases List.mem_cons.mp hf with heq | hf
            · obtain ⟨-, rfl⟩ := Prod.mk.inj heq
              rw [hpages.bytes (f + o), hmem]
              · simp [Mm.zero, ho]
              · -- frames of the rest are other frames than this one
                rintro q f' hf' ⟨hlo, hhi⟩
                have heq := frame_eq_of_overlap (hpages.aligned q f' hf') hphys ho hlo hhi
                exact hpages.fresh q f' hf' (heq ▸ hlive₂)
            · exact hpages.zero q f hf o ho
          · rw [hpages.bytes a fun q f hf => hout q f (List.mem_cons_of_mem _ hf), hmem]
            have hout' := hout page phys List.mem_cons_self
            obtain ⟨-, rfl⟩ := Prod.mk.inj ha
            exact if_neg hout'

/-! ## Pass 3: the file bytes -/

/-- Where the byte at address `va` is, by the frames of pass 2. -/
def locate (frames : List (ℕ × ℕ)) (va : ℕ) : Option ℕ :=
  (frames.lookup (pageDown va)).map fun phys => phys + (va - pageDown va)

lemma writePhys_mem (m : Mm) (phys : ℕ) (bytes : List UInt8) (a : ℕ) :
    (m.writePhys phys bytes).mem a =
      if phys ≤ a then (bytes[a - phys]?).getD (m.mem a) else m.mem a := by
  induction bytes generalizing m phys with
  | nil => simp [Mm.writePhys]
  | cons b bytes ih =>
    rw [Mm.writePhys, ih]
    rcases Nat.lt_trichotomy a phys with hlt | rfl | hgt
    · rw [if_neg (by omega), if_neg (by omega)]
      simp [Mm.setByte, Function.update_of_ne (Nat.ne_of_lt hlt)]
    · rw [if_neg (by omega), if_pos le_rfl]
      simp [Mm.setByte]
    · rw [if_pos (by omega), if_pos (by omega), show a - phys = (a - (phys + 1)) + 1 by omega,
        List.getElem?_cons_succ]
      simp [Mm.setByte, Function.update_of_ne (Nat.ne_of_gt hgt)]

section Lookup

variable {α β : Type} [BEq α] [LawfulBEq α] {l : List (α × β)} {k : α} {b : β}

lemma mem_of_lookup (h : l.lookup k = some b) : (k, b) ∈ l := by
  obtain ⟨l₁, l₂, rfl, -⟩ := List.lookup_eq_some_iff.mp h
  simp

lemma lookup_of_mem (hkeys : (l.map Prod.fst).Nodup) (h : (k, b) ∈ l) : l.lookup k = some b := by
  obtain ⟨l₁, l₂, rfl⟩ := List.append_of_mem h
  refine List.lookup_eq_some_iff.mpr ⟨l₁, l₂, rfl, fun p hp => ?_⟩
  rw [List.map_append, List.map_cons, List.nodup_append] at hkeys
  have hne := hkeys.2.2 p.1 (List.mem_map_of_mem hp) k List.mem_cons_self
  simpa using Ne.symm hne

end Lookup

/-- The offset of an address in its page. -/
lemma sub_pageDown (va : ℕ) : va - pageDown va = va % frameSize := by
  simp only [pageDown, frameSize]
  omega

/-- Different addresses are at different places. -/
lemma Mapped.injective {pages : List (ℕ × PageInfo)} {frames : List (ℕ × ℕ)}
    (h : Mapped space pages frames m m') {va va' a : ℕ} (hva : locate frames va = some a)
    (hva' : locate frames va' = some a) : va = va' := by
  obtain ⟨f, hf, rfl⟩ := Option.map_eq_some_iff.mp hva
  obtain ⟨f', hf', heq⟩ := Option.map_eq_some_iff.mp hva'
  rw [sub_pageDown, sub_pageDown] at heq
  have hmem := mem_of_lookup hf
  have hmem' := mem_of_lookup hf'
  have hlt := Nat.mod_lt va frameSize_pos
  have hlt' := Nat.mod_lt va' frameSize_pos
  obtain rfl : f' = f :=
    frame_eq_of_overlap (h.aligned _ _ hmem') (h.aligned _ _ hmem) hlt (by omega) (by omega)
  have hpage : (pageDown va, f') = (pageDown va', f') :=
    List.inj_on_of_nodup_map h.nodup hmem hmem' rfl
  have hpage' : pageDown va = pageDown va' := (Prod.mk.inj hpage).1
  have hdown := sub_pageDown va
  have hdown' := sub_pageDown va'
  have hle := pageDown_le va
  have hle' := pageDown_le va'
  omega

/-- Pass 3 for one segment writes each of its file bytes to its place, and nothing else. -/
lemma copySegment_ok {frames : List (ℕ × ℕ)} {fuel copied : ℕ}
    (hinj : ∀ {va va' a}, locate frames va = some a → locate frames va' = some a → va = va')
    (hfuel : seg.filesz - copied ≤ fuel)
    (h : copySegment image frames seg fuel copied m = (.ok (), m')) :
    (∀ a, (∀ c, copied ≤ c → c < seg.filesz → locate frames (seg.vaddr + c) ≠ some a) →
      m'.mem a = m.mem a) ∧
    ∀ c, copied ≤ c → c < seg.filesz → ∃ a, locate frames (seg.vaddr + c) = some a ∧
      image[seg.offset + c]? = some (m'.mem a) := by
  induction fuel generalizing copied m with
  | zero =>
    obtain ⟨-, rfl⟩ := Prod.mk.inj h
    exact ⟨fun _ _ => rfl, fun c hlo hhi => by omega⟩
  | succ fuel ih =>
    rw [copySegment] at h
    split at h
    next hdone =>
      obtain ⟨-, rfl⟩ := Prod.mk.inj h
      exact ⟨fun _ _ => rfl, fun c hlo hhi => by omega⟩
    next hmore =>
      split at h
      · cases h
      dsimp only at h
      split at h
      · cases h
      next phys hphys =>
        split at h
        · cases h
        split at h
        · cases h
        next himg =>
          generalize hn : min (frameSize - (seg.vaddr + copied - pageDown (seg.vaddr + copied)))
            (seg.filesz - copied) = n at h himg
          have hoff := Nat.mod_lt (seg.vaddr + copied) frameSize_pos
          have hsub := sub_pageDown (seg.vaddr + copied)
          have hle := pageDown_le (seg.vaddr + copied)
          have hpos : 0 < n := by omega
          -- the bytes of this round lie in one page
          have hplace : ∀ c, copied ≤ c → c < copied + n → locate frames (seg.vaddr + c) =
              some (phys + (seg.vaddr + copied - pageDown (seg.vaddr + copied)) + (c - copied)) := by
            intro c hlo hhi
            have hpage : pageDown (seg.vaddr + c) = pageDown (seg.vaddr + copied) := by
              simp only [pageDown, frameSize] at *
              omega
            rw [locate, hpage, hphys, Option.map_some]
            congr 1
            omega
          obtain ⟨hframe, hwrite⟩ := ih (by omega) h
          generalize phys + (seg.vaddr + copied - pageDown (seg.vaddr + copied)) = base
            at hplace hframe
          have hlen : ((image.drop (seg.offset + copied)).take n).length = n := by
            rw [List.length_take, List.length_drop]
            omega
          refine ⟨fun a hout => ?_, fun c hlo hhi => ?_⟩
          · rw [hframe a fun c hlo hhi => hout c (by omega) hhi, writePhys_mem]
            split
            next hge =>
              have hlate : n ≤ a - base := by
                by_contra hlt
                refine hout (copied + (a - base)) (by omega) (by omega) ?_
                rw [hplace _ (by omega) (by omega)]
                congr 1
                omega
              rw [List.getElem?_eq_none (by rw [hlen]; exact hlate), Option.getD_none]
            next => rfl
          · by_cases hround : c < copied + n
            · refine ⟨_, hplace c hlo hround, ?_⟩
              have hlater : ∀ c', copied + n ≤ c' → c' < seg.filesz →
                  locate frames (seg.vaddr + c') ≠ some (base + (c - copied)) := by
                intro c' hlo' hhi' heq
                have := hinj heq (hplace c hlo hround)
                omega
              rw [hframe _ hlater, writePhys_mem, if_pos (Nat.le_add_right _ _),
                Nat.add_sub_cancel_left, List.getElem?_take_of_lt (by omega), List.getElem?_drop,
                show seg.offset + copied + (c - copied) = seg.offset + c by omega,
                List.getElem?_eq_getElem (by omega), Option.getD_some]
            · exact hwrite c (by omega) hhi

/-- No file byte of a segment other than segment `i` is at address `va`. -/
def OnlySegment (segs : List Segment) (i va : ℕ) : Prop :=
  ∀ j seg, j ≠ i → segs[j]? = some seg → ∀ c < seg.filesz, seg.vaddr + c ≠ va

/-- Pass 3 leaves in each place the byte of the only segment that has one for it. -/
lemma copySegments_ok {frames : List (ℕ × ℕ)}
    (hinj : ∀ {va va' a}, locate frames va = some a → locate frames va' = some a → va = va')
    (h : copySegments image frames segs m = (.ok (), m')) :
    (∀ a, (∀ seg ∈ segs, ∀ c < seg.filesz, locate frames (seg.vaddr + c) ≠ some a) →
      m'.mem a = m.mem a) ∧
    ∀ i seg, segs[i]? = some seg → ∀ c < seg.filesz, OnlySegment segs i (seg.vaddr + c) →
      ∃ a, locate frames (seg.vaddr + c) = some a ∧ image[seg.offset + c]? = some (m'.mem a) := by
  induction segs generalizing m with
  | nil =>
    obtain ⟨-, rfl⟩ := Prod.mk.inj h
    exact ⟨fun _ _ => rfl, by simp⟩
  | cons seg₀ segs ih =>
    rw [copySegments] at h
    split at h
    · cases h
    next m₁ hfirst =>
      obtain ⟨hframe₀, hwrite₀⟩ := copySegment_ok hinj (by omega) hfirst
      obtain ⟨hframe, hwrite⟩ := ih h
      refine ⟨fun a hout => ?_, fun i seg hseg c hc honly => ?_⟩
      · rw [hframe a fun seg hseg => hout seg (List.mem_cons_of_mem _ hseg),
          hframe₀ a fun c _ hc => hout seg₀ List.mem_cons_self c hc]
      · cases i with
        | zero =>
          obtain rfl := Option.some.inj hseg
          obtain ⟨a, ha, himg⟩ := hwrite₀ c (Nat.zero_le _) hc
          refine ⟨a, ha, ?_⟩
          rw [hframe a fun seg hseg' c' hc' heq => ?_, himg]
          obtain ⟨j, hj⟩ := List.mem_iff_getElem?.mp hseg'
          exact honly (j + 1) seg (by omega) hj c' hc' (hinj heq ha)
        | succ i =>
          exact hwrite i seg hseg c hc fun j seg' hj hseg' =>
            honly (j + 1) seg' (by omega) hseg'

end MapPages

/-! ## The whole load -/

/-- The page at `page` is covered by a segment of the image. -/
def Covered (image : List UInt8) (page : ℕ) : Prop := ∃ seg ∈ loadSegments image, seg.Covers page

variable {m m' : Mm} {space entry : ℕ} {regions : List Region}

/-- No segment but segment `i` has the address `va`. -/
def Alone (segs : List Segment) (i va : ℕ) : Prop :=
  ∀ (j : ℕ) (seg : Segment), j ≠ i → segs[j]? = some seg →
    ¬ (seg.vaddr ≤ va ∧ va < seg.vaddr + max seg.filesz seg.memsz)

lemma Alone.onlySegment {i va : ℕ} (h : Alone segs i va) : OnlySegment segs i va := by
  rintro j seg hj hseg c hc rfl
  refine h j seg hj hseg ⟨Nat.le_add_right _ _, ?_⟩
  have := le_max_left seg.filesz seg.memsz
  omega

/-- What pass 1 finds are addresses of pages. -/
lemma plan_aligned {p : Plan} (hplan : plan image = .ok p) :
    ∀ page ∈ p.pages.map Prod.fst, frameSize ∣ page := by
  intro page hpage
  obtain ⟨seg, -, hcovers⟩ := ((plan_touched hplan).mem page).mp hpage
  exact hcovers.1

/-- The three passes of a load that succeeds. -/
lemma load_eq_ok (hdisj : (regions.map Region.rounded).Pairwise Region.Disjoint)
    (hr : AllocatorRun regions m.frames m.calls) (h : load m image space = (.ok entry, m')) :
    entry = field image 8 24 ∧ ∃ pages frames m₁,
      Touched {t | t.2 ∈ loadSegments image ∧ t.2.Covers t.1} pages ∧
      Mapped space pages frames m m₁ ∧ m'.pt = m₁.pt ∧
      copySegments image frames (loadSegments image) m₁ = (.ok (), m') := by
  rw [load] at h
  split at h
  · cases h
  next p hplan =>
    split at h
    · cases h
    next frames m₁ hmap =>
      split at h
      · cases h
      next m₂ hcopy =>
        obtain ⟨hentry, rfl⟩ := Prod.mk.inj h
        obtain rfl := Except.ok.inj hentry
        obtain ⟨hentry, hsegs, -⟩ := plan_eq_ok hplan
        have htouched := plan_touched hplan
        obtain ⟨mem, hmem⟩ := copySegments_eq image frames p.segments m₁
        rw [hcopy] at hmem
        have hpt := congrArg Mm.pt hmem
        rw [hsegs] at hcopy
        exact ⟨hentry, p.pages, frames, m₁, htouched,
          mapPages_ok hdisj hr htouched.sorted (plan_aligned hplan) hmap, hpt, hcopy⟩

lemma Touched.covered {pages : List (ℕ × PageInfo)} {page : ℕ}
    (h : Touched {t | t.2 ∈ loadSegments image ∧ t.2.Covers t.1} pages) :
    Covered image page ↔ page ∈ pages.map Prod.fst := (h.mem page).symm

/-- The byte at an address of a mapped page is at the place where pass 3 would put it. -/
lemma Mapped.readByte {pages : List (ℕ × PageInfo)} {frames : List (ℕ × ℕ)} {m₁ : Mm} {va : ℕ}
    (h : Mapped space pages frames m m₁) (hsorted : (pages.map Prod.fst).Pairwise (· < ·))
    (hpt : m'.pt = m₁.pt) (hva : pageDown va ∈ pages.map Prod.fst) :
    ∃ page phys a, (page, phys) ∈ frames ∧ phys ≤ a ∧ a < phys + frameSize ∧
      locate frames va = some a ∧ m'.readByte space va = m'.mem a := by
  obtain ⟨⟨page, info⟩, hmem, heq⟩ := List.mem_map.mp hva
  have hpage : page = pageDown va := heq
  subst hpage
  obtain ⟨phys, hphys, hleaf⟩ := h.leaf _ info hmem
  have hlt := Nat.mod_lt va frameSize_pos
  have hkeys : (frames.map Prod.fst).Nodup := by
    rw [h.keys]
    exact hsorted.imp Nat.ne_of_lt
  refine ⟨_, phys, phys + va % frameSize, hphys, Nat.le_add_right _ _, by omega, ?_, ?_⟩
  · rw [locate, lookup_of_mem hkeys hphys, Option.map_some, sub_pageDown]
  · have hdiv : pageDown va / frameSize = va / frameSize :=
      Nat.mul_div_cancel _ frameSize_pos
    rw [hdiv, ← hpt] at hleaf
    rw [Mm.readByte, Mm.physOf, hleaf, Option.map_some, Option.elim_some]

/-- A load that succeeds returns the entry field of the header, has mapped exactly the pages that the
`PT_LOAD` segments cover, none of which was mapped before, each to a fresh frame of its own with the
union of the permissions, and has put there the file bytes of each segment followed by zeros,
wherever no other segment is. -/
theorem load_correct (hdisj : (regions.map Region.rounded).Pairwise Region.Disjoint)
    (hr : AllocatorRun regions m.frames m.calls)
    (h : load m image space = (.ok entry, m')) :
    entry = field image 8 24 ∧
    (∃ frame : ℕ → ℕ,
      (∀ page, Covered image page → m.pt.leaf space (page / frameSize) = none ∧
        frame page ∉ handedOut m.calls ∧ ∃ writable executable : Bool,
          m'.pt.leaf space (page / frameSize) =
            some ⟨frame page, Mm.userFlags writable executable⟩ ∧
          (writable = true ↔
            ∃ seg, (seg ∈ loadSegments image ∧ seg.Covers page) ∧ seg.writable = true) ∧
          (executable = true ↔
            ∃ seg, (seg ∈ loadSegments image ∧ seg.Covers page) ∧ seg.executable = true)) ∧
      (∀ page page', Covered image page → Covered image page' → frame page = frame page' →
        page = page')) ∧
    (∀ l p, m'.pt.leaf l p ≠ m.pt.leaf l p → ∃ page, Covered image page ∧
      PageTables.home l p = PageTables.home space (page / frameSize) ∧ p = page / frameSize) ∧
    ∀ (i : ℕ) (seg : Segment), (loadSegments image)[i]? = some seg → ∀ k < seg.memsz,
      Alone (loadSegments image) i (seg.vaddr + k) →
      (k < seg.filesz → image[seg.offset + k]? = some (m'.readByte space (seg.vaddr + k))) ∧
      (seg.filesz ≤ k → m'.readByte space (seg.vaddr + k) = 0) := by
  obtain ⟨hentry, pages, frames, m₁, htouched, hmapped, hpt, hcopy⟩ := load_eq_ok hdisj hr h
  have hkeys : (frames.map Prod.fst).Nodup := by
    rw [hmapped.keys]
    exact htouched.sorted.imp Nat.ne_of_lt
  have hinj : ∀ {va va' a}, locate frames va = some a → locate frames va' = some a → va = va' :=
    hmapped.injective
  refine ⟨hentry, ⟨fun page => (frames.lookup page).getD 0, fun page hcov => ?_,
    fun page page' hcov hcov' heq => ?_⟩, fun l p hne => ?_, fun i seg hseg k hk halone => ?_⟩
  · have hpage := htouched.covered.mp hcov
    obtain ⟨⟨_, info⟩, hinfo, rfl⟩ := List.mem_map.mp hpage
    obtain ⟨phys, hphys, hleaf⟩ := hmapped.leaf _ info hinfo
    have hlook := lookup_of_mem hkeys hphys
    refine ⟨hmapped.empty _ hpage, ?_, info.writable, info.executable, ?_,
      htouched.writable _ info hinfo, htouched.executable _ info hinfo⟩
    · simpa [hlook] using hmapped.fresh _ _ hphys
    · simpa [hlook, hpt] using hleaf
  · -- two pages with one frame
    have hframe : ∀ {page}, Covered image page → ∃ phys, (page, phys) ∈ frames ∧
        (frames.lookup page).getD 0 = phys := by
      intro page hcov
      have hpage := htouched.covered.mp hcov
      rw [← hmapped.keys] at hpage
      obtain ⟨⟨_, phys⟩, hphys, rfl⟩ := List.mem_map.mp hpage
      exact ⟨phys, hphys, by rw [lookup_of_mem hkeys hphys, Option.getD_some]⟩
    obtain ⟨phys, hphys, hval⟩ := hframe hcov
    obtain ⟨phys', hphys', hval'⟩ := hframe hcov'
    have hphyseq : phys = phys' := hval.symm.trans (heq.trans hval')
    have hpair := List.inj_on_of_nodup_map hmapped.nodup hphys hphys' hphyseq
    exact (Prod.mk.inj hpair).1
  · rw [hpt] at hne
    obtain ⟨page, hpage, hat⟩ := hmapped.other l p hne
    exact ⟨page, htouched.covered.mpr hpage, hat⟩
  · have hmem : seg ∈ loadSegments image := List.mem_of_getElem? hseg
    have hcov : Covered image (pageDown (seg.vaddr + k)) := by
      refine ⟨seg, hmem, frameSize_dvd_pageDown _, ?_, ?_⟩
      · simp only [pageDown, frameSize]
        omega
      · simp only [pageUp, pageDown, frameSize]
        omega
    obtain ⟨page, phys, a, hphys, hlo, hhi, hloc, hread⟩ :=
      hmapped.readByte htouched.sorted hpt (htouched.covered.mp hcov)
    obtain ⟨hframe, hwrite⟩ := copySegments_ok hinj hcopy
    rw [hread]
    refine ⟨fun hfile => ?_, fun hbss => ?_⟩
    · obtain ⟨a', ha', himg⟩ := hwrite i seg hseg k hfile halone.onlySegment
      obtain rfl : a' = a := Option.some.inj (ha'.symm.trans hloc)
      exact himg
    · -- nobody writes there: not this segment, and no other one
      rw [hframe a fun seg' hseg' c hc heq => ?_]
      · have hzero := hmapped.zero page phys hphys (a - phys) (by omega)
        rwa [show phys + (a - phys) = a by omega] at hzero
      · have hva := hinj heq hloc
        obtain ⟨j, hj⟩ := List.mem_iff_getElem?.mp hseg'
        by_cases hji : j = i
        · subst hji
          obtain rfl : seg' = seg := Option.some.inj (hj.symm.trans hseg)
          omega
        · exact halone.onlySegment j seg' hji hj c hc hva

/-- An image with one segment: two file bytes and two zeros across the boundary at `0x40_2000`. -/
def splitImage : List UInt8 :=
  [0x7f, 0x45, 0x4c, 0x46, 2, 1, 1, 0] ++ List.replicate 16 0 ++
    leBytes 8 0x40_1fff ++ leBytes 8 64 ++ List.replicate 14 0 ++ leBytes 2 56 ++ leBytes 2 1 ++
    List.replicate 6 0 ++ leBytes 4 ptLoad ++ leBytes 4 (4 + pfW) ++ leBytes 8 120 ++
    leBytes 8 0x40_1fff ++ leBytes 8 0 ++ leBytes 8 2 ++ leBytes 8 4 ++ leBytes 8 0 ++ [0xaa, 0xbb]

theorem load_correct_splitImage :
    (load (initMm smallPlatform) splitImage 0).1 = .ok 0x40_1fff ∧
    (load (initMm smallPlatform) splitImage 0).2.readByte 0 0x40_1fff = 0xaa ∧
    (load (initMm smallPlatform) splitImage 0).2.readByte 0 0x40_2000 = 0xbb ∧
    (load (initMm smallPlatform) splitImage 0).2.readByte 0 0x40_2001 = 0 := by
  have hok : (load (initMm smallPlatform) splitImage 0).1 = .ok 0x40_1fff := by decide +kernel
  have hsegs : loadSegments splitImage = [⟨120, 0x40_1fff, 2, 4, true, false⟩] := by
    decide +kernel
  have halone : ∀ va, Alone (loadSegments splitImage) 0 va := by
    intro va j seg hj hseg
    rw [hsegs, List.getElem?_eq_none (Nat.one_le_iff_ne_zero.mpr hj)] at hseg
    cases hseg
  have hnew : AllocatorRun smallPlatform.regions (initMm smallPlatform).frames
      (initMm smallPlatform).calls := .new
  rcases hload : load (initMm smallPlatform) splitImage 0 with ⟨r, m'⟩
  rw [hload] at hok
  obtain rfl : r = .ok 0x40_1fff := hok
  obtain ⟨-, -, -, hbytes⟩ := load_correct smallPlatform_regionsDisjoint hnew hload
  have hbyte := hbytes 0 ⟨120, 0x40_1fff, 2, 4, true, false⟩ (by rw [hsegs]; rfl)
  refine ⟨rfl, ?_, ?_, (hbyte 2 (by decide) (halone _)).2 (by decide)⟩
  · have h := (hbyte 0 (by decide) (halone _)).1 (by decide)
    rw [show splitImage[120 + 0]? = some 0xaa by decide +kernel] at h
    exact (Option.some.inj h).symm
  · have h := (hbyte 1 (by decide) (halone _)).1 (by decide)
    rw [show splitImage[120 + 1]? = some 0xbb by decide +kernel] at h
    exact (Option.some.inj h).symm

end Elf
end Xernel
