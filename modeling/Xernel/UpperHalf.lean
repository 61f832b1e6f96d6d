import Xernel.Image

/-!
# The loader and the upper half (`elf.rs`, `arch/x86_64/vspace.rs`)

`map_user` is written for addresses of the lower half, which every address space has to itself. `load`
passes it the pages that the program headers name, wherever they are: there is no comparison with
`USER_ADDR_MAX`. What keeps a page of the upper half from being mapped is only that the load fails
before its turn comes, or that it cannot be mapped.
-/

namespace Xernel

namespace Elf

variable {image : List UInt8} {m m' : Mm} {space page : ℕ} {info : PageInfo}
  {pages low high rest : List (ℕ × PageInfo)}

/-! ## What pass 2 asks of the mapper -/

/-- The addresses that pass 2 hands to the mapper. -/
def mapperCalls (space : ℕ) : List (ℕ × PageInfo) → Mm → List ℕ
  | [], _ => []
  | (page, info) :: rest, m =>
    match m.frameAlloc with
    | (none, _) => []
    | (some phys, m) =>
      page ::
        match (m.zero phys frameSize).mapUser space page phys info.writable info.executable with
        | (.done, m) => mapperCalls space rest m
        | _ => []

/-- The addresses that `load` hands to the mapper. -/
def loadCalls (m : Mm) (image : List UInt8) (space : ℕ) : List ℕ :=
  match plan image with
  | .ok p => mapperCalls space p.pages m
  | .error _ => []

/-- The first page is passed on if there is a frame for it, the others if it was mapped. -/
lemma mapperCalls_cons (space page : ℕ) (info : PageInfo) (rest : List (ℕ × PageInfo)) (m : Mm) :
    mapperCalls space ((page, info) :: rest) m =
      if m.frames.available = 0 then []
      else page :: if (m.allocMapUser space page info.writable info.executable).1 = .done then
          mapperCalls space rest (m.allocMapUser space page info.writable info.executable).2
        else [] := by
  rw [mapperCalls]
  cases hr : m.allocMapUser space page info.writable info.executable with
  | mk o m₂ =>
    unfold Mm.allocMapUser at hr
    cases ha : m.frameAlloc with
    | mk got m₁ =>
      rw [ha] at hr
      cases got with
      | none => rw [if_pos (Mm.frameAlloc_none ha).1]
      | some phys =>
        have havail := (Mm.frameAlloc_some ha).available
        dsimp only at hr ⊢
        rw [if_neg (by omega), hr]
        cases o <;> rfl

/-- The addresses are those of the pages. -/
lemma mem_mapperCalls {va : ℕ} (h : va ∈ mapperCalls space pages m) :
    va ∈ pages.map Prod.fst := by
  induction pages generalizing m with
  | nil => cases h
  | cons pg rest ih =>
    obtain ⟨page, info⟩ := pg
    rw [mapperCalls_cons] at h
    split at h
    · cases h
    · rw [List.map_cons, List.mem_cons]
      rcases List.mem_cons.mp h with rfl | h
      · exact .inl rfl
      · split at h
        · exact .inr (ih h)
        · cases h

/-- Pass 2 leaves all other pages alone. -/
lemma mapPages_other {l p : ℕ} (h : ∀ pg ∈ pages, p ≠ pg.1 / frameSize) :
    (mapPages space pages m).2.pt.leaf l p = m.pt.leaf l p := by
  induction pages generalizing m with
  | nil => rfl
  | cons pg rest ih =>
    obtain ⟨page, info⟩ := pg
    obtain ⟨hne, hrest⟩ := List.forall_mem_cons.mp h
    have hfirst : (m.allocMapUser space page info.writable info.executable).2.pt.leaf l p =
        m.pt.leaf l p := (m.allocMapUser_atMost space page info.writable info.executable).of_ne hne
    by_cases hdone : (m.allocMapUser space page info.writable info.executable).1 = .done
    · rw [(mapPages_done rest hdone).1, ih hrest, hfirst]
    · rw [(mapPages_not_done rest hdone).1, hfirst]

/-- Pass 2 on one list after the other. -/
lemma mapPages_append (space : ℕ) (low high : List (ℕ × PageInfo)) (m : Mm) :
    (¬ (∃ frames, (mapPages space low m).1 = .ok frames) ∧
      (mapPages space (low ++ high) m).2 = (mapPages space low m).2 ∧
      mapperCalls space (low ++ high) m = mapperCalls space low m) ∨
    ((∃ frames, (mapPages space low m).1 = .ok frames) ∧
      (mapPages space (low ++ high) m).2 = (mapPages space high (mapPages space low m).2).2 ∧
      mapperCalls space (low ++ high) m =
        mapperCalls space low m ++ mapperCalls space high (mapPages space low m).2) := by
  induction low generalizing m with
  | nil => exact .inr ⟨⟨[], rfl⟩, rfl, rfl⟩
  | cons pg rest ih =>
    obtain ⟨page, info⟩ := pg
    rw [List.cons_append, mapperCalls_cons, mapperCalls_cons]
    by_cases hdone : (m.allocMapUser space page info.writable info.executable).1 = .done
    · obtain ⟨hstate, hok, -⟩ := mapPages_done rest hdone
      obtain ⟨hstate', -, -⟩ := mapPages_done (rest ++ high) hdone
      have hframe : m.frames.available ≠ 0 := by
        rcases m.allocMapUser_cases space page info.writable info.executable with
          ⟨-, e, he⟩ | ⟨hframe, -⟩ | ⟨hframe, -⟩
        · rw [hdone] at he
          cases he
        · exact hframe
        · exact hframe
      rw [hok, hstate, hstate', if_neg hframe, if_neg hframe, if_pos hdone, if_pos hdone]
      rcases ih (m.allocMapUser space page info.writable info.executable).2 with
        ⟨hnot, hmm, hcalls⟩ | ⟨hall, hmm, hcalls⟩
      · exact .inl ⟨hnot, hmm, by rw [hcalls]⟩
      · exact .inr ⟨hall, hmm, by rw [hcalls, List.cons_append]⟩
    · obtain ⟨hstate, hok, -⟩ := mapPages_not_done rest hdone
      obtain ⟨hstate', -, -⟩ := mapPages_not_done (rest ++ high) hdone
      rw [if_neg hdone, if_neg hdone]
      exact .inl ⟨hok, hstate'.trans hstate.symm, rfl⟩

/-! ## Both halves -/

/-- Pass 2 over pages of the upper half gets none of them mapped, and passes on no address that is not
canonical, exactly if there is no frame left, or the first page is canonical and cannot be mapped. -/
lemma mapPages_upper_iff (hsorted : (((page, info) :: rest).map Prod.fst).Pairwise (· < ·))
    (haligned : ∀ pg ∈ (page, info) :: rest, frameSize ∣ pg.1)
    (hupper : lowerHalfPages ≤ page / frameSize) :
    ((∀ l p, lowerHalfPages ≤ p →
        (mapPages space ((page, info) :: rest) m).2.pt.leaf l p = m.pt.leaf l p) ∧
      ∀ va ∈ mapperCalls space ((page, info) :: rest) m, Mm.canonical va = true) ↔
    ¬ (m.frames.available ≠ 0 ∧ (Mm.canonical page = true →
      m.pt.leaf space (page / frameSize) = none ∧
        1 + m.pt.kernel.missing [3, 2, 1] {page / frameSize} ≤ m.frames.available)) := by
  rw [mapperCalls_cons]
  by_cases hdone : (m.allocMapUser space page info.writable info.executable).1 = .done
  · -- the page is mapped, and stays so
    have hcan := (allocMapUser_canonical m space page info.writable info.executable).2 hdone
    obtain ⟨hempty, hframes⟩ := (Mm.allocMapUser_done_iff hcan).mp hdone
    rw [Mm.tree_of_upper hupper] at hframes
    refine iff_of_false (fun h => ?_) (not_not.mpr ⟨by omega, fun _ => ⟨hempty, hframes⟩⟩)
    obtain ⟨phys, hleaf⟩ := Mm.allocMapUser_done (Prod.ext hdone rfl)
    have hsame := h.1 space (page / frameSize) hupper
    rw [(mapPages_done rest hdone).1, mapPages_other, hempty] at hsame
    · rw [hsame] at hleaf
      cases hleaf
    · intro pg hpg heq
      rw [List.map_cons, List.pairwise_cons] at hsorted
      have hlt := hsorted.1 pg.1 (List.mem_map_of_mem hpg)
      have hdvd : frameSize ∣ page := haligned _ List.mem_cons_self
      have hdvd' := haligned pg (List.mem_cons_of_mem _ hpg)
      rw [← Nat.div_mul_cancel hdvd, ← Nat.div_mul_cancel hdvd', heq] at hlt
      exact Nat.lt_irrefl _ hlt
  · rw [(mapPages_not_done rest hdone).1, Mm.allocMapUser_not_done hdone, if_neg hdone]
    have hiff := @Mm.allocMapUser_done_iff m space page info.writable info.executable
    rw [Mm.tree_of_upper hupper] at hiff
    by_cases hzero : m.frames.available = 0
    · rw [if_pos hzero]
      exact iff_of_true ⟨fun _ _ _ => rfl, by simp⟩ fun h => h.1 hzero
    · rw [if_neg hzero]
      cases hcan : Mm.canonical page with
      | false =>
        refine iff_of_false (fun h => ?_) (not_not.mpr ⟨hzero, fun h => by cases h⟩)
        have hpage := h.2 page List.mem_cons_self
        rw [hcan] at hpage
        cases hpage
      | true =>
        refine iff_of_true ⟨fun _ _ _ => rfl, ?_⟩ fun h => hdone ((hiff hcan).mpr (h.2 rfl))
        simp [hcan]

/-- The numbers of the pages that the segments of the image cover. -/
def coveredPages (image : List UInt8) : Finset ℕ :=
  (loadSegments image).toFinset.biUnion fun seg =>
    Finset.Ico (seg.vaddr / frameSize) (pagesFor (seg.vaddr + seg.memsz))

/-- Those in the lower half. -/
def lowPages (image : List UInt8) : Finset ℕ := (coveredPages image).filter (· < lowerHalfPages)

lemma mem_coveredPages {p : ℕ} : p ∈ coveredPages image ↔ Covered image (p * frameSize) := by
  unfold coveredPages Covered Segment.Covers
  rw [Finset.mem_biUnion]
  simp only [List.mem_toFinset, Finset.mem_Ico]
  refine exists_congr fun seg => and_congr_right fun _ => ?_
  rw [← pagesFor_mul, Nat.mul_lt_mul_right frameSize_pos, and_iff_right (Nat.dvd_mul_left _ _)]
  unfold pageDown
  rw [Nat.mul_le_mul_right_iff frameSize_pos]

/-- What `load` asks for is what the segments cover. -/
lemma mem_coveredPages_of_plan {p : Plan} (hplan : plan image = .ok p) {n : ℕ} :
    n ∈ coveredPages image ↔ ∃ pg ∈ p.pages, pg.1 / frameSize = n := by
  have htouched := plan_touched hplan
  rw [mem_coveredPages, htouched.covered, List.mem_map]
  constructor
  · rintro ⟨pg, hpg, heq⟩
    exact ⟨pg, hpg, by rw [heq, Nat.mul_div_cancel _ frameSize_pos]⟩
  · rintro ⟨pg, hpg, rfl⟩
    have hdvd := plan_aligned hplan pg.1 (List.mem_map_of_mem hpg)
    exact ⟨pg, hpg, (Nat.div_mul_cancel hdvd).symm⟩

/-- The plan of an image has the pages of the lower half first, and then the others. -/
structure Halves (image : List UInt8) (p : Plan) (low high : List (ℕ × PageInfo)) : Prop where
  plan : plan image = .ok p
  pages : p.pages = low ++ high
  low : ∀ pg ∈ low, pg.1 / frameSize < lowerHalfPages
  high : ∀ pg ∈ high, lowerHalfPages ≤ pg.1 / frameSize

lemma exists_halves {p : Plan} (hplan : plan image = .ok p) : ∃ low high, Halves image p low high := by
  have hsplit : ∀ pages : List (ℕ × PageInfo), (pages.map Prod.fst).Pairwise (· < ·) →
      ∃ low high, pages = low ++ high ∧ (∀ pg ∈ low, pg.1 / frameSize < lowerHalfPages) ∧
        ∀ pg ∈ high, lowerHalfPages ≤ pg.1 / frameSize := by
    intro pages hsorted
    induction pages with
    | nil => exact ⟨[], [], rfl, by simp, by simp⟩
    | cons pg rest ih =>
      rw [List.map_cons, List.pairwise_cons] at hsorted
      by_cases hlow : pg.1 / frameSize < lowerHalfPages
      · obtain ⟨low, high, rfl, hl, hh⟩ := ih hsorted.2
        exact ⟨pg :: low, high, rfl, List.forall_mem_cons.mpr ⟨hlow, hl⟩, hh⟩
      · refine ⟨[], pg :: rest, rfl, by simp,
          List.forall_mem_cons.mpr ⟨by omega, fun q hq => ?_⟩⟩
        have hlt := hsorted.1 q.1 (List.mem_map_of_mem hq)
        have hle : pg.1 / frameSize ≤ q.1 / frameSize := Nat.div_le_div_right hlt.le
        omega
  obtain ⟨low, high, heq, hl, hh⟩ := hsplit p.pages (plan_touched hplan).sorted
  exact ⟨low, high, hplan, heq, hl, hh⟩

namespace Halves

variable {p : Plan}

lemma sorted (h : Halves image p low high) : (low.map Prod.fst).Pairwise (· < ·) ∧
    (high.map Prod.fst).Pairwise (· < ·) := by
  have hsorted := (plan_touched h.plan).sorted
  rw [h.pages, List.map_append, List.pairwise_append] at hsorted
  exact ⟨hsorted.1, hsorted.2.1⟩

lemma aligned (h : Halves image p low high) : (∀ q ∈ low.map Prod.fst, frameSize ∣ q) ∧
    ∀ pg ∈ high, frameSize ∣ pg.1 := by
  have haligned := plan_aligned h.plan
  rw [h.pages, List.map_append, List.forall_mem_append] at haligned
  exact ⟨haligned.1, fun pg hpg => haligned.2 pg.1 (List.mem_map_of_mem hpg)⟩

lemma mem_coveredPages (h : Halves image p low high) {n : ℕ} :
    n ∈ coveredPages image ↔
      (∃ pg ∈ low, pg.1 / frameSize = n) ∨ ∃ pg ∈ high, pg.1 / frameSize = n := by
  rw [mem_coveredPages_of_plan h.plan, h.pages]
  simp only [List.mem_append, or_and_right, exists_or]

/-- The pages of the first part are those of the lower half. -/
lemma pageNumbers_low (h : Halves image p low high) : pageNumbers low = lowPages image := by
  ext n
  unfold pageNumbers lowPages
  rw [List.mem_toFinset, List.mem_map, Finset.mem_filter, h.mem_coveredPages]
  constructor
  · rintro ⟨pg, hpg, rfl⟩
    exact ⟨.inl ⟨pg, hpg, rfl⟩, h.low pg hpg⟩
  · rintro ⟨hlow | ⟨pg, hpg, rfl⟩, hlt⟩
    · exact hlow
    · exact absurd (h.high pg hpg) (Nat.not_le.mpr hlt)

/-- The first page of the second part is the first page outside the lower half. -/
lemma first (h : Halves image p low ((page, info) :: rest)) {q : ℕ} (hq : q ∈ coveredPages image)
    (hupper : lowerHalfPages ≤ q) : page / frameSize ≤ q := by
  rcases h.mem_coveredPages.mp hq with ⟨pg, hpg, rfl⟩ | ⟨pg, hpg, rfl⟩
  · exact absurd (h.low pg hpg) (Nat.not_lt.mpr hupper)
  · rcases List.mem_cons.mp hpg with rfl | hpg
    · exact le_rfl
    · have hsorted := h.sorted.2
      rw [List.map_cons, List.pairwise_cons] at hsorted
      have hlt := hsorted.1 pg.1 (List.mem_map_of_mem hpg)
      exact Nat.div_le_div_right hlt.le

end Halves

/-! ## The whole load -/

/-- What `load` maps is below `USER_ADDR_MAX`, and the mapper is given no address that is not
canonical. -/
structure StaysInUserSpace (m : Mm) (image : List UInt8) (space : ℕ) : Prop where
  mapped : ∀ l p, (load m image space).2.pt.leaf l p ≠ m.pt.leaf l p →
    (p + 1) * frameSize ≤ userAddrMax
  passed : ∀ va ∈ loadCalls m image space, Mm.canonical va = true

/-- Page `p` is the first covered page outside the lower half, and `load` gets to the mapper with it:
the pages before it can be mapped and leave a frame over. If it is canonical it can be mapped as
well. -/
structure Escapes (m : Mm) (space : ℕ) (image : List UInt8) (p : ℕ) : Prop where
  wellFormed : WellFormed image
  covered : p ∈ coveredPages image
  upper : lowerHalfPages ≤ p
  first : ∀ q ∈ coveredPages image, lowerHalfPages ≤ q → p ≤ q
  empty : ∀ q ∈ lowPages image, m.pt.leaf space q = none
  frame : m.need space 1 (lowPages image) < m.frames.available
  maps : Mm.canonical (p * frameSize) = true → m.pt.leaf space p = none ∧
    m.need space 1 (lowPages image) + 1 + m.pt.kernel.missing [3, 2, 1] {p} ≤ m.frames.available

/-- Pass 3 changes bytes only. -/
lemma load_pt {p : Plan} (hplan : plan image = .ok p) :
    (load m image space).2.pt = (mapPages space p.pages m).2.pt := by
  unfold load
  rw [hplan]
  dsimp only
  cases mapPages space p.pages m with
  | mk res m₁ =>
    cases res with
    | error => rfl
    | ok frames =>
      obtain ⟨mem, hmem⟩ := copySegments_eq image frames p.segments m₁
      have hpt := congrArg Mm.pt hmem
      dsimp only at hpt ⊢
      rw [← hpt]
      cases copySegments image frames p.segments m₁ with
      | mk res m₂ => cases res <;> rfl

/-- Pages of the lower half are mapped without touching the upper half. -/
lemma mapPages_kernel (hlow : ∀ pg ∈ pages, pg.1 / frameSize < lowerHalfPages) :
    (mapPages space pages m).2.pt.kernel = m.pt.kernel := by
  have hbuilds : Mm.Builds ⟨{some space}, {some space}, ∅⟩ m ∅ (mapPages space pages m).2 ∅ :=
    mapPages_builds ⟨rfl, rfl, .inr fun pg hpg hup => absurd (hlow pg hpg) (Nat.not_lt.mpr hup)⟩
  have hnone : none ∉ ({some space} : Set (Option ℕ)) := by simp
  have hsame := hbuilds.same hnone
  exact hsame

lemma mapped_iff {pt : PageTables} :
    (∀ l p, pt.leaf l p ≠ m.pt.leaf l p → (p + 1) * frameSize ≤ userAddrMax) ↔
      ∀ l p, lowerHalfPages ≤ p → pt.leaf l p = m.pt.leaf l p := by
  have hiff : ∀ p, (p + 1) * frameSize ≤ userAddrMax ↔ p < lowerHalfPages := by
    intro p
    simp only [frameSize, userAddrMax, lowerHalfPages]
    omega
  constructor
  · intro h l p hp
    by_contra hne
    have hlt := (hiff p).mp (h l p hne)
    omega
  · intro h l p hne
    rw [hiff]
    by_contra hp
    exact hne (h l p (by omega))

lemma stays_iff {p : Plan} (hplan : plan image = .ok p) : StaysInUserSpace m image space ↔
    (∀ l n, lowerHalfPages ≤ n →
      (mapPages space p.pages m).2.pt.leaf l n = m.pt.leaf l n) ∧
    ∀ va ∈ mapperCalls space p.pages m, Mm.canonical va = true := by
  have hcalls : loadCalls m image space = mapperCalls space p.pages m := by
    unfold loadCalls
    rw [hplan]
  rw [← hcalls, ← load_pt hplan, ← mapped_iff]
  exact ⟨fun h => ⟨h.mapped, h.passed⟩, fun h => ⟨h.1, h.2⟩⟩

/-- The page that escapes can only be the first one of the second part. -/
lemma exists_escapes_iff {p : Plan} (h : Halves image p low ((page, info) :: rest))
    (hwf : WellFormed image) : (∃ n, Escapes m space image n) ↔
      (∀ q ∈ lowPages image, m.pt.leaf space q = none) ∧
      m.need space 1 (lowPages image) < m.frames.available ∧
      (Mm.canonical page = true → m.pt.leaf space (page / frameSize) = none ∧
        m.need space 1 (lowPages image) + 1 + m.pt.kernel.missing [3, 2, 1] {page / frameSize} ≤
          m.frames.available) := by
  have hpage : page / frameSize * frameSize = page :=
    Nat.div_mul_cancel (h.aligned.2 _ List.mem_cons_self)
  have hcovered : page / frameSize ∈ coveredPages image :=
    h.mem_coveredPages.mpr (.inr ⟨_, List.mem_cons_self, rfl⟩)
  have hupper : lowerHalfPages ≤ page / frameSize := h.high _ List.mem_cons_self
  constructor
  · rintro ⟨n, hn⟩
    obtain rfl : n = page / frameSize :=
      Nat.le_antisymm (hn.first _ hcovered hupper) (h.first hn.covered hn.upper)
    have hmaps := hn.maps
    rw [hpage] at hmaps
    exact ⟨hn.empty, hn.frame, hmaps⟩
  · rintro ⟨hempty, hframe, hmaps⟩
    refine ⟨page / frameSize, hwf, hcovered, hupper, fun q => h.first, hempty, hframe, ?_⟩
    rw [hpage]
    exact hmaps

/-- `load` stays in user space exactly if it gets no page outside the lower half to the mapper that is
not canonical or can be mapped. -/
theorem load_staysInUserSpace_iff (image : Image) (m : Mm) (space : ℕ) :
    StaysInUserSpace m image.bytes space ↔ ¬ ∃ p, Escapes m space image.bytes p := by
  obtain ⟨hwf, -⟩ := plan_iff image.length_le
  cases hplan : plan image.bytes with
  | error e =>
    have hload : (load m image.bytes space).2 = m := by
      unfold load
      rw [hplan]
    have hcalls : loadCalls m image.bytes space = [] := by
      unfold loadCalls
      rw [hplan]
    refine iff_of_true ⟨fun l p hne => ?_, ?_⟩ ?_
    · rw [hload] at hne
      exact absurd rfl hne
    · rw [hcalls]
      simp
    · rintro ⟨p, hp⟩
      obtain ⟨q, hq⟩ := hwf.mpr hp.wellFormed
      rw [hplan] at hq
      cases hq
  | ok p =>
    have hwell := hwf.mp ⟨p, hplan⟩
    obtain ⟨low, high, hhalves⟩ := exists_halves hplan
    have hattempts :=
      mapPages_attempts hhalves.sorted.1 hhalves.aligned.1 hhalves.low space m
    rw [hhalves.pageNumbers_low] at hattempts
    rw [stays_iff hplan, hhalves.pages]
    -- nothing is wrong with the pages of the lower half
    have hsame : ∀ l n, lowerHalfPages ≤ n →
        (mapPages space low m).2.pt.leaf l n = m.pt.leaf l n := fun l n hn =>
      mapPages_other fun pg hpg heq => by
        have hlt := hhalves.low pg hpg
        omega
    have hcan : ∀ va ∈ mapperCalls space low m, Mm.canonical va = true := by
      intro va hva
      obtain ⟨pg, hpg, rfl⟩ := List.mem_map.mp (mem_mapperCalls hva)
      have hlt := hhalves.low pg hpg
      refine Mm.canonical_of_lt ?_
      simp only [frameSize, lowerHalfPages] at hlt
      omega
    rcases mapPages_append space low high m with ⟨hnot, hstate, hlog⟩ | ⟨hok, hstate, hlog⟩
    · -- one of them cannot be mapped
      rw [hstate, hlog]
      refine iff_of_true ⟨hsame, hcan⟩ ?_
      rintro ⟨n, hn⟩
      exact hnot (hattempts.iff.mpr ⟨hn.empty, hn.frame.le⟩)
    · have havail := (hattempts.fills hok).takes.available
      rw [hstate, hlog]
      cases high with
      | nil =>
        rw [mapPages, mapperCalls, List.append_nil]
        refine iff_of_true ⟨hsame, hcan⟩ ?_
        rintro ⟨n, hn⟩
        rcases hhalves.mem_coveredPages.mp hn.covered with ⟨pg, hpg, rfl⟩ | ⟨pg, hpg, -⟩
        · exact absurd (hhalves.low pg hpg) (Nat.not_lt.mpr hn.upper)
        · cases hpg
      | cons pg rest =>
        obtain ⟨page, info⟩ := pg
        have hupper : lowerHalfPages ≤ page / frameSize := hhalves.high _ List.mem_cons_self
        have hiff := @mapPages_upper_iff (mapPages space low m).2 space page info rest
          hhalves.sorted.2 hhalves.aligned.2 hupper
        rw [mapPages_kernel hhalves.low, hsame _ _ hupper] at hiff
        rw [exists_escapes_iff hhalves hwell, and_iff_right (hattempts.empty hok),
          List.forall_mem_append, and_iff_right hcan]
        refine Iff.trans ?_ (hiff.trans (not_congr ?_))
        · refine and_congr_left fun _ => forall₃_congr fun l n hn => ?_
          rw [hsame l n hn]
        · refine and_congr (by omega) (forall_congr' fun _ => and_congr_right fun _ => ?_)
          omega

/-- An image with one writable segment of a single byte. -/
def segmentImage (vaddr : ℕ) : List UInt8 :=
  [0x7f, 0x45, 0x4c, 0x46, 2, 1, 1, 0] ++ List.replicate 16 0 ++ leBytes 8 vaddr ++
    leBytes 8 64 ++ List.replicate 14 0 ++ leBytes 2 56 ++ leBytes 2 1 ++ List.replicate 6 0 ++
    leBytes 4 ptLoad ++ leBytes 4 pfW ++ leBytes 8 0 ++ leBytes 8 vaddr ++ leBytes 8 0 ++
    leBytes 8 0 ++ leBytes 8 1 ++ leBytes 8 0

/-- A segment at the start of the upper half is loaded there, for user space to write; one behind the
end of the lower half gets the mapper an address that is not canonical. -/
theorem not_load_staysInUserSpace :
    ((segmentImage (2 ^ 64 - 2 ^ 47)).length ≤ isizeMax ∧
      (load (initMm smallPlatform) (segmentImage (2 ^ 64 - 2 ^ 47)) 0).1 =
        .ok (2 ^ 64 - 2 ^ 47) ∧
      ((load (initMm smallPlatform) (segmentImage (2 ^ 64 - 2 ^ 47)) 0).2.pt.leaf 0
        (2 ^ 52 - 2 ^ 35)).map Leaf.flags = some (Mm.userFlags true false) ∧
      ¬ StaysInUserSpace (initMm smallPlatform) (segmentImage (2 ^ 64 - 2 ^ 47)) 0) ∧
    (segmentImage (2 ^ 47)).length ≤ isizeMax ∧
      loadCalls (initMm smallPlatform) (segmentImage (2 ^ 47)) 0 = [2 ^ 47] ∧
      ¬ StaysInUserSpace (initMm smallPlatform) (segmentImage (2 ^ 47)) 0 := by
  constructor
  · have hleaf : ((load (initMm smallPlatform) (segmentImage (2 ^ 64 - 2 ^ 47)) 0).2.pt.leaf 0
        (2 ^ 52 - 2 ^ 35)).map Leaf.flags = some (Mm.userFlags true false) := by decide +kernel
    have hnone : (initMm smallPlatform).pt.leaf 0 (2 ^ 52 - 2 ^ 35) = none := by decide +kernel
    have hne : (load (initMm smallPlatform) (segmentImage (2 ^ 64 - 2 ^ 47)) 0).2.pt.leaf 0
        (2 ^ 52 - 2 ^ 35) ≠ (initMm smallPlatform).pt.leaf 0 (2 ^ 52 - 2 ^ 35) := by
      rw [hnone]
      intro heq
      rw [heq] at hleaf
      cases hleaf
    refine ⟨by decide +kernel, by decide +kernel, hleaf, fun h => ?_⟩
    have hbound := h.mapped 0 (2 ^ 52 - 2 ^ 35) hne
    revert hbound
    decide
  · have hcalls : loadCalls (initMm smallPlatform) (segmentImage (2 ^ 47)) 0 = [2 ^ 47] := by
      decide +kernel
    have hmem : 2 ^ 47 ∈ loadCalls (initMm smallPlatform) (segmentImage (2 ^ 47)) 0 := by
      rw [hcalls]
      exact List.mem_singleton_self _
    refine ⟨by decide +kernel, hcalls, fun h => ?_⟩
    have hcan := h.passed (2 ^ 47) hmem
    revert hcan
    decide

end Elf
end Xernel
