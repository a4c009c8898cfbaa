import SourceDoc.Proofs.Page.Name
import SourceDoc.Proofs.Run.Pages

/-!
# The readings of the clock in a run

The pages of a format read the clock once for each document, then once for each page about all documents if there is a
page at all.  So a format begins at a reading that the formats before it settle (`readingStarts`), and a run has its
pages exactly if no reading for a page about all documents fails (`renderFormats_cases`).
-/

namespace SourceDoc

namespace Clock

/-- The clock after some more readings. -/
def skip (c : Clock) (n : Nat) : Clock := { c with count := c.count + n }

@[simp] theorem reading_skip (c : Clock) (n : Nat) : (c.skip n).reading = c.reading := rfl

@[simp] theorem count_skip (c : Clock) (n : Nat) : (c.skip n).count = c.count + n := rfl

@[simp] theorem skip_zero (c : Clock) : c.skip 0 = c := rfl

theorem skip_skip (c : Clock) (m n : Nat) : (c.skip m).skip n = c.skip (m + n) := by
  simp only [skip, Nat.add_assoc]

theorem read_eq (c : Clock) : c.read = (c.reading (c.count + 1), c.skip 1) := rfl

end Clock

/-! ## When a format reads the clock -/

/-- Some of the `n` documents of a format has a page: one of the readings from `start` on shows the time. -/
def HasPage (reading : Nat → Option Text) (n start : Nat) : Prop := ∃ i < n, (reading (start + i + 1)).isSome

instance (reading : Nat → Option Text) (n start : Nat) : Decidable (HasPage reading n start) := by
  unfold HasPage
  infer_instance

/-- How often the pages about all documents read the clock. -/
def Format.furtherReadings (f : Format) (isCombined : Bool) (reading : Nat → Option Text) (n start : Nat) : Nat :=
  if HasPage reading n start then (f.reserved isCombined).length else 0

theorem Format.length_reserved (f : Format) (isCombined : Bool) :
    (f.reserved isCombined).length = if isCombined && f = .json then 2 else 1 := by
  cases f <;> cases isCombined <;> rfl

/-- The formats that have pages, each with the number of readings before its own. -/
def readingStarts (template? : Option Text) (isCombined : Bool) (reading : Nat → Option Text) (n : Nat) :
    List Format → Nat → List (Format × Nat)
  | [], _ => []
  | f :: rest, start =>
    if Renderer.missing ⟨f, template?⟩ = [] then
      (f, start) :: readingStarts template? isCombined reading n rest
        (start + n + f.furtherReadings isCombined reading n start)
    else readingStarts template? isCombined reading n rest start

/-- The clock shows the time whenever a format writes a page about all documents. -/
def ShowsIndexes (isCombined : Bool) (reading : Nat → Option Text) (n : Nat) (starts : List (Format × Nat)) : Prop :=
  ∀ x ∈ starts, ∀ i < x.1.furtherReadings isCombined reading n x.2, (reading (x.2 + n + i + 1)).isSome

instance (isCombined : Bool) (reading : Nat → Option Text) (n : Nat) (starts : List (Format × Nat)) :
    Decidable (ShowsIndexes isCombined reading n starts) := by
  unfold ShowsIndexes
  infer_instance

namespace Renderer

variable (r : Renderer)

/-- The pages of some documents by the readings from `start` on. -/
def pagesFrom (reading : Nat → Option Text) (start : Nat) (ds : List Document) :
    List (Document × Except RenderError Artifact) :=
  ds.mapIdx fun i d => (d, r.pageAt (reading (start + i + 1)) d)

theorem renderDocument_eq (hm : r.missing = []) (d : Document) (c : Clock) :
    r.renderDocument d c = (r.pageAt (c.reading (c.count + 1)) d, c.skip 1) := by
  unfold renderDocument timed pageAt
  rw [hm, c.read_eq]
  cases c.reading (c.count + 1) <;> rfl

theorem renderEach_eq (hm : r.missing = []) (ds : List Document) (c : Clock) :
    r.renderEach ds c = (r.pagesFrom c.reading c.count ds, c.skip ds.length) := by
  induction ds generalizing c with
  | nil => rfl
  | cons d rest ih =>
    simp only [renderEach, r.renderDocument_eq hm, ih, pagesFrom, List.mapIdx_cons, c.skip_skip, List.length_cons]
    simp [Nat.add_comm, Nat.add_left_comm]

/-- There are documents with pages exactly if a reading for one shows the time. -/
theorem rendered_pagesFrom (reading : Nat → Option Text) (start : Nat) (ds : List Document) (format : Format)
    (extra : List Artifact) :
    Pages.rendered ⟨format, r.pagesFrom reading start ds, extra⟩ ≠ [] ↔ HasPage reading ds.length start := by
  unfold Pages.rendered pagesFrom HasPage
  rw [ne_eq, List.map_eq_nil_iff, List.filter_eq_nil_iff]
  push Not
  constructor
  · rintro ⟨x, hx, hok⟩
    obtain ⟨i, hi, rfl⟩ := List.mem_mapIdx.mp hx
    refine ⟨i, hi, ?_⟩
    cases h : reading (start + i + 1) with
    | some now => rfl
    | none =>
      rw [h] at hok
      cases hok
  · rintro ⟨i, hi, hsome⟩
    refine ⟨_, List.mem_mapIdx.mpr ⟨i, hi, rfl⟩, ?_⟩
    obtain ⟨now, hnow⟩ := Option.isSome_iff_exists.mp hsome
    rw [hnow]
    rfl

/-! ## The pages of a format -/

section

variable (isCombined : Bool) (ds : List Document) (c : Clock)

theorem renderExtra_of_shows (hds : ds ≠ [])
    (h : ∀ i < (r.format.reserved isCombined).length, (c.reading (c.count + i + 1)).isSome) :
    ∃ extra, r.renderExtra isCombined ds c = (.ok extra, c.skip (r.format.reserved isCombined).length) := by
  obtain ⟨now, hnow⟩ := Option.isSome_iff_exists.mp (h 0 (by rw [Format.length_reserved]; split <;> omega))
  unfold renderExtra renderIndex renderCombined timed
  rw [if_neg hds, c.read_eq, hnow]
  by_cases hc : (isCombined && r.format = .json) = true
  · have hlength : (r.format.reserved isCombined).length = 2 := by rw [Format.length_reserved, if_pos hc]
    obtain ⟨later, hlater⟩ := Option.isSome_iff_exists.mp (h 1 (by omega))
    simp only [hc, if_true, Clock.read_eq, Clock.reading_skip, Clock.count_skip, hlater, hlength, c.skip_skip]
    exact ⟨_, rfl⟩
  · have hlength : (r.format.reserved isCombined).length = 1 := by rw [Format.length_reserved, if_neg hc]
    simp only [hc, hlength]
    exact ⟨_, rfl⟩

theorem renderExtra_of_stops (hds : ds ≠ []) (i : Nat) (hi : i < (r.format.reserved isCombined).length)
    (h : c.reading (c.count + i + 1) = none) : (r.renderExtra isCombined ds c).1 = .error .clockStopped := by
  unfold renderExtra renderIndex renderCombined timed
  rw [if_neg hds, c.read_eq]
  cases hnow : c.reading (c.count + 1) with
  | none => rfl
  | some now =>
    by_cases hc : (isCombined && r.format = .json) = true
    · have hlength : (r.format.reserved isCombined).length = 2 := by rw [Format.length_reserved, if_pos hc]
      have hi : i = 1 := by
        rcases Nat.eq_zero_or_pos i with rfl | hpos
        · rw [h] at hnow
          cases hnow
        · omega
      subst hi
      simp only [hc, if_true, Clock.read_eq, Clock.reading_skip, Clock.count_skip, h]
      rfl
    · have hlength : (r.format.reserved isCombined).length = 1 := by rw [Format.length_reserved, if_neg hc]
      have hi : i = 0 := by omega
      subst hi
      rw [h] at hnow
      cases hnow

/-- The further readings are those of pages about documents that have pages. -/
theorem furtherReadings_eq (reading : Nat → Option Text) (start : Nat) :
    r.format.furtherReadings isCombined reading ds.length start =
      if Pages.rendered ⟨r.format, r.pagesFrom reading start ds, []⟩ = [] then 0
      else (r.format.reserved isCombined).length := by
  unfold Format.furtherReadings
  by_cases h : HasPage reading ds.length start
  · rw [if_pos h, if_neg ((r.rendered_pagesFrom reading start ds r.format []).mpr h)]
  · rw [if_neg h, if_pos (not_not.mp fun hne => h ((r.rendered_pagesFrom reading start ds r.format []).mp hne))]

variable (hm : r.missing = [])

include hm

theorem renderFormat_of_shows
    (h : ∀ i < r.format.furtherReadings isCombined c.reading ds.length c.count,
      (c.reading (c.count + ds.length + i + 1)).isSome) :
    ∃ extra, r.renderFormat isCombined ds c =
      (.ok (.pages ⟨r.format, r.pagesFrom c.reading c.count ds, extra⟩),
        c.skip (ds.length + r.format.furtherReadings isCombined c.reading ds.length c.count)) := by
  rw [r.furtherReadings_eq] at h ⊢
  unfold renderFormat
  simp only [hm, r.renderEach_eq hm]
  by_cases hnone : Pages.rendered ⟨r.format, r.pagesFrom c.reading c.count ds, []⟩ = []
  · rw [hnone, if_pos rfl]
    exact ⟨[], rfl⟩
  · rw [if_neg hnone] at h ⊢
    obtain ⟨extra, hextra⟩ := r.renderExtra_of_shows isCombined _ (c.skip ds.length) hnone h
    rw [hextra, c.skip_skip]
    exact ⟨extra, rfl⟩

theorem renderFormat_of_stops (i : Nat)
    (hi : i < r.format.furtherReadings isCombined c.reading ds.length c.count)
    (h : c.reading (c.count + ds.length + i + 1) = none) :
    (r.renderFormat isCombined ds c).1 = .error .clockStopped := by
  rw [r.furtherReadings_eq] at hi
  unfold renderFormat
  simp only [hm, r.renderEach_eq hm]
  by_cases hnone : Pages.rendered ⟨r.format, r.pagesFrom c.reading c.count ds, []⟩ = []
  · rw [if_pos hnone] at hi
    exact absurd hi (Nat.not_lt_zero i)
  · rw [if_neg hnone] at hi
    rw [r.renderExtra_of_stops isCombined _ (c.skip ds.length) hnone i hi h]
    rfl

omit hm in
theorem renderFormat_of_missing (h : r.missing ≠ []) :
    r.renderFormat isCombined ds c = (.ok (.disabled r.format (.missingSlots r.missing)), c) := by
  obtain ⟨slot, slots, hslots⟩ := List.exists_cons_of_ne_nil h
  unfold renderFormat
  rw [hslots]

end

end Renderer

/-! ## The pages of all formats -/

section

variable {template? : Option Text} {isCombined : Bool} {ds : List Document} {f : Format} {c c' : Clock}

theorem renderFormats_of_error {e : RenderError} (rest : List Format)
    (h : (Renderer.renderFormat ⟨f, template?⟩ isCombined ds c).1 = .error e) :
    renderFormats template? isCombined ds (f :: rest) c = .error e := by
  rcases hf : Renderer.renderFormat ⟨f, template?⟩ isCombined ds c with ⟨x, c'⟩
  rw [hf] at h
  obtain rfl : x = .error e := h
  rw [renderFormats, hf]

theorem renderFormats_of_ok {outcome : FormatOutcome} (rest : List Format)
    (h : Renderer.renderFormat ⟨f, template?⟩ isCombined ds c = (.ok outcome, c')) :
    renderFormats template? isCombined ds (f :: rest) c =
      (renderFormats template? isCombined ds rest c').map (outcome :: ·) := by
  rw [renderFormats, h]

theorem showsIndexes_cons {reading : Nat → Option Text} {n start : Nat} {starts : List (Format × Nat)} :
    ShowsIndexes isCombined reading n ((f, start) :: starts) ↔
      (∀ i < f.furtherReadings isCombined reading n start, (reading (start + n + i + 1)).isSome) ∧
        ShowsIndexes isCombined reading n starts :=
  List.forall_mem_cons

end

/-- The pages, of a format that has pages. -/
def FormatOutcome.pages? : FormatOutcome → Option Pages
  | pages p => some p
  | disabled _ _ => none

/-- **The readings of the clock settle the pages:** either it shows the time whenever a format writes a page about all
documents, and every format has the pages of its readings, or there are no pages at all. -/
theorem renderFormats_cases (template? : Option Text) (isCombined : Bool) (ds : List Document) (fs : List Format)
    (c : Clock) (starts : List (Format × Nat))
    (hstarts : starts = readingStarts template? isCombined c.reading ds.length fs c.count) :
    (ShowsIndexes isCombined c.reading ds.length starts ∧
      ∃ outcomes, renderFormats template? isCombined ds fs c = .ok outcomes ∧
        ((outcomes.filterMap FormatOutcome.pages?).map fun p => (p.format, p.pages)) =
          starts.map fun x => (x.1, Renderer.pagesFrom ⟨x.1, template?⟩ c.reading x.2 ds)) ∨
    (¬ ShowsIndexes isCombined c.reading ds.length starts ∧
      renderFormats template? isCombined ds fs c = .error .clockStopped) := by
  induction fs generalizing c starts with
  | nil =>
    subst hstarts
    exact .inl ⟨List.forall_mem_nil _, [], rfl, rfl⟩
  | cons f rest ih =>
    rw [readingStarts] at hstarts
    by_cases hm : Renderer.missing ⟨f, template?⟩ = []
    · rw [if_pos hm] at hstarts
      rw [hstarts, showsIndexes_cons]
      by_cases hshows : ∀ i < f.furtherReadings isCombined c.reading ds.length c.count,
          (c.reading (c.count + ds.length + i + 1)).isSome
      · obtain ⟨extra, hf⟩ := Renderer.renderFormat_of_shows ⟨f, template?⟩ isCombined ds c hm hshows
        have hrest := ih (c.skip (ds.length + f.furtherReadings isCombined c.reading ds.length c.count)) _ rfl
        rw [Clock.count_skip, Clock.reading_skip, ← Nat.add_assoc] at hrest
        rw [renderFormats_of_ok rest hf, and_iff_right hshows]
        rcases hrest with ⟨hall, outcomes, houtcomes, hpages⟩ | ⟨hnot, herror⟩
        · refine .inl ⟨hall, _ :: outcomes, by rw [houtcomes, Except.map], ?_⟩
          rw [List.map_cons, ← hpages]
          rfl
        · exact .inr ⟨hnot, by rw [herror, Except.map]⟩
      · refine .inr ⟨fun h => hshows h.1, ?_⟩
        push Not at hshows
        obtain ⟨i, hi, hnone⟩ := hshows
        exact renderFormats_of_error rest
          (Renderer.renderFormat_of_stops ⟨f, template?⟩ isCombined ds c hm i hi (by simpa using hnone))
    · rw [if_neg hm] at hstarts
      rw [renderFormats_of_ok rest (Renderer.renderFormat_of_missing ⟨f, template?⟩ isCombined ds c hm)]
      rcases ih c starts hstarts with ⟨hall, outcomes, houtcomes, hpages⟩ | ⟨hnot, herror⟩
      · have hnone : FormatOutcome.pages? (.disabled f (.missingSlots (Renderer.missing ⟨f, template?⟩))) = none := rfl
        refine .inl ⟨hall, _ :: outcomes, by rw [houtcomes, Except.map], ?_⟩
        rw [List.filterMap_cons_none hnone, hpages]
      · exact .inr ⟨hnot, by rw [herror, Except.map]⟩

end SourceDoc
