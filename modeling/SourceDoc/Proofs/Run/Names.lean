import SourceDoc.Proofs.Page.Name
import SourceDoc.Proofs.Run.Account
import SourceDoc.Proofs.Run.Steady

/-!
# Pages under their names

The pages of a format are named by the base names of the documents and the stems of the pages about all documents
(`FormatOutcome.Fits.names`), and pages of two formats never share a name.  So if the base names of the sources differ,
two pages share a name exactly if the base name of a document is the stem of a page about all documents
(`nodup_names_iff`), and then that page is what stays when the pages are written:

    (w.run o sources s).1 = .ok (r, notes) → … → every page about all documents is written, and
      the page of a document is written unless its base name is reserved           (run_pages_written)
-/

namespace SourceDoc

/-! ## The names of one format -/

namespace Pages

/-- The stems of the pages: the base names of the documents with pages, and those of the further pages. -/
def stems (p : Pages) (isCombined : Bool) : List Text :=
  p.rendered.map (fun d => Path.baseName d.path) ++ if p.rendered = [] then [] else p.format.reserved isCombined

/-- The pages of documents are named by their base names. -/
theorem names_pages {r : Renderer} (pages : List (Document × Except RenderError Artifact))
    (h : ∀ d a, (d, .ok a) ∈ pages → ∃ now, a = r.documentAt now d) :
    (pages.filterMap (·.2.toOption)).map Artifact.name =
      ((pages.filter (·.2.isOk)).map Prod.fst).map fun d => r.format.pageName (Path.baseName d.path) := by
  induction pages with
  | nil => rfl
  | cons x pages ih =>
    have ih := ih fun d a hm => h d a (List.mem_cons_of_mem _ hm)
    obtain ⟨d, page⟩ := x
    cases page with
    | error e => exact ih
    | ok a =>
      obtain ⟨now, rfl⟩ := h d a List.mem_cons_self
      exact congrArg (r.format.pageName (Path.baseName d.path) :: ·) ih

end Pages

theorem Renderer.names_extraAt (r : Renderer) (isCombined : Bool) (now later : Text) (ds : List Document) :
    (r.extraAt isCombined now later ds).map Artifact.name = (r.format.reserved isCombined).map r.format.pageName := by
  obtain ⟨format, template⟩ := r
  cases format <;> cases isCombined <;> rfl

namespace FormatOutcome

/-- The pages that could be written. -/
def artifacts : FormatOutcome → List Artifact
  | pages p => p.artifacts
  | disabled _ _ => []

namespace Fits

variable {r : Renderer} {isCombined : Bool} {ds : List Document} {p : Pages} {outcome : FormatOutcome}

theorem names_extra (h : (FormatOutcome.pages p).Fits r isCombined ds) :
    p.extra.map Artifact.name =
      (if p.rendered = [] then [] else p.format.reserved isCombined).map p.format.pageName := by
  cases h with
  | pages p hmissing hformat hdocuments hpages hextra =>
    rcases hextra with ⟨hnone, hextra⟩ | ⟨hsome, now, later, hextra⟩
    · rw [hextra, if_pos hnone]
      rfl
    · rw [hextra, if_neg hsome, hformat, r.names_extraAt]

theorem names_rendered (h : (FormatOutcome.pages p).Fits r isCombined ds) :
    (p.pages.filterMap (·.2.toOption)).map Artifact.name =
      (p.rendered.map fun d => Path.baseName d.path).map p.format.pageName := by
  cases h with
  | pages p hmissing hformat hdocuments hpages hextra =>
    rw [List.map_map, hformat]
    exact Pages.names_pages p.pages hpages

/-- **Every page is named by its stem and its format.** -/
theorem names (h : (FormatOutcome.pages p).Fits r isCombined ds) :
    p.artifacts.map Artifact.name = (p.stems isCombined).map p.format.pageName := by
  rw [Pages.artifacts, Pages.stems, List.map_append, List.map_append, h.names_extra, h.names_rendered]

theorem exists_stem (h : outcome.Fits r isCombined ds) {a : Artifact} (ha : a ∈ outcome.artifacts) :
    ∃ stem, '/' ∉ stem ∧ a.name = outcome.format.pageName stem := by
  cases outcome with
  | disabled format e => cases ha
  | pages p =>
    have hname : a.name ∈ p.artifacts.map Artifact.name := List.mem_map_of_mem ha
    rw [h.names] at hname
    obtain ⟨stem, hstem, he⟩ := List.mem_map.mp hname
    refine ⟨stem, ?_, he.symm⟩
    rcases List.mem_append.mp hstem with hstem | hstem
    · obtain ⟨d, -, rfl⟩ := List.mem_map.mp hstem
      exact Path.not_mem_baseName d.path
    · split at hstem
      · cases hstem
      · exact p.format.not_mem_reserved isCombined stem hstem

end Fits

end FormatOutcome

/-- Base names of documents are the stems of no other pages. -/
def Pages.IsClear (p : Pages) (isCombined : Bool) : Prop :=
  ∀ d ∈ p.rendered, Path.baseName d.path ∉ p.format.reserved isCombined

/-- **Where base names differ, the pages of a format have names of their own unless a base name is reserved.** -/
theorem FormatOutcome.Fits.nodup_names_iff {r : Renderer} {isCombined : Bool} {ds : List Document} {p : Pages}
    (h : (FormatOutcome.pages p).Fits r isCombined ds) (hbase : (p.rendered.map fun d => Path.baseName d.path).Nodup) :
    (p.artifacts.map Artifact.name).Nodup ↔ p.IsClear isCombined := by
  have hstems : (p.artifacts.map Artifact.name).Nodup ↔ (p.stems isCombined).Nodup := by
    rw [h.names]
    exact List.nodup_map_iff p.format.pageName_injective
  rw [hstems, Pages.stems, List.nodup_append']
  unfold Pages.IsClear
  by_cases hnone : p.rendered = []
  · simp [hnone]
  · rw [if_neg hnone, List.disjoint_left]
    simp [hbase, p.format.nodup_reserved isCombined]

/-! ## The pages that stay in one format -/

namespace FormatOutcome.Fits

variable {r : Renderer} {isCombined : Bool} {ds : List Document} {p : Pages}
  (h : (FormatOutcome.pages p).Fits r isCombined ds)

include h

/-- A page about all documents comes after the pages of the documents. -/
theorem lastNamed_extra {b : Artifact} (hb : b ∈ p.extra) : lastNamed? p.artifacts b.name = some b := by
  have hnodup : (p.extra.map Artifact.name).Nodup := by
    rw [h.names_extra]
    refine List.Nodup.map p.format.pageName_injective ?_
    split
    · exact List.nodup_nil
    · exact p.format.nodup_reserved isCombined
  rw [Pages.artifacts, lastNamed_append, lastNamed_of_nodup hnodup hb]
  rfl

/-- The name of the page of a document, which is one of those that have pages. -/
theorem name_eq {d : Document} {a : Artifact} (ha : (d, .ok a) ∈ p.pages) :
    a.name = p.format.pageName (Path.baseName d.path) ∧ d ∈ p.rendered := by
  refine ⟨?_, List.mem_map.mpr ⟨_, List.mem_filter.mpr ⟨ha, rfl⟩, rfl⟩⟩
  cases h with
  | pages p hmissing hformat hdocuments hpages hextra =>
    obtain ⟨now, rfl⟩ := hpages d a ha
    rw [hformat]
    rfl

/-- The page of a document stays unless its base name is reserved. -/
theorem lastNamed_page (hbase : (p.rendered.map fun d => Path.baseName d.path).Nodup) {d : Document} {a : Artifact}
    (ha : (d, .ok a) ∈ p.pages) (hclear : Path.baseName d.path ∉ p.format.reserved isCombined) :
    lastNamed? p.artifacts a.name = some a := by
  obtain ⟨hname, -⟩ := h.name_eq ha
  have hextra : lastNamed? p.extra a.name = none := by
    refine lastNamed_eq_none fun b hb he => ?_
    have hmem : b.name ∈ p.extra.map Artifact.name := List.mem_map_of_mem hb
    rw [h.names_extra, he, hname] at hmem
    obtain ⟨stem, hstem, hsame⟩ := List.mem_map.mp hmem
    rw [(Format.pageName_inj hsame).1] at hstem
    split at hstem
    · cases hstem
    · exact hclear hstem
  have hnodup : ((p.pages.filterMap (·.2.toOption)).map Artifact.name).Nodup := by
    rw [h.names_rendered]
    exact hbase.map p.format.pageName_injective
  rw [Pages.artifacts, lastNamed_append, hextra, lastNamed_of_nodup hnodup (List.mem_filterMap.mpr ⟨_, ha, rfl⟩)]
  rfl

/-- In the place of a page whose base name is reserved stands a page about all documents. -/
theorem exists_extra {d : Document} {a : Artifact} (ha : (d, .ok a) ∈ p.pages)
    (hreserved : Path.baseName d.path ∈ p.format.reserved isCombined) : ∃ b ∈ p.extra, b.name = a.name := by
  obtain ⟨hname, hd⟩ := h.name_eq ha
  have hmem : a.name ∈ p.extra.map Artifact.name := by
    rw [h.names_extra, if_neg (List.ne_nil_of_mem hd), hname]
    exact List.mem_map_of_mem hreserved
  exact List.mem_map.mp hmem

end FormatOutcome.Fits

/-! ## The names of all formats -/

theorem Report.allArtifacts_eq (r : Report) : r.allArtifacts = r.formats.flatMap FormatOutcome.artifacts := by
  unfold allArtifacts artifacts
  induction r.formats with
  | nil => rfl
  | cons f fs ih =>
    cases f with
    | pages p => exact congrArg (p.artifacts ++ ·) ih
    | disabled format e => exact ih

section

variable {template? : Option Text} {isCombined : Bool} {ds : List Document} {fs : List FormatOutcome}
  (hd : (fs.map FormatOutcome.format).Nodup) (hfit : ∀ f ∈ fs, f.Fits ⟨f.format, template?⟩ isCombined ds)

include hfit

/-- Pages of two formats have two names. -/
theorem names_ne {f g : FormatOutcome} (hf : f ∈ fs) (hg : g ∈ fs) (hne : f.format ≠ g.format) :
    ∀ a ∈ f.artifacts, ∀ b ∈ g.artifacts, a.name ≠ b.name := by
  intro a ha b hb he
  obtain ⟨stem, -, hstem⟩ := (hfit f hf).exists_stem ha
  obtain ⟨stem', -, hstem'⟩ := (hfit g hg).exists_stem hb
  exact hne (Format.pageName_inj (hstem ▸ hstem' ▸ he)).2

include hd

theorem nodup_names_formats :
    ((fs.flatMap FormatOutcome.artifacts).map Artifact.name).Nodup ↔ ∀ f ∈ fs, (f.artifacts.map Artifact.name).Nodup := by
  rw [List.map_flatMap, List.nodup_flatMap]
  refine and_iff_left ?_
  refine (List.pairwise_map.mp hd).imp_of_mem fun {f g} hf hg hne => ?_
  refine List.disjoint_left.mpr fun name hname hname' => ?_
  obtain ⟨a, ha, rfl⟩ := List.mem_map.mp hname
  obtain ⟨b, hb, he⟩ := List.mem_map.mp hname'
  exact names_ne hfit hf hg hne a ha b hb he.symm

/-- The last page with the name of a page of a format is a page of that format. -/
theorem lastNamed_formats {f : FormatOutcome} (hf : f ∈ fs) {a : Artifact} (ha : a ∈ f.artifacts) :
    lastNamed? (fs.flatMap FormatOutcome.artifacts) a.name = lastNamed? f.artifacts a.name := by
  induction fs with
  | nil => cases hf
  | cons g fs ih =>
    rw [List.map_cons, List.nodup_cons] at hd
    have hother : ∀ g' ∈ fs, g'.format ≠ g.format := fun g' hg' he => hd.1 (he ▸ List.mem_map_of_mem hg')
    rw [List.flatMap_cons, lastNamed_append]
    rcases List.mem_cons.mp hf with rfl | hf
    · have hnone : lastNamed? (fs.flatMap FormatOutcome.artifacts) a.name = none := by
        refine lastNamed_eq_none fun b hb => ?_
        obtain ⟨g', hg', hb⟩ := List.mem_flatMap.mp hb
        exact names_ne hfit (List.mem_cons_of_mem _ hg') List.mem_cons_self (hother g' hg') b hb a ha
      rw [hnone]
      rfl
    · have hnone : lastNamed? g.artifacts a.name = none :=
        lastNamed_eq_none (names_ne hfit List.mem_cons_self (List.mem_cons_of_mem _ hf) (hother f hf).symm · · a ha)
      rw [ih hd.2 (fun g hg => hfit g (List.mem_cons_of_mem _ hg)) hf, hnone, Option.or_none]

end

/-! ## The pages of a run -/

section

variable {σ : Type} {w : Workshop σ} {o : RunOptions} {sources : List SourceFile} {s : σ} {r : Report}
  {notes : List Note}

namespace Workshop.Ran

/-- Where the base names of the sources differ, those of the documents with pages do. -/
theorem nodup_baseNames (h : w.Ran o sources s r notes) (hw : w.registry.KeepsPaths)
    (hbase : (sources.map fun f => Path.baseName f.path).Nodup) {p : Pages} (hp : .pages p ∈ r.formats) :
    (p.rendered.map fun d => Path.baseName d.path).Nodup := by
  have hall : ((sources.map SourceFile.path).map Path.baseName).Nodup := by rwa [List.map_map]
  have hdocuments : ((r.documents.map Document.path).map Path.baseName).Nodup := by
    have hpaths := ((accounts_of_ran h hw).paths.map Path.baseName).nodup_iff.mpr hall
    rw [List.map_append] at hpaths
    exact hpaths.of_append_left
  rw [List.map_map] at hdocuments
  have hrendered : p.rendered.Sublist r.documents := by
    cases h.fits _ hp with
    | pages p hmissing hformat hpages => exact hpages ▸ List.filter_sublist.map Prod.fst
  exact (hrendered.map _).nodup hdocuments

/-- Pages are named like files. -/
theorem isFileName (h : w.Ran o sources s r notes) : ∀ a ∈ r.allArtifacts, IsFileName a.name := by
  intro a ha
  rw [r.allArtifacts_eq] at ha
  obtain ⟨f, hf, ha⟩ := List.mem_flatMap.mp ha
  obtain ⟨stem, hstem, hname⟩ := (h.fits f hf).exists_stem ha
  exact hname ▸ Format.isFileName_pageName hstem f.format

/-- **Where base names differ, all pages have names of their own unless a base name is reserved.** -/
theorem nodup_names_iff (h : w.Ran o sources s r notes) (hw : w.registry.KeepsPaths)
    (hbase : (sources.map fun f => Path.baseName f.path).Nodup) :
    (r.allArtifacts.map Artifact.name).Nodup ↔ ∀ p, .pages p ∈ r.formats → p.IsClear o.isCombined := by
  rw [r.allArtifacts_eq, nodup_names_formats h.nodup_format h.fits]
  constructor
  · intro hnodup p hp
    exact ((h.fits _ hp).nodup_names_iff (h.nodup_baseNames hw hbase hp)).mp (hnodup _ hp)
  · intro hclear f hf
    cases f with
    | disabled format e => exact List.nodup_nil
    | pages p => exact ((h.fits _ hf).nodup_names_iff (h.nodup_baseNames hw hbase hf)).mpr (hclear p hf)

theorem lastNamed_eq (h : w.Ran o sources s r notes) {p : Pages} (hp : .pages p ∈ r.formats) {a : Artifact}
    (ha : a ∈ p.artifacts) : lastNamed? r.allArtifacts a.name = lastNamed? p.artifacts a.name := by
  rw [r.allArtifacts_eq]
  exact lastNamed_formats h.nodup_format h.fits hp ha

end Workshop.Ran

end

/-- What some files hold of the pages of a format: all pages about all documents, and the page of every document whose
base name is not reserved.  In the place of another page stands one about all documents. -/
structure Pages.AreKept (p : Pages) (isCombined : Bool) (files : FileTree) (directory : Path) : Prop where
  extra : ∀ b ∈ p.extra, files.Holds directory b
  pages : ∀ d a, (d, .ok a) ∈ p.pages → Path.baseName d.path ∉ p.format.reserved isCombined → files.Holds directory a
  replaced : ∀ d a, (d, .ok a) ∈ p.pages → Path.baseName d.path ∈ p.format.reserved isCombined →
    ∃ b ∈ p.extra, b.name = a.name ∧ files.Holds directory b

/-- **The pages of files with different base names are all written,** except those whose base names are reserved. -/
theorem run_pages_written {σ : Type} (w : Workshop σ) (hw : w.registry.KeepsPaths) (o : RunOptions)
    (sources : List SourceFile) (hbase : (sources.map fun f => Path.baseName f.path).Nodup) (s : σ) (r : Report)
    (notes : List Note) (h : (w.run o sources s).1 = .ok (r, notes)) (files made : FileTree) (current output : Path)
    (hmade : files.makeDirectory (current.join output) output.toText = .ok made)
    (hfree : ∀ a ∈ r.allArtifacts, ∀ es, made.find? ((current.join output).child a.name) ≠ some (.directory es)) :
    ((r.allArtifacts.map Artifact.name).Nodup ↔ ∀ p, .pages p ∈ r.formats → p.IsClear o.isCombined) ∧
      ∃ left : FileTree,
        writeArtifacts files current output r.allArtifacts =
          { files := left, paths := r.allArtifacts.map fun a => (output.child a.name).toText } ∧
        ∀ p, .pages p ∈ r.formats → p.AreKept o.isCombined left (current.join output) := by
  have hran := (w.run_eq_ok_iff o sources s r notes).mp h
  refine ⟨hran.nodup_names_iff hw hbase, ?_⟩
  obtain ⟨left, hwritten, hleft⟩ := writeArtifacts_files hmade hran.isFileName hfree
  refine ⟨left, hwritten, fun p hp => ?_⟩
  have hfits := hran.fits _ hp
  -- the last page with a name in its format is the file with that name
  have hholds : ∀ a ∈ p.artifacts, lastNamed? p.artifacts a.name = some a → left.Holds (current.join output) a := by
    intro a ha hlast
    have hall : a ∈ r.allArtifacts := by
      rw [r.allArtifacts_eq]
      exact List.mem_flatMap.mpr ⟨_, hp, ha⟩
    rw [FileTree.Holds, hleft _ (hran.isFileName a hall), hran.lastNamed_eq hp ha, hlast]
    rfl
  have hextra : ∀ b ∈ p.extra, left.Holds (current.join output) b := fun b hb =>
    hholds b (List.mem_append_right _ hb) (hfits.lastNamed_extra hb)
  refine ⟨hextra, fun d a ha hclear => ?_, fun d a ha hreserved => ?_⟩
  · refine hholds a (List.mem_append_left _ (List.mem_filterMap.mpr ⟨_, ha, rfl⟩)) ?_
    exact hfits.lastNamed_page (hran.nodup_baseNames hw hbase hp) ha hclear
  · obtain ⟨b, hb, hname⟩ := hfits.exists_extra ha hreserved
    exact ⟨b, hb, hname, hextra b hb⟩

namespace Sample

/-- The directory of the pages. -/
def output : Path := ⟨[], ["docs".toList]⟩

end Sample

theorem run_pages_written_sample : (Sample.sources.map fun f => Path.baseName f.path).Nodup ∧
    ∃ (r : Report) (left : FileTree),
      Sample.workshop.Reports Sample.options Sample.sources () r ∧
      writeArtifacts (.directory []) ⟨['/'], []⟩ Sample.output r.allArtifacts =
        { files := left, paths := r.allArtifacts.map fun a => (Sample.output.child a.name).toText } ∧
      ∀ p, .pages p ∈ r.formats → p.AreKept true left ⟨['/'], ["docs".toList]⟩ := by
  have hbase : (Sample.sources.map fun f => Path.baseName f.path).Nodup := by decide
  obtain ⟨notes, hrun⟩ := Sample.workshop.run_steady Sample.prose (fun _ _ => rfl) Sample.options
    (some "now".toList) Sample.options_isSteady Sample.sources (by simp [Sample.sources]) ()
  have hmade : FileTree.makeDirectory (.directory []) ((Path.mk ['/'] []).join Sample.output) Sample.output.toText =
      .ok (.directory [("docs".toList, .directory [])]) := rfl
  obtain ⟨q, hdir⟩ := FileTree.makeDirectory_isDirectoryAt hmade
  have hq : q = ["docs".toList] := (Option.some.inj hdir.1).symm
  obtain ⟨-, left, hwritten, hkept⟩ := run_pages_written Sample.workshop Sample.registry_keepsPaths Sample.options
    Sample.sources hbase () _ notes hrun (.directory []) _ ⟨['/'], []⟩ Sample.output hmade (by
      intro a ha es
      have hname := ((Sample.workshop.run_eq_ok_iff _ _ _ _ _).mp hrun).isFileName a ha
      rw [hdir.find_child hname.ne_points, hq]
      simp [FileTree.at?, Table.get?, FileTree.entries])
  exact ⟨hbase, _, left, ⟨notes, hrun⟩, hwritten, hkept⟩

/-- The index takes the place of the page of a file with its name. -/
theorem run_indexSource : ([⟨"index.txt".toList, []⟩].map fun f : SourceFile => Path.baseName f.path).Nodup ∧
    ∃ r : Report, Sample.workshop.Reports Sample.options [⟨"index.txt".toList, []⟩] () r ∧
      r.allArtifacts.map Artifact.name = ["index.md".toList, "index.md".toList] ∧
      ¬ (r.allArtifacts.map Artifact.name).Nodup := by
  have hrun := Sample.workshop.run_steady Sample.prose (fun _ _ => rfl) Sample.options
    (some "now".toList) Sample.options_isSteady [⟨"index.txt".toList, []⟩] (by simp) ()
  obtain ⟨d, houtcome, hpath⟩ : ∃ d,
      Workshop.outcomeOf Sample.workshop.registry Sample.prose ⟨"index.txt".toList, []⟩ =
        .documented "index.txt".toList d ∧ d.path = "index.txt".toList := ⟨_, rfl, rfl⟩
  have hrequested : Sample.options.requested = [.markdown, .html] := by decide
  have hdocuments : Report.documents ⟨[.documented "index.txt".toList d], []⟩ = [d] := List.mergeSort_singleton _
  refine ⟨by decide, _, hrun, ?_⟩
  rw [Workshop.doneWith_singleton, houtcome, RunOptions.reportAt, RunOptions.formatsAt, hdocuments, hrequested]
  have hnames : (Report.allArtifacts ⟨[.documented "index.txt".toList d],
      [Format.markdown, Format.html].map fun f =>
        Renderer.formatAt ⟨f, Sample.options.template?⟩ Sample.options.isCombined (some "now".toList) [d]⟩).map
          Artifact.name = ["index.md".toList, "index.md".toList] := by
    change [outputName d.path "md".toList, "index.md".toList] = _
    rw [hpath]
    rfl
  exact ⟨hnames, by rw [hnames]; decide⟩

end SourceDoc
