import SourceDoc.Proofs.Page.Name
import SourceDoc.Proofs.Page.Template
import SourceDoc.Proofs.Run.Account
import SourceDoc.Service.Response

/-!
# The pages in a response

A request is answered by a run with one source and all formats.  Where its code is read and prose comes for it, there is
a response (`answer_of_extract`).  Its pages are those of the one document of the run, except for a document whose pages
have names like an index: of these the response has none.

    answer provide clock r = .ok response → response.page f = if r.path names an index then [] else the page of d
                                                                                                    (answer_pages)
-/

namespace SourceDoc.Service

/-- What documents the code of requests. -/
def workshop (provide : Style → Outline → ProseAnswer) (style : Style) : Workshop Unit where
  provide o s := (provide style o, s)

/-- What is asked of the run for a request. -/
def options (clock : Clock) : RunOptions where
  formats := Format.all.map Format.name
  isCombined := false
  clock := clock

theorem requested_options (clock : Clock) : (options clock).requested = Format.all := by
  have hnames : (Format.all.map Format.name).filterMap Format.ofName? = Format.all := by decide
  unfold RunOptions.requested options
  rw [hnames]
  decide

/-- A clock that always shows something. -/
def running (times : Nat → Text) : Clock where
  reading n := some (times n)

theorem answer_eq_ok_iff (provide : Style → Outline → ProseAnswer) (clock : Clock) (r : DocsRequest)
    (response : Response) :
    answer provide clock r = .ok response ↔
      ∃ report notes, (workshop provide r.style).Ran (options clock) [⟨r.path, r.code⟩] () report notes ∧
        responseOf r.format report = .ok response := by
  unfold answer
  cases hrun : ((workshop provide r.style).run (options clock) [⟨r.path, r.code⟩] ()).1 with
  | error e =>
    have hinline := hrun
    unfold workshop options at hinline
    simp only [hinline, reduceCtorEq, false_iff, not_exists, not_and]
    intro report notes hran
    cases hrun.symm.trans ((Workshop.run_eq_ok_iff _ _ _ _ _ _).mpr hran)
  | ok told =>
    obtain ⟨report, notes⟩ := told
    have hinline := hrun
    unfold workshop options at hinline
    simp only [hinline]
    constructor
    · exact fun h => ⟨report, notes, (Workshop.run_eq_ok_iff _ _ _ _ _ _).mp hrun, h⟩
    · rintro ⟨report', notes', hran, h⟩
      cases hrun.symm.trans ((Workshop.run_eq_ok_iff _ _ _ _ _ _).mpr hran)
      exact h

/-! ## The pages of the run -/

/-- The pages of one document in one format. -/
theorem renderFormat_running (f : Format) (times : Nat → Text) (n : Nat) (d : Document) :
    Renderer.renderFormat ⟨f, none⟩ false [d] { running times with count := n } =
      (.ok (.pages ⟨f, [(d, .ok (Renderer.documentAt ⟨f, none⟩ (times (n + 1)) d))],
          [Renderer.indexAt ⟨f, none⟩ (times (n + 2)) [d]]⟩),
        { running times with count := n + 2 }) := by
  unfold Renderer.renderFormat
  simp only [Renderer.missing_none, Renderer.renderEach, Renderer.renderDocument]
  rfl

/-- Every format reads the clock twice. -/
theorem renderFormats_running_cons (f : Format) (rest : List Format) (times : Nat → Text) (n : Nat) (d : Document) :
    renderFormats none false [d] (f :: rest) { running times with count := n } =
      (renderFormats none false [d] rest { running times with count := n + 2 }).map
        (.pages ⟨f, [(d, .ok (Renderer.documentAt ⟨f, none⟩ (times (n + 1)) d))],
          [Renderer.indexAt ⟨f, none⟩ (times (n + 2)) [d]]⟩ :: ·) := by
  rw [renderFormats, renderFormat_running]

/-- The pages of one document in all formats. -/
theorem renderFormats_running (times : Nat → Text) (d : Document) :
    ∃ now later : Format → Text,
      renderFormats none false [d] Format.all (running times) =
        .ok (Format.all.map fun f => .pages ⟨f, [(d, .ok (Renderer.documentAt ⟨f, none⟩ (now f) d))],
          [Renderer.indexAt ⟨f, none⟩ (later f) [d]]⟩) := by
  have hclock : running times = { running times with count := 0 } := rfl
  refine ⟨fun f => times (if f = .markdown then 1 else if f = .html then 3 else 5),
    fun f => times (if f = .markdown then 2 else if f = .html then 4 else 6), ?_⟩
  rw [hclock, Format.all, renderFormats_running_cons, renderFormats_running_cons, renderFormats_running_cons,
    renderFormats]
  rfl

/-! ## The response -/

/-- The page of a response that a list of artifacts gives: that of the document, unless it has a name like an index. -/
theorem documentPage_artifacts (f : Format) (now later : Text) (d : Document) :
    documentPage [Renderer.documentAt ⟨f, none⟩ now d, Renderer.indexAt ⟨f, none⟩ later [d]] =
      if Path.namesIndex d.path then [] else Renderer.documentPage ⟨f, none⟩ now d := by
  have hdocument : Text.startsWith (Renderer.documentAt ⟨f, none⟩ now d).name "index.".toList = Path.namesIndex d.path :=
    startsWith_outputName d.path f
  have hindex : Text.startsWith (Renderer.indexAt ⟨f, none⟩ later [d]).name "index.".toList = true := by
    cases f <;> rfl
  unfold documentPage
  rw [List.filter_cons, List.filter_cons, hdocument, hindex]
  cases Path.namesIndex d.path <;> rfl

/-- The artifacts of one document: in every format its page and an index. -/
def artifactsOf (now later : Format → Text) (d : Document) : List (Format × List Artifact) :=
  Format.all.map fun f => (f, [Renderer.documentAt ⟨f, none⟩ (now f) d, Renderer.indexAt ⟨f, none⟩ (later f) [d]])

/-- The response about one document, with its pages unless they have names like an index. -/
def responseAt (format : Format) (now : Format → Text) (d : Document) : Response where
  format := format
  page f := if Path.namesIndex d.path then [] else Renderer.documentPage ⟨f, none⟩ (now f) d
  functionCount := d.functions.length
  typeCount := d.types.length
  exportCount := d.exports.length
  proseError := d.proseError

theorem responseOf_document {report : Report} {d : Document} (hd : report.documents = [d]) {now later : Format → Text}
    (hartifacts : report.artifacts = artifactsOf now later d) (format : Format) :
    responseOf format report = .ok (responseAt format now d) := by
  have hpage : ∀ f, ((report.artifacts.lookup f).map documentPage).getD [] =
      if Path.namesIndex d.path then [] else Renderer.documentPage ⟨f, none⟩ (now f) d := by
    intro f
    rw [hartifacts, ← documentPage_artifacts f (now f) (later f) d]
    cases f <;> rfl
  unfold responseOf responseAt
  simp only [hd, hpage]

section

variable {provide : Style → Outline → ProseAnswer} {times : Nat → Text} {r : DocsRequest} {report : Report}
  {notes : List Note}

/-- The run has one document if it has any, at the path of the request. -/
theorem documents_of_ran (h : (workshop provide r.style).Ran (options (running times)) [⟨r.path, r.code⟩] () report notes)
    {d : Document} {more : List Document} (hd : report.documents = d :: more) : more = [] ∧ d.path = r.path := by
  have hpaths := (accounts_of_ran h Registry.keepsPaths_builtIn).paths
  rw [hd, List.map_singleton, List.map_cons, List.cons_append, List.perm_singleton] at hpaths
  obtain ⟨hpath, hmore⟩ := List.cons.inj hpaths
  exact ⟨List.map_eq_nil_iff.mp (List.append_eq_nil_iff.mp hmore).1, hpath⟩

theorem artifacts_of_ran (h : (workshop provide r.style).Ran (options (running times)) [⟨r.path, r.code⟩] () report notes)
    {d : Document} (hd : report.documents = [d]) :
    ∃ now later, report.artifacts = artifactsOf now later d := by
  have hformats := h.formats
  obtain ⟨now, later, hpages⟩ := renderFormats_running times d
  rw [hd, requested_options] at hformats
  have heq := Except.ok.inj (hformats.symm.trans hpages)
  refine ⟨now, later, ?_⟩
  rw [Report.artifacts, heq]
  rfl

end

/-- **Code that is read, and for which prose comes, has a response.** -/
theorem answer_of_extract (provide : Style → Outline → ProseAnswer) (times : Nat → Text) (r : DocsRequest) {o : Outline}
    (ho : Registry.builtIn.extract r.path r.code = .ok o) {prose : Prose}
    (hprose : (provide r.style o.normalize).prose = .ok prose) :
    ∃ now d, d.path = r.path ∧ answer provide (running times) r = .ok (responseAt r.format now d) := by
  have houtcome : ((workshop provide r.style).documentAll [⟨r.path, r.code⟩] ()).1.1 =
      [.documented r.path (Document.assemble o.normalize (some prose) none)] := by
    rw [Workshop.documentAll_steady _ (fun o => (provide r.style o).prose) (fun _ _ => rfl)]
    simp only [List.map_singleton, Workshop.outcomeOf]
    rw [show (workshop provide r.style).registry.extract r.path r.code = .ok o from ho]
    simp only [hprose]
    rfl
  have hdocuments : ∀ fs, Report.documents
      ⟨[.documented r.path (Document.assemble o.normalize (some prose) none)], fs⟩ =
        [Document.assemble o.normalize (some prose) none] := fun fs => List.mergeSort_singleton _
  obtain ⟨now, later, hpages⟩ := renderFormats_running times (Document.assemble o.normalize (some prose) none)
  have hran : (workshop provide r.style).Ran (options (running times)) [⟨r.path, r.code⟩] ()
      ⟨[.documented r.path (Document.assemble o.normalize (some prose) none)], _⟩ _ :=
    ⟨by simp, by simp [options, Format.all],
      (by decide : ∀ name ∈ Format.all.map Format.name, (Format.ofName? name).isSome), houtcome.symm,
      by rw [hdocuments, requested_options]; exact hpages, rfl⟩
  obtain ⟨now, later, hartifacts⟩ := artifacts_of_ran hran (hdocuments _)
  refine ⟨now, _, (documents_of_ran hran (hdocuments _)).2, ?_⟩
  exact (answer_eq_ok_iff _ _ _ _).mpr ⟨_, _, hran, responseOf_document (hdocuments _) hartifacts r.format⟩

/-- **The pages of a response are those of the one document of the run,** unless they have names like an index: then there
are none. -/
theorem answer_pages (provide : Style → Outline → ProseAnswer) (times : Nat → Text) (r : DocsRequest)
    (response : Response) (h : answer provide (running times) r = .ok response) :
    ∃ (report : Report) (notes : List Note) (d : Document) (now later : Format → Text),
      ((workshop provide r.style).run (options (running times)) [⟨r.path, r.code⟩] ()).1 = .ok (report, notes) ∧
      report.documents = [d] ∧ d.path = r.path ∧ report.artifacts = artifactsOf now later d ∧
      response.content = response.page r.format ∧
      ∀ f, Renderer.documentPage ⟨f, none⟩ (now f) d ≠ [] ∧
        response.page f = if Path.namesIndex r.path then [] else Renderer.documentPage ⟨f, none⟩ (now f) d := by
  obtain ⟨report, notes, hran, hresponse⟩ := (answer_eq_ok_iff provide (running times) r response).mp h
  obtain ⟨d, hd, hpath⟩ : ∃ d, report.documents = [d] ∧ d.path = r.path := by
    cases hdocuments : report.documents with
    | nil => cases hskipped : report.skipped <;> simp [responseOf, hdocuments, hskipped] at hresponse
    | cons d more =>
      obtain ⟨rfl, hpath⟩ := documents_of_ran hran hdocuments
      exact ⟨d, rfl, hpath⟩
  obtain ⟨now, later, hartifacts⟩ := artifacts_of_ran hran hd
  rw [responseOf_document hd hartifacts r.format] at hresponse
  cases hresponse
  refine ⟨report, notes, d, now, later, (Workshop.run_eq_ok_iff _ _ _ _ _ _).mpr hran, hd, hpath, hartifacts, rfl,
    fun f => ⟨Renderer.documentPage_ne_nil f (now f) d, ?_⟩⟩
  rw [← hpath]
  rfl

/-- A request about a function in a file. -/
def sampleRequest (fileName : String) : DocsRequest where
  code := "def f(): pass".toList
  language := .python
  fileName? := some fileName.toList

theorem answer_pages_sample : ∃ (response : Response) (d : Document) (now : Format → Text),
    answer (fun _ _ => ⟨.ok {}, []⟩) (running fun _ => []) (sampleRequest "lib.py") = .ok response ∧
      ∀ f, response.page f = Renderer.documentPage ⟨f, none⟩ (now f) d := by
  obtain ⟨now, d, -, h⟩ := answer_of_extract (fun _ _ => ⟨.ok {}, []⟩) (fun _ => []) (sampleRequest "lib.py") rfl rfl
  obtain ⟨-, -, d, now, -, -, -, -, -, -, hpages⟩ := answer_pages _ _ _ _ h
  have hname : Path.namesIndex (sampleRequest "lib.py").path = false := by decide
  refine ⟨_, d, now, h, fun f => ?_⟩
  rw [(hpages f).2, hname]
  rfl

/-- A request about a file with the name of an index has no pages in its response. -/
theorem answer_indexSource : ∃ response,
    answer (fun _ _ => ⟨.ok {}, []⟩) (running fun _ => []) (sampleRequest "index.py") = .ok response ∧
      response.content = [] ∧ ∀ f, response.page f = [] := by
  obtain ⟨now, d, hpath, h⟩ :=
    answer_of_extract (fun _ _ => ⟨.ok {}, []⟩) (fun _ => []) (sampleRequest "index.py") rfl rfl
  have hname : Path.namesIndex d.path = true := by
    rw [hpath]
    decide
  have hpages : ∀ f, (responseAt (sampleRequest "index.py").format now d).page f = [] := fun f => if_pos hname
  exact ⟨_, h, hpages _, hpages⟩

end SourceDoc.Service
