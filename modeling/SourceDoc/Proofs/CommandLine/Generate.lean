import SourceDoc.CommandLine.Session
import SourceDoc.Proofs.Config.Check
import SourceDoc.Proofs.Run.Failures
import SourceDoc.Proofs.Run.Names
import SourceDoc.Proofs.Scan

/-!
# Ends of the command that writes documentation

The command ends with an exit code unless one of the things stands in its way that `Obstructed` lists: a configuration
or an ignore file or a template that cannot be read, a home directory that is unknown, a clock that stops, or an output
directory that cannot be made or has directories for pages.  The code says whether documentation was written
(`run_generate`).
-/

namespace SourceDoc.CommandLine

/-! ## Stages -/

theorem Place.expand_ok_iff {p : Place} {path expanded : Text} :
    p.expand path = .ok expanded ↔ Path.expandHome? p.home? path = some expanded := by
  rw [expand]
  cases Path.expandHome? p.home? path <;> simp

theorem Place.expand_error_iff {p : Place} {path : Text} {e : ConfigError} :
    p.expand path = .error e ↔ Path.expandHome? p.home? path = none ∧ e = .noHome := by
  rw [expand]
  cases Path.expandHome? p.home? path <;> simp [eq_comm]

namespace GenerateOptions

/-- What the scan of the command comes to. -/
structure ScansTo (o : GenerateOptions) (p : Place) (c : Config) (x : Except ScanError Scan) : Prop where
  configuration : o.configuration p = .ok c
  scan : ∃ source, p.expand o.source = .ok source ∧
    ({ patterns := c.ignore } : Scanner).scan p.files p.current source = x

/-- The command finds source files. -/
structure Finds (o : GenerateOptions) (p : Place) (c : Config) (sources : List SourceFile) : Prop where
  scansTo : ∃ found, o.ScansTo p c (.ok found) ∧ found.sources = sources
  sources_ne : sources ≠ []

end GenerateOptions

/-- What documents the source files. -/
def workshopOf (c : Config) (p : Place) : Workshop Chat.Line :=
  { provide := (Provider.ofConfig c p.environment).generate }

/-- What is asked of the run. -/
def optionsOf (c : Config) (template? : Option Text) (p : Place) : RunOptions :=
  { formats := c.formats, template?, isCombined := c.combined, clock := p.clock }

/-- The run takes place and comes to a report. -/
def GenerateOptions.Runs (o : GenerateOptions) (p : Place) (c : Config) (report : Report) : Prop :=
  ∃ sources template? notes, o.Finds p c sources ∧ readTemplate p.files p.current c = .ok template? ∧
    ((workshopOf c p).run (optionsOf c template? p) sources p.line).1 = .ok (report, notes)

/-- What stands in the way of the command. -/
inductive Obstructed (o : GenerateOptions) (p : Place) : Prop
  /-- The configuration file cannot be found in an unknown home directory or cannot be read, or a value in it cannot be
  made. -/
  | configuration (e : ConfigError) (h : o.configuration p = .error e) (hunreported : e.isReported = false)
  /-- The source is in an unknown home directory. -/
  | source (c : Config) (h : o.configuration p = .ok c) (hhome : Path.expandHome? p.home? o.source = none)
  /-- The ignore file of the directory is no text. -/
  | ignoreFile (c : Config) (source : Text) (entries : List (Text × FileTree)) (h : o.configuration p = .ok c)
      (hsource : Path.expandHome? p.home? o.source = some source)
      (hdirectory : p.files.find? (p.current.join (Path.ofText source)) = some (.directory entries))
      (hrules : ∀ rules, ¬ Scanner.HasRules { patterns := c.ignore } entries rules)
  /-- The template is no text. -/
  | template (c : Config) (sources : List SourceFile) (path : Path) (content : Content) (h : o.Finds p c sources)
      (hpath : c.template? = some path) (hfile : p.files.find? (p.current.join path) = some (.file content))
      (htext : ∀ text, content.read ≠ .ok text)
  /-- The clock stops before a page about all documents. -/
  | clock (c : Config) (sources : List SourceFile) (template? : Option Text) (h : o.Finds p c sources)
      (htemplate : readTemplate p.files p.current c = .ok template?)
      (hstops : ¬ (optionsOf c template? p).ShowsIndexes ((workshopOf c p).documentCount sources p.line))
  /-- The output directory cannot be made, or a directory in it has the name of a page. -/
  | output (c : Config) (report : Report) (h : o.Runs p c report)
      (hblocked : ∀ made, p.files.makeDirectory (p.current.join c.output) c.output.toText = .ok made →
        ∃ a ∈ report.allArtifacts, ∃ es, made.find? ((p.current.join c.output).child a.name) = some (.directory es))

variable {o : GenerateOptions} {p : Place} {c : Config} {sources : List SourceFile} {template? : Option Text}
  {report : Report} {notes : List Note}

/-! ## Templates and runs -/

/-- Reading the template fails over its octets exactly if it is a file that holds no text. -/
theorem readTemplate_undecodable_iff (files : FileTree) (current : Path) (c : Config) :
    (∃ e, readTemplate files current c = .error (.undecodable e)) ↔
      ∃ path content, c.template? = some path ∧ files.find? (current.join path) = some (.file content) ∧
        ∀ text, content.read ≠ .ok text := by
  rw [readTemplate]
  cases c.template? with
  | none => simp
  | some path =>
    dsimp only
    rw [FileTree.readText]
    cases hfind : files.find? (current.join path) with
    | none =>
      dsimp only
      split <;> simp [hfind, Except.map]
    | some found =>
      cases found with
      | directory entries => simp [hfind, Except.map]
      | file content => cases hread : content.read <;> simp [hfind, hread, Except.map, Except.mapError]

/-- The source files and formats of the command can be documented. -/
theorem GenerateOptions.Finds.canRun (h : o.Finds p c sources) (template? : Option Text) :
    (optionsOf c template? p).CanRun sources := by
  obtain ⟨⟨found, hscans, -⟩, hne⟩ := h
  obtain ⟨path, -, hload⟩ := exists_of_bind_ok hscans.configuration
  exact ⟨hne, (Config.load_formats hload).1, (Config.load_formats hload).2⟩

/-- The run comes to a report unless the clock stops. -/
theorem run_cases (h : o.Finds p c sources) (template? : Option Text) :
    ((optionsOf c template? p).ShowsIndexes ((workshopOf c p).documentCount sources p.line) ∧ ∃ report notes,
        ((workshopOf c p).run (optionsOf c template? p) sources p.line).1 = .ok (report, notes)) ∨
      (¬ (optionsOf c template? p).ShowsIndexes ((workshopOf c p).documentCount sources p.line) ∧
        ((workshopOf c p).run (optionsOf c template? p) sources p.line).1 = .error (.noIndex .clockStopped)) :=
  Workshop.run_of_canRun _ _ _ _ (h.canRun template?)

/-- A scan comes to one end. -/
theorem GenerateOptions.ScansTo.unique {c' : Config} {x x' : Except ScanError Scan} (h : o.ScansTo p c x)
    (h' : o.ScansTo p c' x') : c = c' ∧ x = x' := by
  obtain ⟨hc, source, hsource, rfl⟩ := h
  obtain ⟨hc', source', hsource', rfl⟩ := h'
  obtain rfl : c = c' := Except.ok.inj (hc.symm.trans hc')
  obtain rfl : source = source' := Except.ok.inj (hsource.symm.trans hsource')
  exact ⟨rfl, rfl⟩

/-- There is one report at most. -/
theorem GenerateOptions.Runs.unique {c' : Config} {report' : Report} (h : o.Runs p c report) (h' : o.Runs p c' report') :
    c = c' ∧ report = report' := by
  obtain ⟨_, template?, notes, ⟨⟨found, hscans, rfl⟩, -⟩, htemplate, hrun⟩ := h
  obtain ⟨_, template?', notes', ⟨⟨found', hscans', rfl⟩, -⟩, htemplate', hrun'⟩ := h'
  obtain ⟨rfl, hfound⟩ := hscans.unique hscans'
  obtain rfl : found = found' := Except.ok.inj hfound
  obtain rfl : template? = template?' := Except.ok.inj (htemplate.symm.trans htemplate')
  cases hrun.symm.trans hrun'
  exact ⟨rfl, rfl⟩

/-! ## Pages -/

/-- The exit code after a run. -/
def codeOf (report : Report) : Nat := if report.succeeded = 0 || report.formatErrors ≠ [] then exitFailure else exitOk

theorem codeOf_cases (report : Report) : codeOf report = exitOk ∨ codeOf report = exitFailure := by
  rw [codeOf]
  split
  · exact .inr rfl
  · exact .inl rfl

theorem codeOf_ne_exitUsage (report : Report) : codeOf report ≠ exitUsage := by
  rcases codeOf_cases report with h | h <;> rw [h] <;> decide

theorem codeOf_eq_exitOk_iff (report : Report) :
    codeOf report = exitOk ↔ report.succeeded ≠ 0 ∧ report.formatErrors = [] := by
  rw [codeOf]
  by_cases hnone : report.succeeded = 0 <;> by_cases herrors : report.formatErrors = [] <;>
    simp [hnone, herrors, exitOk, exitFailure]

theorem generatePages_noIndex {e : RenderError} (said : List Said)
    (hrun : ((workshopOf c p).run (optionsOf c template? p) sources p.line).1 = .error (.noIndex e)) :
    generatePages p c template? said sources = .error (.run (.noIndex e)) := by
  rw [generatePages]
  split
  · rename_i heq
    cases hrun.symm.trans (congrArg Prod.fst heq)
    rfl
  · rename_i hne heq
    cases hrun.symm.trans (congrArg Prod.fst heq)
    exact absurd rfl (hne e)
  · rename_i heq
    cases hrun.symm.trans (congrArg Prod.fst heq)

/-- After a run the pages are written, or a directory stands in their way. -/
theorem generatePages_report (said : List Said)
    (hrun : ((workshopOf c p).run (optionsOf c template? p) sources p.line).1 = .ok (report, notes)) :
    ((∃ made, p.files.makeDirectory (p.current.join c.output) c.output.toText = .ok made ∧
        ∀ a ∈ report.allArtifacts, ∀ es,
          made.find? ((p.current.join c.output).child a.name) ≠ some (.directory es)) ∧
      ∃ w, generatePages p c template? said sources = .ok w ∧ w.code = codeOf report) ∨
    ((∀ made, p.files.makeDirectory (p.current.join c.output) c.output.toText = .ok made →
        ∃ a ∈ report.allArtifacts, ∃ es, made.find? ((p.current.join c.output).child a.name) = some (.directory es)) ∧
      ∃ e, generatePages p c template? said sources = .error e) := by
  have hnames := (((workshopOf c p).run_eq_ok_iff _ _ _ _ _).mp hrun).isFileName
  have hiff := @writeArtifacts_ok_iff p.files p.current c.output _ hnames
  rw [generatePages]
  split
  · rename_i heq
    cases hrun.symm.trans (congrArg Prod.fst heq)
  · rename_i heq
    cases hrun.symm.trans (congrArg Prod.fst heq)
  · rename_i heq
    cases hrun.symm.trans (congrArg Prod.fst heq)
    dsimp only
    split
    · rename_i e herror
      refine .inr ⟨?_, _, rfl⟩
      rw [herror] at hiff
      simpa using hiff
    · rename_i hnone
      exact .inl ⟨hiff.mp hnone, _, rfl, rfl⟩

/-! ## The command -/

theorem generate_of_error {e : ConfigError} (h : o.configuration p = .error e) :
    generate o p = if e.isReported then .ok (complain p.files [] ("configuration error: ".toList ++ e.message))
      else .error (.config e) := by
  rw [generate, h]

theorem generate_noHome (h : o.configuration p = .ok c) (hhome : Path.expandHome? p.home? o.source = none) :
    generate o p = .error (.config .noHome) := by
  rw [generate, h]
  dsimp only
  rw [Place.expand_error_iff.mpr ⟨hhome, rfl⟩]

theorem generate_notFound {source : Text} (h : o.ScansTo p c (.error (.notFound source))) :
    generate o p = .ok (complain p.files [] (ScanError.notFound o.source).message) := by
  obtain ⟨hc, source, hsource, hscan⟩ := h
  rw [generate, hc]
  dsimp only
  rw [hsource]
  dsimp only
  rw [hscan]

theorem generate_badIgnoreFile {e : FileError} (h : o.ScansTo p c (.error (.badIgnoreFile e))) :
    generate o p = .error (.file e) := by
  obtain ⟨hc, source, hsource, hscan⟩ := h
  rw [generate, hc]
  dsimp only
  rw [hsource]
  dsimp only
  rw [hscan]

theorem generate_of_scan {found : Scan} (h : o.ScansTo p c (.ok found)) : generate o p = generateFrom found o p c := by
  obtain ⟨hc, source, hsource, hscan⟩ := h
  rw [generate, hc]
  dsimp only
  rw [hsource]
  dsimp only
  rw [hscan]

theorem generate_of_finds (h : o.Finds p c sources) (htemplate : readTemplate p.files p.current c = .ok template?) :
    ∃ said, generate o p = generatePages p c template? said sources := by
  obtain ⟨⟨found, hscans, rfl⟩, hne⟩ := h
  refine ⟨found.log.map .log, ?_⟩
  rw [generate_of_scan hscans, generateFrom, if_neg hne, htemplate]

/-- Without a template that can be read, the command crashes over its octets or gives up. -/
theorem generate_of_template_error {e : FileError} (h : o.Finds p c sources)
    (htemplate : readTemplate p.files p.current c = .error e) :
    ∃ said, generate o p =
      match e with
      | .undecodable d => .error (.file (.undecodable d))
      | e => .ok (complain p.files said ("cannot read template: ".toList ++ e.message)) := by
  obtain ⟨⟨found, hscans, rfl⟩, hne⟩ := h
  refine ⟨found.log.map .log, ?_⟩
  rw [generate_of_scan hscans, generateFrom, if_neg hne, htemplate]
  cases e <;> rfl

/-- What stands in the way of the command makes it crash. -/
theorem crash_of_obstructed (h : Obstructed o p) : ∃ e, generate o p = .error e := by
  cases h with
  | configuration e h hunreported => exact ⟨_, by rw [generate_of_error h, hunreported]; rfl⟩
  | source c h hhome => exact ⟨_, generate_noHome h hhome⟩
  | ignoreFile c source entries h hsource hdirectory hrules =>
    obtain ⟨e, hscan⟩ := (Scanner.scan_badIgnoreFile_iff _ _ _ _).mpr ⟨entries, hdirectory, hrules⟩
    exact ⟨_, generate_badIgnoreFile ⟨h, source, Place.expand_ok_iff.mpr hsource, hscan⟩⟩
  | template c sources path content h hpath hfile htext =>
    obtain ⟨e, htemplate⟩ := (readTemplate_undecodable_iff _ _ _).mpr ⟨path, content, hpath, hfile, htext⟩
    obtain ⟨said, hgenerate⟩ := generate_of_template_error h htemplate
    exact ⟨_, hgenerate⟩
  | clock c sources template? h htemplate hstops =>
    obtain ⟨said, hgenerate⟩ := generate_of_finds h htemplate
    rcases run_cases h template? with ⟨hshows, -⟩ | ⟨-, hrun⟩
    · exact absurd hshows hstops
    · exact ⟨_, hgenerate.trans (generatePages_noIndex said hrun)⟩
  | output c report h hblocked =>
    obtain ⟨sources, template?, notes, hfinds, htemplate, hrun⟩ := h
    obtain ⟨said, hgenerate⟩ := generate_of_finds hfinds htemplate
    rcases generatePages_report said hrun with ⟨⟨made, hmade, hfree⟩, -⟩ | ⟨-, e, he⟩
    · obtain ⟨a, ha, es, hes⟩ := hblocked made hmade
      exact absurd hes (hfree a ha es)
    · exact ⟨e, hgenerate.trans he⟩

/-- The command gives up before the run: it leaves the files as they are. -/
def GivesUp (o : GenerateOptions) (p : Place) (w : Work) : Prop :=
  w.code = exitUsage ∧ w.files = p.files ∧ ∀ c report, ¬ o.Runs p c report

theorem givesUp_complain (said : List Said) (reason : Text) (h : ∀ c report, ¬ o.Runs p c report) :
    GivesUp o p (complain p.files said reason) := ⟨rfl, rfl, h⟩

/-- A run follows a scan that finds source files. -/
theorem not_runs_of_scansTo {x : Except ScanError Scan} (h : o.ScansTo p c x)
    (hnone : ∀ found, x = .ok found → found.sources = []) (c' : Config) (report : Report) : ¬ o.Runs p c' report := by
  rintro ⟨_, _, _, ⟨⟨found, hscans, rfl⟩, hne⟩, -⟩
  exact hne (hnone found (h.unique hscans).2)

/-- The stages after the scan: the template, the run and the pages. -/
theorem generate_cases_of_finds (hfinds : o.Finds p c sources) (h : ¬ Obstructed o p) : ∃ w, generate o p = .ok w ∧
    (GivesUp o p w ∨ ∃ c report, o.Runs p c report ∧ w.code = codeOf report) := by
  cases htemplate : readTemplate p.files p.current c with
  | error e =>
    have hnot : ∀ c' report, ¬ o.Runs p c' report := by
      rintro c' report ⟨_, _, _, ⟨⟨_, hscans', -⟩, -⟩, htemplate', -⟩
      obtain ⟨⟨_, hscans, -⟩, -⟩ := hfinds
      obtain ⟨rfl, -⟩ := hscans.unique hscans'
      cases htemplate.symm.trans htemplate'
    obtain ⟨said, hgenerate⟩ := generate_of_template_error hfinds htemplate
    cases e with
    | undecodable e =>
      obtain ⟨path, content, hpath, hfile, htext⟩ := (readTemplate_undecodable_iff _ _ _).mp ⟨e, htemplate⟩
      exact absurd (.template c _ path content hfinds hpath hfile htext) h
    | _ => exact ⟨_, hgenerate, .inl (givesUp_complain _ _ hnot)⟩
  | ok template? =>
    obtain ⟨said, hgenerate⟩ := generate_of_finds hfinds htemplate
    rcases run_cases hfinds template? with ⟨-, report, notes, hrun⟩ | ⟨hstops, -⟩
    · have hruns : o.Runs p c report := ⟨sources, template?, notes, hfinds, htemplate, hrun⟩
      rcases generatePages_report said hrun with ⟨-, w, hw, hcode⟩ | ⟨hblocked, -⟩
      · exact ⟨w, hgenerate.trans hw, .inr ⟨c, report, hruns, hcode⟩⟩
      · exact absurd (.output c report hruns hblocked) h
    · exact absurd (.clock c sources template? hfinds htemplate hstops) h

/-- **Without an obstruction the command ends with an exit code.**  The cases follow its stages. -/
theorem generate_cases (h : ¬ Obstructed o p) : ∃ w, generate o p = .ok w ∧
    (GivesUp o p w ∨ ∃ c report, o.Runs p c report ∧ w.code = codeOf report) := by
  cases hc : o.configuration p with
  | error e =>
    cases he : e.isReported with
    | false => exact absurd (.configuration e hc he) h
    | true =>
      refine ⟨_, by rw [generate_of_error hc, he]; rfl, .inl (givesUp_complain _ _ ?_)⟩
      rintro c report ⟨_, _, _, ⟨⟨_, hscans, -⟩, -⟩, -⟩
      cases hc.symm.trans hscans.configuration
  | ok c =>
    cases hhome : Path.expandHome? p.home? o.source with
    | none => exact absurd (.source c hc hhome) h
    | some source =>
      have hscans : ∀ {x}, ({ patterns := c.ignore } : Scanner).scan p.files p.current source = x → o.ScansTo p c x :=
        fun hscan => ⟨hc, source, Place.expand_ok_iff.mpr hhome, hscan⟩
      cases hscan : ({ patterns := c.ignore } : Scanner).scan p.files p.current source with
      | error e =>
        cases e with
        | badIgnoreFile e =>
          obtain ⟨entries, hdirectory, hrules⟩ := (Scanner.scan_badIgnoreFile_iff _ _ _ _).mp ⟨e, hscan⟩
          exact absurd (.ignoreFile c source entries hc hhome hdirectory hrules) h
        | notFound source =>
          have hnot := not_runs_of_scansTo (hscans hscan) fun _ hok => by cases hok
          exact ⟨_, generate_notFound (hscans hscan), .inl (givesUp_complain _ _ hnot)⟩
      | ok found =>
        by_cases hsources : found.sources = []
        · have hnot := not_runs_of_scansTo (hscans hscan) fun _ hok => by cases hok; exact hsources
          exact ⟨_, by rw [generate_of_scan (hscans hscan), generateFrom, if_pos hsources],
            .inl (givesUp_complain _ _ hnot)⟩
        · exact generate_cases_of_finds ⟨⟨found, hscans hscan, rfl⟩, hsources⟩ h

/-- What the exit code says: it is one of three, of which one leaves the files as they are and one stands for a run
without failures. -/
theorem code_of_ends {w : Work} (h : GivesUp o p w ∨ ∃ c report, o.Runs p c report ∧ w.code = codeOf report) :
    (w.code = exitOk ∨ w.code = exitFailure ∨ w.code = exitUsage) ∧ (w.code = exitUsage → w.files = p.files) ∧
      (w.code = exitOk ↔ ∃ c report, o.Runs p c report ∧ report.succeeded ≠ 0 ∧ report.formatErrors = []) := by
  rcases h with ⟨hcode, hfiles, hnone⟩ | ⟨c, report, hruns, hcode⟩
  · refine ⟨.inr (.inr hcode), fun _ => hfiles, fun hok => ?_, ?_⟩
    · exact absurd (hcode.symm.trans hok) (by decide)
    · rintro ⟨c, report, hruns, -⟩
      exact absurd hruns (hnone c report)
  · rw [hcode]
    refine ⟨(codeOf_cases report).imp id .inl, fun husage => absurd husage (codeOf_ne_exitUsage report),
      fun hok => ⟨c, report, hruns, (codeOf_eq_exitOk_iff report).mp hok⟩, ?_⟩
    rintro ⟨c', report', hruns', h⟩
    obtain ⟨-, rfl⟩ := hruns.unique hruns'
    exact (codeOf_eq_exitOk_iff report).mpr h

/-! ## Sessions -/

/-- The log file of a session. -/
def Invocation.logPath? (i : Invocation) (p : Place) : Option Path :=
  i.logFile?.map fun t => p.current.resolve (Path.ofText t)

/-- The files once the log file is there. -/
def Invocation.opened (i : Invocation) (p : Place) : Except Crash FileTree :=
  match i.logPath? p with
  | none => .ok p.files
  | some path => openLog p.files path

/-- Some files with more in the log file. -/
def Invocation.logged (i : Invocation) (p : Place) (entries : List Log.Entry) (files : FileTree) : FileTree :=
  match i.logPath? p with
  | none => files
  | some path => appendLog files path p.stamp entries

theorem Invocation.run_of_opened {i : Invocation} {files : FileTree} (h : i.opened p = .ok files) :
    i.run p = (i.command.run { p with files }).map fun work =>
      { code := work.code, out := work.out, err := errorLines i.isVerbose work.said
        files := i.logged p (shownEntries i.isVerbose work.said) work.files
        requests := work.requests, served? := work.served? } := by
  unfold opened logPath? at h
  unfold run logged logPath?
  dsimp only
  generalize i.logFile?.map (fun t => p.current.resolve (Path.ofText t)) = log? at h ⊢
  cases log? with
  | none =>
    cases h
    dsimp only [bind, Except.bind]
    cases i.command.run { p with files := p.files } <;> rfl
  | some path =>
    dsimp only [bind, Except.bind] at h ⊢
    rw [h]
    dsimp only
    cases i.command.run { p with files := files } <;> rfl

theorem Invocation.run_of_not_opened {i : Invocation} {e : Crash} (h : i.opened p = .error e) : i.run p = .error e := by
  unfold opened logPath? at h
  unfold run
  dsimp only
  generalize i.logFile?.map (fun t => p.current.resolve (Path.ofText t)) = log? at h ⊢
  cases log? with
  | none => cases h
  | some path =>
    dsimp only [bind, Except.bind] at h ⊢
    rw [h]

namespace Sample

/-- A place with some files in the root directory. -/
def place (files : List (Text × FileTree)) : Place where
  files := .directory files
  current := ⟨['/'], []⟩
  environment := {}
  line := {}
  clock := { reading := fun _ => some "now".toList }

def source : Text × FileTree := ("a.py".toList, .file (.text "x = 1\n".toList))

def arguments : List Text := ["generate".toList, "a.py".toList, "--ai".toList, "offline".toList]

def options : GenerateOptions := { source := "a.py".toList, provider? := some "offline".toList }

def invocation : Invocation := { isVerbose := false, logFile? := none, command := .generate options }

end Sample

end SourceDoc.CommandLine
