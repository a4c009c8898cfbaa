import SourceDoc.Proofs.Files.Tree
import SourceDoc.Proofs.Ignore.Rule
import SourceDoc.Proofs.Path
import SourceDoc.Scan

/-!
# A scan finds what is wanted, once and in order

The walk through a directory leaves ignored directories out as it goes.  What it finds is described without the walk:
the files that an extractor reads, that no rule leaves out and that lie in no directory that is left out
(`mem_wantedIn`).  The invariant of the walk speaks of the directories below the one it is in, whose parts are carried
along.  A whole scan gives the texts of these files in strictly increasing order of their parts (`scan_directory`).
-/

namespace SourceDoc

open IgnoreRule (IsIgnored)

/-! ## The text of a file -/

/-- The text of a file that is no larger than a limit and can be read. -/
def Content.textWithin? (limit : Int) (c : Content) : Option Text := if limit < c.size then none else c.read.toOption

theorem Content.read_eq_ok_iff (c : Content) (t : Text) :
    c.read = .ok t ↔ ∃ raw, c.stored = .ok raw ∧ t = Text.unifyNewlines raw := by
  unfold Content.read
  cases c.stored with
  | error e => simp [Except.map]
  | ok raw => simp [Except.map, eq_comm]

theorem Content.textWithin?_eq_some_iff (limit : Int) (c : Content) (t : Text) :
    c.textWithin? limit = some t ↔ c.size ≤ limit ∧ ∃ raw, c.stored = .ok raw ∧ t = Text.unifyNewlines raw := by
  rw [← Content.read_eq_ok_iff]
  unfold Content.textWithin?
  by_cases h : limit < c.size
  · have hn : ¬ (c.size : Int) ≤ limit := by omega
    simp [h, hn]
  · have hle : (c.size : Int) ≤ limit := by omega
    cases c.read <;> simp [h, hle, Except.toOption]

theorem Reading.source?_ofContent (limit : Int) (path : Text) (c : Content) :
    (Reading.ofContent limit path c).source? = (c.textWithin? limit).map (⟨path, ·⟩) := by
  unfold Reading.ofContent Content.textWithin?
  by_cases h : limit < c.size
  · simp [h, Reading.source?]
  · cases c.read <;> simp [h, Reading.source?, Except.toOption]

namespace Scanner

/-! ## The walk -/

/-- A path is wanted by a walk that has come to some depth: an extractor reads a file of its name, it is not ignored,
and no directory on the way to it that lies deeper is ignored. -/
structure IsWanted (r : Registry) (rules : List IgnoreRule) (depth : Nat) (parts : List Text) : Prop where
  supported : r.supports (parts.getLast?.getD [])
  kept : ¬ IsIgnored rules parts false
  entered : ∀ front, front <+: parts → depth < front.length → front.length < parts.length → ¬ IsIgnored rules front true

/-- From the root, these are all directories above the path. -/
theorem isWanted_zero_iff (r : Registry) (rules : List IgnoreRule) (parts : List Text) :
    IsWanted r rules 0 parts ↔
      r.supports (parts.getLast?.getD []) ∧ ¬ IsIgnored rules parts false ∧
        ∀ front, front <+: parts → front ≠ [] → front ≠ parts → ¬ IsIgnored rules front true := by
  constructor
  · rintro ⟨hsupported, hkept, hentered⟩
    refine ⟨hsupported, hkept, fun front hfront hnil hne => ?_⟩
    have hlt : front.length < parts.length :=
      lt_of_le_of_ne hfront.length_le fun he => hne (hfront.eq_of_length he)
    exact hentered front hfront (List.length_pos_iff.mpr hnil) hlt
  · rintro ⟨hsupported, hkept, hentered⟩
    refine ⟨hsupported, hkept, fun front hfront hpos hlt => ?_⟩
    refine hentered front hfront (List.length_pos_iff.mp hpos) ?_
    rintro rfl
    exact lt_irrefl _ hlt

/-- What is wanted below a directory is wanted above it too, where the directory is not ignored. -/
theorem isWanted_pred_iff (r : Registry) (rules : List IgnoreRule) (depth : Nat) (front parts : List Text)
    (hfront : front <+: parts) (hlength : front.length = depth + 1) (hlt : front.length < parts.length) :
    IsWanted r rules depth parts ↔ ¬ IsIgnored rules front true ∧ IsWanted r rules (depth + 1) parts := by
  constructor
  · rintro ⟨hsupported, hkept, hentered⟩
    refine ⟨hentered front hfront (by omega) hlt, hsupported, hkept, fun other hother hdeep => ?_⟩
    exact hentered other hother (by omega)
  · rintro ⟨hown, hsupported, hkept, hentered⟩
    refine ⟨hsupported, hkept, fun other hother hdeep hless => ?_⟩
    -- a front of the same length is the directory itself
    rcases Nat.lt_or_ge (depth + 1) other.length with hdeeper | hsame
    · exact hentered other hother hdeeper hless
    · have hlen : other.length = front.length := by omega
      obtain rfl : other = front :=
        (List.prefix_of_prefix_length_le hother hfront hlen.le).eq_of_length hlen
      exact hown

/-- There is no directory between a directory and its entries. -/
theorem isWanted_entry_iff (r : Registry) (rules : List IgnoreRule) (depth : Nat) (parts : List Text)
    (hlength : parts.length = depth + 1) :
    IsWanted r rules depth parts ↔ r.supports (parts.getLast?.getD []) ∧ ¬ IsIgnored rules parts false := by
  constructor
  · intro h
    exact ⟨h.supported, h.kept⟩
  · rintro ⟨hsupported, hkept⟩
    refine ⟨hsupported, hkept, fun front _ hdeep hless => ?_⟩
    omega

mutual

theorem mem_wantedAt (r : Registry) (rules : List IgnoreRule) (depth : Nat) (above : List Text)
    (habove : above.length = depth + 1) (path : List Text) (c : Content) : (t : FileTree) →
    ((path, c) ∈ wantedAt r rules above t ↔
      ∃ parts, path = above ++ parts ∧ (parts, c) ∈ t.files ∧ IsWanted r rules depth path)
  | .file content => by
    have hwanted := isWanted_entry_iff r rules depth above habove
    rw [← IgnoreRule.ignores_eq_false_iff] at hwanted
    rw [wantedAt, FileTree.files]
    constructor
    · intro h
      split at h
      next hc =>
        obtain ⟨rfl, rfl⟩ := Prod.mk.inj (List.mem_singleton.mp h)
        refine ⟨[], by simp, by simp, hwanted.mpr ?_⟩
        simpa using hc
      next => cases h
    · rintro ⟨parts, rfl, hmem, hw⟩
      obtain ⟨rfl, rfl⟩ := Prod.mk.inj (List.mem_singleton.mp hmem)
      rw [List.append_nil] at hw ⊢
      rw [if_pos (by simpa using hwanted.mp hw)]
      exact List.mem_singleton.mpr rfl
  | .directory es => by
    have hbelow := mem_wantedIn r rules above path c es
    rw [habove] at hbelow
    -- something stands below the directory, so the directory is on the way to it
    have hstep : ∀ parts, path = above ++ parts → (parts, c) ∈ FileTree.filesOf es →
        (IsWanted r rules depth path ↔ ¬ IsIgnored rules above true ∧ IsWanted r rules (depth + 1) path) := by
      rintro parts rfl hmem
      obtain ⟨name, below, rfl, -⟩ := FileTree.exists_name_of_mem_filesOf es parts c hmem
      exact isWanted_pred_iff r rules depth above _ (List.prefix_append _ _) habove (by simp)
    rw [wantedAt, FileTree.files]
    by_cases hignored : IgnoreRule.ignores rules above true = true
    · rw [if_pos hignored]
      rw [IgnoreRule.ignores_iff_isIgnored] at hignored
      refine ⟨fun h => absurd h List.not_mem_nil, ?_⟩
      rintro ⟨parts, hpath, hmem, hw⟩
      exact absurd hignored ((hstep parts hpath hmem).mp hw).1
    · rw [if_neg hignored, hbelow]
      rw [IgnoreRule.ignores_iff_isIgnored] at hignored
      constructor
      · rintro ⟨parts, hpath, hmem, hw⟩
        exact ⟨parts, hpath, hmem, (hstep parts hpath hmem).mpr ⟨hignored, hw⟩⟩
      · rintro ⟨parts, hpath, hmem, hw⟩
        exact ⟨parts, hpath, hmem, ((hstep parts hpath hmem).mp hw).2⟩

/-- **The walk through a directory finds what is wanted below it.** -/
theorem mem_wantedIn (r : Registry) (rules : List IgnoreRule) (above : List Text) (path : List Text) (c : Content) :
    (es : List (Text × FileTree)) →
    ((path, c) ∈ wantedIn r rules above es ↔
      ∃ parts, path = above ++ parts ∧ (parts, c) ∈ FileTree.filesOf es ∧ IsWanted r rules above.length path)
  | [] => by simp [wantedIn, FileTree.filesOf]
  | (name, t) :: rest => by
    have hlength : (above ++ [name]).length = above.length + 1 := by simp
    rw [wantedIn, List.mem_append, mem_wantedAt r rules above.length (above ++ [name]) hlength path c t,
      mem_wantedIn r rules above path c rest]
    constructor
    · rintro (⟨below, hpath, hmem, hw⟩ | ⟨parts, hpath, hmem, hw⟩)
      · refine ⟨name :: below, by simpa using hpath, ?_, hw⟩
        exact (FileTree.mem_filesOf_cons name t rest _ c).mpr (.inl ⟨below, rfl, hmem⟩)
      · refine ⟨parts, hpath, ?_, hw⟩
        exact (FileTree.mem_filesOf_cons name t rest _ c).mpr (.inr hmem)
    · rintro ⟨parts, hpath, hmem, hw⟩
      rcases (FileTree.mem_filesOf_cons name t rest parts c).mp hmem with ⟨below, rfl, hbelow⟩ | hrest
      · exact .inl ⟨below, by simpa using hpath, hbelow, hw⟩
      · exact .inr ⟨parts, hpath, hrest, hw⟩

end

mutual

/-- The walk keeps some of the files that are there, in their order. -/
theorem wantedAt_sublist (r : Registry) (rules : List IgnoreRule) (above : List Text) : (t : FileTree) →
    (wantedAt r rules above t).Sublist (t.files.map fun e => (above ++ e.1, e.2))
  | .file content => by
    rw [wantedAt, FileTree.files, List.map_singleton, List.append_nil]
    split
    · exact .refl _
    · exact List.nil_sublist _
  | .directory es => by
    rw [wantedAt, FileTree.files]
    split
    · exact List.nil_sublist _
    · exact wantedIn_sublist r rules above es

theorem wantedIn_sublist (r : Registry) (rules : List IgnoreRule) (above : List Text) :
    (es : List (Text × FileTree)) →
    (wantedIn r rules above es).Sublist ((FileTree.filesOf es).map fun e => (above ++ e.1, e.2))
  | [] => by
    rw [wantedIn]
    exact List.nil_sublist _
  | (name, t) :: rest => by
    have hfirst := wantedAt_sublist r rules (above ++ [name]) t
    have hrest := wantedIn_sublist r rules above rest
    rw [wantedIn, FileTree.filesOf, List.map_append, List.map_map]
    refine List.Sublist.append ?_ hrest
    simpa [Function.comp_def] using hfirst

end

/-- The files that are found are reached by different parts. -/
theorem nodup_map_wantedIn (r : Registry) (rules : List IgnoreRule) (es : List (Text × FileTree))
    (h : (FileTree.directory es).HasDistinctNames) : ((wantedIn r rules [] es).map Prod.fst).Nodup := by
  have hfiles := FileTree.nodup_map_files (.directory es) h
  rw [FileTree.files] at hfiles
  have hsub := (wantedIn_sublist r rules [] es).map Prod.fst
  simp only [List.nil_append, Prod.mk.eta, List.map_id'] at hsub
  exact hfiles.sublist hsub

/-! ## A whole scan -/

/-- The rules that hold in a directory: those of the scanner, and after them those of the ignore file, which is a text
where it is there. -/
inductive HasRules (s : Scanner) (entries : List (Text × FileTree)) : List IgnoreRule → Prop where
  | absent (h : Table.get? ".gitignore".toList entries = none) : HasRules s entries s.rules
  | file (content : Content) (text : Text) (h : Table.get? ".gitignore".toList entries = some (.file content))
      (htext : content.read = .ok text) : HasRules s entries (s.rules ++ IgnoreRule.ofLines text)

theorem HasRules.exists_ignoreFileRules {s : Scanner} {entries : List (Text × FileTree)} {rules : List IgnoreRule}
    (h : s.HasRules entries rules) (directory : Path) :
    ∃ more, ignoreFileRules directory entries = .ok more ∧ rules = s.rules ++ more := by
  cases h with
  | absent h => exact ⟨[], by simp only [ignoreFileRules, h], by simp⟩
  | file content text h htext => exact ⟨IgnoreRule.ofLines text, by simp only [ignoreFileRules, h, htext], rfl⟩

/-- The ignore file is a directory or holds no text. -/
theorem ignoreFileRules_error {s : Scanner} {entries : List (Text × FileTree)} {directory : Path} {e : ScanError}
    (h : ignoreFileRules directory entries = .error e) :
    (∃ f, e = .badIgnoreFile f) ∧ ∀ rules, ¬ s.HasRules entries rules := by
  refine ⟨?_, fun rules hrules => ?_⟩
  · rw [ignoreFileRules] at h
    split at h
    · cases h
    · cases h
      exact ⟨_, rfl⟩
    · split at h
      · cases h
      · cases h
        exact ⟨_, rfl⟩
  · obtain ⟨more, hmore, -⟩ := hrules.exists_ignoreFileRules directory
    rw [hmore] at h
    cases h

/-- A scan fails over an ignore file exactly if it is of a directory where no rules hold. -/
theorem scan_badIgnoreFile_iff (s : Scanner) (t : FileTree) (current : Path) (source : Text) :
    (∃ e, s.scan t current source = .error (.badIgnoreFile e)) ↔
      ∃ entries, t.find? (current.join (Path.ofText source)) = some (.directory entries) ∧
        ∀ rules, ¬ s.HasRules entries rules := by
  rw [scan]
  cases t.find? (current.join (Path.ofText source)) with
  | none => simp
  | some found =>
    cases found with
    | file content =>
      dsimp only
      split <;> simp
    | directory entries =>
      cases hmore : ignoreFileRules (current.resolve (Path.ofText source)) entries with
      | error e =>
        obtain ⟨⟨f, rfl⟩, hnone⟩ := ignoreFileRules_error (s := s) hmore
        simpa [scanDirectory, hmore, Except.map] using hnone
      | ok more =>
        have hrules : ∃ rules, s.HasRules entries rules := by
          rw [ignoreFileRules] at hmore
          split at hmore
          · exact ⟨_, .absent ‹_›⟩
          · cases hmore
          · split at hmore
            · exact ⟨_, .file _ _ ‹_› ‹_›⟩
            · cases hmore
        simpa [scanDirectory, hmore, Except.map] using hrules

/-- A file among the entries of a directory is one to document: an extractor reads it, neither the file nor a directory
above it is ignored, it is not too large, and its octets are a text. -/
def IsSource (s : Scanner) (rules : List IgnoreRule) (entries : List (Text × FileTree)) (parts : List Text)
    (text : Text) : Prop :=
  s.registry.supports (parts.getLast?.getD []) ∧
    (∀ front, front <+: parts → front ≠ [] → front ≠ parts → ¬ IsIgnored rules front true) ∧
    ¬ IsIgnored rules parts false ∧
    ∃ content raw, (parts, content) ∈ FileTree.filesOf entries ∧ content.size ≤ s.sizeLimit ∧
      content.stored = .ok raw ∧ text = Text.unifyNewlines raw

/-- The files that are found in a directory with their texts, in the order of their parts. -/
def foundIn (s : Scanner) (rules : List IgnoreRule) (entries : List (Text × FileTree)) : List (List Text × Text) :=
  ((wantedIn s.registry rules [] entries).mergeSort fun a b => Path.isBefore a.1 b.1).filterMap fun e =>
    (e.2.textWithin? s.sizeLimit).map (e.1, ·)

theorem mem_foundIn (s : Scanner) (rules : List IgnoreRule) (entries : List (Text × FileTree)) (parts : List Text)
    (text : Text) : (parts, text) ∈ foundIn s rules entries ↔ s.IsSource rules entries parts text := by
  have hwanted := fun content => mem_wantedIn s.registry rules [] parts content entries
  simp only [List.nil_append, List.length_nil, exists_eq_left', isWanted_zero_iff] at hwanted
  unfold foundIn IsSource
  rw [List.mem_filterMap]
  constructor
  · rintro ⟨⟨parts', content⟩, hmem, hread⟩
    obtain ⟨text', htext, he⟩ := Option.map_eq_some_iff.mp hread
    obtain ⟨rfl, rfl⟩ := Prod.mk.inj he
    obtain ⟨hfile, hsupported, hkept, hentered⟩ := (hwanted content).mp (List.mem_mergeSort.mp hmem)
    obtain ⟨hsize, raw, hraw, htext⟩ := (Content.textWithin?_eq_some_iff _ _ _).mp htext
    exact ⟨hsupported, hentered, hkept, content, raw, hfile, hsize, hraw, htext⟩
  · rintro ⟨hsupported, hentered, hkept, content, raw, hfile, hsize, hraw, htext⟩
    have hmem := (hwanted content).mpr ⟨hfile, hsupported, hkept, hentered⟩
    have hread := (Content.textWithin?_eq_some_iff s.sizeLimit content text).mpr ⟨hsize, raw, hraw, htext⟩
    exact ⟨(parts, content), List.mem_mergeSort.mpr hmem, by rw [hread]; rfl⟩

theorem foundIn_pairwise (s : Scanner) (rules : List IgnoreRule) (entries : List (Text × FileTree))
    (h : (FileTree.directory entries).HasDistinctNames) :
    (foundIn s rules entries).Pairwise fun a b => a.1 < b.1 := by
  have hsorted := Path.pairwise_lt_mergeSort _ (nodup_map_wantedIn s.registry rules entries h)
  refine hsorted.filterMap _ ?_
  rintro a a' hlt b hb b' hb'
  obtain ⟨_, -, rfl⟩ := Option.map_eq_some_iff.mp hb
  obtain ⟨_, -, rfl⟩ := Option.map_eq_some_iff.mp hb'
  exact hlt

/-- A scan of a directory gives the texts that are found. -/
theorem HasRules.exists_scanDirectory {s : Scanner} {entries : List (Text × FileTree)} {rules : List IgnoreRule}
    (h : s.HasRules entries rules) (directory : Path) :
    ∃ scan, s.scanDirectory directory entries = .ok scan ∧
      scan.sources = (foundIn s rules entries).map fun e => ⟨(directory.join ⟨[], e.1⟩).toText, e.2⟩ := by
  obtain ⟨more, hmore, rfl⟩ := h.exists_ignoreFileRules directory
  rw [scanDirectory, hmore]
  refine ⟨_, rfl, ?_⟩
  rw [Scan.sources, foundIn, List.filterMap_map, List.map_filterMap]
  refine List.filterMap_congr fun e _ => ?_
  simp only [Function.comp_apply, Reading.source?_ofContent, Option.map_map]
  rfl

/-- **A scan of a directory is sound, complete and ordered.**  It gives the files to document, each once and in strictly
increasing order of its parts.  The last rule about a path decides whether the path is ignored, and nothing below an
ignored directory is taken back in. -/
theorem scan_directory (s : Scanner) (tree : FileTree) (current : Path) (source : Text)
    (entries : List (Text × FileTree)) (rules : List IgnoreRule)
    (hfind : tree.find? (current.join (Path.ofText source)) = some (.directory entries))
    (hnames : (FileTree.directory entries).HasDistinctNames) (hrules : s.HasRules entries rules) :
    ∃ (scan : Scan) (found : List (List Text × Text)),
      s.scan tree current source = .ok scan ∧
      scan.sources = found.map (fun e => ⟨((current.resolve (Path.ofText source)).join ⟨[], e.1⟩).toText, e.2⟩) ∧
      found.Pairwise (fun a b => a.1 < b.1) ∧
      (∀ parts text, (parts, text) ∈ found ↔ s.IsSource rules entries parts text) ∧
      (∀ parts isDirectory, IgnoreRule.ignores rules parts isDirectory = true ↔ IsIgnored rules parts isDirectory) ∧
      ∀ front below text, front ≠ [] → below ≠ [] → IgnoreRule.ignores rules front true = true →
        (front ++ below, text) ∉ found := by
  obtain ⟨scan, hscan, hsources⟩ := hrules.exists_scanDirectory (current.resolve (Path.ofText source))
  refine ⟨scan, foundIn s rules entries, ?_, hsources, foundIn_pairwise s rules entries hnames,
    mem_foundIn s rules entries, IgnoreRule.ignores_iff_isIgnored rules, ?_⟩
  · rw [Scanner.scan, hfind]
    exact hscan
  · intro front below text hfront hbelow hignored hmem
    obtain ⟨-, hentered, -⟩ := (mem_foundIn s rules entries _ text).mp hmem
    have hne : front ≠ front ++ below := by simpa using hbelow
    exact hentered front (List.prefix_append _ _) hfront hne ((IgnoreRule.ignores_iff_isIgnored _ _ _).mp hignored)

/-- A directory whose ignore file leaves a directory out and tries to take a file below it back in. -/
def sampleEntries : List (Text × FileTree) :=
  [(".gitignore".toList, .file (.text "gen/\n!kept.py\n".toList)),
    ("b.py".toList, .file (.octets [0xff])),
    ("gen".toList, .directory [("kept.py".toList, .file (.text "y = 2\n".toList))]),
    ("a.py".toList, .file (.text "x = 1\r\n".toList))]

/-- The file there that can be read is found, and the one below the ignored directory is not. -/
theorem scan_directory_sample :
    ∃ (scan : Scan) (found : List (List Text × Text)),
      Scanner.scan {} (.directory [("p".toList, .directory sampleEntries)]) ⟨['/'], []⟩ "p".toList = .ok scan ∧
      scan.sources = found.map (fun e => ⟨(Path.join ⟨['/'], ["p".toList]⟩ ⟨[], e.1⟩).toText, e.2⟩) ∧
      (["a.py".toList], "x = 1\n".toList) ∈ found ∧
      ∀ text, (["gen".toList, "kept.py".toList], text) ∉ found := by
  have hnames : (FileTree.directory sampleEntries).HasDistinctNames := by
    simp only [FileTree.HasDistinctNames, FileTree.AllHaveDistinctNames, sampleEntries]
    decide
  have hrules : HasRules {} sampleEntries
      (Scanner.rules {} ++ IgnoreRule.ofLines "gen/\n!kept.py\n".toList) :=
    .file (.text "gen/\n!kept.py\n".toList) _ rfl (by rfl)
  obtain ⟨scan, found, hscan, hsources, -, hmem, hiff, hbelow⟩ :=
    scan_directory {} (.directory [("p".toList, .directory sampleEntries)]) ⟨['/'], []⟩ "p".toList sampleEntries _ rfl
      hnames hrules
  refine ⟨scan, found, hscan, hsources, ?_, fun text => ?_⟩
  · refine (hmem _ _).mpr
      ⟨by decide, ?_, ?_, .text "x = 1\r\n".toList, "x = 1\r\n".toList, ?_, by decide, rfl, by decide⟩
    · intro front hfront hnil hne
      rcases List.prefix_cons_iff.mp hfront with rfl | ⟨rest, rfl, hrest⟩
      · exact absurd rfl hnil
      · rw [List.prefix_nil.mp hrest] at hne
        exact absurd rfl hne
    · rw [← hiff]
      decide
    · simp [FileTree.filesOf, FileTree.files, sampleEntries]
  · exact hbelow ["gen".toList] ["kept.py".toList] text (by simp) (by simp) (by decide)

end Scanner

end SourceDoc
