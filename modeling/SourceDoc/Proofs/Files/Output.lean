import SourceDoc.Files.Output
import SourceDoc.Proofs.Files.Write
import SourceDoc.Proofs.Text.Line

/-!
# What writing leaves

Artifacts whose names are those of files can be written into a directory in which no directory has one of these names.
After that the directory has under each name what the last artifact with it holds, and under other names what was there
before (`writeArtifacts_files`).
-/

namespace SourceDoc

/-- A text that can be the name of a file: a part of a path that leads down. -/
structure IsFileName (name : Text) : Prop where
  slash : '/' ∉ name
  ne_nil : name ≠ []
  ne_point : name ≠ ['.']
  ne_points : name ≠ ['.', '.']

theorem IsFileName.ofText_eq {name : Text} (h : IsFileName name) : Path.ofText name = ⟨[], [name]⟩ := by
  have hroot : name.takeWhile (· = '/') = [] := by
    cases name with
    | nil => rfl
    | cons c rest => simp [show c ≠ '/' from fun hc => h.slash (hc ▸ List.mem_cons_self)]
  rw [Path.ofText, Path.rootOf, hroot, Text.splitOn_of_not_mem h.slash]
  simp [h.ne_nil, h.ne_point]

/-- Joining paths keeps entries. -/
theorem Path.join_child (p q : Path) (name : Text) : p.join (q.child name) = (p.join q).child name := by
  unfold join child
  split
  · simp
  · rfl

theorem IsFileName.join_ofText {name : Text} (h : IsFileName name) (output : Path) :
    output.join (Path.ofText name) = output.child name := by
  rw [h.ofText_eq]
  rfl

/-! ## The last artifact with a name -/

/-- The last artifact with a name. -/
def lastNamed? (artifacts : List Artifact) (name : Text) : Option Artifact :=
  (artifacts.filter fun a => a.name = name).getLast?

theorem lastNamed_append (artifacts more : List Artifact) (name : Text) :
    lastNamed? (artifacts ++ more) name = (lastNamed? more name).or (lastNamed? artifacts name) := by
  rw [lastNamed?, List.filter_append, List.getLast?_append]
  rfl

theorem lastNamed_singleton (a : Artifact) (name : Text) :
    lastNamed? [a] name = if a.name = name then some a else none := by
  by_cases h : a.name = name <;> simp [lastNamed?, h]

theorem lastNamed_eq_none {artifacts : List Artifact} {name : Text} (h : ∀ a ∈ artifacts, a.name ≠ name) :
    lastNamed? artifacts name = none := by
  rw [lastNamed?, List.getLast?_eq_none_iff, List.filter_eq_nil_iff]
  exact fun a ha hname => h a ha (of_decide_eq_true hname)

/-- An artifact with a name of its own is the last one with it. -/
theorem lastNamed_of_nodup {artifacts : List Artifact} (h : (artifacts.map Artifact.name).Nodup) {a : Artifact}
    (ha : a ∈ artifacts) : lastNamed? artifacts a.name = some a := by
  induction artifacts with
  | nil => cases ha
  | cons b artifacts ih =>
    rw [List.map_cons, List.nodup_cons] at h
    rw [← List.singleton_append, lastNamed_append, lastNamed_singleton]
    rcases List.mem_cons.mp ha with rfl | ha
    · rw [lastNamed_eq_none fun b hb hname => h.1 (List.mem_map.mpr ⟨b, hb, hname⟩), if_pos rfl]
      rfl
    · rw [ih h.2 ha]
      rfl

/-! ## Writing into a directory -/

namespace Written

variable {current output : Path} {q : List Text}

theorem add_eq {files : FileTree} {paths : List Text} {a : Artifact}
    (hdir : files.IsDirectoryAt (current.join output) q) (hname : IsFileName a.name)
    (hfree : files.IsFree (q ++ [a.name])) :
    add current output { files, paths } a =
      { files := .insert (.file (.text a.content)) (q ++ [a.name]) files
        paths := paths ++ [(output.child a.name).toText] } := by
  have hwrite := FileTree.writeFile_child (output.child a.name).toText a.content hdir hname.ne_points hfree
  simp only [add, hname.join_ofText, Path.join_child, hwrite]
  rfl

/-- **What some artifacts leave in a directory.** -/
theorem foldl_add (artifacts : List Artifact) {files : FileTree}
    (hdir : files.IsDirectoryAt (current.join output) q) (hnames : ∀ a ∈ artifacts, IsFileName a.name)
    (hfree : ∀ a ∈ artifacts, files.IsFree (q ++ [a.name])) :
    ∃ left : FileTree,
      artifacts.foldl (add current output) { files := files } =
        { files := left, paths := artifacts.map fun a => (output.child a.name).toText } ∧
      left.IsDirectoryAt (current.join output) q ∧
      ∀ name, left.at? (q ++ [name]) =
        ((lastNamed? artifacts name).map fun a => .file (.text a.content)).or (files.at? (q ++ [name])) := by
  induction artifacts using List.reverseRecOn with
  | nil => exact ⟨files, rfl, hdir, fun name => rfl⟩
  | append_singleton artifacts a ih =>
    rw [List.forall_mem_append, List.forall_mem_singleton] at hnames hfree
    obtain ⟨left, hfold, hleft, hat⟩ := ih hnames.1 hfree.1
    -- what stands under the name of the artifact is a file by now, or what stood there before
    have hleftfree : left.IsFree (q ++ [a.name]) := by
      intro es
      rw [hat]
      cases lastNamed? artifacts a.name with
      | some b => exact fun h => by cases h
      | none => exact hfree.2 es
    refine ⟨.insert (.file (.text a.content)) (q ++ [a.name]) left, ?_, hleft.insert hleftfree, fun name => ?_⟩
    · rw [List.foldl_append, hfold, List.foldl_cons, List.foldl_nil, add_eq hleft hnames.2 hleftfree, List.map_append]
      rfl
    · rw [lastNamed_append, lastNamed_singleton]
      by_cases hname : a.name = name
      · rw [← hname, FileTree.at_insert_self, if_pos rfl]
        rfl
      · have hne : ¬ q ++ [a.name] <+: q ++ [name] ∧ ¬ q ++ [name] <+: q ++ [a.name] := by
          simp [List.prefix_append_right_inj, hname, Ne.symm hname]
        rw [FileTree.at_insert_beside hne.1 hne.2, hat, if_neg hname]
        rfl

/-- An artifact with the name of a directory is not written. -/
theorem add_blocked {files : FileTree} (paths : List Text) {a : Artifact}
    (hdir : files.IsDirectoryAt (current.join output) q) (hname : IsFileName a.name) {es : List (Text × FileTree)}
    (hes : files.at? (q ++ [a.name]) = some (.directory es)) : (add current output { files, paths } a).error?.isSome := by
  have hfind := (hdir.find_child hname.ne_points).trans hes
  simp only [add, hname.join_ofText, Path.join_child, FileTree.writeFile, hfind]
  rfl

/-- After a failure nothing is written. -/
theorem foldl_failed {w : Written} (h : w.error?.isSome) (artifacts : List Artifact) :
    artifacts.foldl (add current output) w = w := by
  induction artifacts with
  | nil => rfl
  | cons a artifacts ih => rw [List.foldl_cons, add, if_pos h, ih]

/-- The first artifact with the name of a directory is not written. -/
theorem foldl_blocked {artifacts : List Artifact} {files : FileTree}
    (hdir : files.IsDirectoryAt (current.join output) q) (hnames : ∀ a ∈ artifacts, IsFileName a.name) {a : Artifact}
    (ha : a ∈ artifacts) (hblocked : ¬ files.IsFree (q ++ [a.name])) :
    (artifacts.foldl (add current output) { files := files }).error?.isSome := by
  classical
  have hfirst : (artifacts.find? fun a => ¬ files.IsFree (q ++ [a.name])).isSome := by
    rw [List.find?_isSome]
    exact ⟨a, ha, decide_eq_true hblocked⟩
  obtain ⟨b, hb⟩ := Option.isSome_iff_exists.mp hfirst
  obtain ⟨hbblocked, front, rest, rfl, hfront⟩ := List.find?_eq_some_iff_append.mp hb
  have hbblocked : ¬ files.IsFree (q ++ [b.name]) := of_decide_eq_true hbblocked
  have hfree : ∀ x ∈ front, files.IsFree (q ++ [x.name]) := fun x hx => by simpa using hfront x hx
  obtain ⟨left, hfold, hleft, hat⟩ := foldl_add front hdir (fun x hx => hnames x (by simp [hx])) hfree
  -- what was written before has other names
  have hnone : lastNamed? front b.name = none :=
    lastNamed_eq_none fun x hx hname => hbblocked (hname ▸ hfree x hx)
  obtain ⟨es, hes⟩ : ∃ es, files.at? (q ++ [b.name]) = some (.directory es) := by
    simpa [FileTree.IsFree] using hbblocked
  have hnow : left.at? (q ++ [b.name]) = some (.directory es) := by
    rw [hat, hnone, hes]
    rfl
  have herror := add_blocked (front.map fun a => (output.child a.name).toText) hleft (hnames b (by simp)) hnow
  rw [List.foldl_append, hfold, List.foldl_cons, foldl_failed herror]
  exact herror

end Written

/-- The directory has an artifact under its name. -/
def FileTree.Holds (t : FileTree) (directory : Path) (a : Artifact) : Prop :=
  t.find? (directory.child a.name) = some (.file (.text a.content))

/-- **What writing leaves.**  Once the directory is made, and if no directory is in the way of an artifact, all artifacts
are written. -/
theorem writeArtifacts_files {files made : FileTree} {current output : Path} {artifacts : List Artifact}
    (hmade : files.makeDirectory (current.join output) output.toText = .ok made)
    (hnames : ∀ a ∈ artifacts, IsFileName a.name)
    (hfree : ∀ a ∈ artifacts, ∀ es, made.find? ((current.join output).child a.name) ≠ some (.directory es)) :
    ∃ left : FileTree,
      writeArtifacts files current output artifacts =
        { files := left, paths := artifacts.map fun a => (output.child a.name).toText } ∧
      ∀ name, IsFileName name → left.find? ((current.join output).child name) =
        ((lastNamed? artifacts name).map fun a => .file (.text a.content)).or
          (made.find? ((current.join output).child name)) := by
  obtain ⟨q, hdir⟩ := FileTree.makeDirectory_isDirectoryAt hmade
  have hfree' : ∀ a ∈ artifacts, made.IsFree (q ++ [a.name]) := fun a ha es => by
    rw [← hdir.find_child (hnames a ha).ne_points]
    exact hfree a ha es
  obtain ⟨left, hfold, hleft, hat⟩ := Written.foldl_add artifacts hdir hnames hfree'
  refine ⟨left, ?_, fun name hname => ?_⟩
  · rw [writeArtifacts, hmade]
    exact hfold
  · rw [hleft.find_child hname.ne_points, hdir.find_child hname.ne_points]
    exact hat name

/-- All artifacts are written exactly if the directory can be made and none of them has the name of a directory in
it. -/
theorem writeArtifacts_ok_iff {files : FileTree} {current output : Path} {artifacts : List Artifact}
    (hnames : ∀ a ∈ artifacts, IsFileName a.name) :
    (writeArtifacts files current output artifacts).error? = none ↔
      ∃ made, files.makeDirectory (current.join output) output.toText = .ok made ∧
        ∀ a ∈ artifacts, ∀ es, made.find? ((current.join output).child a.name) ≠ some (.directory es) := by
  constructor
  · intro h
    rw [writeArtifacts] at h
    cases hmade : files.makeDirectory (current.join output) output.toText with
    | error e =>
      rw [hmade] at h
      cases h
    | ok made =>
      refine ⟨made, rfl, fun a ha es hes => ?_⟩
      rw [hmade] at h
      obtain ⟨q, hdir⟩ := FileTree.makeDirectory_isDirectoryAt hmade
      rw [hdir.find_child (hnames a ha).ne_points] at hes
      have herror := Written.foldl_blocked hdir hnames ha fun hfree => hfree es hes
      rw [h] at herror
      cases herror
  · rintro ⟨made, hmade, hfree⟩
    obtain ⟨left, hwritten, -⟩ := writeArtifacts_files hmade hnames hfree
    rw [hwritten]

end SourceDoc
