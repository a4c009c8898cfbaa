import Mathlib.Data.List.Basic
import SourceDoc.Files.Tree
import SourceDoc.Proofs.Table

/-!
# Writing into a tree

The parts of a path lead to names below the root (`follow?`), and what stands at the path is what stands at these names
(`find_eq`).  A file or a directory that is put where no directory stands changes no way that could be gone before
(`follow_insert`) and nothing beside it (`at_insert_beside`).  So a directory that was made is there
(`makeDirectory_isDirectoryAt`), and a file that is written into a directory is there and the other entries of the
directory stay (`writeFile_child`, `find_insert_child`).
-/

namespace SourceDoc.FileTree

/-! ## Names -/

/-- What stands at the end of some names, each that of an entry. -/
def at? (t : FileTree) : List Text → Option FileTree
  | [] => some t
  | name :: rest => (Table.get? name t.entries).bind fun next => next.at? rest

variable {t u new : FileTree} {q q' done parts : List Text}

theorem at_append (t : FileTree) (q q' : List Text) : t.at? (q ++ q') = (t.at? q).bind fun u => u.at? q' := by
  induction q generalizing t with
  | nil => rfl
  | cons name q ih =>
    rw [List.cons_append, at?, at?]
    cases Table.get? name t.entries with
    | none => rfl
    | some next => exact ih next

/-- What stands below something stands below a directory. -/
theorem exists_directory_of_at {name : Text} (h : t.at? (q ++ name :: q') = some u) :
    ∃ es, t.at? q = some (directory es) := by
  rw [at_append] at h
  obtain ⟨above, habove, hbelow⟩ := Option.bind_eq_some_iff.mp h
  cases above with
  | file c => cases hbelow
  | directory es => exact ⟨es, habove⟩

/-! ## Putting something at names -/

theorem at_insert_self (new : FileTree) (q : List Text) (t : FileTree) : (insert new q t).at? q = some new := by
  induction q generalizing t with
  | nil => rfl
  | cons name q ih =>
    rw [insert, at?, entries, Table.get_put, if_pos rfl]
    exact ih _

/-- Above what is put there are directories. -/
theorem at_insert_above (hfront : q' <+: q) (hne : q' ≠ q) (t : FileTree) :
    ∃ es, (insert new q t).at? q' = some (directory es) := by
  obtain ⟨below, rfl⟩ := hfront
  cases below with
  | nil => exact absurd (List.append_nil q').symm hne
  | cons name below => exact exists_directory_of_at (at_insert_self new _ t)

/-- **Beside what is put everything stays.** -/
theorem at_insert_beside (hbelow : ¬ q <+: q') (habove : ¬ q' <+: q) (t : FileTree) :
    (insert new q t).at? q' = t.at? q' := by
  induction q generalizing q' t with
  | nil => exact absurd List.nil_prefix hbelow
  | cons name q ih =>
    cases q' with
    | nil => exact absurd List.nil_prefix habove
    | cons name' q' =>
      rw [insert, at?, at?, entries, Table.get_put]
      by_cases hname : name = name'
      · subst hname
        rw [if_pos rfl]
        have hbelow' : ¬ q <+: q' := fun h => hbelow ((List.prefix_cons_inj name).mpr h)
        have habove' : ¬ q' <+: q := fun h => habove ((List.prefix_cons_inj name).mpr h)
        refine (ih hbelow' habove' _).trans ?_
        cases Table.get? name t.entries with
        | some next => rfl
        | none =>
          cases q' with
          | nil => exact absurd ((List.prefix_cons_inj name).mpr List.nil_prefix) habove
          | cons => rfl
      · rw [if_neg hname]

/-- No directory stands at some names. -/
def IsFree (t : FileTree) (q : List Text) : Prop := ∀ es, t.at? q ≠ some (directory es)

/-- What is put where no directory stands is there, and all that was there stays or is a directory now. -/
theorem at_insert_cases (new : FileTree) (hfree : t.IsFree q) (h : t.at? q' = some u) :
    q' = q ∨ (insert new q t).at? q' = some u ∨ ∃ es, (insert new q t).at? q' = some (directory es) := by
  by_cases hbelow : q <+: q'
  · obtain ⟨below, rfl⟩ := hbelow
    cases below with
    | nil => exact .inl (List.append_nil q)
    | cons name below =>
      obtain ⟨es, hes⟩ := exists_directory_of_at h
      exact absurd hes (hfree es)
  · by_cases habove : q' <+: q
    · exact .inr (.inr (at_insert_above habove (fun he => hbelow (he ▸ List.prefix_rfl)) t))
    · exact .inr (.inl ((at_insert_beside hbelow habove t).trans h))

theorem exists_at_insert (hfree : t.IsFree q) (h : (t.at? q').isSome = true) :
    ((insert new q t).at? q').isSome = true := by
  obtain ⟨u, hu⟩ := Option.isSome_iff_exists.mp h
  rcases at_insert_cases new hfree hu with rfl | hsame | ⟨es, hes⟩
  · rw [at_insert_self]
    rfl
  · rw [hsame]
    rfl
  · rw [hes]
    rfl

theorem exists_directory_at_insert (new : FileTree) (hfree : t.IsFree q) {es : List (Text × FileTree)}
    (h : t.at? q' = some (directory es)) : ∃ es', (insert new q t).at? q' = some (directory es') := by
  rcases at_insert_cases new hfree h with rfl | hsame | hdirectory
  · exact absurd h (hfree es)
  · exact ⟨es, hsame⟩
  · exact hdirectory

/-! ## Following parts -/

/-- The names that some parts lead to from a directory: two points lead to the directory above. -/
def follow? (t : FileTree) (done : List Text) : List Text → Option (List Text)
  | [] => some done
  | part :: rest =>
    match t.at? done with
    | some (directory _) =>
      if part = ['.', '.'] then follow? t done.dropLast rest
      else if (t.at? (done ++ [part])).isSome then follow? t (done ++ [part]) rest
      else none
    | _ => none

theorem follow_cons (t : FileTree) (done : List Text) (part : Text) (rest : List Text) :
    t.follow? done (part :: rest) =
      match t.at? done with
      | some (directory _) =>
        if part = ['.', '.'] then t.follow? done.dropLast rest
        else if (t.at? (done ++ [part])).isSome then t.follow? (done ++ [part]) rest
        else none
      | _ => none := rfl

/-- Something stands at some names, and `above` are the directories on the way, nearest first. -/
inductive StandsAt (t : FileTree) : List Text → List FileTree → FileTree → Prop where
  | root : StandsAt t [] [] t
  | entry (done : List Text) (above : List FileTree) (u next : FileTree) (name : Text) (h : StandsAt t done above u)
      (hname : Table.get? name u.entries = some next) : StandsAt t (done ++ [name]) (u :: above) next

theorem StandsAt.at_eq {above : List FileTree} (h : StandsAt t done above u) : t.at? done = some u := by
  induction h with
  | root => rfl
  | entry done above u next name _ hname ih =>
    rw [at_append, ih]
    simp [at?, hname]

theorem findFrom_eq {above : List FileTree} (h : StandsAt t done above u) (parts : List Text) :
    findFrom? above u parts = (t.follow? done parts).bind t.at? := by
  induction parts generalizing done above u with
  | nil => exact h.at_eq.symm
  | cons part rest ih =>
    unfold findFrom?
    rw [follow_cons, h.at_eq]
    cases u with
    | file c => rfl
    | directory es =>
      by_cases hup : part = ['.', '.']
      · simp only [isDirectory, hup, if_true]
        cases h with
        | root => exact ih .root
        | entry done above u next name habove hname =>
          rw [List.dropLast_concat]
          exact ih habove
      · have hat : t.at? (done ++ [part]) = Table.get? part es := by
          rw [at_append, h.at_eq]
          simp [at?, entries]
        simp only [isDirectory, hup, if_false, hat, entries]
        cases hnext : Table.get? part es with
        | none => rfl
        | some next => exact ih (.entry done above _ next part h hnext)

/-- **What stands at a path is what stands at the names that its parts lead to.** -/
theorem find_eq (t : FileTree) (p : Path) : t.find? p = (t.follow? [] p.parts).bind t.at? := findFrom_eq .root p.parts

theorem follow_append (t : FileTree) (done parts parts' : List Text) :
    t.follow? done (parts ++ parts') = (t.follow? done parts).bind fun q => t.follow? q parts' := by
  induction parts generalizing done with
  | nil => rfl
  | cons part rest ih =>
    rw [List.cons_append, follow_cons, follow_cons]
    split
    · split
      · exact ih _
      · split
        · exact ih _
        · rfl
    · rfl

theorem foldl_of_follow (h : t.follow? done parts = some q) :
    parts.foldl (fun done part => if part = ['.', '.'] then done.dropLast else done ++ [part]) done = q := by
  induction parts generalizing done with
  | nil => exact Option.some.inj h
  | cons part rest ih =>
    rw [follow_cons] at h
    rw [List.foldl_cons]
    split at h
    · split at h
      · rename_i hup
        rw [if_pos hup]
        exact ih h
      · rename_i hup
        rw [if_neg hup]
        split at h
        · exact ih h
        · cases h
    · cases h

/-- Where the parts lead is where they lead by name. -/
theorem collapse_of_follow (h : t.follow? [] parts = some q) : Path.collapse parts = q := foldl_of_follow h

/-- **What is put where no directory stands is in nobody's way.** -/
theorem follow_insert (hfree : t.IsFree q) (h : t.follow? done parts = some q') :
    (insert new q t).follow? done parts = some q' := by
  induction parts generalizing done with
  | nil => exact h
  | cons part rest ih =>
    rw [follow_cons] at h ⊢
    split at h
    · rename_i es hes
      obtain ⟨es', hes'⟩ := exists_directory_at_insert new hfree hes
      rw [hes']
      split at h
      · rename_i hup
        rw [if_pos hup]
        exact ih h
      · rename_i hup
        rw [if_neg hup]
        split at h
        · rename_i hnext
          rw [if_pos (exists_at_insert hfree hnext)]
          exact ih h
        · cases h
    · cases h

/-! ## Directories -/

/-- A directory stands at a path, at these names below the root. -/
def IsDirectoryAt (t : FileTree) (p : Path) (q : List Text) : Prop :=
  t.follow? [] p.parts = some q ∧ ∃ es, t.at? q = some (directory es)

namespace IsDirectoryAt

variable {p : Path} {name : Text}

theorem find_eq (h : t.IsDirectoryAt p q) : ∃ es, t.find? p = some (directory es) := by
  obtain ⟨hfollow, es, hes⟩ := h
  refine ⟨es, ?_⟩
  rw [FileTree.find_eq, hfollow]
  exact hes

/-- **What stands at an entry of a directory stands at its name.** -/
theorem find_child (h : t.IsDirectoryAt p q) (hname : name ≠ ['.', '.']) :
    t.find? (p.child name) = t.at? (q ++ [name]) := by
  obtain ⟨hfollow, es, hes⟩ := h
  rw [FileTree.find_eq, Path.child, follow_append, hfollow, Option.bind_some, follow_cons, hes]
  simp only [hname, if_false]
  cases hat : t.at? (q ++ [name]) with
  | none => rfl
  | some u => exact hat

/-- The names of an entry are those of the directory and its own. -/
theorem collapse_child (h : t.IsDirectoryAt p q) (hname : name ≠ ['.', '.']) :
    Path.collapse (p.child name).parts = q ++ [name] := by
  have hp : Path.collapse p.parts = q := collapse_of_follow h.1
  rw [Path.child, Path.collapse, List.foldl_append]
  change (if name = ['.', '.'] then (Path.collapse p.parts).dropLast else Path.collapse p.parts ++ [name]) = q ++ [name]
  rw [if_neg hname, hp]

/-- Below a directory stands a directory. -/
theorem down (h : t.IsDirectoryAt p q) (hname : name ≠ ['.', '.']) {es : List (Text × FileTree)}
    (hes : t.at? (q ++ [name]) = some (directory es)) : t.IsDirectoryAt (p.child name) (q ++ [name]) := by
  obtain ⟨hfollow, es', hes'⟩ := h
  refine ⟨?_, es, hes⟩
  rw [Path.child, follow_append, hfollow, Option.bind_some, follow_cons, hes']
  simp only [hname, if_false, hes]
  rfl

/-- Above a directory stands a directory. -/
theorem up (h : t.IsDirectoryAt p q) : t.IsDirectoryAt (p.child ['.', '.']) q.dropLast := by
  obtain ⟨hfollow, es, hes⟩ := h
  refine ⟨?_, ?_⟩
  · rw [Path.child, follow_append, hfollow, Option.bind_some, follow_cons, hes]
    rfl
  · rcases List.eq_nil_or_concat q with rfl | ⟨above, last, rfl⟩
    · exact ⟨es, hes⟩
    · rw [List.concat_eq_append] at hes ⊢
      rw [List.dropLast_concat]
      exact exists_directory_of_at hes

/-- A directory stays where something is put in no directory's place. -/
theorem insert (h : t.IsDirectoryAt p q) (hfree : t.IsFree q') : (insert new q' t).IsDirectoryAt p q := by
  obtain ⟨hfollow, es, hes⟩ := h
  exact ⟨follow_insert hfree hfollow, exists_directory_at_insert new hfree hes⟩

end IsDirectoryAt

/-! ## Making directories -/

theorem insertDirectory_eq (h : ∀ u, t.at? q = some u → u = directory []) :
    insertDirectory q t = insert (directory []) q t := by
  induction q generalizing t with
  | nil =>
    rw [h t rfl]
    rfl
  | cons name q ih =>
    rw [insertDirectory, insert]
    refine congrArg (fun u => directory (Table.put name u t.entries)) (ih fun u hu => ?_)
    cases hnext : Table.get? name t.entries with
    | some next =>
      refine h u ?_
      rw [hnext] at hu
      rw [at?, hnext]
      exact hu
    | none =>
      rw [hnext] at hu
      cases q with
      | nil => exact (Option.some.inj hu).symm
      | cons => cases hu

/-- A directory that was made is there, where the one above it was. -/
theorem ensureDirectory_isDirectoryAt {p : Path} {part : Text} {made : FileTree} (h : t.IsDirectoryAt p q)
    (hmade : t.ensureDirectory (p.child part) = .ok made) : ∃ q', made.IsDirectoryAt (p.child part) q' := by
  by_cases hup : part = ['.', '.']
  · subst hup
    obtain ⟨es, hfind⟩ := h.up.find_eq
    rw [ensureDirectory, hfind] at hmade
    cases hmade
    exact ⟨_, h.up⟩
  · rw [ensureDirectory, h.find_child hup, h.collapse_child hup] at hmade
    refine ⟨q ++ [part], ?_⟩
    cases hat : t.at? (q ++ [part]) with
    | some u =>
      rw [hat] at hmade
      cases u with
      | file c => cases hmade
      | directory es =>
        cases hmade
        exact h.down hup hat
    | none =>
      have hfree : t.IsFree (q ++ [part]) := fun es hes => by cases hat.symm.trans hes
      rw [hat, insertDirectory_eq (fun u hu => by cases hat.symm.trans hu)] at hmade
      cases hmade
      exact (h.insert hfree).down hup (at_insert_self _ _ t)

theorem fronts_concat (parts : List Text) (part : Text) : fronts (parts ++ [part]) = fronts parts ++ [parts ++ [part]] := by
  unfold fronts
  rw [List.length_append, List.length_singleton, List.range_succ, List.map_append, List.map_singleton]
  congr 1
  · refine List.map_congr_left fun n hn => List.take_append_of_le_length ?_
    exact Nat.lt_succ_iff.mp (List.mem_range.mp hn)
  · rw [List.take_of_length_le (by simp)]

theorem foldlM_ensureDirectory {root : Text} (parts : List Text) {made : FileTree}
    (h : (fronts parts).foldlM (fun t front => t.ensureDirectory ⟨root, front⟩) t = .ok made) :
    ∃ q, made.IsDirectoryAt ⟨root, parts⟩ q := by
  induction parts using List.reverseRecOn generalizing made with
  | nil =>
    cases t with
    | file c => cases h
    | directory es =>
      cases h
      exact ⟨[], rfl, es, rfl⟩
  | append_singleton parts part ih =>
    rw [fronts_concat, List.foldlM_append] at h
    cases hfront : (fronts parts).foldlM (fun t front => t.ensureDirectory ⟨root, front⟩) t with
    | error e =>
      rw [hfront] at h
      cases h
    | ok above =>
      rw [hfront] at h
      obtain ⟨q, hq⟩ := ih hfront
      have hmade : above.ensureDirectory (Path.child ⟨root, parts⟩ part) = .ok made := by
        rw [← h]
        exact (bind_pure _).symm
      exact ensureDirectory_isDirectoryAt hq hmade

/-- **A directory that was made is there.** -/
theorem makeDirectory_isDirectoryAt {p : Path} {shown : Text} {made : FileTree}
    (h : t.makeDirectory p shown = .ok made) : ∃ q, made.IsDirectoryAt p q := by
  rw [makeDirectory] at h
  split at h
  · exact foldlM_ensureDirectory p.parts h
  · split at h <;> cases h

/-! ## Writing files -/

/-- **A file can be written into a directory where no directory has its name.** -/
theorem writeFile_child {p : Path} {name : Text} (shown content : Text) (h : t.IsDirectoryAt p q) (hname : name ≠ ['.', '.'])
    (hfree : t.IsFree (q ++ [name])) :
    t.writeFile (p.child name) shown content = .ok (insert (file (.text content)) (q ++ [name]) t) := by
  have hparent : (p.child name).parent = p := by rw [Path.child, Path.parent, List.dropLast_concat]
  obtain ⟨es, hfind⟩ := h.find_eq
  rw [writeFile, h.find_child hname, h.collapse_child hname, hparent, hfind]
  cases hat : t.at? (q ++ [name]) with
  | none => rfl
  | some u =>
    cases u with
    | file c => rfl
    | directory es' => exact absurd hat (hfree es')

end SourceDoc.FileTree
