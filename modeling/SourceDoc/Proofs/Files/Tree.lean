import Mathlib.Data.List.Nodup
import SourceDoc.Files.Tree

/-!
# The files of a tree

No two entries of a directory have the same name (`HasDistinctNames`), so different files are reached by different
parts (`nodup_map_filesOf`).
-/

namespace SourceDoc.FileTree

mutual

/-- The entries of each directory have names of their own. -/
def HasDistinctNames : FileTree → Prop
  | file _ => True
  | directory es => (es.map Prod.fst).Nodup ∧ AllHaveDistinctNames es

/-- Each of some entries is a tree with distinct names. -/
def AllHaveDistinctNames : List (Text × FileTree) → Prop
  | [] => True
  | (_, t) :: rest => t.HasDistinctNames ∧ AllHaveDistinctNames rest

end

theorem mem_filesOf_cons (name : Text) (t : FileTree) (rest : List (Text × FileTree)) (parts : List Text)
    (c : Content) :
    (parts, c) ∈ filesOf ((name, t) :: rest) ↔
      (∃ below, parts = name :: below ∧ (below, c) ∈ t.files) ∨ (parts, c) ∈ filesOf rest := by
  rw [filesOf, List.mem_append]
  refine or_congr_left ?_
  constructor
  · intro h
    obtain ⟨⟨below, d⟩, hmem, he⟩ := List.mem_map.mp h
    obtain ⟨rfl, rfl⟩ := Prod.mk.inj he
    exact ⟨below, rfl, hmem⟩
  · rintro ⟨below, rfl, hmem⟩
    exact List.mem_map.mpr ⟨(below, c), hmem, rfl⟩

/-- The parts that lead to a file among some entries start with the name of an entry. -/
theorem exists_name_of_mem_filesOf (es : List (Text × FileTree)) (parts : List Text) (c : Content)
    (h : (parts, c) ∈ filesOf es) : ∃ name below, parts = name :: below ∧ name ∈ es.map Prod.fst := by
  induction es with
  | nil => simp [filesOf] at h
  | cons e rest ih =>
    obtain ⟨name, t⟩ := e
    rcases (mem_filesOf_cons name t rest parts c).mp h with ⟨below, rfl, -⟩ | hrest
    · exact ⟨name, below, rfl, by simp⟩
    · obtain ⟨name', below, rfl, hname⟩ := ih hrest
      exact ⟨name', below, rfl, List.mem_cons_of_mem _ hname⟩

theorem map_fst_filesOf_cons (name : Text) (t : FileTree) (rest : List (Text × FileTree)) :
    (filesOf ((name, t) :: rest)).map Prod.fst =
      (t.files.map Prod.fst).map (List.cons name) ++ (filesOf rest).map Prod.fst := by
  rw [filesOf, List.map_append, List.map_map, List.map_map]
  rfl

mutual

/-- **Different files are reached by different parts.** -/
theorem nodup_map_files : (t : FileTree) → t.HasDistinctNames → (t.files.map Prod.fst).Nodup
  | file c, _ => by simp [files]
  | directory es, h => by
    rw [HasDistinctNames] at h
    rw [files]
    exact nodup_map_filesOf es h.1 h.2

theorem nodup_map_filesOf : (es : List (Text × FileTree)) → (es.map Prod.fst).Nodup → AllHaveDistinctNames es →
    ((filesOf es).map Prod.fst).Nodup
  | [], _, _ => by simp [filesOf]
  | (name, t) :: rest, hnames, h => by
    rw [AllHaveDistinctNames] at h
    rw [List.map_cons, List.nodup_cons] at hnames
    have hfirst : ((t.files.map Prod.fst).map (List.cons name)).Nodup :=
      (nodup_map_files t h.1).map List.cons_injective
    have hrest := nodup_map_filesOf rest hnames.2 h.2
    rw [map_fst_filesOf_cons]
    refine List.nodup_append'.mpr ⟨hfirst, hrest, ?_⟩
    -- the parts to a file below the first entry start with its name, those to the others with another name
    intro parts hleft hright
    obtain ⟨below, -, rfl⟩ := List.mem_map.mp hleft
    obtain ⟨⟨_, c⟩, hc, rfl⟩ := List.mem_map.mp hright
    obtain ⟨name', below', he, hname'⟩ := exists_name_of_mem_filesOf rest _ c hc
    obtain ⟨rfl, -⟩ := List.cons.inj he
    exact hnames.1 hname'

end

end SourceDoc.FileTree
