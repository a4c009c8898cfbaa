import Mathlib.Data.List.Basic
import SourceDoc.Page.Renderer
import SourceDoc.Proofs.Files.Output
import SourceDoc.Proofs.Text.Line

/-!
# The names of pages

A page is named by a stem and the extension of its format, from which both can be told (`pageName_inj`).  The stem of
the page of a document is the base name of the path of the document.  An index has a stem of its own, and so has the page
that combines documents (`Format.reserved`): a document with such a base name shares its page's name with them.
-/

namespace SourceDoc

/-- The last part of a written path without its extension. -/
def Path.baseName (path : Text) : Text := (splitExtension (fileName path)).1

namespace Format

/-- The name of a page in the format. -/
def pageName (f : Format) (stem : Text) : Text := stem ++ '.' :: f.extension

/-- The stems of the pages about all documents. -/
def reserved (f : Format) (isCombined : Bool) : List Text :=
  "index".toList :: if isCombined && f = .json then ["combined-documentation".toList] else []

theorem nodup_reserved (f : Format) (isCombined : Bool) : (f.reserved isCombined).Nodup := by
  cases f <;> cases isCombined <;> decide

theorem not_mem_reserved (f : Format) (isCombined : Bool) : ∀ stem ∈ f.reserved isCombined, '/' ∉ stem := by
  cases f <;> cases isCombined <;> decide

theorem extension_ne_nil (f : Format) : f.extension ≠ [] := by cases f <;> decide

theorem not_mem_extension {c : Char} (h : c = '.' ∨ c = '/') (f : Format) : c ∉ f.extension := by
  rcases h with rfl | rfl <;> cases f <;> decide

theorem extension_inj {f g : Format} (h : f.extension = g.extension) : f = g := by
  cases f <;> cases g <;> first | rfl | exact absurd h (by decide)

/-- **A page's name tells its stem and its format.** -/
theorem pageName_inj {f g : Format} {stem stem' : Text} (h : f.pageName stem = g.pageName stem') :
    stem = stem' ∧ f = g := by
  -- the last point of a name is the one in front of the extension
  have hlast : ∀ {f g : Format} {more : Text}, '.' :: f.extension = more ++ '.' :: g.extension → more = [] ∧ f = g := by
    intro f g more hrest
    cases more with
    | nil => exact ⟨rfl, extension_inj (List.cons.inj hrest).2⟩
    | cons c more =>
      refine absurd ?_ (f.not_mem_extension (.inl rfl) : '.' ∉ f.extension)
      rw [(List.cons.inj hrest).2]
      exact List.mem_append_right _ List.mem_cons_self
  rcases List.append_eq_append_iff.mp h with ⟨more, hstem, hrest⟩ | ⟨more, hstem, hrest⟩
  · obtain ⟨rfl, rfl⟩ := hlast hrest
    exact ⟨by rw [hstem, List.append_nil], rfl⟩
  · obtain ⟨rfl, rfl⟩ := hlast hrest
    exact ⟨by rw [hstem, List.append_nil], rfl⟩

theorem pageName_injective (f : Format) : Function.Injective f.pageName := fun _ _ h => (pageName_inj h).1

/-- A name begins with a stem and a point if its own stem does, or is that stem. -/
theorem startsWith_pageName {head : Text} (hhead : '.' ∉ head) (f : Format) (stem : Text) :
    Text.startsWith (f.pageName stem) (head ++ ['.']) = true ↔
      stem = head ∨ Text.startsWith stem (head ++ ['.']) = true := by
  unfold Text.startsWith
  rw [List.isPrefixOf_iff_prefix, List.isPrefixOf_iff_prefix]
  constructor
  · rintro ⟨rest, h⟩
    rw [List.append_assoc] at h
    rcases List.append_eq_append_iff.mp h with ⟨more, hstem, hrest⟩ | ⟨more, hstem, hrest⟩
    · cases more with
      | nil => exact .inl (by rw [hstem, List.append_nil])
      | cons c more =>
        obtain ⟨rfl, -⟩ := List.cons.inj hrest
        exact .inr ⟨more, by rw [hstem, List.append_assoc]; rfl⟩
    · cases more with
      | nil => exact .inl (by rw [hstem, List.append_nil])
      | cons c more =>
        obtain ⟨rfl, -⟩ := List.cons.inj hrest
        exact absurd (hstem ▸ List.mem_append_right _ List.mem_cons_self) hhead
  · rintro (rfl | ⟨rest, rfl⟩)
    · exact ⟨f.extension, by rw [pageName, List.append_assoc]; rfl⟩
    · exact ⟨rest ++ '.' :: f.extension, by rw [pageName]; simp⟩

/-- **A stem without slashes names a file.** -/
theorem isFileName_pageName {stem : Text} (h : '/' ∉ stem) (f : Format) : IsFileName (f.pageName stem) := by
  -- the extension has a character that is no point
  obtain ⟨c, hc⟩ := List.exists_mem_of_ne_nil _ f.extension_ne_nil
  have hmem : c ∈ f.pageName stem := List.mem_append_right _ (List.mem_cons_of_mem _ hc)
  have hpoint : c ≠ '.' := fun he => f.not_mem_extension (.inl rfl) (he ▸ hc)
  refine ⟨?_, List.ne_nil_of_mem hmem, ?_, ?_⟩
  · rw [pageName, List.mem_append, List.mem_cons]
    rintro (hslash | hslash | hslash)
    · exact h hslash
    · cases hslash
    · exact f.not_mem_extension (.inr rfl) hslash
  · intro he
    rw [he] at hmem
    exact hpoint (List.mem_singleton.mp hmem)
  · intro he
    rw [he] at hmem
    exact hpoint (by simpa using hmem)

end Format

/-- The base name of a path is that of an index, or begins with it and a point. -/
def Path.namesIndex (path : Text) : Bool :=
  baseName path = "index".toList || Text.startsWith (baseName path) "index.".toList

/-- **The page of a document has a name like an index if its base name has.** -/
theorem startsWith_outputName (path : Text) (f : Format) :
    Text.startsWith (outputName path f.extension) "index.".toList = Path.namesIndex path := by
  have h := Format.startsWith_pageName (by decide : '.' ∉ "index".toList) f (Path.baseName path)
  rw [Bool.eq_iff_iff, Path.namesIndex, Bool.or_eq_true, decide_eq_true_iff]
  exact h

/-- The last part of a path has no slashes. -/
theorem Path.not_mem_fileName (path : Text) : '/' ∉ Path.fileName path := by
  unfold fileName Text.afterLast
  cases h : (Text.splitOn '/' path).getLast? with
  | none => exact List.not_mem_nil
  | some piece => exact Text.not_mem_of_mem_splitOn (List.mem_of_getLast? h)

/-- A base name has no slashes. -/
theorem Path.not_mem_baseName (path : Text) : '/' ∉ Path.baseName path := by
  have hname : '/' ∉ fileName path := not_mem_fileName path
  unfold baseName splitExtension
  simp only
  split
  · exact hname
  · exact fun hm => hname (List.mem_of_mem_take hm)

end SourceDoc
