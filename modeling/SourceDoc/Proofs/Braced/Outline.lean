import SourceDoc.Extractor.Basic
import SourceDoc.Proofs.Braced.TypeDecl

/-!
# Well-formed outlines of braced sources

Every braced source has an outline.  Functions and types are found by scans of their own, and never on one line, since
what marks the one does not mark the other; so put together they have lines of their own, and so have the exports that
are made of them.

    ∃ o, (Extractor.builtIn .go).extract path source = .ok o ∧ IsWellFormed … o          (extract_isWellFormed)
-/

namespace SourceDoc.Braced

open Text

/-! ## What well-formed means -/

/-- The methods of a type are its own, which only an interface has and which stand each on one line inside it, and after
them the functions with that receiver, in order. -/
structure HasMethods (functions : List FunctionDecl) (t : SourceDoc.TypeDecl) : Prop where
  methods : t.methods = (t.methods.filter fun m => m.receiver = []) ++ functions.filter fun f => f.receiver = t.name
  own : ∀ m ∈ t.methods, m.receiver = [] → t.isInterface = true ∧ m.startLine = m.endLine ∧
    t.startLine ≤ m.startLine ∧ m.endLine ≤ t.endLine

/-- The export of a function. -/
def functionExport (f : FunctionDecl) : Export :=
  { name := f.name, kind := "function".toList, startLine := f.startLine }

/-- The export of a type. -/
def typeExport (t : SourceDoc.TypeDecl) : Export :=
  { name := t.name, kind := "type".toList, startLine := t.startLine }

/-- An outline of a file with so many lines. -/
structure IsWellFormed (lineCount : Nat) (o : Outline) : Prop where
  /-- No two symbols start on one line. -/
  increasing : (o.decls.map Decl.startLine).Pairwise (· < ·)
  spans : ∀ d ∈ o.decls, 1 ≤ d.startLine ∧ d.startLine ≤ d.endLine ∧ d.endLine ≤ lineCount
  named : ∀ d ∈ o.decls, isIdentifier d.name = true
  methods : ∀ t ∈ o.types, HasMethods o.functions t
  exports_ordered : (o.exports.map fun e => e.startLine).Pairwise (· ≤ ·)
  /-- The functions without a receiver whose names start with a capital letter are exports, each once. -/
  function_exports : (o.exports.filter fun e => e.kind = "function".toList) =
    (o.functions.filter fun f => f.receiver = [] ∧ isPublic f.name).map functionExport
  /-- The types whose names start with a capital letter are exports, each once. -/
  type_exports : (o.exports.filter fun e => e.kind = "type".toList) =
    (o.types.filter fun t => isPublic t.name).map typeExport

/-! ## Functions and types together -/

section

variable {lines : List Text} {total : Nat} {functions : List FunctionDecl} {types : List SourceDoc.TypeDecl}

/-- What marks the first line of a function does not mark that of a type. -/
theorem not_function_and_type {i : Nat} {f : FunctionDecl} {t : SourceDoc.TypeDecl} (hf : IsFunctionOn lines total i f)
    (ht : IsTypeOn lines total i t) : False := by
  have hmark := hf.marked
  have htype := ht.marked
  generalize (lines[i]?).getD [] = line at hmark htype
  cases line with
  | nil => cases hmark
  | cons c line =>
    have hc : c = 'f' := by
      have := List.isPrefixOf_iff_prefix.mp hmark
      exact (List.cons_prefix_cons.mp this).1.symm
    rw [hc] at htype
    rcases htype with htype | htype <;> cases htype

/-- A type with its methods lies where it did, and is marked in the same way. -/
theorem IsTypeOn.attach {i : Nat} {t : SourceDoc.TypeDecl} (h : IsTypeOn lines total i t)
    (functions : List FunctionDecl) : LiesAt lines total i (.type (attach functions t)) :=
  ⟨h.lies.starts, h.lies.start_le, h.lies.end_le, h.lies.named⟩

theorem name_ne_nil {i : Nat} {d : Decl} (h : LiesAt lines total i d) : d.name ≠ [] := by
  intro hnil
  have := h.named
  rw [hnil] at this
  cases this

/-- **A type has its own methods and those that are attached.** -/
theorem hasMethods_attach {i : Nat} {t : SourceDoc.TypeDecl} (h : IsTypeOn lines total i t)
    (functions : List FunctionDecl) : HasMethods functions (attach functions t) := by
  have hname : t.name ≠ [] := name_ne_nil h.lies
  have hattached : (functions.filter fun f => f.receiver ≠ [] ∧ f.receiver = t.name) =
      functions.filter fun f => f.receiver = t.name := by
    refine List.filter_congr fun f _ => ?_
    by_cases hf : f.receiver = t.name
    · simp [hf, hname]
    · simp [hf]
  have hown : (t.methods.filter fun m => m.receiver = []) = t.methods :=
    List.filter_eq_self.mpr fun m hm => decide_eq_true (h.methods m hm).2.1
  have hother : ((functions.filter fun f => f.receiver = t.name).filter fun m => m.receiver = []) = [] := by
    refine List.filter_eq_nil_iff.mpr fun f hf => ?_
    have := of_decide_eq_true (List.mem_filter.mp hf).2
    simp [this, hname]
  refine ⟨?_, ?_⟩
  · show t.methods ++ _ = (t.methods ++ _).filter _ ++ functions.filter _
    rw [hattached, List.filter_append, hown, hother, List.append_nil]
    rfl
  · intro m hm hreceiver
    rcases List.mem_append.mp hm with hm | hm
    · obtain ⟨hinterface, -, hline, hstart, hend⟩ := h.methods m hm
      exact ⟨hinterface, hline, hstart, hend⟩
    · exact absurd hreceiver (of_decide_eq_true (List.mem_filter.mp hm).2).1

/-- The symbols of a file before they are put in order. -/
def symbolsOf (functions : List FunctionDecl) (types : List SourceDoc.TypeDecl) : List Decl :=
  functions.map Decl.function ++ types.map Decl.type

theorem functions_symbolsOf : (symbolsOf functions types).filterMap Decl.function? = functions := by
  simp [symbolsOf, List.filterMap_append, List.filterMap_map, Function.comp_def, Decl.function?]

theorem types_symbolsOf : (symbolsOf functions types).filterMap Decl.type? = types := by
  simp [symbolsOf, List.filterMap_append, List.filterMap_map, Function.comp_def, Decl.type?]

/-- Symbols of one kind are found again among symbols that were put in order. -/
theorem filterMap_ordered {α : Type} (key : α → Int) {part? : Decl → Option α} {decls decls' : List Decl}
    (hkey : ∀ d a, part? d = some a → key a = d.startLine) (hp : decls.Perm decls')
    (h : decls.Pairwise fun d d' => d.startLine < d'.startLine)
    (h' : (decls'.filterMap part?).Pairwise fun a a' => key a < key a') :
    decls.filterMap part? = decls'.filterMap part? := by
  refine eq_of_perm_of_increasing key (hp.filterMap part?) ?_ h'
  rw [List.pairwise_filterMap]
  refine h.imp fun hlt a ha a' ha' => ?_
  rw [hkey _ a ha, hkey _ a' ha']
  exact hlt

/-- **The symbols, put in order, have lines of their own,** and their functions and types are those that were found. -/
theorem ordered_symbols (hf : ∀ f ∈ functions, ∃ i < lines.length, IsFunctionOn lines total i f)
    (hfs : functions.Pairwise fun f f' => f.startLine < f'.startLine)
    (ht : ∀ t ∈ types, ∃ i < lines.length, IsTypeOn lines total i t)
    (hts : types.Pairwise fun t t' => t.startLine < t'.startLine) {decls : List Decl}
    (hdecls : decls = (symbolsOf functions (types.map (attach functions))).mergeSort
      fun d d' => d.startLine ≤ d'.startLine) :
    (decls.Pairwise fun d d' => d.startLine < d'.startLine) ∧ decls.filterMap Decl.function? = functions ∧
      decls.filterMap Decl.type? = types.map (attach functions) := by
  have hp : decls.Perm (symbolsOf functions (types.map (attach functions))) := hdecls ▸ List.mergeSort_perm _ _
  have hattached : (types.map (attach functions)).Pairwise fun t t' => t.startLine < t'.startLine :=
    List.pairwise_map.mpr hts
  have hfd : ((functions.map Decl.function).map Decl.startLine).Nodup := by
    rw [List.map_map]
    exact nodup_of_increasing _ hfs
  have htd : (((types.map (attach functions)).map Decl.type).map Decl.startLine).Nodup := by
    rw [List.map_map]
    exact nodup_of_increasing _ hattached
  have hapart : ∀ f ∈ functions, ∀ t ∈ types, f.startLine ≠ t.startLine := by
    intro f hfm t htm he
    obtain ⟨i, -, hfi⟩ := hf f hfm
    obtain ⟨j, -, htj⟩ := ht t htm
    have hi := hfi.lies.starts
    have hj := htj.lies.starts
    simp only [Decl.startLine] at hi hj
    obtain rfl : i = j := by omega
    exact not_function_and_type hfi htj
  have hnodup : ((symbolsOf functions (types.map (attach functions))).map Decl.startLine).Nodup := by
    rw [symbolsOf, List.map_append, List.nodup_append]
    refine ⟨hfd, htd, ?_⟩
    simp only [List.map_map, List.mem_map, Function.comp_apply]
    rintro _ ⟨f, hfm, rfl⟩ _ ⟨t, htm, rfl⟩
    exact hapart f hfm t htm
  have hincreasing : decls.Pairwise fun d d' => d.startLine < d'.startLine := by
    refine increasing_of_nodup _ ?_ ((hp.map Decl.startLine).nodup_iff.mpr hnodup)
    rw [hdecls]
    exact pairwise_mergeSort_key _ _
  refine ⟨hincreasing, ?_, ?_⟩
  · have hfound : (symbolsOf functions (types.map (attach functions))).filterMap Decl.function? = functions :=
      functions_symbolsOf
    rw [← hfound] at hfs
    rw [filterMap_ordered FunctionDecl.startLine ?_ hp hincreasing hfs, hfound]
    rintro (f | t) a h <;> cases h
    rfl
  · have hfound : (symbolsOf functions (types.map (attach functions))).filterMap Decl.type? =
        types.map (attach functions) := types_symbolsOf
    rw [← hfound] at hattached
    rw [filterMap_ordered TypeDecl.startLine ?_ hp hincreasing hattached, hfound]
    rintro (f | t) a h <;> cases h
    rfl

end

/-! ## Exports -/

theorem definitionsOf_kind (lines : List Text) : ∀ e ∈ definitionsOf lines, e.kind = "type-alias".toList := by
  intro e he
  unfold definitionsOf at he
  obtain ⟨i, -, h⟩ := List.mem_filterMap.mp he
  simp only at h
  split at h
  · split at h
    · split at h
      · cases h
      · cases h
        rfl
    · cases h
  · cases h

/-- Exports of one kind are found again, in order, among exports that were put in order. -/
theorem filter_mergeSort_exports {exports found : List Export} {kind : Text}
    (h : exports.filter (fun e => e.kind = kind) = found)
    (hfound : found.Pairwise fun e e' => e.startLine < e'.startLine) :
    ((exports.mergeSort fun e e' => e.startLine ≤ e'.startLine).filter fun e => e.kind = kind) = found := by
  have hp := (List.mergeSort_perm exports fun e e' => decide (e.startLine ≤ e'.startLine)).filter
    fun e => decide (e.kind = kind)
  rw [h] at hp
  refine eq_of_perm_of_increasing _ hp (increasing_of_nodup _ ?_ ?_) hfound
  · exact (pairwise_mergeSort_key Export.startLine exports).filter _
  · exact (hp.map Export.startLine).nodup_iff.mpr (nodup_of_increasing _ hfound)

section

variable {lines : List Text} {functions : List FunctionDecl} {types : List SourceDoc.TypeDecl}

/-- **The exports of functions and of types are those of the public ones,** each once. -/
theorem exportsOf_kinds (lines : List Text)
    (hfs : functions.Pairwise fun f f' => f.startLine < f'.startLine)
    (hts : types.Pairwise fun t t' => t.startLine < t'.startLine) :
    ((exportsOf lines functions types).filter fun e => e.kind = "function".toList) =
        (functions.filter fun f => f.receiver = [] ∧ isPublic f.name).map functionExport ∧
      ((exportsOf lines functions types).filter fun e => e.kind = "type".toList) =
        (types.filter fun t => isPublic t.name).map typeExport := by
  generalize hof : (functions.filter fun f => f.receiver = [] ∧ isPublic f.name).map functionExport = ofFunctions
  generalize hot : (types.filter fun t => isPublic t.name).map typeExport = ofTypes
  have hall : exportsOf lines functions types =
      (ofFunctions ++ ofTypes ++ definitionsOf lines).mergeSort fun e e' => e.startLine ≤ e'.startLine := by
    rw [← hof, ← hot]
    rfl
  have hfk : ∀ e ∈ ofFunctions, e.kind = "function".toList := by
    rw [← hof]
    exact List.forall_mem_map.mpr fun _ _ => rfl
  have htk : ∀ e ∈ ofTypes, e.kind = "type".toList := by
    rw [← hot]
    exact List.forall_mem_map.mpr fun _ _ => rfl
  have hdk := definitionsOf_kind lines
  have hkeep : ∀ {kind : Text} {exports : List Export}, (∀ e ∈ exports, e.kind = kind) →
      exports.filter (fun e => e.kind = kind) = exports :=
    fun h => List.filter_eq_self.mpr fun e he => decide_eq_true (h e he)
  have hdrop : ∀ {kind kind' : Text} {exports : List Export}, (∀ e ∈ exports, e.kind = kind') → kind' ≠ kind →
      exports.filter (fun e => e.kind = kind) = [] :=
    fun h hne => List.filter_eq_nil_iff.mpr fun e he => by simp [h e he, hne]
  rw [hall]
  constructor
  · refine filter_mergeSort_exports ?_ ?_
    · rw [List.filter_append, List.filter_append, hkeep hfk, hdrop htk (by decide), hdrop hdk (by decide),
        List.append_nil, List.append_nil]
    · rw [← hof]
      exact List.pairwise_map.mpr (hfs.filter _)
  · refine filter_mergeSort_exports ?_ ?_
    · rw [List.filter_append, List.filter_append, hkeep htk, hdrop hfk (by decide), hdrop hdk (by decide),
        List.nil_append, List.append_nil]
    · rw [← hot]
      exact List.pairwise_map.mpr (hts.filter _)

end

/-! ## The outline -/

/-- An outline holds the functions of a source and its types with the functions that are their methods, in the order of
their lines, and the exports that are made of them. -/
structure Holds (source : Text) (types : List SourceDoc.TypeDecl) (o : Outline) : Prop where
  functions : functionsOf (Text.lines source) (boundaryLines source).length = .ok o.functions
  found : typesOf (Text.lines source) (boundaryLines source).length = .ok types
  attached : o.types = types.map (attach o.functions)
  exports : o.exports = exportsOf (Text.lines source) o.functions o.types
  function_on : ∀ f ∈ o.functions, ∃ i < (Text.lines source).length,
    IsFunctionOn (Text.lines source) (boundaryLines source).length i f
  type_on : ∀ t ∈ types, ∃ i < (Text.lines source).length,
    IsTypeOn (Text.lines source) (boundaryLines source).length i t
  functions_increasing : o.functions.Pairwise fun f f' => f.startLine < f'.startLine
  types_increasing : types.Pairwise fun t t' => t.startLine < t'.startLine

/-- The outline of a source holds what the scans find. -/
theorem extract_holds (path source : Text) :
    ∃ o types, (Extractor.builtIn .go).extract path source = .ok o ∧ Holds source types o := by
  obtain ⟨functions, hfunctions, hf, hfs⟩ := functionsOf_ok (Text.lines source) (boundaryLines source).length
  obtain ⟨types, hfound, ht, hts⟩ := typesOf_ok (Text.lines source) (boundaryLines source).length
  obtain ⟨-, hof, hot⟩ := ordered_symbols hf hfs ht hts rfl
  refine ⟨{ path := path, language := Language.go.name, source := source
            decls := (symbolsOf functions (types.map (attach functions))).mergeSort
              fun d d' => d.startLine ≤ d'.startLine
            imports := importsOf (Text.lines source)
            exports := exportsOf (Text.lines source) functions (types.map (attach functions)) }, types, ?_, ?_⟩
  · simp only [Extractor.extract, Extractor.builtIn, outlineOf, hfunctions, hfound, Except.bind, Except.map,
      Except.mapError, symbolsOf]
  · refine ⟨?_, hfound, ?_, ?_, ?_, ht, ?_, hts⟩ <;> simp only [Outline.functions, Outline.types, hof, hot]
    all_goals assumption

/-- **Every text has a well-formed outline.** -/
theorem extract_isWellFormed (path source : Text) :
    ∃ o, (Extractor.builtIn .go).extract path source = .ok o ∧
      IsWellFormed (max (Text.lines source).length (boundaryLines source).length) o := by
  generalize hlines : Text.lines source = lines
  generalize htotal : (boundaryLines source).length = total
  obtain ⟨functions, hfunctions, hf, hfs⟩ := functionsOf_ok lines total
  obtain ⟨types, htypes, ht, hts⟩ := typesOf_ok lines total
  generalize hdecls : (symbolsOf functions (types.map (attach functions))).mergeSort
    (fun d d' => decide (d.startLine ≤ d'.startLine)) = decls
  obtain ⟨hincreasing, hof, hot⟩ := ordered_symbols hf hfs ht hts hdecls.symm
  have hattached : (types.map (attach functions)).Pairwise fun t t' => t.startLine < t'.startLine :=
    List.pairwise_map.mpr hts
  obtain ⟨hfunctionExports, htypeExports⟩ := exportsOf_kinds lines hfs hattached
  have hlies : ∀ d ∈ decls, ∃ i < lines.length, LiesAt lines total i d := by
    intro d hd
    rw [← hdecls, List.mem_mergeSort] at hd
    rcases List.mem_append.mp hd with hd | hd
    · obtain ⟨f, hfm, rfl⟩ := List.mem_map.mp hd
      obtain ⟨i, hi, h⟩ := hf f hfm
      exact ⟨i, hi, h.lies⟩
    · obtain ⟨_, hm, rfl⟩ := List.mem_map.mp hd
      obtain ⟨t, htm, rfl⟩ := List.mem_map.mp hm
      obtain ⟨i, hi, h⟩ := ht t htm
      exact ⟨i, hi, h.attach functions⟩
  have houtline : (Extractor.builtIn .go).extract path source = .ok
      { path := path, language := Language.go.name, source := source, decls := decls
        imports := importsOf lines, exports := exportsOf lines functions (types.map (attach functions)) } := by
    unfold symbolsOf at hdecls
    simp only [Extractor.extract, Extractor.builtIn, outlineOf, hlines, htotal, hfunctions, htypes, Except.bind,
      Except.map, Except.mapError, hdecls]
  refine ⟨_, houtline, ?_⟩
  constructor
  case increasing => exact List.pairwise_map.mpr hincreasing
  case spans =>
    intro d hd
    obtain ⟨i, -, h⟩ := hlies d hd
    refine ⟨?_, h.start_le, h.end_le⟩
    have := h.starts
    omega
  case named =>
    intro d hd
    obtain ⟨i, -, h⟩ := hlies d hd
    exact h.named
  case methods =>
    intro t htm
    simp only [Outline.types, Outline.functions, hof, hot] at htm ⊢
    obtain ⟨t', ht', rfl⟩ := List.mem_map.mp htm
    obtain ⟨i, -, h⟩ := ht t' ht'
    exact hasMethods_attach h functions
  case exports_ordered => exact List.pairwise_map.mpr (pairwise_mergeSort_key Export.startLine _)
  case function_exports =>
    simp only [Outline.functions, hof]
    exact hfunctionExports
  case type_exports =>
    simp only [Outline.types, hot]
    exact htypeExports

end SourceDoc.Braced
