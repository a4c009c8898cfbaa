import SourceDoc.Proofs.Indented.Symbol
import SourceDoc.Proofs.Indented.Within
import SourceDoc.Proofs.Text.Line

/-!
# Blocks past the last line

A file may have more lines by all line boundaries, `total`, than it has lines.  What is read of it is then what is read
within its lines, but a block that runs to the end of the file ends on line `total` (`functionAt_overrun`), and the
body of a class that runs there is read on past the last line, unless a method runs there with it (`classAt_overrun`).
So a file is read without a failure and all ends lie in it exactly if there are no more boundaries than lines or no
block runs to its end (`extract_overrun`).
-/

namespace SourceDoc

/-- The function as it is read with line `total` in the place of the last one, which is line `count`. -/
def FunctionDecl.stretch (count total : Nat) (f : FunctionDecl) : FunctionDecl :=
  { f with endLine := if f.endLine = count then total else f.endLine }

/-- The type as it is read with line `total` in the place of the last one, which is line `count`. -/
def TypeDecl.stretch (count total : Nat) (t : TypeDecl) : TypeDecl :=
  { t with
    methods := t.methods.map (FunctionDecl.stretch count total)
    constructor? := t.constructor?.map (FunctionDecl.stretch count total)
    endLine := if t.endLine = count then total else t.endLine }

/-- The symbol as it is read with line `total` in the place of the last one, which is line `count`. -/
def Decl.stretch (count total : Nat) : Decl → Decl
  | .function f => .function (f.stretch count total)
  | .type t => .type (t.stretch count total)

/-- The type ends with the last line, and none of its functions does. -/
def TypeDecl.RunsOut (count : Nat) (t : TypeDecl) : Prop :=
  t.endLine = count ∧ ∀ f ∈ t.functions, f.endLine ≠ count

/-- All symbols of an outline, and the functions of its types, end in the file. -/
def Outline.EndsInside (o : Outline) : Prop := ∀ d ∈ o.decls, ∀ n ∈ d.endLines, n ≤ o.lineCount

end SourceDoc

namespace SourceDoc.Indented

open Text

variable {lines : List Text} {total stop i : Nat}

/-! ## Blocks and functions -/

/-- The end of a block that ends before line `stop` when it is read within the lines. -/
def stretchEnd (count total stop : Nat) : Nat := if stop = count then total else stop

theorem cast_stretchEnd (count total stop : Nat) :
    (stretchEnd count total stop : Int) = if (stop : Int) = count then (total : Int) else stop := by
  unfold stretchEnd
  by_cases h : stop = count
  · rw [if_pos h, if_pos (congrArg _ h)]
  · rw [if_neg h, if_neg (by omega)]

theorem blockEnd_overrun (ht : lines.length ≤ total) {start : Nat} (hs : start ≤ lines.length) (depth : Nat) :
    blockEnd depth total start lines =
      stretchEnd lines.length total (blockEnd depth lines.length start lines) := by
  unfold blockEnd stretchEnd
  cases h : (lines.drop start).findIdx? fun line => !isBlankText line && indentation line ≤ depth with
  | some n =>
    have := (List.findIdx?_eq_some_iff_getElem.mp h).1
    rw [List.length_drop] at this
    simp only
    rw [if_neg (by omega)]
  | none => rw [if_pos (Nat.max_eq_left hs), Nat.max_eq_left (Nat.le_trans hs ht)]

/-- There are no lines past the last one. -/
theorem take_stretchEnd (ht : lines.length ≤ total) (stop : Nat) :
    lines.take (stretchEnd lines.length total stop) = lines.take stop := by
  unfold stretchEnd
  split
  · rename_i hstop
    rw [hstop, List.take_of_length_le ht, List.take_length]
  · rfl

section

variable (ht : lines.length ≤ total) (start stop : Nat)

include ht

theorem firstCode_overrun :
    firstCode? lines start (stretchEnd lines.length total stop) = firstCode? lines start stop := by
  unfold firstCode?
  rw [take_stretchEnd ht]

theorem documentation_overrun :
    documentation? lines start (stretchEnd lines.length total stop) = documentation? lines start stop := by
  unfold documentation?
  rw [firstCode_overrun ht]

theorem afterDocumentation_overrun :
    afterDocumentation lines start (stretchEnd lines.length total stop) = afterDocumentation lines start stop := by
  unfold afterDocumentation
  rw [firstCode_overrun ht]

theorem yields_overrun : yields lines start (stretchEnd lines.length total stop) = yields lines start stop := by
  unfold yields
  rw [take_stretchEnd ht, afterDocumentation_overrun ht]

end

/-- **A function that runs to the end of the file ends on line `total`.** -/
theorem functionAt_overrun (ht : lines.length ≤ total) (isMethod : Bool) (i : Nat) :
    functionAt? lines total isMethod i =
      (functionAt? lines lines.length isMethod i).map (FunctionDecl.stretch lines.length total) := by
  unfold functionAt?
  cases h : FunctionHeader.read? (lines.drop i) with
  | none => rfl
  | some header =>
    have hbody : i + header.extraLines + 1 ≤ lines.length := functionHeader_lt h
    simp only [Option.map_some, blockEnd_overrun ht hbody, yields_overrun ht, documentation_overrun ht]
    generalize blockEnd _ lines.length _ lines = stop
    rw [FunctionDecl.stretch, ← cast_stretchEnd]

/-! ## Classes -/

namespace ClassBody

variable {line : Text} {b : ClassBody}

/-- What is known, as it is read with line `total` in the place of the last one, which is line `count`. -/
def stretch (count total : Nat) (b : ClassBody) : ClassBody := b.mapFunctions (FunctionDecl.stretch count total)

/-- No function that is known ends with the last line. -/
def IsClosed (count : Nat) (b : ClassBody) : Prop := ∀ f ∈ b.functions, f.endLine ≠ count

theorem end_overrun {m : FunctionDecl} (hm : 0 ≤ m.endLine) (count : Nat) :
    (m.stretch count total).endLine.toNat = stretchEnd count total m.endLine.toNat := by
  obtain ⟨n, hn⟩ := Int.eq_ofNat_of_zero_le hm
  simp only [FunctionDecl.stretch, hn, ← cast_stretchEnd, Int.toNat_natCast]

theorem step_overrun (ht : lines.length ≤ total) (i : Nat) :
    (step lines total i line (b.stretch lines.length total)).1 =
      (step lines lines.length i line b).1.stretch lines.length total := by
  refine step_mapFunctions _ (functionAt_overrun ht true i) (fun _ => rfl) fun m hm => ?_
  have hspan := functionAt_span hm
  unfold instanceAttributes
  rw [end_overrun (by omega), take_stretchEnd ht]

/-- The next line is the same, or the method of the step runs to the end of the file and nothing is left to read. -/
theorem next_overrun (line : Text) (ht : lines.length ≤ total) (hi : i < lines.length) (hb : b.IsClosed lines.length) :
    ((step lines total i line (b.stretch lines.length total)).2 =
          (step lines lines.length i line b).2 ∧
        (step lines lines.length i line b).2 ≤ lines.length ∧
        (step lines lines.length i line b).1.IsClosed lines.length) ∨
      ((step lines total i line (b.stretch lines.length total)).2 = total ∧
        (step lines lines.length i line b).2 = lines.length ∧
        ¬ (step lines lines.length i line b).1.IsClosed lines.length) := by
  rw [step_next lines total, stretch, method_mapFunctions _ (functionAt_overrun ht true i)]
  rcases step_cases lines lines.length i line b with ⟨hm, hfunctions, hnext⟩ | ⟨m, hm, hmem, hfunctions, hnext⟩
  · rw [hm, hnext]
    exact .inl ⟨rfl, hi, fun f hf => hb f (hfunctions ▸ hf)⟩
  · rw [hm, hnext, Option.map_some, Option.map_some, Option.getD_some]
    have hspan := functionAt_span (functionAt_of_method hm)
    have hle := functionAt_end_le (Nat.le_refl _) (functionAt_of_method hm)
    rw [end_overrun (by omega)]
    by_cases hend : m.endLine = lines.length
    · have hlast : m.endLine.toNat = lines.length := by omega
      refine .inr ⟨?_, by omega, fun hclosed => hclosed m hmem hend⟩
      rw [stretchEnd, if_pos hlast]
      omega
    · refine .inl ⟨?_, by omega, fun f hf => ?_⟩
      · rw [stretchEnd, if_neg (by omega)]
      · rcases hfunctions f hf with rfl | hf
        · exact hend
        · exact hb f hf

/-- **Reading the body of a class fails exactly if the class runs to the end of the file and none of its functions does.**
Otherwise its functions are those that are read within the lines, but for where they end. -/
theorem read_overrun (ht : lines.length < total) (hstop : stop ≤ lines.length) (i : Nat) (b : ClassBody)
    (hi : i ≤ lines.length) (hb : b.IsClosed lines.length) :
    ∃ b', read lines lines.length stop i b = .ok b' ∧
      ((stop = lines.length ∧ b'.IsClosed lines.length ∧
          read lines total (stretchEnd lines.length total stop) i
            (b.stretch lines.length total) = .error .beyondLastLine) ∨
        (¬ (stop = lines.length ∧ b'.IsClosed lines.length) ∧
          read lines total (stretchEnd lines.length total stop) i
            (b.stretch lines.length total) =
              .ok (b'.stretch lines.length total))) := by
  induction i, b using readInduction lines lines.length stop with
  | ends i b hend =>
    refine ⟨b, read_of_end hend, ?_⟩
    by_cases hlast : stop = lines.length
    · refine .inl ⟨hlast, hb, read_of_beyond ?_ (List.getElem?_eq_none_iff.mpr (by omega))⟩
      rw [stretchEnd, if_pos hlast]
      omega
    · refine .inr ⟨fun h => hlast h.1, read_of_end ?_⟩
      rw [stretchEnd, if_neg hlast]
      exact hend
  | beyond i b hlt hline =>
    have := List.getElem?_eq_none_iff.mp hline
    omega
  | steps i b line hlt hline ih =>
    have hle : stop ≤ stretchEnd lines.length total stop := by
      unfold stretchEnd
      split <;> omega
    rw [read_of_line hlt hline, read_of_line (Nat.lt_of_lt_of_le hlt hle) hline, step_overrun (Nat.le_of_lt ht)]
    rcases next_overrun line (Nat.le_of_lt ht) (Nat.lt_of_lt_of_le hlt hstop) hb with
      ⟨hsame, hnext, hclosed⟩ | ⟨htotal, hlast, hopen⟩
    · rw [hsame]
      exact ih hnext hclosed
    · -- both readings end behind the method
      rw [htotal, hlast]
      refine ⟨_, read_of_end (by omega), .inr ⟨fun h => hopen h.2, read_of_end ?_⟩⟩
      unfold stretchEnd
      split <;> omega

end ClassBody

/-- **Reading a class fails exactly if it runs to the end of the file and none of its functions does.** -/
theorem classAt_overrun (ht : lines.length < total) (i : Nat) :
    ∃ t?, classAt? lines lines.length i = .ok t? ∧
      (((∃ t ∈ t?, t.RunsOut lines.length) ∧ classAt? lines total i = .error .beyondLastLine) ∨
        ((¬ ∃ t ∈ t?, t.RunsOut lines.length) ∧
          classAt? lines total i = .ok (t?.map (TypeDecl.stretch lines.length total)))) := by
  unfold classAt?
  cases h : ClassHeader.read? (lines.drop i) with
  | none => exact ⟨none, rfl, .inr ⟨by simp, rfl⟩⟩
  | some header =>
    have hbody : i + header.extraLines + 1 ≤ lines.length := classHeader_lt h
    have hle := Nat.le_of_lt ht
    simp only [blockEnd_overrun hle hbody, documentation_overrun hle, afterDocumentation_overrun hle]
    have hstop := blockEnd_le (Nat.le_refl _) hbody (indentation ((lines[i]?).getD []))
    generalize blockEnd _ lines.length _ lines = stop at hstop ⊢
    obtain ⟨b, hread, hcases⟩ := ClassBody.read_overrun ht hstop _ {} (afterDocumentation_le hbody stop)
      (by simp [ClassBody.IsClosed, ClassBody.functions])
    rw [hread]
    refine ⟨_, rfl, ?_⟩
    have hruns : ∀ t : TypeDecl, t.endLine = stop → t.functions = b.functions →
        (t.RunsOut lines.length ↔ stop = lines.length ∧ b.IsClosed lines.length) := fun t hend hfunctions => by
      unfold TypeDecl.RunsOut ClassBody.IsClosed
      rw [hend, hfunctions, Int.ofNat_inj]
    rcases hcases with ⟨hlast, hclosed, hfails⟩ | ⟨hopen, hok⟩
    · refine .inl ⟨⟨_, rfl, (hruns _ rfl rfl).mpr ⟨hlast, hclosed⟩⟩, ?_⟩
      exact congrArg (Except.map _) hfails
    · refine .inr ⟨?_, ?_⟩
      · rintro ⟨t, ⟨⟩, hout⟩
        exact hopen ((hruns _ rfl rfl).mp hout)
      · refine (congrArg (Except.map _) hok).trans ?_
        simp only [Except.map, Option.map_some, TypeDecl.stretch, cast_stretchEnd]
        rfl

/-! ## Symbols -/

/-- The symbol is a class that ends with the last line, and none of its functions does. -/
def RunsOut (count : Nat) (d : Decl) : Prop := ∃ t, d = .type t ∧ t.RunsOut count

theorem symbolAt_overrun (ht : lines.length < total) (i : Nat) :
    ∃ d?, symbolAt? lines lines.length i = .ok d? ∧
      (((∃ d ∈ d?, RunsOut lines.length d) ∧ symbolAt? lines total i = .error .beyondLastLine) ∨
        ((¬ ∃ d ∈ d?, RunsOut lines.length d) ∧
          symbolAt? lines total i = .ok (d?.map (Decl.stretch lines.length total)))) := by
  unfold symbolAt?
  simp only
  split
  · exact ⟨none, rfl, .inr ⟨by simp, rfl⟩⟩
  · split
    · rw [functionAt_overrun (Nat.le_of_lt ht)]
      refine ⟨_, rfl, .inr ⟨?_, ?_⟩⟩
      · rintro ⟨d, hd, t, rfl, -⟩
        obtain ⟨f, -, hf⟩ := Option.map_eq_some_iff.mp hd
        cases hf
      · cases functionAt? lines lines.length false i <;> rfl
    · split
      · obtain ⟨t?, hclass, hcases⟩ := classAt_overrun ht i
        have hruns : (∃ d ∈ t?.map Decl.type, RunsOut lines.length d) ↔ ∃ t ∈ t?, t.RunsOut lines.length := by
          constructor
          · rintro ⟨d, hd, t, rfl, hout⟩
            obtain ⟨t', ht', he⟩ := Option.map_eq_some_iff.mp hd
            cases he
            exact ⟨t, ht', hout⟩
          · rintro ⟨t, ht, hout⟩
            exact ⟨.type t, Option.map_eq_some_iff.mpr ⟨t, ht, rfl⟩, t, rfl, hout⟩
        rw [hclass]
        refine ⟨_, rfl, ?_⟩
        rw [hruns]
        rcases hcases with ⟨hout, hfails⟩ | ⟨hnone, hok⟩
        · exact .inl ⟨hout, by rw [hfails]; rfl⟩
        · refine .inr ⟨hnone, ?_⟩
          rw [hok]
          cases t? <;> rfl
      · exact ⟨none, rfl, .inr ⟨by simp, rfl⟩⟩

/-- Reading some lines one after another stops at the first failure. -/
theorem symbols_overrun (ht : lines.length < total) (is : List Nat) :
    ∃ found, is.mapM (symbolAt? lines lines.length) = .ok found ∧
      (((∃ d ∈ found.filterMap id, RunsOut lines.length d) ∧
          is.mapM (symbolAt? lines total) = .error .beyondLastLine) ∨
        ((¬ ∃ d ∈ found.filterMap id, RunsOut lines.length d) ∧
          is.mapM (symbolAt? lines total) = .ok (found.map (·.map (Decl.stretch lines.length total))))) := by
  induction is with
  | nil => exact ⟨[], rfl, .inr ⟨by simp, rfl⟩⟩
  | cons i is ih =>
    obtain ⟨found, hfound, hrest⟩ := ih
    obtain ⟨d?, hd, hfirst⟩ := symbolAt_overrun ht i
    have hout : (∃ d ∈ (d? :: found).filterMap id, RunsOut lines.length d) ↔
        (∃ d ∈ d?, RunsOut lines.length d) ∨ ∃ d ∈ found.filterMap id, RunsOut lines.length d := by
      cases d? <;> simp
    refine ⟨d? :: found, by rw [List.mapM_cons, hd, hfound]; rfl, ?_⟩
    rw [hout, List.mapM_cons]
    rcases hfirst with ⟨hone, hfails⟩ | ⟨hnone, hok⟩
    · exact .inl ⟨.inl hone, by rw [hfails]; rfl⟩
    · rw [hok]
      rcases hrest with ⟨hmore, hfails⟩ | ⟨hnomore, hmore⟩
      · exact .inl ⟨.inr hmore, by rw [hfails]; rfl⟩
      · exact .inr ⟨not_or.mpr ⟨hnone, hnomore⟩, by rw [hmore]; rfl⟩

/-- **Reading a file with more line boundaries than lines fails exactly if a class runs to its end and none of the
functions of the class does.**  Otherwise its symbols are those that are read within the lines, but for where they
end. -/
theorem symbolsOf_overrun (ht : lines.length < total) :
    ∃ decls, symbolsOf lines lines.length = .ok decls ∧
      (((∃ d ∈ decls, RunsOut lines.length d) ∧ symbolsOf lines total = .error .beyondLastLine) ∨
        ((¬ ∃ d ∈ decls, RunsOut lines.length d) ∧
          symbolsOf lines total = .ok (decls.map (Decl.stretch lines.length total)))) := by
  obtain ⟨found, hfound, hcases⟩ := symbols_overrun ht (List.range lines.length)
  refine ⟨found.filterMap id, by rw [symbolsOf, hfound]; rfl, ?_⟩
  rcases hcases with ⟨hout, hfails⟩ | ⟨hnone, hok⟩
  · exact .inl ⟨hout, by rw [symbolsOf, hfails]; rfl⟩
  · refine .inr ⟨hnone, ?_⟩
    rw [symbolsOf, hok]
    exact congrArg Except.ok (filterMap_id_map _ found)

/-! ## Outlines -/

theorem endLines_stretch (count total : Nat) (d : Decl) :
    (d.stretch count total).endLines = d.endLines.map fun n : Int => if n = count then (total : Int) else n := by
  cases d with
  | function f => rfl
  | type t =>
    simp only [Decl.stretch, Decl.endLines, TypeDecl.stretch, TypeDecl.functions, List.map_cons, List.map_append,
      List.map_map, Option.toList_map]
    rfl

theorem exists_extract_endsInside_iff {path source : Text} {decls : List Decl}
    (h : symbolsOf (Text.lines source) (boundaryLines source).length = .ok decls) :
    (∃ o, (Extractor.builtIn .python).extract path source = .ok o ∧ o.EndsInside) ↔
      ∀ d ∈ decls, ∀ n ∈ d.endLines, n ≤ lineCount source := by
  constructor
  · rintro ⟨o, ho, hinside⟩
    obtain ⟨decls', hdecls, rfl⟩ := (extract_eq_ok_iff path source o).mp ho
    cases h.symm.trans hdecls
    exact hinside
  · exact fun hinside => ⟨_, (extract_eq_ok_iff path source _).mpr ⟨decls, h, rfl⟩, hinside⟩

/-- **A file is read without a failure, and all ends lie in it, exactly if it has no more line boundaries than lines or
no block runs to its end.**  Reading fails exactly if there are more boundaries than lines and a class runs to the end
of the file, but none of its functions does. -/
theorem extract_overrun (path source : Text) :
    ∃ decls, symbolsOf (Text.lines source) (lineCount source) = .ok decls ∧
      ((∃ o, (Extractor.builtIn .python).extract path source = .ok o ∧ o.EndsInside) ↔
        (boundaryLines source).length ≤ lineCount source ∨
          ∀ d ∈ decls, ∀ n ∈ d.endLines, n ≠ lineCount source) ∧
      ((Extractor.builtIn .python).extract path source = .error (.failed (.indented .beyondLastLine)) ↔
        lineCount source < (boundaryLines source).length ∧ ∃ d ∈ decls, RunsOut (lineCount source) d) ∧
      ((∀ c ∈ source, isBoundary c = true → c = '\n') → (boundaryLines source).length ≤ lineCount source) := by
  rcases Nat.lt_or_ge (lineCount source) (boundaryLines source).length with hmore | hfew
  · obtain ⟨decls, hdecls, hcases⟩ := symbolsOf_overrun hmore
    obtain ⟨_, hsame, hinside⟩ := symbolsOf_within (Nat.le_refl (Text.lines source).length)
    cases hdecls.symm.trans hsame
    refine ⟨decls, hdecls, ?_, ?_, length_boundaryLines_le⟩
    · rw [or_iff_right (by omega)]
      rcases hcases with ⟨⟨d, hd, t, rfl, hout⟩, hfails⟩ | ⟨-, hok⟩
      · refine iff_of_false ?_ fun h => h _ hd _ List.mem_cons_self hout.1
        rintro ⟨o, ho, -⟩
        obtain ⟨_, hok, -⟩ := (extract_eq_ok_iff path source o).mp ho
        cases hfails.symm.trans hok
      · rw [exists_extract_endsInside_iff hok]
        simp only [List.forall_mem_map, endLines_stretch]
        refine forall₂_congr fun d hd => forall₂_congr fun n hn => ?_
        have hle := hinside d hd n hn
        have hcount : (Text.lines source).length = lineCount source := rfl
        split <;> omega
    · rw [extract_eq_error_iff, and_iff_right hmore]
      rcases hcases with ⟨hout, hfails⟩ | ⟨hnone, hok⟩
      · exact iff_of_true hfails hout
      · exact iff_of_false (fun hfails => by cases hfails.symm.trans hok) hnone
  · obtain ⟨decls, hdecls, -⟩ := symbolsOf_within (Nat.le_refl (Text.lines source).length)
    obtain ⟨_, hok, hinside⟩ := symbolsOf_within hfew
    refine ⟨decls, hdecls, ?_, ?_, length_boundaryLines_le⟩
    · refine iff_of_true ?_ (.inl hfew)
      rw [exists_extract_endsInside_iff hok]
      intro d hd n hn
      have := hinside d hd n hn
      unfold lineCount
      omega
    · rw [extract_eq_error_iff]
      exact iff_of_false (fun hfails => by cases hfails.symm.trans hok) fun h => absurd h.1 (by omega)

/-- A class above two form feeds at the end of a file is not read, and a function there ends past the last line. -/
theorem extract_formFeeds :
    (Extractor.builtIn .python).extract [] "class A:\n    x = 1\n\x0c\x0c".toList =
        .error (.failed (.indented .beyondLastLine)) ∧
      ∃ o, (Extractor.builtIn .python).extract [] "def f():\n    pass\n\x0c\x0c".toList = .ok o ∧ ¬ o.EndsInside := by
  refine ⟨(extract_eq_error_iff _ _).mpr (by decide +kernel), _, (extract_eq_ok_iff _ _ _).mpr ⟨[.function
    { name := "f".toList, visibility := some "public".toList, startLine := 1, endLine := 4 }], by decide,
    rfl⟩, ?_⟩
  intro hinside
  exact absurd (hinside _ List.mem_cons_self _ List.mem_cons_self) (by decide)

end SourceDoc.Indented
