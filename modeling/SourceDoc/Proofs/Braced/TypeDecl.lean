import SourceDoc.Braced.TypeDecl
import SourceDoc.Proofs.Braced.Function

/-!
# Where types of braced sources lie

Reading a type never fails: a line that starts a type holds the word for its kind and a brace after that
(`braceColumn_ok`).  A type starts on the line that is marked as its first and ends in the file, and the methods of an
interface stand each on one line inside it (`typeAt_ok`).  There is at most one type on a line, so the types of a file
come in the order of their lines (`typesOf_ok`).
-/

namespace SourceDoc.Braced

open Text

variable {lines : List Text}

/-! ## The brace of a type -/

theorem breakOn_char {c : Char} {t : Text} (h : c ∈ t) : ∃ front rest, breakOn? [c] t = some (front, rest) := by
  obtain ⟨front, rest, rfl⟩ := List.append_of_mem h
  rw [List.append_cons]
  obtain ⟨front', rest', hb, -⟩ := breakOn_append [c] front rest
  exact ⟨front', rest', hb⟩

/-- The word for a kind of type stands in the text, and a brace after it. -/
def DeclaresBody (t : Text) (kind : BodyKind) : Prop := ∃ front rest, t = front ++ kind.word ++ rest ∧ '\x7b' ∈ rest

theorem DeclaresBody.mono {t t' : Text} {kind : BodyKind} (h : DeclaresBody t kind) (ht : t <:+: t') :
    DeclaresBody t' kind := by
  obtain ⟨front, rest, rfl, hbrace⟩ := h
  obtain ⟨before, after, rfl⟩ := ht
  exact ⟨before ++ front, rest ++ after, by simp only [List.append_assoc], List.mem_append_left _ hbrace⟩

/-- **A line that declares a body has the brace of it.** -/
theorem braceColumn_ok {line : Text} {kind : BodyKind} (h : DeclaresBody line kind) :
    ∃ column, braceColumn line kind = .ok column := by
  obtain ⟨front, rest, rfl, hbrace⟩ := h
  obtain ⟨front', rest', hword, hsuffix⟩ := breakOn_append kind.word front rest
  obtain ⟨between, after, hfound⟩ := breakOn_char (hsuffix.subset hbrace)
  exact ⟨front'.length + kind.word.length + between.length, by unfold braceColumn; rw [hword]; simp only [hfound]⟩

theorem opensBody_declares {t : Text} {kind : BodyKind} (h : opensBody t kind = true) : DeclaresBody t kind := by
  unfold opensBody at h
  split at h
  · rename_i rest hrest
    refine ⟨[], rest, after_append hrest, ?_⟩
    have hmem : '\x7b' ∈ stripLeft rest := (List.isPrefixOf_iff_prefix.mp h).subset List.mem_cons_self
    exact (stripLeft_suffix rest).subset hmem
  · cases h

theorem typeStart_cases {t name : Text} {kind : BodyKind} (h : typeStart? t = some (name, kind)) :
    isIdentifier name = true ∧ DeclaresBody t kind := by
  unfold typeStart? at h
  obtain ⟨⟨name', t₁⟩, hname, h⟩ := Option.bind_eq_some_iff.mp h
  obtain ⟨t₂, hblanks, h⟩ := Option.bind_eq_some_iff.mp h
  have hsuffix : t₂ <:+ t := by
    refine ((afterBlanks_suffix hblanks).trans (skipSquare_suffix t₁)).trans ?_
    rw [identifier_append hname]
    exact List.suffix_append name' t₁
  have hkind : name' = name ∧ opensBody t₂ kind = true := by
    split at h
    · cases h
      exact ⟨rfl, by assumption⟩
    · split at h
      · cases h
        exact ⟨rfl, by assumption⟩
      · cases h
  rw [← hkind.1]
  exact ⟨isIdentifier_of_identifier hname, (opensBody_declares hkind.2).mono hsuffix.isInfix⟩

theorem declaredStart_cases {t name : Text} {kind : BodyKind} (h : declaredStart? t = some (name, kind)) :
    isIdentifier name = true ∧ DeclaresBody t kind := by
  obtain ⟨rest, hrest, hstart⟩ := Option.bind_eq_some_iff.mp h
  obtain ⟨hname, hbody⟩ := typeStart_cases hstart
  exact ⟨hname, hbody.mono (afterWord_suffix hrest).isInfix⟩

/-! ## The lines on which types start -/

/-- A type of a kind starts on the line, which is marked or indented. -/
structure IsTypeStart (line name : Text) (kind : BodyKind) : Prop where
  marked : startsWith line "type".toList = true ∨ isIndented line = true
  named : isIdentifier name = true
  body : DeclaresBody line kind

/-- A line starts at most one type. -/
theorem typeStart_on {inGroup : Bool} {line name : Text} {kind : BodyKind}
    (h : ((if startsWith line "type".toList then declaredStart? (strip line) else none).or
      (if inGroup && isIndented line then typeStart? (strip line) else none)) = some (name, kind)) :
    IsTypeStart line name kind := by
  rcases Option.or_eq_some_iff.mp h with h | ⟨-, h⟩
  · split at h
    · rename_i hmark
      obtain ⟨hname, hbody⟩ := declaredStart_cases h
      exact ⟨.inl hmark, hname, hbody.mono (strip_within line)⟩
    · cases h
  · split at h
    · rename_i hindented
      obtain ⟨hname, hbody⟩ := typeStart_cases h
      exact ⟨.inr (Bool.and_eq_true_iff.mp hindented).2, hname, hbody.mono (strip_within line)⟩
    · cases h

/-- **What starts a type is found line by line,** in order. -/
theorem typeStartsFrom_cases (inGroup : Bool) (i : Nat) (lines : List Text) :
    (∀ start ∈ typeStartsFrom inGroup i lines, ∃ n line, start.1 = i + n ∧ lines[n]? = some line ∧
      IsTypeStart line start.2.1 start.2.2) ∧
      (typeStartsFrom inGroup i lines).Pairwise fun start start' => start.1 < start'.1 := by
  induction lines generalizing inGroup i with
  | nil => exact ⟨by simp [typeStartsFrom], .nil⟩
  | cons line rest ih =>
    have below : ∀ inGroup, ∀ start ∈ typeStartsFrom inGroup (i + 1) rest, ∃ n line', start.1 = i + n ∧
        0 < n ∧ (line :: rest)[n]? = some line' ∧ IsTypeStart line' start.2.1 start.2.2 := by
      intro inGroup start hstart
      obtain ⟨n, line', hn, hline, h⟩ := (ih inGroup (i + 1)).1 start hstart
      exact ⟨n + 1, line', by omega, Nat.zero_lt_succ n, hline, h⟩
    have weaken : ∀ inGroup, ∀ start ∈ typeStartsFrom inGroup (i + 1) rest, ∃ n line', start.1 = i + n ∧
        (line :: rest)[n]? = some line' ∧ IsTypeStart line' start.2.1 start.2.2 := by
      intro inGroup start hstart
      obtain ⟨n, line', hn, -, h⟩ := below inGroup start hstart
      exact ⟨n, line', hn, h⟩
    rw [typeStartsFrom]
    simp only
    split
    · exact ⟨weaken true, (ih true (i + 1)).2⟩
    · split
      · exact ⟨weaken false, (ih false (i + 1)).2⟩
      · cases hfound : (if startsWith line "type".toList then declaredStart? (strip line) else none).or
            (if inGroup && isIndented line then typeStart? (strip line) else none) with
        | none => exact ⟨weaken inGroup, (ih inGroup (i + 1)).2⟩
        | some start =>
          obtain ⟨name, kind⟩ := start
          refine ⟨?_, ?_⟩
          · intro start hstart
            rcases List.mem_cons.mp hstart with rfl | hstart
            · exact ⟨0, line, rfl, rfl, typeStart_on hfound⟩
            · exact weaken inGroup start hstart
          · refine List.pairwise_cons.mpr ⟨fun start hstart => ?_, (ih inGroup (i + 1)).2⟩
            obtain ⟨n, -, hn, hpos, -⟩ := below inGroup start hstart
            simp only
            omega

/-! ## Counting braces -/

/-- How many more braces the text opens than it closes. -/
def excess (t : Text) : Int := (t.filter (· = '\x7b')).length - (t.filter (· = '\x7d')).length

theorem depthAfter_eq (depth : Int) (t : Text) : depthAfter depth t = depth + excess t := by
  unfold depthAfter excess
  omega

theorem excess_append (a b : Text) : excess (a ++ b) = excess a + excess b := by
  unfold excess
  simp only [List.filter_append, List.length_append]
  omega

theorem excess_bare {t : Text} (h : ∀ c ∈ t, c ≠ '\x7b' ∧ c ≠ '\x7d') : excess t = 0 := by
  have hopen : t.filter (· = '\x7b') = [] := List.filter_eq_nil_iff.mpr fun c hc => by simpa using (h c hc).1
  have hclose : t.filter (· = '\x7d') = [] := List.filter_eq_nil_iff.mpr fun c hc => by simpa using (h c hc).2
  unfold excess
  rw [hopen, hclose]
  rfl

/-- A class of characters without braces. -/
theorem excess_class {p : Char → Bool} (hp : p '\x7b' = false ∧ p '\x7d' = false) {t : Text} (h : ∀ c ∈ t, p c = true) :
    excess t = 0 := by
  refine excess_bare fun c hc => ⟨?_, ?_⟩
  · rintro rfl
    exact absurd (h _ hc) (by simp [hp.1])
  · rintro rfl
    exact absurd (h _ hc) (by simp [hp.2])

/-! ## Members -/

/-- The members are read in the same way, wherever they stand. -/
abbrev AlikeMembers (body body' : List (Nat × Text)) : Prop :=
  List.Forall₂ (fun member member' => splitMember member'.2 = splitMember member.2) body body'

theorem addFields_alike {body body' : List (Nat × Text)} (h : AlikeMembers body body')
    (found : List Property × List Text) :
    (body'.map Prod.snd).foldl addField found = (body.map Prod.snd).foldl addField found := by
  induction h generalizing found with
  | nil => rfl
  | @cons member member' _ _ hmember _ ih =>
    have hadd : addField found member'.2 = addField found member.2 := by
      unfold addField
      rw [hmember]
    rw [List.map_cons, List.map_cons, List.foldl_cons, List.foldl_cons, hadd, ih]

/-! ## Methods of interfaces -/

/-- A method stands on one line of those from `first` on before `stop`, and belongs to the type around it. -/
structure IsSpec (first stop : Nat) (m : FunctionDecl) : Prop where
  receiver : m.receiver = []
  one_line : m.startLine = m.endLine
  after : (first : Int) + 1 ≤ m.startLine
  before : m.endLine ≤ stop

theorem bodyFrom_bounds (depth : Int) (i : Nat) (body : List Text) :
    ∀ member ∈ bodyFrom depth i body, i ≤ member.1 ∧ member.1 < i + body.length := by
  induction body generalizing depth i with
  | nil => simp [bodyFrom]
  | cons line rest ih =>
    have hhere : ∀ member ∈ (if depth = 1 ∧ strip (uncommented line) ≠ ['\x7d'] then [(i, line)] else []),
        i ≤ member.1 ∧ member.1 < i + (line :: rest).length := by
      intro member hmember
      split at hmember
      · rw [List.mem_singleton.mp hmember, List.length_cons]
        omega
      · cases hmember
    intro member hmember
    rw [bodyFrom] at hmember
    split at hmember
    · exact hhere member hmember
    · rcases List.mem_append.mp hmember with hmember | hmember
      · exact hhere member hmember
      · have := ih _ (i + 1) member hmember
        rw [List.length_cons]
        omega

theorem bodyOf_bounds (lines : List Text) {i stop : Nat} (hstop : i < stop) (column : Nat) :
    ∀ member ∈ bodyOf lines i column stop, i ≤ member.1 ∧ member.1 < stop := by
  intro member hmember
  unfold bodyOf at hmember
  simp only at hmember
  split at hmember
  · obtain ⟨part, -, rfl⟩ := List.mem_map.mp hmember
    exact ⟨Nat.le_refl i, hstop⟩
  · have := bodyFrom_bounds _ _ _ member hmember
    rw [List.length_drop, List.length_take] at this
    omega

theorem methodOf_cases {n : Nat} {code : Text} {note : Option Text} {found : Option FunctionDecl}
    (h : methodOf? n code note = some found) : ∀ m ∈ found, m.receiver = [] ∧ m.startLine = n ∧ m.endLine = n := by
  intro m hm
  unfold methodOf? at h
  obtain ⟨⟨name, rest⟩, -, h⟩ := Option.bind_eq_some_iff.mp h
  simp only at h
  split at h
  · cases h
    obtain ⟨parts, -, rfl⟩ := Option.map_eq_some_iff.mp hm
    exact ⟨rfl, rfl, rfl⟩
  · cases h

/-- A member adds at most a method on its line. -/
theorem addMethod_isSpec {first stop : Nat} {found : List FunctionDecl × List Text} {member : Nat × Text}
    (hfound : ∀ m ∈ found.1, IsSpec first stop m) (hfirst : first ≤ member.1) (hstop : member.1 < stop) :
    ∀ m ∈ (addMethod found member).1, IsSpec first stop m := by
  unfold addMethod
  simp only
  split
  · exact hfound
  · split
    · rename_i new hnew
      intro m hm
      rcases List.mem_append.mp hm with hm | hm
      · exact hfound m hm
      · obtain ⟨hreceiver, hstart, hend⟩ := methodOf_cases hnew m (Option.mem_toList.mp hm)
        exact ⟨hreceiver, by rw [hstart, hend], by rw [hstart]; omega, by rw [hend]; omega⟩
    · split <;> exact hfound

theorem membersOf_isSpec {first stop : Nat} {body : List (Nat × Text)} (kind : BodyKind)
    (h : ∀ member ∈ body, first ≤ member.1 ∧ member.1 < stop) :
    ∀ m ∈ (membersOf body kind).2.1, kind = .interface ∧ IsSpec first stop m := by
  cases kind with
  | struct => simp [membersOf]
  | interface =>
    intro m hm
    refine ⟨rfl, ?_⟩
    revert m
    suffices hfold : ∀ found : List FunctionDecl × List Text, (∀ m ∈ found.1, IsSpec first stop m) →
        ∀ m ∈ (body.foldl addMethod found).1, IsSpec first stop m from hfold ([], []) (by simp)
    induction body with
    | nil => exact fun _ hfound => hfound
    | cons member body ih =>
      obtain ⟨⟨hfirst, hstop⟩, hbody⟩ := List.forall_mem_cons.mp h
      exact fun found hfound => ih hbody _ (addMethod_isSpec hfound hfirst hstop)

/-! ## Types -/

/-- A type starts on a line that starts a type, and lies there; its methods stand inside it, each on one line, and
only an interface has any. -/
structure IsTypeOn (lines : List Text) (total i : Nat) (t : SourceDoc.TypeDecl) : Prop where
  marked : startsWith ((lines[i]?).getD []) "type".toList = true ∨ isIndented ((lines[i]?).getD []) = true
  lies : LiesAt lines total i (.type t)
  methods : ∀ m ∈ t.methods, t.isInterface = true ∧ m.receiver = [] ∧ m.startLine = m.endLine ∧
    t.startLine ≤ m.startLine ∧ m.endLine ≤ t.endLine

/-- **Reading the type on a line does not fail,** and the type lies there. -/
theorem typeAt_ok (total : Nat) {i : Nat} {name : Text} {kind : BodyKind} (hi : i < lines.length)
    (h : IsTypeStart ((lines[i]?).getD []) name kind) :
    ∃ t, typeAt lines total i name kind = .ok t ∧ IsTypeOn lines total i t := by
  obtain ⟨column, hcolumn⟩ := braceColumn_ok h.body
  obtain ⟨hle, hstop⟩ := closingLine_span total hi column
  have hspecs := membersOf_isSpec kind (bodyOf_bounds lines (show i < closingLine lines total i column by omega) column)
  unfold typeAt
  rw [hcolumn]
  refine ⟨_, rfl, h.marked, ?_, ?_⟩
  · refine ⟨rfl, ?_, ?_, h.named⟩
    · show ((i : Int) + 1) ≤ (closingLine lines total i column : Nat)
      omega
    · show ((closingLine lines total i column : Nat) : Int) ≤ (max lines.length total : Nat)
      omega
  · intro m hm
    obtain ⟨hkind, hspec⟩ := hspecs m hm
    exact ⟨decide_eq_true hkind, hspec.receiver, hspec.one_line, hspec.after, hspec.before⟩

/-- **The types of a file come in the order of their lines,** one on a line at most. -/
theorem typesOf_ok (lines : List Text) (total : Nat) :
    ∃ types, typesOf lines total = .ok types ∧ (∀ t ∈ types, ∃ i < lines.length, IsTypeOn lines total i t) ∧
      types.Pairwise fun t t' => t.startLine < t'.startLine := by
  obtain ⟨hstarts, hincreasing⟩ := typeStartsFrom_cases false 0 lines
  have hat : ∀ start ∈ typeStartsFrom false 0 lines, ∃ t,
      typeAt lines total start.1 start.2.1 start.2.2 = .ok t ∧
        (start.1 < lines.length ∧ IsTypeOn lines total start.1 t) := by
    intro start hstart
    obtain ⟨n, line, hn, hline, h⟩ := hstarts start hstart
    rw [Nat.zero_add] at hn
    have hlt := (List.getElem?_eq_some_iff.mp hline).1
    rw [← hn] at hlt hline
    obtain ⟨t, ht, hon⟩ := typeAt_ok total hlt (by rw [hline]; exact h)
    exact ⟨t, ht, hlt, hon⟩
  obtain ⟨types, htypes, hmatch⟩ := mapM_ok_of_forall _ hat
  refine ⟨types, htypes, ?_, ?_⟩
  · intro t ht
    obtain ⟨start, -, hlt, hon⟩ := exists_mem_of_forall₂ hmatch t ht
    exact ⟨start.1, hlt, hon⟩
  · refine pairwise_of_forall₂ hmatch hincreasing ?_
    rintro start start' t t' hlt ⟨-, hon⟩ ⟨-, hon'⟩
    have h := hon.lies.starts
    have h' := hon'.lies.starts
    simp only [Decl.startLine] at h h'
    omega

end SourceDoc.Braced
