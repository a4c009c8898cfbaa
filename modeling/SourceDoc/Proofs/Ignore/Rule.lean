import Mathlib.Data.List.Induction
import SourceDoc.Ignore.Rule
import SourceDoc.Proofs.Text.Line
import SourceDoc.Proofs.Text.Nesting
import SourceDoc.Proofs.Text.Pattern

/-!
# Rules for what is left out

A path is ignored just when some rule is about it and the last such rule does not take it back in
(`ignores_iff_isIgnored`).

A pattern with `**/` in front is written for a path wherever it lies in the tree.  It works for a path of one name, since
the rule is then compared with each part of a path.  A path of more names has a slash, so its rule is compared with whole
paths, and no longer knows of the front that was dropped (`ignores_anyDepth`):

    ignores [rule] (parents ++ names) = true ↔ parents = [] ∨ names.length = 1

`**/a/b` says nothing about `x/a/b` (`ignores_anyDepth_nested`).
-/

namespace SourceDoc

namespace IgnoreRule

/-! ## The last rule -/

/-- The last of the rules about a path leaves it out. -/
def IsIgnored (rules : List IgnoreRule) (parts : List Text) (isDirectory : Bool) : Prop :=
  ∃ earlier r later, rules = earlier ++ r :: later ∧ r.concerns parts isDirectory ∧ r.isNegated = false ∧
    ∀ x ∈ later, x.concerns parts isDirectory = false

@[simp] theorem not_isIgnored_nil (parts : List Text) (isDirectory : Bool) : ¬ IsIgnored [] parts isDirectory := by
  rintro ⟨earlier, r, later, h, -⟩
  exact absurd h.symm (List.append_ne_nil_of_right_ne_nil _ (List.cons_ne_nil r later))

theorem ignores_concat (rules : List IgnoreRule) (r : IgnoreRule) (parts : List Text) (isDirectory : Bool) :
    ignores (rules ++ [r]) parts isDirectory =
      if r.concerns parts isDirectory then !r.isNegated else ignores rules parts isDirectory := by
  simp [ignores, List.foldl_append]

/-- One more rule decides where it is about the path, and changes nothing elsewhere. -/
theorem isIgnored_concat (rules : List IgnoreRule) (r : IgnoreRule) (parts : List Text) (isDirectory : Bool) :
    IsIgnored (rules ++ [r]) parts isDirectory ↔
      if r.concerns parts isDirectory then r.isNegated = false else IsIgnored rules parts isDirectory := by
  constructor
  · rintro ⟨earlier, r', later, h, hr', hn, hlater⟩
    rcases List.eq_nil_or_concat later with rfl | ⟨later, last, rfl⟩
    · obtain ⟨-, hr⟩ := List.append_inj' h rfl
      obtain rfl : r = r' := by simpa using hr
      rw [if_pos hr']
      exact hn
    · rw [List.concat_eq_append, ← List.cons_append, ← List.append_assoc] at h
      obtain ⟨hrules, hr⟩ := List.append_inj' h rfl
      obtain rfl : r = last := by simpa using hr
      have hquiet : r.concerns parts isDirectory = false := hlater r (by simp)
      rw [if_neg (by simp [hquiet])]
      exact ⟨earlier, r', later, hrules, hr', hn, fun x hx => hlater x (by simp [hx])⟩
  · intro h
    by_cases hr : r.concerns parts isDirectory = true
    · rw [if_pos hr] at h
      exact ⟨rules, r, [], rfl, hr, h, by simp⟩
    · rw [if_neg hr] at h
      obtain ⟨earlier, r', later, rfl, hr', hn, hlater⟩ := h
      refine ⟨earlier, r', later ++ [r], by simp, hr', hn, ?_⟩
      intro x hx
      rcases List.mem_append.mp hx with hx | hx
      · exact hlater x hx
      · rw [List.mem_singleton.mp hx]
        exact Bool.eq_false_iff.mpr hr

/-- **The last rule about a path decides.** -/
theorem ignores_iff_isIgnored (rules : List IgnoreRule) (parts : List Text) (isDirectory : Bool) :
    ignores rules parts isDirectory = true ↔ IsIgnored rules parts isDirectory := by
  induction rules using List.reverseRecOn with
  | nil => simp [ignores]
  | append_singleton rules r ih =>
    rw [ignores_concat, isIgnored_concat]
    by_cases hr : r.concerns parts isDirectory = true
    · rw [if_pos hr, if_pos hr]
      simp
    · rw [if_neg hr, if_neg hr]
      exact ih

theorem ignores_eq_false_iff (rules : List IgnoreRule) (parts : List Text) (isDirectory : Bool) :
    ignores rules parts isDirectory = false ↔ ¬ IsIgnored rules parts isDirectory := by
  rw [← ignores_iff_isIgnored, Bool.not_eq_true]

end IgnoreRule

/-! ## Globs without wildcards -/

namespace Glob

/-- The characters that do not stand for themselves. -/
def wildcards : List Char := ['*', '?', '[']

theorem ofText_plain {t : Text} (h : ∀ c ∈ t, c ∉ wildcards) : ofText t = t.map .char := by
  unfold ofText
  induction t with
  | nil => rfl
  | cons c t ih =>
    obtain ⟨hc, ht⟩ := List.forall_mem_cons.mp h
    simp only [wildcards, List.mem_cons, List.not_mem_nil, or_false, not_or] at hc
    rw [piecesFrom, if_neg hc.1, if_neg hc.2.1, if_neg hc.2.2, ih ht]
    rfl

theorem matchesAll_chars (t u : Text) : matchesAll (t.map .char) u = true ↔ u = t := by
  induction t generalizing u with
  | nil => simp [matchesAll]
  | cons c t ih =>
    cases u with
    | nil => simp [matchesAll]
    | cons d u => simp [matchesAll, Piece.accepts, ih]

/-- **A glob without wildcards stands for itself alone.** -/
theorem matchesAll_plain {t : Text} (h : ∀ c ∈ t, c ∉ wildcards) (u : Text) :
    matchesAll (ofText t) u = true ↔ u = t := by
  rw [ofText_plain h, matchesAll_chars]

end Glob

namespace IgnoreRule

/-! ## Paths in patterns -/

/-- A path as it is written. -/
def pathText (names : List Text) : Text := Text.joinWith ['/'] names

/-- The names of a path that can be written in a pattern as it is: no name is empty or has a slash or a wildcard, and
there are no blanks around the path. -/
structure IsPlainPath (names : List Text) : Prop where
  ne_nil : names ≠ []
  named : ∀ name ∈ names, name ≠ []
  plain : ∀ name ∈ names, ∀ c ∈ name, c ≠ '/' ∧ c ∉ Glob.wildcards
  stripped : Text.strip (pathText names) = pathText names

variable {names : List Text}

theorem pathText_cons (name : Text) {more : List Text} (h : more ≠ []) :
    pathText (name :: more) = name ++ '/' :: pathText more := by
  unfold pathText
  rw [Text.joinWith_cons _ _ _ h, List.append_assoc]
  rfl

theorem pathText_append {parents : List Text} (hparents : parents ≠ []) (hnames : names ≠ []) :
    pathText (parents ++ names) = pathText parents ++ '/' :: pathText names := by
  unfold pathText
  rw [Text.joinWith_append _ hparents hnames, List.append_assoc]
  rfl

/-- A path starts with the first character of its first name. -/
theorem IsPlainPath.head (h : IsPlainPath names) : ∃ c t, pathText names = c :: t ∧ c ≠ '/' ∧ c ≠ '*' := by
  cases names with
  | nil => exact absurd rfl h.ne_nil
  | cons name more =>
    obtain ⟨c, t, rfl⟩ := List.exists_cons_of_ne_nil (h.named name List.mem_cons_self)
    obtain ⟨hslash, hwild⟩ := h.plain (c :: t) List.mem_cons_self c List.mem_cons_self
    have hstar : c ≠ '*' := fun heq => hwild (by rw [heq]; decide)
    by_cases hmore : more = []
    · exact ⟨c, t, by rw [hmore]; rfl, hslash, hstar⟩
    · exact ⟨c, t ++ '/' :: pathText more, pathText_cons _ hmore, hslash, hstar⟩

theorem IsPlainPath.pathText_ne_nil (h : IsPlainPath names) : pathText names ≠ [] := by
  obtain ⟨c, t, hpath, -⟩ := h.head
  rw [hpath]
  exact List.cons_ne_nil c t

theorem pathText_chars (h : ∀ name ∈ names, ∀ c ∈ name, c ∉ Glob.wildcards) : ∀ c ∈ pathText names, c ∉ Glob.wildcards :=
  Text.forall_mem_joinWith (by decide) h

/-- A path ends with its last name. -/
theorem pathText_endsWith (h : names ≠ []) : ∃ front, ∃ name ∈ names, pathText names = front ++ name := by
  induction names with
  | nil => exact absurd rfl h
  | cons name more ih =>
    by_cases hmore : more = []
    · exact ⟨[], name, List.mem_cons_self, by rw [hmore]; rfl⟩
    · obtain ⟨front, last, hlast, hpath⟩ := ih hmore
      refine ⟨name ++ '/' :: front, last, List.mem_cons_of_mem _ hlast, ?_⟩
      rw [pathText_cons name hmore, hpath, List.append_assoc]
      rfl

theorem IsPlainPath.getLast (h : IsPlainPath names) : ∀ c ∈ (pathText names).getLast?, c ∉ ['/', '*', '*'] := by
  intro c hc
  obtain ⟨front, name, hname, hpath⟩ := pathText_endsWith h.ne_nil
  rw [hpath, List.getLast?_append, List.getLast?_eq_some_getLast (h.named name hname), Option.some_or] at hc
  cases hc
  obtain ⟨hslash, hwild⟩ := h.plain name hname _ (List.getLast_mem (h.named name hname))
  simp only [Glob.wildcards, List.mem_cons, List.not_mem_nil, or_false, not_or] at hwild ⊢
  exact ⟨hslash, hwild.1, hwild.1⟩

/-- A path has a slash if it has more than one name. -/
theorem IsPlainPath.contains_slash (h : IsPlainPath names) :
    Text.contains (pathText names) ['/'] = true ↔ names.length ≠ 1 := by
  rw [Text.contains_char_iff]
  cases names with
  | nil => exact absurd rfl h.ne_nil
  | cons name more =>
    by_cases hmore : more = []
    · rw [hmore]
      exact iff_of_false (fun hslash => (h.plain name List.mem_cons_self '/' hslash).1 rfl) fun hone => hone rfl
    · rw [pathText_cons name hmore]
      refine iff_of_true (by simp) fun hone => hmore ?_
      exact List.length_eq_zero_iff.mp (Nat.succ.inj hone)

/-! ## The rules of a path with any depth -/

/-- The pattern for a path at any depth. -/
def anyDepth (names : List Text) : Text := ['*', '*', '/'] ++ pathText names

/-- The pattern for what is below a path at any depth. -/
def anyDepthBelow (names : List Text) : Text := anyDepth names ++ ['/', '*', '*']

/-- The rule that is left when `**/` in front has been dropped. -/
def plainRule (names : List Text) (onlyDirectories : Bool) : IgnoreRule where
  pattern := pathText names
  onlyDirectories := onlyDirectories
  isAnchored := false
  isNegated := false
  hasSlash := Text.contains (pathText names) ['/']

theorem dropTail_of_not {tail t : Text} (h : Text.endsWith t tail = false) : dropTail tail t = (t, false) := by
  unfold dropTail
  rw [if_neg (by simp [h])]

theorem dropTail_append (tail t : Text) : dropTail tail (t ++ tail) = (t, true) := by
  have hend : Text.endsWith (t ++ tail) tail = true := List.isSuffixOf_iff_suffix.mpr (List.suffix_append t tail)
  unfold dropTail
  rw [if_pos hend]
  simp

theorem IsPlainPath.endsWith (h : IsPlainPath names) (tail : Text) (htail : tail ⊆ ['/', '*', '*']) (hne : tail ≠ []) :
    Text.endsWith (pathText names) tail = false := by
  have hend : Text.endsWith (pathText names ++ []) tail = Text.endsWith [] tail :=
    Text.endsWith_append (fun c hc hmem => h.getLast c hc (htail hmem)) []
  rw [List.append_nil] at hend
  rw [hend, ← Bool.not_eq_true]
  intro hnil
  exact hne (List.suffix_nil.mp (List.isSuffixOf_iff_suffix.mp hnil))

theorem IsPlainPath.dropAnyDepth (h : IsPlainPath names) (tail : Text) :
    dropAnyDepth (pathText names ++ tail) = pathText names ++ tail := by
  obtain ⟨c, t, hpath, -, hstar⟩ := h.head
  rw [hpath, List.cons_append]
  unfold IgnoreRule.dropAnyDepth
  split
  · rename_i heq
    exact absurd (List.cons.inj heq).1 hstar
  · rfl

/-- **What is written for any depth is read as if the front were not there.** -/
theorem ofPattern_anyDepth (h : IsPlainPath names) (tail : Text) (onlyDirectories : Bool)
    (hstrip : Text.strip (anyDepth names ++ tail) = anyDepth names ++ tail)
    (htail : dropTail ['/', '*', '*'] (pathText names ++ tail) = (pathText names, onlyDirectories)) :
    ofPattern? (anyDepth names ++ tail) false = some (plainRule names onlyDirectories) := by
  obtain ⟨c, t, hpath, hslash, hstar⟩ := h.head
  have hdrop : IgnoreRule.dropAnyDepth (anyDepth names ++ tail) = pathText names ++ tail := h.dropAnyDepth tail
  have hfront : Text.after? ['/'] (pathText names) = none := by
    rw [hpath]
    simp [Text.after?, List.isPrefixOf, Ne.symm hslash]
  have hbang : Text.after? ['!'] (anyDepth names ++ tail) = none := rfl
  have hbare := dropTail_of_not (h.endsWith ['/'] (by decide) (by decide))
  unfold ofPattern?
  simp only [hstrip, hbang, Option.getD_none, hdrop, htail, hbare, hfront, if_neg h.pathText_ne_nil]
  simp [plainRule]

theorem ofPattern_anywhere (h : IsPlainPath names) : ofPattern? (anyDepth names) false = some (plainRule names false) := by
  have hstrip : Text.strip (anyDepth names) = anyDepth names :=
    Text.strip_append_self (a := ['*', '*', '/']) rfl (by decide) h.stripped h.pathText_ne_nil []
  have hread := ofPattern_anyDepth h [] false
  rw [List.append_nil, List.append_nil] at hread
  exact hread hstrip (dropTail_of_not (h.endsWith _ (List.Subset.refl _) (by decide)))

theorem ofPattern_below (h : IsPlainPath names) :
    ofPattern? (anyDepthBelow names) false = some (plainRule names true) := by
  have hstrip : Text.strip (anyDepthBelow names) = anyDepthBelow names :=
    Text.strip_append_self (a := ['*', '*', '/']) (b := ['/', '*', '*']) rfl (by decide) rfl (by decide) (pathText names)
  exact ofPattern_anyDepth h ['/', '*', '*'] true hstrip (dropTail_append _ _)

/-! ## What the rules are about -/

/-- The whole path is the text of its last names only if there are no others. -/
theorem pathText_append_eq_iff (hne : names ≠ []) (parents : List Text) :
    pathText (parents ++ names) = pathText names ↔ parents = [] := by
  refine ⟨fun heq => ?_, fun hnil => by rw [hnil]; rfl⟩
  by_cases hparents : parents = []
  · exact hparents
  · have hlength := congrArg List.length heq
    rw [pathText_append hparents hne, List.length_append, List.length_cons] at hlength
    omega

/-- **A path of more than one name is found at the top only.** -/
theorem concerns_plainRule (h : IsPlainPath names) {onlyDirectories isDirectory : Bool}
    (hkind : (isDirectory || !onlyDirectories) = true) (parents : List Text) :
    (plainRule names onlyDirectories).concerns (parents ++ names) isDirectory = true ↔
      parents = [] ∨ names.length = 1 := by
  have hplain : ∀ c ∈ pathText names, c ∉ Glob.wildcards :=
    pathText_chars fun name hname c hc => (h.plain name hname c hc).2
  have hslash : (plainRule names onlyDirectories).hasSlash = true ↔ names.length ≠ 1 := h.contains_slash
  have hconcerns : (plainRule names onlyDirectories).concerns (parents ++ names) isDirectory =
      if (plainRule names onlyDirectories).hasSlash then
        Glob.matchesAll (Glob.ofText (pathText names)) (pathText (parents ++ names))
      else (parents ++ names).any (Glob.matchesAll (Glob.ofText (pathText names))) := by
    simp [concerns, plainRule, pathText, hkind]
  by_cases hone : names.length = 1
  · rw [hconcerns, if_neg fun htrue => hslash.mp htrue hone]
    obtain ⟨name, rfl⟩ := List.length_eq_one_iff.mp hone
    have hself : Glob.matchesAll (Glob.ofText (pathText [name])) name = true := (Glob.matchesAll_plain hplain name).mpr rfl
    exact iff_of_true (List.any_eq_true.mpr ⟨name, by simp, hself⟩) (.inr hone)
  · rw [hconcerns, if_pos (hslash.mpr hone), Glob.matchesAll_plain hplain, pathText_append_eq_iff h.ne_nil]
    exact (or_iff_left hone).symm

/-- As the last rule, the rule of a path leaves the path out exactly where it is about it. -/
theorem ignores_plainRule (h : IsPlainPath names) {onlyDirectories isDirectory : Bool}
    (hkind : (isDirectory || !onlyDirectories) = true) (parents : List Text) (earlier : List IgnoreRule) :
    ignores (earlier ++ [plainRule names onlyDirectories]) (parents ++ names) isDirectory =
      (decide (parents = [] ∨ names.length = 1) || ignores earlier (parents ++ names) isDirectory) := by
  rw [ignores_concat]
  have hiff := concerns_plainRule h hkind parents
  split
  · rename_i hconcerns
    rw [decide_eq_true (hiff.mp hconcerns)]
    rfl
  · rename_i hconcerns
    rw [decide_eq_false fun hplace => hconcerns (hiff.mpr hplace), Bool.false_or]

/-- **A pattern for any depth finds a path of one name at any depth, and a longer path at the top only.**  Both patterns
for a path, that for the path itself and that for what is below it, give a rule; the first leaves the path out as a file,
the second as a directory. -/
theorem ignores_anyDepth (h : IsPlainPath names) : ∃ r below,
    ofPattern? (anyDepth names) false = some r ∧ ofPattern? (anyDepthBelow names) false = some below ∧
      ∀ parents, (r.concerns (parents ++ names) false = true ↔ parents = [] ∨ names.length = 1) ∧
        (below.concerns (parents ++ names) true = true ↔ parents = [] ∨ names.length = 1) ∧
        ∀ earlier,
          ignores (earlier ++ [r]) (parents ++ names) false =
              (decide (parents = [] ∨ names.length = 1) || ignores earlier (parents ++ names) false) ∧
            ignores (earlier ++ [below]) (parents ++ names) true =
              (decide (parents = [] ∨ names.length = 1) || ignores earlier (parents ++ names) true) := by
  refine ⟨plainRule names false, plainRule names true, ofPattern_anywhere h, ofPattern_below h, fun parents => ?_⟩
  exact ⟨concerns_plainRule h rfl parents, concerns_plainRule h rfl parents, fun earlier =>
    ⟨ignores_plainRule h rfl parents earlier, ignores_plainRule h rfl parents earlier⟩⟩

theorem ignores_anyDepth_sample : ∃ r, IsPlainPath ["fixtures".toList] ∧
    ofPattern? "**/fixtures/**".toList false = some r ∧
      ignores [r] (["lib".toList, ".a".toList] ++ ["fixtures".toList]) true = true := by
  have hplain : IsPlainPath ["fixtures".toList] := ⟨by decide, by decide, by decide, by decide⟩
  obtain ⟨r, below, -, hread, hignores⟩ := ignores_anyDepth hplain
  exact ⟨below, hplain, hread, ((hignores ["lib".toList, ".a".toList]).2.2 []).2⟩

/-- **A path of two names is not found below another directory.** -/
theorem ignores_anyDepth_nested : IsPlainPath [['a'], ['b']] ∧ ∃ r below,
    ofPattern? "**/a/b".toList false = some r ∧ ofPattern? "**/a/b/**".toList false = some below ∧
      ignores [r] [['x'], ['a'], ['b']] false = false ∧ ignores [below] [['x'], ['a'], ['b']] true = false :=
  ⟨⟨by decide, by decide, by decide, by decide⟩, plainRule [['a'], ['b']] false, plainRule [['a'], ['b']] true, rfl, rfl,
    rfl, rfl⟩

end IgnoreRule

end SourceDoc
