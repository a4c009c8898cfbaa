import SourceDoc.Proofs.Json.Extent
import SourceDoc.Proofs.Json.RoundTrip
import SourceDoc.Proofs.Text.Blank
import SourceDoc.Proofs.Text.Pattern
import SourceDoc.Prose.Payload

/-!
# The object in a reply

A reply holds a JSON object with other text before and after it, in which there is no brace.  The object is any text
that starts and ends with its braces and is read as the object, as the printed one is (`isObjectText_write`).  Of the
other text only what is left without blanks, and without fences with their word, matters (`leading`, `trailing`):

    readPayload (before ++ t ++ after) = .ok members ↔ leading before after ≠ [] ∨ trailing before after = []
                                                                                             (readPayload_surrounded)

Where something stands before the object, the object is cut out from its first to its last brace; where nothing does,
what stands after it is read with it.
-/

namespace SourceDoc.Prose

open Text

/-- The text is one JSON object, from its opening to its closing brace. -/
structure IsObjectText (t : Text) (members : Json.Members) : Prop where
  first : t.head? = some '\x7b'
  last : t.getLast? = some '\x7d'
  reads : Json.parse t = .ok (.object members)

/-- A text without braces. -/
structure IsBare (t : Text) : Prop where
  opening : '\x7b' ∉ t
  closing : '\x7d' ∉ t

/-- There is a fence at the front and one at the end. -/
def isFenced (before after : Text) : Bool := startsWith (stripLeft before) fence && endsWith (stripRight after) fence

/-- What stands before an object: neither blanks, nor a fence that is closed after it, nor the word of the fence. -/
def leading (before after : Text) : Text :=
  if isFenced before after then stripLeft (dropLeft isInfoChar ((stripLeft before).drop 3)) else stripLeft before

/-- What stands after an object: neither blanks nor the closing fence. -/
def trailing (before after : Text) : Text :=
  if isFenced before after then stripRight ((stripRight after).take ((stripRight after).length - 3)) else stripRight after

/-- An object is printed as the text of an object. -/
theorem isObjectText_write (s : Json.Style) {members : Json.Members} (hplain : (Json.object members).IsPlain)
    (hints : ∀ i ∈ (Json.object members).ints, Json.IsReadable i) :
    IsObjectText (Json.write s (.object members)) members := by
  have hreads := (Json.parse_write_iff s _ hplain [] (fun _ h => nomatch h)).mpr hints
  rw [List.append_nil] at hreads
  cases members with
  | nil => exact ⟨rfl, rfl, hreads⟩
  | cons member members =>
    obtain ⟨name, value⟩ := member
    refine ⟨rfl, ?_, hreads⟩
    rw [Json.write, Json.writeAt_object_cons, ← List.cons_append, List.getLast?_append]
    rfl

/-! ## Text around an object -/

theorem isBlank_of_isSpace {c : Char} (h : Json.isSpace c = true) : isBlank c = true := by
  unfold Json.isSpace at h
  simp only [Bool.or_eq_true, decide_eq_true_eq] at h
  rcases h with ((rfl | rfl) | rfl) | rfl <;> rfl

section

variable {t before after : Text} {members : Json.Members}

/-- The first character of the object is a brace, whatever is behind it. -/
theorem IsObjectText.head_append (h : IsObjectText t members) (after : Text) {p : Char → Prop} (hp : p '\x7b') :
    ∀ c ∈ (t ++ after).head?, p c := by
  rw [List.head?_append, h.first]
  rintro _ ⟨⟩
  exact hp

/-- The last character of the object is a brace, whatever is before it. -/
theorem IsObjectText.getLast_append (h : IsObjectText t members) (before : Text) {p : Char → Prop} (hp : p '\x7d') :
    ∀ c ∈ (before ++ t).getLast?, p c := by
  rw [List.getLast?_append, h.last]
  rintro _ ⟨⟩
  exact hp

theorem strip_around (h : IsObjectText t members) :
    strip (before ++ t ++ after) = stripLeft before ++ t ++ stripRight after := by
  have hleft : stripLeft (before ++ (t ++ after)) = stripLeft before ++ (t ++ after) :=
    dropLeft_append (h.head_append after rfl) before
  have hright : stripRight ((stripLeft before ++ t) ++ after) = (stripLeft before ++ t) ++ stripRight after :=
    dropRight_append (h.getLast_append _ rfl) after
  show stripRight (stripLeft (before ++ t ++ after)) = _
  rw [List.append_assoc before, hleft, ← List.append_assoc, hright]

/-! ## Fences -/

/-- The fences stand outside the object. -/
theorem fenced_around (h : IsObjectText t members) :
    (6 ≤ (stripLeft before ++ t ++ stripRight after).length &&
        startsWith (stripLeft before ++ t ++ stripRight after) fence &&
        endsWith (stripLeft before ++ t ++ stripRight after) fence) = isFenced before after := by
  have hstart : startsWith (stripLeft before ++ t ++ stripRight after) fence = startsWith (stripLeft before) fence := by
    rw [List.append_assoc]
    exact startsWith_append (h.head_append _ (by decide)) _
  have hend : endsWith (stripLeft before ++ t ++ stripRight after) fence = endsWith (stripRight after) fence :=
    endsWith_append (h.getLast_append _ (by decide)) _
  rw [hstart, hend, Bool.and_assoc, ← isFenced.eq_def]
  cases hfenced : isFenced before after with
  | false => rw [Bool.and_false]
  | true =>
    unfold isFenced at hfenced
    rw [Bool.and_eq_true] at hfenced
    have hfront := (List.isPrefixOf_iff_prefix.mp hfenced.1).length_le
    have hback := (List.isSuffixOf_iff_suffix.mp hfenced.2).length_le
    have hlength : fence.length = 3 := rfl
    rw [Bool.and_true, decide_eq_true_eq, List.length_append, List.length_append]
    omega

theorem between_fences (t : Text) : ((fence ++ t ++ fence).drop 3).take ((fence ++ t ++ fence).length - 6) = t := by
  have hlength : (fence ++ t ++ fence).length - 6 = t.length := by
    rw [List.length_append, List.length_append, show fence.length = 3 from rfl]
    omega
  rw [hlength, List.append_assoc]
  exact List.take_left

/-- **Without blanks and fences, the object stands between what leads and what trails.** -/
theorem unfence_around (h : IsObjectText t members) :
    unfence (strip (before ++ t ++ after)) = leading before after ++ t ++ trailing before after := by
  rw [strip_around h]
  unfold unfence leading trailing
  rw [fenced_around h]
  cases hfenced : isFenced before after with
  | false => rfl
  | true =>
    unfold isFenced at hfenced
    rw [Bool.and_eq_true] at hfenced
    obtain ⟨front, hfront⟩ := List.isPrefixOf_iff_prefix.mp hfenced.1
    obtain ⟨back, hback⟩ := List.isSuffixOf_iff_suffix.mp hfenced.2
    have hdrop : (fence ++ front).drop 3 = front := rfl
    have htake : (back ++ fence).take ((back ++ fence).length - 3) = back := by
      rw [List.length_append, show fence.length = 3 from rfl, Nat.add_sub_cancel, List.take_left]
    have hwhole : fence ++ front ++ t ++ (back ++ fence) = fence ++ (front ++ t ++ back) ++ fence := by
      simp only [List.append_assoc]
    have hinfo : dropLeft isInfoChar (front ++ t ++ back) = dropLeft isInfoChar front ++ t ++ back := by
      rw [List.append_assoc, List.append_assoc]
      exact dropLeft_append (h.head_append back (by decide)) front
    rw [if_pos rfl, if_pos rfl, if_pos rfl, ← hfront, ← hback, hdrop, htake, hwhole, between_fences, hinfo,
      strip_around h]

/-! ## The object -/

/-- What is left of a text stands in it. -/
theorem not_mem_leading {c : Char} (h : c ∉ before) (after : Text) : c ∉ leading before after := by
  have hleft : c ∉ stripLeft before := fun hc => h ((List.dropWhile_suffix isBlank).subset hc)
  unfold leading
  split
  · intro hc
    have hc := (List.dropWhile_suffix isBlank).subset hc
    exact hleft (List.mem_of_mem_drop ((List.dropWhile_suffix isInfoChar).subset hc))
  · exact hleft

theorem not_mem_trailing {c : Char} (h : c ∉ after) (before : Text) : c ∉ trailing before after := by
  have hright : c ∉ stripRight after := fun hc => h ((stripRight_within after).subset hc)
  unfold trailing
  split
  · intro hc
    exact hright (List.mem_of_mem_take ((stripRight_within _).subset hc))
  · exact hright

theorem trailing_getLast (before after : Text) : ∀ c ∈ (trailing before after).getLast?, isBlank c = false := by
  unfold trailing
  split <;> exact getLast_dropRight isBlank _

/-- From its first to its last brace, the text around an object is the object. -/
theorem braced_around (h : IsObjectText t members) (hbefore : '\x7b' ∉ before) (hafter : '\x7d' ∉ after) :
    braced? (before ++ t ++ after) = some t := by
  have hbody : (before ++ t ++ after).dropWhile (· ≠ '\x7b') = t ++ after := by
    have hall : dropLeft (· ≠ '\x7b') before = [] :=
      (dropLeft_eq_nil_iff _ before).mpr (List.all_eq_true.mpr fun c hc => decide_eq_true fun heq => hbefore (heq ▸ hc))
    have := dropLeft_append (p := (· ≠ '\x7b')) (h.head_append after (by decide)) before
    rw [hall, List.nil_append] at this
    rw [List.append_assoc]
    exact this
  obtain ⟨inner, hinner⟩ := List.getLast?_eq_some_iff.mp h.last
  have hbreak : breakLast? '\x7d' (t ++ after) = some (inner, after) := by
    rw [hinner, List.append_assoc]
    exact breakLast_append hafter inner
  unfold braced?
  simp only [hbody, hbreak, ← hinner]

theorem objectText_around (h : IsObjectText t members) (hbefore : IsBare before) (hafter : IsBare after) :
    objectText? (before ++ t ++ after) =
      some (if leading before after = [] then t ++ trailing before after else t) := by
  unfold objectText?
  simp only [unfence_around h]
  cases hlead : leading before after with
  | nil =>
    obtain ⟨rest, hrest⟩ := List.head?_eq_some_iff.mp h.first
    have hstart : startsWith ([] ++ t ++ trailing before after) ['\x7b'] = true := by rw [hrest]; rfl
    rw [if_pos hstart, if_pos rfl, List.nil_append]
  | cons c lead =>
    have hopening : '\x7b' ∉ c :: lead := hlead ▸ not_mem_leading hbefore.opening after
    have hc : '\x7b' ≠ c := fun heq => hopening (heq ▸ List.mem_cons_self)
    have hstart : startsWith (c :: lead ++ t ++ trailing before after) ['\x7b'] = false := by
      show ('\x7b' == c && true) = false
      rw [beq_false_of_ne hc, Bool.false_and]
    rw [hstart, if_neg (List.cons_ne_nil c lead)]
    exact braced_around h hopening (not_mem_trailing hafter.closing before)

/-- Text behind an object that does not end with a blank is read with it. -/
theorem parse_trailing (h : IsObjectText t members) (hafter : '\x7d' ∉ after)
    (hlast : ∀ c ∈ after.getLast?, isBlank c = false) (hne : after ≠ []) (v : Json) : Json.parse (t ++ after) ≠ .ok v := by
  intro hread
  obtain ⟨rest, rfl⟩ := List.head?_eq_some_iff.mp h.first
  obtain ⟨front, gap, hwhole, hgap⟩ := Json.parse_object_extent hread
  have hend : (front ++ '\x7d' :: gap).getLast? = some (after.getLast hne) := by
    rw [← hwhole]
    show ('\x7b' :: rest ++ after).getLast? = _
    rw [List.getLast?_append, List.getLast?_eq_some_getLast hne]
    rfl
  rw [List.getLast?_append_cons, List.getLast?_cons] at hend
  cases hgapLast : gap.getLast? with
  | none =>
    rw [hgapLast] at hend
    have hclose : '\x7d' = after.getLast hne := Option.some.inj hend
    exact hafter (hclose ▸ List.getLast_mem hne)
  | some c =>
    rw [hgapLast] at hend
    have hc : c = after.getLast hne := Option.some.inj hend
    have hblank := hlast c (by rw [List.getLast?_eq_some_getLast hne, hc]; rfl)
    rw [isBlank_of_isSpace (hgap c (List.mem_of_getLast? hgapLast))] at hblank
    cases hblank

/-- **The object of a reply is found exactly if something leads it or nothing trails it.** -/
theorem readPayload_surrounded (h : IsObjectText t members) (hbefore : IsBare before) (hafter : IsBare after) :
    readPayload (before ++ t ++ after) = .ok members ↔ leading before after ≠ [] ∨ trailing before after = [] := by
  unfold readPayload
  simp only [objectText_around h hbefore hafter]
  by_cases hlead : leading before after = []
  · rw [if_pos hlead]
    by_cases htrail : trailing before after = []
    · simp [htrail, h.reads]
    · have hfail := parse_trailing h (not_mem_trailing hafter.closing before) (trailing_getLast before after) htrail
      simp only [hlead, htrail, ne_eq, not_true_eq_false, or_self, iff_false]
      cases hread : Json.parse (t ++ trailing before after) with
      | error e => exact fun h => (by cases h)
      | ok v => exact absurd hread (hfail v)
  · rw [if_neg hlead, h.reads]
    simp [hlead]

end

/-- An object on one line. -/
def titleText : Text := "\x7b\"title\": \"T\"\x7d".toList

/-- An indented object with fences and braces in its text. -/
def usageText : Text := "\x7b\n  \"usage\": \"\x60\x60\x60 \x7d \x7b \x60\x60\x60\"\n\x7d".toList

/-- Text leads the first object; the second is found without its fences. -/
theorem readPayload_surrounded_replies :
    readPayload ("Here you go: ".toList ++ titleText ++ " thanks".toList) = .ok [("title".toList, .text ['T'])] ∧
      readPayload ("\x60\x60\x60json\n".toList ++ usageText ++ "\n\x60\x60\x60\n".toList) =
        .ok [("usage".toList, .text "\x60\x60\x60 \x7d \x7b \x60\x60\x60".toList)] :=
  ⟨(readPayload_surrounded ⟨rfl, rfl, rfl⟩ ⟨by decide, by decide⟩ ⟨by decide, by decide⟩).mpr (.inl (by decide)),
    (readPayload_surrounded ⟨rfl, rfl, rfl⟩ ⟨by decide, by decide⟩ ⟨by decide, by decide⟩).mpr (.inr (by decide))⟩

/-- Nothing leads the object, and what trails it is no JSON. -/
theorem readPayload_trailed :
    IsObjectText "\x7b\"a\": 1\x7d".toList [(['a'], .int 1)] ∧
      readPayload ("\x7b\"a\": 1\x7d".toList ++ " done".toList) =
        .error (.malformed "\x7b\"a\": 1\x7d done".toList ⟨.extraData, 9⟩) :=
  ⟨⟨rfl, rfl, rfl⟩, rfl⟩

end SourceDoc.Prose
