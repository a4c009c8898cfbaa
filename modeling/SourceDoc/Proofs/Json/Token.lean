import SourceDoc.Json.Printer
import SourceDoc.Proofs.Text.Decimal

/-!
# Texts and whole numbers read back

A text between quotes is read as the text, whichever characters are escaped (`parseText_writeText`).  The digits of a
whole number are read as the number unless they are more than are read (`parseNumber_ofInt`); that the number ends
there is up to what follows (`EndsNumber`).
-/

namespace SourceDoc.Json

open Text

/-! ## Escapes of units -/

theorem hexValue_hexDigit : ∀ d, d < 16 → hexValue? (hexDigit d) = some d := by
  decide

theorem hex_four (n : Nat) :
    hex 4 n = [hexDigit (n / 4096 % 16), hexDigit (n / 256 % 16), hexDigit (n / 16 % 16), hexDigit (n % 16)] := by
  simp [hex, Nat.div_div_eq_div_mul]

@[simp] theorem length_hex_four (n : Nat) : (hex 4 n).length = 4 := by
  rw [hex_four]
  rfl

/-- Four hexadecimal digits read as the unit that they write. -/
theorem unit_hex (n : Nat) (h : n < 0x10000) (r : Text) : unit? (hex 4 n ++ r) = some n := by
  rw [hex_four]
  simp only [List.cons_append, List.nil_append, unit?, hexValue_hexDigit _ (Nat.mod_lt _ (by omega : 0 < 16))]
  congr 1
  omega

/-- No character is a surrogate. -/
theorem not_surrogate (c : Char) : c.toNat < 0xD800 ∨ 0xE000 ≤ c.toNat := by
  have h : c.toNat < 0xD800 ∨ 0xDFFF < c.toNat ∧ c.toNat < 0x110000 := c.valid
  omega

theorem toNat_lt (c : Char) : c.toNat < 0x110000 := by
  have h : c.toNat < 0xD800 ∨ 0xDFFF < c.toNat ∧ c.toNat < 0x110000 := c.valid
  omega

/-- The escape of a character that is one unit. -/
theorem unicodeEscape_one (c : Char) (h : c.toNat < 0x10000) (r : Text) (hr : r ≠ []) (o : Nat) :
    unicodeEscape ⟨hex 4 c.toNat ++ r, o⟩ = .ok (c, 4) := by
  have hlen : 0 < r.length := List.length_pos_iff.mpr hr
  have hs := not_surrogate c
  have hhigh : isHighSurrogate c.toNat = false := by
    simp only [isHighSurrogate, Bool.and_eq_false_iff, decide_eq_false_iff_not]
    omega
  have hlone : loneUnit c.toNat = c := by
    unfold loneUnit
    rw [if_neg (by simp only [Bool.and_eq_true, decide_eq_true_eq]; omega), Char.ofNat_toNat]
  unfold unicodeEscape
  rw [if_neg (by simp; omega)]
  simp only [unit_hex c.toNat h r, hhigh, hlone]

/-- The escapes of a high and of a low surrogate are one character. -/
theorem unicodeEscape_pair (high low : Nat) (hh : isHighSurrogate high = true) (hl : isLowSurrogate low = true)
    (r : Text) (hr : r ≠ []) (o : Nat) :
    unicodeEscape ⟨hex 4 high ++ '\\' :: 'u' :: (hex 4 low ++ r), o⟩ =
      .ok (Char.ofNat (0x10000 + (high - 0xD800) * 0x400 + (low - 0xDC00)), 10) := by
  have hlen : 0 < r.length := List.length_pos_iff.mpr hr
  have hhigh : high < 0x10000 := by
    simp only [isHighSurrogate, Bool.and_eq_true, decide_eq_true_eq] at hh
    omega
  have hlow : low < 0x10000 := by
    simp only [isLowSurrogate, Bool.and_eq_true, decide_eq_true_eq] at hl
    omega
  have hdrop : ∀ t : Text, (hex 4 high ++ t).drop 4 = t := fun t => List.drop_left' (length_hex_four high)
  unfold unicodeEscape
  rw [if_neg (by simp)]
  simp only [unit_hex high hhigh, hh, hdrop]
  rw [if_neg (by simp; omega)]
  simp only [unit_hex low hlow, hl, if_true]

/-- The escapes of a character that is two units. -/
theorem unicodeEscape_two (c : Char) (h : 0x10000 ≤ c.toNat) (r : Text) (hr : r ≠ []) (o : Nat) :
    unicodeEscape ⟨hex 4 (0xD800 + (c.toNat - 0x10000) / 0x400) ++
      '\\' :: 'u' :: (hex 4 (0xDC00 + (c.toNat - 0x10000) % 0x400) ++ r), o⟩ = .ok (c, 10) := by
  have hlt := toNat_lt c
  have hhigh : isHighSurrogate (0xD800 + (c.toNat - 0x10000) / 0x400) = true := by
    simp only [isHighSurrogate, Bool.and_eq_true, decide_eq_true_eq]
    omega
  have hlow : isLowSurrogate (0xDC00 + (c.toNat - 0x10000) % 0x400) = true := by
    simp only [isLowSurrogate, Bool.and_eq_true, decide_eq_true_eq]
    omega
  have hsum : 0x10000 + (0xD800 + (c.toNat - 0x10000) / 0x400 - 0xD800) * 0x400 +
      (0xDC00 + (c.toNat - 0x10000) % 0x400 - 0xDC00) = c.toNat := by
    omega
  rw [unicodeEscape_pair _ _ hhigh hlow r hr o, hsum, Char.ofNat_toNat]

/-! ## Texts -/

/-- One step of reading a text, at an escape with a letter. -/
theorem parseTextFrom_letter (opened bound : Nat) (read : Text) (c d : Char) (h : letterEscape? d = some c)
    (r : Text) (o : Nat) :
    parseTextFrom opened (bound + 1) read ⟨'\\' :: d :: r, o⟩ = parseTextFrom opened bound (c :: read) ⟨r, o + 2⟩ := by
  have hu : d ≠ 'u' := by
    rintro rfl
    cases h
  rw [parseTextFrom]
  simp [h, Input.drop]

/-- One step of reading a text, at an escape of a unit or of two. -/
theorem parseTextFrom_unit (opened bound : Nat) (read : Text) (c : Char) (r : Text) (hr : r ≠ []) (o : Nat) :
    parseTextFrom opened (bound + 1) read ⟨unitEscapes c ++ r, o⟩ =
      parseTextFrom opened bound (c :: read) ⟨r, o + (unitEscapes c).length⟩ := by
  unfold unitEscapes
  dsimp only
  split
  · next h =>
    rw [parseTextFrom]
    simp [Input.drop, unicodeEscape_one c h r hr, Nat.add_comm]
  · next h =>
    have he := unicodeEscape_two c (by omega) r hr (o + 2)
    have hdrop : ∀ high low, (hex 4 high ++ '\\' :: 'u' :: (hex 4 low ++ r)).drop 10 = r := by
      intro high low
      rw [hex_four, hex_four]
      rfl
    rw [parseTextFrom]
    simp only [List.cons_append, List.append_assoc, Input.drop, List.drop_succ_cons, List.drop_zero, he]
    simp [hdrop, Nat.add_comm]

/-- One step of reading a text, at a character that stands for itself. -/
theorem parseTextFrom_plain (opened bound : Nat) (read : Text) (c : Char) (hq : c ≠ '"') (hb : c ≠ '\\')
    (hc : 32 ≤ c.toNat) (r : Text) (o : Nat) :
    parseTextFrom opened (bound + 1) read ⟨c :: r, o⟩ = parseTextFrom opened bound (c :: read) ⟨r, o + 1⟩ := by
  rw [parseTextFrom]
  simp [Nat.not_lt.mpr hc, Input.drop]

/-- One step of reading a text, at the escape of a character. -/
theorem parseTextFrom_escapeChar (isAscii : Bool) (opened bound : Nat) (read : Text) (c : Char) (r : Text)
    (hr : r ≠ []) (o : Nat) :
    parseTextFrom opened (bound + 1) read ⟨escapeChar isAscii c ++ r, o⟩ =
      parseTextFrom opened bound (c :: read) ⟨r, o + (escapeChar isAscii c).length⟩ := by
  have hletter := fun d h => parseTextFrom_letter opened bound read c d h r o
  have hnat : ∀ n, n < 32 → c.toNat = n → c = Char.ofNat n := by
    intro n _ h
    rw [← h, Char.ofNat_toNat]
  unfold escapeChar
  split
  · next h => exact hletter '"' (by rw [h]; rfl)
  split
  · next h => exact hletter '\\' (by rw [h]; rfl)
  split
  · next h => exact hletter 'n' (by rw [h]; rfl)
  split
  · next h => exact hletter 'r' (by rw [h]; rfl)
  split
  · next h => exact hletter 't' (by rw [h]; rfl)
  split
  · next h => exact hletter 'b' (by rw [hnat 8 (by omega) h]; rfl)
  split
  · next h => exact hletter 'f' (by rw [hnat 12 (by omega) h]; rfl)
  split
  · exact parseTextFrom_unit opened bound read c r hr o
  split
  · exact parseTextFrom_unit opened bound read c r hr o
  · next hq hb _ _ _ _ _ hc _ => exact parseTextFrom_plain opened bound read c hq hb (by omega) r o

/-- The characters of a text up to its closing quote. -/
theorem parseTextFrom_escaped (isAscii : Bool) (opened : Nat) (t r : Text) : ∀ (bound : Nat) (read : Text) (o : Nat),
    t.length < bound →
    parseTextFrom opened bound read ⟨t.flatMap (escapeChar isAscii) ++ '"' :: r, o⟩ =
      .ok (read.reverse ++ t, ⟨r, o + (t.flatMap (escapeChar isAscii)).length + 1⟩) := by
  induction t with
  | nil =>
    intro bound read o hb
    obtain ⟨b, rfl⟩ : ∃ b, bound = b + 1 := ⟨bound - 1, by simp at hb; omega⟩
    rw [parseTextFrom]
    simp [Input.drop]
  | cons c t ih =>
    intro bound read o hb
    obtain ⟨b, rfl⟩ : ∃ b, bound = b + 1 := ⟨bound - 1, by simp at hb; omega⟩
    rw [List.flatMap_cons, List.append_assoc, parseTextFrom_escapeChar isAscii opened b read c _ (by simp) o,
      ih b (c :: read) _ (by simp at hb; omega)]
    simp [Nat.add_assoc]

theorem escapeChar_ne_nil (isAscii : Bool) (c : Char) : escapeChar isAscii c ≠ [] := by
  have hu : unitEscapes c ≠ [] := by
    unfold unitEscapes
    dsimp only
    split <;> simp
  unfold escapeChar
  repeat' split
  all_goals first | exact hu | simp

theorem length_le_escaped (isAscii : Bool) (t : Text) : t.length ≤ (t.flatMap (escapeChar isAscii)).length := by
  induction t with
  | nil => simp
  | cons c t ih =>
    have hc : 0 < (escapeChar isAscii c).length := List.length_pos_iff.mpr (escapeChar_ne_nil isAscii c)
    simp only [List.flatMap_cons, List.length_append, List.length_cons]
    omega

/-- **A text reads back.** -/
theorem parseText_writeText (isAscii : Bool) (t r : Text) (o : Nat) :
    parseText ⟨writeText isAscii t ++ r, o⟩ = .ok (t, ⟨r, o + (writeText isAscii t).length⟩) := by
  have hlen := length_le_escaped isAscii t
  unfold parseText writeText
  simp only [Input.drop, List.cons_append, List.append_assoc, List.drop_succ_cons, List.drop_zero, List.nil_append]
  rw [parseTextFrom_escaped isAscii o t r _ [] (o + 1)
    (by simp only [List.length_cons, List.length_append]; omega)]
  simp only [List.reverse_nil, List.nil_append, List.length_cons, List.length_append, List.length_nil]
  congr 3
  omega

/-! ## Whole numbers -/

/-- A text that does not go on with a number in front of it. -/
def EndsNumber (r : Text) : Prop := ∀ c, r.head? = some c → ¬ IsDigit c ∧ c ≠ '.' ∧ c ≠ 'e' ∧ c ≠ 'E'

theorem endsNumber_cons (c : Char) (r : Text) (h : ¬ IsDigit c ∧ c ≠ '.' ∧ c ≠ 'e' ∧ c ≠ 'E') :
    EndsNumber (c :: r) := by
  intro d hd
  rw [List.head?_cons, Option.some.injEq] at hd
  exact hd ▸ h

theorem digits_append (ds r : Text) (hd : ∀ c ∈ ds, IsDigit c) (hr : EndsNumber r) : digits (ds ++ r) = ds := by
  have hp : ∀ c, IsDigit c ↔ (decide (48 ≤ c.toNat) && decide (c.toNat ≤ 57)) = true := by
    intro c
    simp [IsDigit]
  unfold digits
  rw [List.takeWhile_append_of_pos fun c hc => (hp c).mp (hd c hc)]
  cases r with
  | nil => simp
  | cons c r =>
    have hc : ¬ IsDigit c := (hr c rfl).1
    rw [hp] at hc
    simp only [List.takeWhile_cons, if_neg hc, List.append_nil]

/-- The digits of a number have no fraction and no exponent after them. -/
theorem numeral_ofNat (n : Nat) (r : Text) (hr : EndsNumber r) :
    numeral? (Text.ofNat n ++ r) =
      some { whole := Text.ofNat n, fraction := [], exponent := none, length := (Text.ofNat n).length } := by
  have hdigits := digits_append (Text.ofNat n) r (ofNat_digits n) hr
  have hne := ofNat_ne_nil n
  have hwhole : wholePart? (Text.ofNat n ++ r) = some (Text.ofNat n) := by
    unfold wholePart?
    rw [hdigits]
    by_cases hn : n = 0
    · subst hn
      rw [Text.ofNat]
      rfl
    · have hhead := head_ofNat n hn
      cases hds : Text.ofNat n with
      | nil => exact absurd hds hne
      | cons c ds =>
        rw [hds, List.head?_cons] at hhead
        have hc : c ≠ '0' := fun h => hhead (by rw [h])
        simp [hc]
  have hfraction : fractionPart r = [] := by
    cases r with
    | nil => rfl
    | cons c r =>
      have hpoint := (hr c rfl).2.1
      simp [fractionPart, hpoint]
  have hexponent : exponentPart? r = none := by
    cases r with
    | nil => rfl
    | cons c r =>
      obtain ⟨-, -, he, hE⟩ := hr c rfl
      simp [exponentPart?, he, hE]
  unfold numeral?
  rw [hwhole]
  simp [hfraction, hexponent]

/-- The whole number is written with no more digits than are read. -/
def IsReadable (i : Int) : Prop := (Text.ofNat i.natAbs).length ≤ Number.maxDigits

instance (i : Int) : Decidable (IsReadable i) := inferInstanceAs (Decidable (_ ≤ _))

theorem isReadable_of_lt (i : Int) (h : i.natAbs < 10) : IsReadable i := by
  unfold IsReadable
  rw [Text.ofNat, if_pos h]
  show 1 ≤ Number.maxDigits
  decide

/-- No word stands in front of a text that starts with a digit. -/
theorem constants_find_digit (c : Char) (hc : IsDigit c) (r : Text) :
    (constants.find? fun (word, _) => word.isPrefixOf (c :: r)) = none := by
  have hne : ∀ d : Char, ¬ IsDigit d → ¬ d = c := fun d hd he => hd (he ▸ hc)
  simp [constants, List.isPrefixOf, hne 'n' (by decide), hne 't' (by decide), hne 'f' (by decide),
    hne 'N' (by decide), hne 'I' (by decide), hne '-' (by decide)]

/-- No word stands in front of a minus sign and a digit. -/
theorem constants_find_minus (c : Char) (hc : IsDigit c) (r : Text) :
    (constants.find? fun (word, _) => word.isPrefixOf ('-' :: c :: r)) = none := by
  have hne : ¬ 'I' = c := fun he => absurd (he ▸ hc) (by decide)
  simp [constants, List.isPrefixOf, hne]

/-- What reading the digits of a whole number gives. -/
def readInt (i : Int) (r : Text) (o : Nat) : Except ParseError (Json × Input) :=
  if IsReadable i then .ok (.int i, ⟨r, o + (Text.ofInt i).length⟩)
  else .error ⟨.number (.tooLong (Text.ofNat i.natAbs).length), o⟩

/-- The digits of a number have no sign in front of them. -/
theorem minusSign_ofNat (n : Nat) (r : Text) : minusSign (Text.ofNat n ++ r) = (false, Text.ofNat n ++ r) := by
  obtain ⟨c, ds, he, hc⟩ := ofNat_cons n
  have hm : c ≠ '-' := by
    rintro rfl
    exact absurd hc (by decide)
  simp [he, minusSign, hm]

theorem parseNumber_ofInt (i : Int) (r : Text) (hr : EndsNumber r) (o : Nat) :
    parseNumber ⟨Text.ofInt i ++ r, o⟩ = readInt i r o := by
  unfold parseNumber readInt
  cases i with
  | ofNat n =>
    have hi : IsReadable (Int.ofNat n) ↔ (Text.ofNat n).length ≤ Number.maxDigits := Iff.rfl
    simp only [Text.ofInt, minusSign_ofNat, numeral_ofNat n r hr, Input.drop, hi, ofDigits_ofNat]
    by_cases h : (Text.ofNat n).length ≤ Number.maxDigits
    · simp [h, Nat.not_lt.mpr h]
    · simp [h, Nat.lt_of_not_le h]
  | negSucc n =>
    have hi : IsReadable (Int.negSucc n) ↔ (Text.ofNat (n + 1)).length ≤ Number.maxDigits := Iff.rfl
    simp only [Text.ofInt, List.cons_append, minusSign, numeral_ofNat (n + 1) r hr, Input.drop, hi, ofDigits_ofNat]
    by_cases h : (Text.ofNat (n + 1)).length ≤ Number.maxDigits
    · simp [h, Nat.not_lt.mpr h, Int.negSucc_eq]
    · simp [h, Nat.lt_of_not_le h]

/-- **A whole number reads back,** unless it has more digits than are read. -/
theorem parseAtom_ofInt (i : Int) (r : Text) (hr : EndsNumber r) (o : Nat) :
    parseAtom ⟨Text.ofInt i ++ r, o⟩ = readInt i r o := by
  have hfind : (constants.find? fun (word, _) => word.isPrefixOf (Text.ofInt i ++ r)) = none := by
    cases i with
    | ofNat n =>
      obtain ⟨c, ds, he, hc⟩ := ofNat_cons n
      simp only [Text.ofInt, he, List.cons_append]
      exact constants_find_digit c hc (ds ++ r)
    | negSucc n =>
      obtain ⟨c, ds, he, hc⟩ := ofNat_cons (n + 1)
      simp only [Text.ofInt, he, List.cons_append]
      exact constants_find_minus c hc (ds ++ r)
  unfold parseAtom
  rw [hfind]
  exact parseNumber_ofInt i r hr o

end SourceDoc.Json
