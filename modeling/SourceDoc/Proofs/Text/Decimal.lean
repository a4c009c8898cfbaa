import SourceDoc.Json.Parser

/-!
# Numbers in decimal

What `Text.ofNat` writes: decimal digits only (`ofNat_digits`), without a zero in front (`head_ofNat`), that read as
the number again (`ofDigits_ofNat`).  How many digits a number has says how large it is (`length_ofNat_pow`).
-/

namespace SourceDoc.Text

/-- A decimal digit. -/
def IsDigit (c : Char) : Prop := 48 ≤ c.toNat ∧ c.toNat ≤ 57

instance (c : Char) : Decidable (IsDigit c) := inferInstanceAs (Decidable (_ ∧ _))

/-- The character with a small code point. -/
theorem toNat_ofNat_small (n : Nat) (h : n < 0xD800) : (Char.ofNat n).toNat = n := by
  unfold Char.ofNat
  rw [dif_pos (show n.isValidChar from Or.inl h)]
  unfold Char.ofNatAux Char.toNat
  rfl

theorem toNat_digitChar (d : Nat) (h : d < 10) : (digitChar d).toNat = 48 + d :=
  toNat_ofNat_small (48 + d) (by omega)

theorem isDigit_digitChar (d : Nat) (h : d < 10) : IsDigit (digitChar d) := by
  unfold IsDigit
  rw [toNat_digitChar d h]
  omega

theorem ofNat_digits (n : Nat) : ∀ c ∈ ofNat n, IsDigit c := by
  induction n using Nat.strongRecOn with
  | ind n ih =>
    intro c hc
    rw [ofNat] at hc
    split at hc
    · rw [List.mem_singleton] at hc
      subst hc
      exact isDigit_digitChar n (by assumption)
    · rcases List.mem_append.mp hc with hc | hc
      · exact ih (n / 10) (by omega) c hc
      · rw [List.mem_singleton] at hc
        subst hc
        exact isDigit_digitChar (n % 10) (by omega)

theorem ofNat_ne_nil (n : Nat) : ofNat n ≠ [] := by
  rw [ofNat]
  split <;> simp

/-- A number is written with a digit in front. -/
theorem ofNat_cons (n : Nat) : ∃ c t, ofNat n = c :: t ∧ IsDigit c := by
  cases hn : ofNat n with
  | nil => exact absurd hn (ofNat_ne_nil n)
  | cons c t => exact ⟨c, t, rfl, ofNat_digits n c (by rw [hn]; exact List.mem_cons_self)⟩

/-- A whole number is written with a digit or a minus sign in front. -/
theorem ofInt_cons (i : Int) : ∃ c t, ofInt i = c :: t ∧ (IsDigit c ∨ c = '-') := by
  cases i with
  | ofNat n =>
    obtain ⟨c, t, he, hc⟩ := ofNat_cons n
    exact ⟨c, t, he, Or.inl hc⟩
  | negSucc n => exact ⟨'-', _, rfl, Or.inr rfl⟩

/-- Only zero is written with a zero in front. -/
theorem head_ofNat (n : Nat) (h : n ≠ 0) : (ofNat n).head? ≠ some '0' := by
  induction n using Nat.strongRecOn with
  | ind n ih =>
    rw [ofNat]
    split
    · next hn =>
      intro h0
      have hc : digitChar n = '0' := Option.some.inj h0
      have hd := toNat_digitChar n hn
      rw [hc] at hd
      have : '0'.toNat = 48 := rfl
      omega
    · have hne : ofNat (n / 10) ≠ [] := ofNat_ne_nil _
      rw [List.head?_append, List.head?_eq_some_head hne, Option.some_or, ← List.head?_eq_some_head hne]
      exact ih (n / 10) (by omega) (by omega)

/-- The digits of a number read as the number. -/
theorem ofDigits_ofNat (n : Nat) : Number.ofDigits (Json.digitValues (ofNat n)) = n := by
  induction n using Nat.strongRecOn with
  | ind n ih =>
    rw [ofNat]
    split
    · next hn =>
      simp [Json.digitValues, Number.ofDigits, toNat_digitChar n hn]
    · have h := ih (n / 10) (by omega)
      simp only [Json.digitValues, Number.ofDigits, List.map_append, List.foldl_append, List.map_cons, List.map_nil,
        List.foldl_cons, List.foldl_nil] at h ⊢
      rw [h, toNat_digitChar (n % 10) (by omega)]
      omega

/-- A power of ten has one digit more than its exponent says. -/
theorem length_ofNat_pow (k : Nat) : (ofNat (Nat.pow 10 k)).length = k + 1 := by
  induction k with
  | zero => simp [ofNat]
  | succ k ih =>
    have hp : 0 < Nat.pow 10 k := Nat.pow_pos (by omega)
    have hs : Nat.pow 10 (k + 1) = Nat.pow 10 k * 10 := rfl
    have hq : Nat.pow 10 (k + 1) / 10 = Nat.pow 10 k := by omega
    rw [ofNat, if_neg (by omega), hq, List.length_append, ih, List.length_singleton]

end SourceDoc.Text
