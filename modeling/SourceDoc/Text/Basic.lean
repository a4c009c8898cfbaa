/-!
# Texts

A text is a list of characters (Unicode scalar values), so every function on texts is a recursion on lists.
This module holds the operations that know nothing of character classes: splitting at a character
(`splitOn`, whose pieces joined again give the text back), joining, searching and replacing a piece,
writing numbers in decimal, and the order of texts by their characters from the first on, and of characters
by code point.
-/

namespace SourceDoc

/-- A text, as its characters in order. -/
abbrev Text := List Char

namespace Text

/-! ## Pieces -/

/-- The pieces of a text between the occurrences of a character; one more than there are occurrences. -/
def splitOn (sep : Char) : Text → List Text
  | [] => [[]]
  | c :: rest =>
    match splitOn sep rest with
    | [] => [[c]]
    | piece :: pieces => if c = sep then [] :: piece :: pieces else (c :: piece) :: pieces

/-- Pieces with a separator between neighbours. -/
def joinWith (sep : Text) : List Text → Text
  | [] => []
  | [piece] => piece
  | piece :: pieces => piece ++ sep ++ joinWith sep pieces

/-- The lines of a text, split at every newline character. -/
def lines (t : Text) : List Text := splitOn '\n' t

/-- Lines joined by newline characters. -/
def joinLines (ls : List Text) : Text := joinWith ['\n'] ls

/-- The number of lines: one more than the number of newline characters. -/
def lineCount (t : Text) : Nat := (lines t).length

/-! ## Searching -/

/-- The text begins with `head`. -/
def startsWith (t head : Text) : Bool := head.isPrefixOf t

/-- The text ends with `tail`. -/
def endsWith (t tail : Text) : Bool := tail.isSuffixOf t

/-- The text before and after the first occurrence of `needle`. -/
def breakOn? (needle : Text) : Text → Option (Text × Text)
  | [] => if needle = [] then some ([], []) else none
  | c :: rest =>
    if needle.isPrefixOf (c :: rest) then some ([], (c :: rest).drop needle.length)
    else (breakOn? needle rest).map fun (before, after) => (c :: before, after)

/-- `needle` occurs in the text. -/
def contains (t needle : Text) : Bool := (breakOn? needle t).isSome

/-- The text before the first occurrence of `sep`, or all of it. -/
def before (sep : Char) (t : Text) : Text := t.takeWhile (· ≠ sep)

/-- The text after the last occurrence of `sep`, or all of it. -/
def afterLast (sep : Char) (t : Text) : Text := ((splitOn sep t).getLast?).getD []

/-- The text up to and without the last occurrence of `sep`, and what follows it. -/
def breakLast? (sep : Char) (t : Text) : Option (Text × Text) :=
  if t.any (· == sep) then
    let tail := (t.reverse.takeWhile (· ≠ sep)).reverse
    some (t.take (t.length - tail.length - 1), tail)
  else none

/-- The first occurrence of `old` replaced by `new`. -/
def replaceFirst (old new : Text) (t : Text) : Text :=
  match breakOn? old t with
  | some (before, after) => before ++ new ++ after
  | none => t

/-- The text without leading characters of a class. -/
def dropLeft (p : Char → Bool) (t : Text) : Text := t.dropWhile p

/-- The text without trailing characters of a class. -/
def dropRight (p : Char → Bool) (t : Text) : Text := (t.reverse.dropWhile p).reverse

/-- The text without leading and trailing characters of a class. -/
def trim (p : Char → Bool) (t : Text) : Text := dropRight p (dropLeft p t)

/-- The text without its first characters if they are `head`. -/
def dropHead (head t : Text) : Text :=
  if head.isPrefixOf t then t.drop head.length else t

/-! ## Numbers -/

/-- The decimal digit of a number below ten. -/
def digitChar (d : Nat) : Char := Char.ofNat (48 + d)

/-- The decimal digits of a number, the most significant first. -/
def ofNat (n : Nat) : Text :=
  if n < 10 then [digitChar n] else ofNat (n / 10) ++ [digitChar (n % 10)]
termination_by n
decreasing_by omega

/-- A whole number in decimal. -/
def ofInt : Int → Text
  | .ofNat n => ofNat n
  | .negSucc n => '-' :: ofNat (n + 1)

/-! ## Order -/

/-- A text does not come after another. -/
def isBefore : Text → Text → Bool
  | [], _ => true
  | _ :: _, [] => false
  | a :: as, b :: bs => if a = b then isBefore as bs else a.toNat < b.toNat

/-- Some values in the order of their texts; those with the same text stay as they are. -/
def sortOn {α : Type} (key : α → Text) (l : List α) : List α := l.mergeSort fun a b => isBefore (key a) (key b)

/-- Some texts in order. -/
def sorted (ts : List Text) : List Text := ts.mergeSort isBefore

/-- Some texts in order, each once. -/
def sortedUnique (ts : List Text) : List Text := (sorted ts).eraseReps

/-! ## Lemmas -/

theorem joinWith_cons (sep piece : Text) (pieces : List Text) (h : pieces ≠ []) :
    joinWith sep (piece :: pieces) = piece ++ sep ++ joinWith sep pieces := by
  cases pieces with
  | nil => exact absurd rfl h
  | cons p ps => rfl

/-- A character stands in front of the first piece, unless it is the separator. -/
theorem splitOn_cons {sep : Char} {t piece : Text} {pieces : List Text} (h : splitOn sep t = piece :: pieces) (c : Char) :
    splitOn sep (c :: t) = if c = sep then [] :: piece :: pieces else (c :: piece) :: pieces := by
  rw [splitOn, h]

theorem splitOn_ne_nil (sep : Char) (t : Text) : splitOn sep t ≠ [] := by
  induction t with
  | nil => exact List.cons_ne_nil _ _
  | cons c t ih =>
    obtain ⟨piece, pieces, h⟩ := List.exists_cons_of_ne_nil ih
    rw [splitOn_cons h]
    split <;> exact List.cons_ne_nil _ _

/-- The pieces joined by the separator are the text. -/
theorem joinWith_splitOn (sep : Char) (t : Text) : joinWith [sep] (splitOn sep t) = t := by
  induction t with
  | nil => rfl
  | cons c t ih =>
    obtain ⟨piece, pieces, h⟩ := List.exists_cons_of_ne_nil (splitOn_ne_nil sep t)
    rw [h] at ih
    rw [splitOn_cons h]
    split
    · next hc =>
      rw [joinWith_cons _ _ _ (List.cons_ne_nil _ _), ih, hc]
      rfl
    · rw [← ih]
      cases pieces <;> rfl

theorem joinLines_lines (t : Text) : joinLines (lines t) = t := joinWith_splitOn '\n' t

end Text

end SourceDoc
