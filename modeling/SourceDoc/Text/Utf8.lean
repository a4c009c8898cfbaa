import SourceDoc.Text.Quoted

/-!
# UTF-8

A text as octets and back.  Reading looks at one character at a time: the lead octet tells how many octets there are
and narrows the range of the second one; `decode` stops at the first fault and says where it is and what is wrong,
`decodeKnown` leaves faulty octets out.
-/

namespace SourceDoc.Text

/-! ## Writing -/

/-- The octets of a character. -/
def encodeChar (c : Char) : List UInt8 :=
  let n := c.toNat
  let tail := fun (k : Nat) => UInt8.ofNat (0x80 + k % 0x40)
  if n < 0x80 then [UInt8.ofNat n]
  else if n < 0x800 then [UInt8.ofNat (0xC0 + n / 0x40), tail n]
  else if n < 0x10000 then [UInt8.ofNat (0xE0 + n / 0x1000), tail (n / 0x40), tail n]
  else [UInt8.ofNat (0xF0 + n / 0x40000), tail (n / 0x1000), tail (n / 0x40), tail n]

/-- The octets of a text. -/
def encode (t : Text) : List UInt8 := t.flatMap encodeChar

/-- The number of octets of a character. -/
def sizeOfChar (c : Char) : Nat :=
  if c.toNat < 0x80 then 1 else if c.toNat < 0x800 then 2 else if c.toNat < 0x10000 then 3 else 4

/-- The number of octets of a text. -/
def size (t : Text) : Nat := t.foldl (fun n c => n + sizeOfChar c) 0

/-! ## Reading -/

/-- What is wrong with some octets. -/
inductive DecodeFault where
  | invalidStart
  | invalidContinuation
  | unexpectedEnd
  deriving DecidableEq, Repr

/-- A fault, the place of its first octet, and the number of octets that it takes in. -/
structure DecodeError where
  fault : DecodeFault
  position : Nat
  length : Nat
  octet : UInt8
  deriving DecidableEq, Repr

/-- The words for a fault. -/
def DecodeFault.words : DecodeFault → Text
  | invalidStart => "invalid start byte".toList
  | invalidContinuation => "invalid continuation byte".toList
  | unexpectedEnd => "unexpected end of data".toList

/-- The wording of an error. -/
def DecodeError.message (e : DecodeError) : Text :=
  let place :=
    if e.length = 1 then "byte 0x".toList ++ hex 2 e.octet.toNat ++ " in position ".toList ++ ofNat e.position
    else "bytes in position ".toList ++ ofNat e.position ++ '-' :: ofNat (e.position + e.length - 1)
  "'utf-8' codec can't decode ".toList ++ place ++ ": ".toList ++ e.fault.words

/-- The octets at the front: a character or a fault, and how many octets. -/
inductive Front where
  | char (c : Char) (length : Nat)
  | fault (f : DecodeFault) (length : Nat)

/-- The number of octets of a character by its lead octet, and the bits of it that the lead octet holds. -/
def leadOf? (b : Nat) : Option (Nat × Nat) :=
  if b < 0x80 then some (1, b)
  else if 0xC2 ≤ b && b < 0xE0 then some (2, b - 0xC0)
  else if 0xE0 ≤ b && b < 0xF0 then some (3, b - 0xE0)
  else if 0xF0 ≤ b && b < 0xF5 then some (4, b - 0xF0)
  else none

/-- The range of the second octet after a lead octet. -/
def secondRange (lead : Nat) : Nat × Nat :=
  if lead = 0xE0 then (0xA0, 0xBF)
  else if lead = 0xED then (0x80, 0x9F)
  else if lead = 0xF0 then (0x90, 0xBF)
  else if lead = 0xF4 then (0x80, 0x8F)
  else (0x80, 0xBF)

/-- Reads the octets after the lead: `missing` of them are to come, the next one in the given range; `value` and
`length` stand for those read. -/
def readTail (range : Nat × Nat) (value length : Nat) : (missing : Nat) → List UInt8 → Front
  | 0, _ => .char (Char.ofNat value) length
  | _ + 1, [] => .fault .unexpectedEnd length
  | n + 1, b :: rest =>
    if range.1 ≤ b.toNat ∧ b.toNat ≤ range.2 then
      readTail (0x80, 0xBF) (value * 64 + (b.toNat - 0x80)) (length + 1) n rest
    else .fault .invalidContinuation length

/-- The character or the fault at the front of some octets. -/
def frontOf (lead : UInt8) (rest : List UInt8) : Front :=
  match leadOf? lead.toNat with
  | none => .fault .invalidStart 1
  | some (n, bits) => readTail (secondRange lead.toNat) bits 1 (n - 1) rest

/-- The text of octets from a position on, after `skip` octets. -/
def decodeFrom (position skip : Nat) : List UInt8 → Except DecodeError Text
  | [] => .ok []
  | b :: rest =>
    match skip with
    | n + 1 => decodeFrom (position + 1) n rest
    | 0 =>
      match frontOf b rest with
      | .fault f length => .error ⟨f, position, length, b⟩
      | .char c length =>
        match decodeFrom (position + 1) (length - 1) rest with
        | .ok t => .ok (c :: t)
        | .error e => .error e

/-- The text of octets. -/
def decode (octets : List UInt8) : Except DecodeError Text := decodeFrom 0 0 octets

/-- The characters of octets after `skip` octets, faults left out. -/
def decodeKnownFrom (skip : Nat) : List UInt8 → Text
  | [] => []
  | b :: rest =>
    match skip with
    | n + 1 => decodeKnownFrom n rest
    | 0 =>
      match frontOf b rest with
      | .fault _ length => decodeKnownFrom (length - 1) rest
      | .char c length => c :: decodeKnownFrom (length - 1) rest

/-- The characters of octets, faults left out. -/
def decodeKnown (octets : List UInt8) : Text := decodeKnownFrom 0 octets

end SourceDoc.Text
