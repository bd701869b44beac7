/-
Bytes as text: UTF-8, read strictly or with replacement, and UTF-16 and UTF-32, read strictly.

A malformed UTF-8 sequence is measured by its longest part that could still begin a character.
Strict reading refuses it; lenient reading writes one replacement character for each such part.

Surrogates are no characters. Strict reading refuses one that is written by itself, too, or has the
replacement character for it, as it is asked to.
-/
namespace CharmDepot

/-- The content of a file or of a response. -/
abbrev Bytes := List UInt8

namespace Text

/-- The UTF-8 form of a text. -/
def utf8 (s : String) : Bytes :=
  s.toUTF8.toList

/-- What becomes of a surrogate that is no half of a pair. -/
inductive Surrogates
  | refused
  | lone
  deriving DecidableEq

-- ===================================================== one character

/-- The character of a code, or the replacement character if the code has none. -/
def charOfCode (n : Nat) : Char :=
  if n.isValidChar then Char.ofNat n else '\uFFFD'

/-- Whether a byte continues a character, within the bounds that the lead byte sets for it. -/
def continues (lo hi : UInt8) (b : UInt8) : Bool :=
  lo ≤ b && b ≤ hi

/-- For a lead byte, the bits it contributes, the bounds of the second byte and the number of
bytes that follow. `none` if no character begins with it. -/
def leadByte? (s : Surrogates) (b : UInt8) : Option (Nat × UInt8 × UInt8 × Nat) :=
  if b < 0x80 then some (b.toNat, 0, 0, 0)
  else if b < 0xC2 then none
  else if b < 0xE0 then some (b.toNat - 0xC0, 0x80, 0xBF, 1)
  else if b = 0xE0 then some (0, 0xA0, 0xBF, 2)
  else if b = 0xED then some (0xD, 0x80, if s = .lone then 0xBF else 0x9F, 2)
  else if b < 0xF0 then some (b.toNat - 0xE0, 0x80, 0xBF, 2)
  else if b = 0xF0 then some (0, 0x90, 0xBF, 3)
  else if b < 0xF4 then some (b.toNat - 0xF0, 0x80, 0xBF, 3)
  else if b = 0xF4 then some (4, 0x80, 0x8F, 3)
  else none

/-- Reads `n` continuation bytes. Gives the accumulated value, or `none` where a byte is missing
or out of bounds, and in both cases the bytes that were not used. -/
def readContinuation : Nat → Nat → UInt8 → UInt8 → Bytes → Option Nat × Bytes
  | 0, acc, _, _, rest => (some acc, rest)
  | _ + 1, _, _, _, [] => (none, [])
  | n + 1, acc, lo, hi, b :: rest =>
    if continues lo hi b then readContinuation n (acc * 64 + (b.toNat - 0x80)) 0x80 0xBF rest
    else (none, b :: rest)

/-- The first character of a non-empty byte string, or `none` where it is malformed, and the bytes
after it. -/
def readChar (s : Surrogates) (b : UInt8) (rest : Bytes) : Option Char × Bytes :=
  match leadByte? s b with
  | none => (none, rest)
  | some (acc, lo, hi, n) =>
    let (value?, after) := readContinuation n acc lo hi rest
    (value?.map charOfCode, after)

theorem length_readContinuation (n acc : Nat) (lo hi : UInt8) (rest : Bytes) :
    (readContinuation n acc lo hi rest).2.length ≤ rest.length := by
  induction rest generalizing n acc lo hi with
  | nil => cases n <;> simp [readContinuation]
  | cons b rest ih =>
    cases n with
    | zero => simp [readContinuation]
    | succ n =>
      unfold readContinuation
      split
      · have := ih n (acc * 64 + (b.toNat - 0x80)) 0x80 0xBF
        simp only [List.length_cons]; omega
      · simp

theorem length_readChar (s : Surrogates) (b : UInt8) (rest : Bytes) :
    (readChar s b rest).2.length ≤ rest.length := by
  unfold readChar
  split
  · simp
  · exact length_readContinuation ..

-- ======================================================== whole texts

/-- The characters of a byte string, `none` for each malformed part. -/
def chars? (s : Surrogates) : Bytes → List (Option Char)
  | [] => []
  | b :: rest => (readChar s b rest).1 :: chars? s (readChar s b rest).2
termination_by bs => bs.length
decreasing_by
  have := length_readChar s b rest
  simp only [List.length_cons]; omega

/-- The characters of a byte string in UTF-8, `none` if any part of it is malformed. -/
def charsOfUtf8? (s : Surrogates) (bs : Bytes) : Option (List Char) :=
  (chars? s bs).mapM id

/-- The text of a byte string in UTF-8, `none` if any part of it is malformed. -/
def ofUtf8? (bs : Bytes) : Option String :=
  (charsOfUtf8? .refused bs).map String.ofList

/-- The text of a byte string in UTF-8, with a replacement character for each malformed part. -/
def ofUtf8 (bs : Bytes) : String :=
  String.ofList ((chars? .refused bs).map (·.getD '\uFFFD'))

/-- The sixteen-bit units of a byte string, `none` if a byte is left over. -/
def units? (bigEndian : Bool) : Bytes → Option (List Nat)
  | [] => some []
  | [_] => none
  | a :: b :: rest =>
    let unit := if bigEndian then a.toNat * 256 + b.toNat else b.toNat * 256 + a.toNat
    (units? bigEndian rest).map (unit :: ·)

/-- The character of a single code, `none` if it is a surrogate and those are refused. -/
def single? (s : Surrogates) (n : Nat) : Option Char :=
  if n.isValidChar || (s = .lone && n < 0xE000) then some (charOfCode n) else none

/-- The characters of a list of sixteen-bit units. -/
def ofUnits? (s : Surrogates) : List Nat → Option (List Char)
  | [] => some []
  | [u] => (single? s u).map ([·])
  | u :: v :: rest =>
    if 0xD800 ≤ u && u ≤ 0xDBFF && 0xDC00 ≤ v && v ≤ 0xDFFF then
      (ofUnits? s rest).map (charOfCode (0x10000 + (u - 0xD800) * 0x400 + (v - 0xDC00)) :: ·)
    else do
      let c ← single? s u
      (ofUnits? s (v :: rest)).map (c :: ·)

/-- The text of a byte string in UTF-16. -/
def ofUtf16? (s : Surrogates) (bigEndian : Bool) (bs : Bytes) : Option (List Char) :=
  (units? bigEndian bs).bind (ofUnits? s)

/-- The text of a byte string in UTF-32. -/
def ofUtf32? (s : Surrogates) (bigEndian : Bool) : Bytes → Option (List Char)
  | [] => some []
  | a :: b :: c :: d :: rest =>
    let code := if bigEndian then ((a.toNat * 256 + b.toNat) * 256 + c.toNat) * 256 + d.toNat
      else ((d.toNat * 256 + c.toNat) * 256 + b.toNat) * 256 + a.toNat
    do
      let c ← single? s code
      (ofUtf32? s bigEndian rest).map (c :: ·)
  | _ => none

/-- A text whose line ends are all single line feeds: a carriage return, with or without a line
feed after it, ends a line too. -/
def unifyLineEnds : List Char → List Char
  | [] => []
  | '\r' :: '\n' :: rest => '\n' :: unifyLineEnds rest
  | '\r' :: rest => '\n' :: unifyLineEnds rest
  | c :: rest => c :: unifyLineEnds rest

end Text

end CharmDepot
