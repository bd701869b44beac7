/-
Bytes written in base 64. Characters outside the alphabet are passed over; what counts is that the
last group is complete, with equals signs or without need of them.
-/
import CharmDepot.Text.Utf

namespace CharmDepot.Yaml

/-- The value of a character of the alphabet. -/
def sixBits? (c : Char) : Option Nat :=
  if 'A' ≤ c && c ≤ 'Z' then some (c.toNat - 65)
  else if 'a' ≤ c && c ≤ 'z' then some (c.toNat - 71)
  else if '0' ≤ c && c ≤ '9' then some (c.toNat + 4)
  else if c = '+' then some 62
  else if c = '/' then some 63
  else none

/-- Reads base 64. `filled` counts the characters of the current group, `left` holds the bits that
are not part of a byte yet, and `pads` counts the equals signs that came last. -/
def readBase64? (filled left pads : Nat) (bytes : Array UInt8) : List Char → Option Bytes
  | [] => if filled = 0 then some bytes.toList else none
  | c :: cs =>
    if c = '=' then
      if 2 ≤ filled && 4 ≤ filled + pads + 1 then some bytes.toList
      else readBase64? filled left (if 2 ≤ filled then pads + 1 else pads) bytes cs
    else match sixBits? c with
      | none => readBase64? filled left pads bytes cs
      | some v =>
        match filled with
        | 0 => readBase64? 1 v 0 bytes cs
        | 1 => readBase64? 2 (v % 16) 0 (bytes.push (UInt8.ofNat (left * 4 + v / 16))) cs
        | 2 => readBase64? 3 (v % 4) 0 (bytes.push (UInt8.ofNat (left * 16 + v / 4))) cs
        | _ => readBase64? 0 0 0 (bytes.push (UInt8.ofNat (left * 64 + v))) cs

/-- The bytes that a text in base 64 stands for. -/
def base64? (cs : List Char) : Option Bytes :=
  if cs.all (fun c => c.toNat < 128) then readBase64? 0 0 0 #[] cs else none

end CharmDepot.Yaml
