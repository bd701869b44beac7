/-
Natural numbers and integers in decimal, as every message and every file name writes them: ASCII
digits, no leading zero, a hyphen in front of a negative number.

Main statements: the value of the digits written for a number is the number, whichever script's
digits a reader accepts, and the digits are never none.
-/
import CharmDepot.Text.DecimalDigit

namespace CharmDepot.Number

open Text

/-- The decimal digits of a number. -/
def decimal (n : Nat) : List Char :=
  if n < 10 then [digitChar n] else decimal (n / 10) ++ [digitChar (n % 10)]
termination_by n
decreasing_by omega

/-- The number that a row of decimal digits, of any script, stands for. -/
def decimalValue (cs : List Char) : Nat :=
  cs.foldl (fun acc c => acc * 10 + (digitValue? c).getD 0) 0

/-- The decimal form of an integer. -/
def integerChars : Int → List Char
  | .ofNat n => decimal n
  | .negSucc n => '-' :: decimal (n + 1)

/-- The decimal form of an integer, as text. -/
def integerText (n : Int) : String :=
  String.ofList (integerChars n)

/-- A number in decimal, with zeros in front up to a width. -/
def padded (width n : Nat) : List Char :=
  let ds := decimal n
  List.replicate (width - ds.length) '0' ++ ds

-- ==================================================== reading back

theorem decimalValue_append_digit (cs : List Char) (c : Char) :
    decimalValue (cs ++ [c]) = decimalValue cs * 10 + (digitValue? c).getD 0 := by
  simp [decimalValue]

theorem decimalValue_decimal (n : Nat) : decimalValue (decimal n) = n := by
  induction n using Nat.strongRecOn with
  | _ n ih =>
    unfold decimal
    split
    · rename_i h
      simp [decimalValue, digitValue?_digitChar, Nat.mod_eq_of_lt h]
    · rw [decimalValue_append_digit, ih (n / 10) (by omega), digitValue?_digitChar]
      simp
      omega

theorem decimal_ne_nil (n : Nat) : decimal n ≠ [] := by
  unfold decimal
  split <;> simp

theorem isDecimalDigit_of_mem_decimal (n : Nat) : ∀ c ∈ decimal n, isDecimalDigit c = true := by
  induction n using Nat.strongRecOn with
  | _ n ih =>
    intro c hc
    unfold decimal at hc
    split at hc
    · simp only [List.mem_singleton] at hc
      simp [hc, isDecimalDigit, digitValue?_digitChar]
    · rcases List.mem_append.1 hc with hc | hc
      · exact ih (n / 10) (by omega) c hc
      · simp only [List.mem_singleton] at hc
        simp [hc, isDecimalDigit, digitValue?_digitChar]

end CharmDepot.Number
