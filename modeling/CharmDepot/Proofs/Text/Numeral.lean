/-
Numbers written in digits and read back.

The decimal form of an integer, with a line feed behind it or without, is read as the integer if it
has at most `maxDigits` digits (`integerOfBytes_line`, `integerOfBytes_decimal`). A longer one is
refused, here and wherever an integer is read. A number is below the power of ten that its digits
count, and has no more digits than that.
-/
import CharmDepot.Number.Integer
import CharmDepot.Proofs.Text.PrefixCode
import Mathlib.Algebra.Group.Nat.Defs
import Mathlib.Data.List.Induction

namespace CharmDepot

open Text

namespace Text

-- =============================================================== ASCII

/-- A text of ASCII characters has one byte for each of them. -/
theorem utf8_of_ascii {cs : List Char} (hcs : ∀ c ∈ cs, c.toNat < 0x80) :
    utf8 (String.ofList cs) = cs.map fun c => UInt8.ofNat c.toNat := by
  rw [utf8_eq_flatMap, String.toList_ofList]
  induction cs with
  | nil => rfl
  | cons c cs ih =>
    rw [List.forall_mem_cons] at hcs
    have hsize : c.utf8Size = 1 := by
      rw [Char.utf8Size_eq_one_iff, UInt32.le_iff_toNat_le]
      exact Nat.lt_succ_iff.1 hcs.1
    rw [List.flatMap_cons, String.utf8EncodeChar_eq_singleton hsize, ih hcs.2]
    rfl

theorem toNat_ofNat_ascii {c : Char} (hc : c.toNat < 0x80) :
    (UInt8.ofNat c.toNat).toNat = c.toNat := by
  rw [UInt8.toNat_ofNat']
  omega

-- ============================================================== digits

theorem isDigit_digitChar (d : Nat) : (digitChar d).isDigit = true := by
  have h : ∀ k : Fin 10, (Char.ofNat (48 + k.val)).isDigit = true := by decide
  exact h ⟨d % 10, Nat.mod_lt _ (by decide)⟩

theorem toNat_digitChar (d : Nat) : (digitChar d).toNat = 48 + d % 10 := by
  have h : ∀ k : Fin 10, (Char.ofNat (48 + k.val)).toNat = 48 + k.val := by decide
  exact h ⟨d % 10, Nat.mod_lt _ (by decide)⟩

theorem toNat_lt_of_isDigit {c : Char} (h : c.isDigit = true) : c.toNat < 0x80 :=
  Nat.lt_of_le_of_lt (Char.isDigit_iff_toNat.1 h).2 (by decide)

/-- A digit is none of the characters that are no digits. -/
theorem ne_of_isDigit {c d : Char} (hc : c.isDigit = true) (hd : d.isDigit = false) : c ≠ d := by
  rintro rfl
  rw [hc] at hd
  cases hd

theorem hexValue?_of_isDigit {c : Char} (h : c.isDigit = true) :
    hexValue? c = some (c.toNat - 48) :=
  if_pos h

/-- An ASCII digit is the one that is written for its value. -/
theorem digitChar_of_isDigit {c : Char} (h : c.isDigit = true) : digitChar (c.toNat - 48) = c := by
  obtain ⟨hlow, hhigh⟩ := Char.isDigit_iff_toNat.1 h
  have h48 : '0'.toNat = 48 := rfl
  have h57 : '9'.toNat = 57 := rfl
  have hcode : 48 + (c.toNat - 48) % 10 = c.toNat := by omega
  unfold digitChar
  rw [hcode, Char.ofNat_toNat]

theorem digitValue?_of_isDigit {c : Char} (h : c.isDigit = true) :
    digitValue? c = some (c.toNat - 48) := by
  have h57 : c.toNat ≤ 57 := (Char.isDigit_iff_toNat.1 h).2
  conv_lhs => rw [← digitChar_of_isDigit h]
  rw [digitValue?_digitChar, Nat.mod_eq_of_lt (by omega)]

end Text

namespace Number

-- ============================================================== length

theorem decimalValue_lt (cs : List Char) : decimalValue cs < 10 ^ cs.length := by
  suffices h : ∀ acc, cs.foldl (fun acc c => acc * 10 + (digitValue? c).getD 0) acc
      < (acc + 1) * 10 ^ cs.length by
    simpa [decimalValue] using h 0
  induction cs with
  | nil => simp
  | cons c cs ih =>
    intro acc
    have hdigit : (digitValue? c).getD 0 < 10 := by
      cases h : digitValue? c with
      | none => decide
      | some d => exact digitValue?_lt h
    rw [List.foldl_cons, List.length_cons, Nat.pow_succ, Nat.mul_comm (10 ^ cs.length),
      ← Nat.mul_assoc]
    refine Nat.lt_of_lt_of_le (ih _) (Nat.mul_le_mul_right _ ?_)
    omega

/-- A number has fewer digits than it counts. -/
theorem lt_pow_ten_of_le {n k : Nat} (h : n ≤ k) : n < Nat.pow 10 k :=
  Nat.lt_of_le_of_lt h (Nat.lt_pow_self (by decide))

/-- The number one is short of any bound on the digits. -/
theorem one_lt_pow_ten {k : Nat} (hk : k ≠ 0) : 1 < Nat.pow 10 k :=
  lt_pow_ten_of_le (Nat.pos_of_ne_zero hk)

/-- A number is below the power of ten that its digits count. -/
theorem lt_pow_of_length_decimal {n k : Nat} (h : (decimal n).length ≤ k) : n < Nat.pow 10 k := by
  have hvalue := decimalValue_lt (decimal n)
  rw [decimalValue_decimal] at hvalue
  exact Nat.lt_of_lt_of_le hvalue (Nat.pow_le_pow_right (by decide) h)

/-- A number below a power of ten has no more digits than that. -/
theorem length_decimal_le {n k : Nat} (hk : k ≠ 0) (h : n < 10 ^ k) : (decimal n).length ≤ k := by
  induction k generalizing n with
  | zero => exact absurd rfl hk
  | succ k ih =>
    unfold decimal
    split
    · simp
    · rename_i hn
      rw [List.length_append, List.length_singleton]
      have hk : k ≠ 0 := by
        rintro rfl
        omega
      have := ih (n := n / 10) hk (by rw [Nat.pow_succ] at h; omega)
      omega

theorem length_decimal_le_iff {n k : Nat} (hk : k ≠ 0) :
    (decimal n).length ≤ k ↔ n < Nat.pow 10 k :=
  ⟨lt_pow_of_length_decimal, length_decimal_le hk⟩

theorem isDigit_of_mem_decimal (n : Nat) : ∀ c ∈ decimal n, c.isDigit = true := by
  induction n using Nat.strongRecOn with
  | _ n ih =>
    intro c hc
    unfold decimal at hc
    split at hc
    · rw [List.mem_singleton.1 hc]
      exact isDigit_digitChar n
    · rcases List.mem_append.1 hc with hc | hc
      · exact ih (n / 10) (by omega) c hc
      · rw [List.mem_singleton.1 hc]
        exact isDigit_digitChar _

/-- Only zero is written with a zero in front. -/
theorem head?_decimal {n : Nat} (hn : n ≠ 0) : (decimal n).head? ≠ some '0' := by
  induction n using Nat.strongRecOn with
  | _ n ih =>
    unfold decimal
    split
    · rename_i hlt
      have hdigit : ∀ k < 10, k ≠ 0 → [digitChar k].head? ≠ some '0' := by decide
      exact hdigit n hlt hn
    · rw [List.head?_append_of_ne_nil _ (decimal_ne_nil _)]
      exact ih (n / 10) (by omega) (by omega)

-- ====================================================== decimal forms

theorem decimal_zero : decimal 0 = ['0'] := by
  unfold decimal
  rfl

/-- The decimal form of ten times a number and a digit is that of the number and the digit. -/
theorem decimal_append_digit {n d : Nat} (hn : 0 < n) (hd : d < 10) :
    decimal (n * 10 + d) = decimal n ++ [digitChar d] := by
  have hdiv : (n * 10 + d) / 10 = n := by omega
  have hmod : (n * 10 + d) % 10 = d := by omega
  conv_lhs => unfold decimal
  rw [if_neg (by omega), hdiv, hmod]

/-- Digits without a zero in front are the decimal form of their value, which is not zero. -/
theorem decimal_decimalValue_cons {first : Char} (hfirst : first.isDigit = true)
    (hnonzero : '1' ≤ first) {rest : List Char} (hrest : ∀ c ∈ rest, c.isDigit = true) :
    decimal (decimalValue (first :: rest)) = first :: rest ∧ 0 < decimalValue (first :: rest) := by
  induction rest using List.reverseRecOn with
  | nil =>
    have h49 : 49 ≤ first.toNat := UInt32.le_iff_toNat_le.1 hnonzero
    have h57 : first.toNat ≤ 57 := (Char.isDigit_iff_toNat.1 hfirst).2
    have hvalue : decimalValue [first] = first.toNat - 48 := by
      simp [decimalValue, digitValue?_of_isDigit hfirst]
    rw [hvalue]
    refine ⟨?_, by omega⟩
    unfold decimal
    rw [if_pos (by omega), digitChar_of_isDigit hfirst]
  | append_singleton rest c ih =>
    rw [List.forall_mem_append, List.forall_mem_singleton] at hrest
    obtain ⟨hwritten, hpos⟩ := ih hrest.1
    have h57 : c.toNat ≤ 57 := (Char.isDigit_iff_toNat.1 hrest.2).2
    rw [← List.cons_append, decimalValue_append_digit, digitValue?_of_isDigit hrest.2,
      Option.getD_some]
    refine ⟨?_, by omega⟩
    rw [decimal_append_digit hpos (by omega), hwritten, digitChar_of_isDigit hrest.2]

/-- The values of digits. -/
def digitValues (cs : List Char) : List Nat :=
  cs.map (·.toNat - 48)

theorem valueInBase_decimal (n : Nat) : valueInBase 10 (digitValues (decimal n)) = n := by
  induction n using Nat.strongRecOn with
  | _ n ih =>
    unfold decimal
    split
    · simp [digitValues, valueInBase, toNat_digitChar]
      omega
    · have hlower := ih (n / 10) (by omega)
      unfold valueInBase digitValues at hlower ⊢
      rw [List.map_append, List.foldl_append, hlower]
      simp [toNat_digitChar]
      omega

-- ============================================================= reading

theorem baseDigit?_of_isDigit {c : Char} (h : c.isDigit = true) :
    baseDigit? 10 c = some (c.toNat - 48) := by
  have h9 := (Char.isDigit_iff_toNat.1 h).2
  have hlt : c.toNat - 48 < 10 := by
    have : '9'.toNat = 57 := rfl
    omega
  unfold baseDigit?
  rw [hexValue?_of_isDigit h, Option.bind_some, if_pos hlt]

/-- Digits are read up to what cannot go on a numeral. -/
theorem digitRun?_append {cs rest : List Char} (hcs : ∀ c ∈ cs, c.isDigit = true)
    (hrest : digitRun? 10 false rest = some ([], rest)) :
    digitRun? 10 false (cs ++ rest) = some (digitValues cs, rest) := by
  induction cs with
  | nil => exact hrest
  | cons c cs ih =>
    rw [List.forall_mem_cons] at hcs
    rw [List.cons_append, digitRun?, if_neg (ne_of_isDigit hcs.1 (by decide)),
      baseDigit?_of_isDigit hcs.1, ih hcs.2]
    rfl

theorem toNat_le_of_blank {c : Char} (h : isAsciiBlank c = true) : c.toNat ≤ 32 := by
  unfold isAsciiBlank at h
  simp only [Bool.or_eq_true, Bool.and_eq_true, decide_eq_true_eq, beq_iff_eq] at h
  omega

theorem isDigit_eq_false_of_blank {c : Char} (h : isAsciiBlank c = true) : c.isDigit = false := by
  have hle := toNat_le_of_blank h
  rw [← Bool.not_eq_true, Char.isDigit_iff_toNat]
  intro hdigit
  have h48 : '0'.toNat = 48 := rfl
  omega

theorem hexValue?_of_blank {c : Char} (h : isAsciiBlank c = true) : hexValue? c = none := by
  have hbelow (d : Char) (hd : 32 < d.toNat) : ¬ d ≤ c := by
    intro hle
    have hnat : d.toNat ≤ c.toNat := UInt32.le_iff_toNat_le.1 hle
    have := toNat_le_of_blank h
    omega
  have h0 := hbelow '0' (by decide)
  have ha := hbelow 'a' (by decide)
  have hA := hbelow 'A' (by decide)
  simp [hexValue?, h0, ha, hA]

/-- A blank ends a numeral. -/
theorem digitRun?_of_blank {cs : List Char} (h : ∀ c ∈ cs, isAsciiBlank c = true) :
    digitRun? 10 false cs = some ([], cs) := by
  cases cs with
  | nil => rfl
  | cons c cs =>
    have hblank := h c List.mem_cons_self
    have hother : c ≠ '_' := by
      rintro rfl
      exact absurd hblank (by decide)
    rw [digitRun?, if_neg hother, baseDigit?, hexValue?_of_blank hblank]
    rfl

/-- A decimal numeral has no marker of its base. -/
theorem dropMarker_ten (cs : List Char) : dropMarker 10 cs = cs := by
  unfold dropMarker
  split <;> simp [marksBase]

theorem exists_decimal_eq_cons (n : Nat) : ∃ c cs, decimal n = c :: cs ∧ c.isDigit = true := by
  obtain ⟨c, cs, hchars⟩ := List.exists_cons_of_ne_nil (decimal_ne_nil n)
  exact ⟨c, cs, hchars, isDigit_of_mem_decimal n c (by simp [hchars])⟩

/-- What is read of a text that has, after its sign, the digits of a number and then blanks. -/
theorem readInteger_of_dropSign {n : Nat} {shown : String} {text rest : List Char} {negative : Bool}
    (hn : (decimal n).length ≤ maxDigits) (hrest : ∀ c ∈ rest, isAsciiBlank c = true)
    (hsign : dropSign (text.dropWhile isAsciiBlank) = (negative, decimal n ++ rest)) :
    readInteger 10 shown text = .ok (if negative then -(n : Int) else n) := by
  have hfirst : (decimal n ++ rest).head? ≠ some '_' := by
    obtain ⟨c, cs, hchars, hc⟩ := exists_decimal_eq_cons n
    rw [hchars, List.cons_append, List.head?_cons, Ne, Option.some.injEq]
    exact ne_of_isDigit hc (by decide)
  have hlength : (digitValues (decimal n)).length ≤ maxDigits := by
    unfold digitValues
    rwa [List.length_map]
  have hblank : (rest.any fun c => !isAsciiBlank c) = false := by
    simpa using hrest
  unfold readInteger
  rw [hsign]
  dsimp only
  rw [dropMarker_ten, if_neg hfirst,
    digitRun?_append (isDigit_of_mem_decimal n) (digitRun?_of_blank hrest)]
  dsimp only
  rw [if_neg (by simp [hlength]), if_neg (by simp [digitValues, decimal_ne_nil, hblank]),
    valueInBase_decimal]

/-- The decimal form of an integer is read as the integer, whatever blanks follow. -/
theorem readInteger_integerChars {n : Int} (shown : String) {rest : List Char}
    (hn : (decimal n.natAbs).length ≤ maxDigits) (hrest : ∀ c ∈ rest, isAsciiBlank c = true) :
    readInteger 10 shown (integerChars n ++ rest) = .ok n := by
  cases n with
  | ofNat n =>
    obtain ⟨c, cs, hchars, hc⟩ := exists_decimal_eq_cons n
    have hseen : ¬ isAsciiBlank c = true := by
      intro hblank
      rw [isDigit_eq_false_of_blank hblank] at hc
      cases hc
    have hsign : dropSign ((decimal n ++ rest).dropWhile isAsciiBlank)
        = (false, decimal n ++ rest) := by
      rw [hchars, List.cons_append, List.dropWhile_cons_of_neg hseen]
      unfold dropSign
      split
      · rename_i heq
        exact absurd (List.cons.inj heq).1 (ne_of_isDigit hc (by decide))
      · rename_i heq
        exact absurd (List.cons.inj heq).1 (ne_of_isDigit hc (by decide))
      · rfl
    exact readInteger_of_dropSign hn hrest hsign
  | negSucc n =>
    have hsign : dropSign (('-' :: decimal (n + 1) ++ rest).dropWhile isAsciiBlank)
        = (true, decimal (n + 1) ++ rest) := rfl
    exact readInteger_of_dropSign hn hrest hsign

theorem toNat_lt_of_mem_integerChars {n : Int} {c : Char} (h : c ∈ integerChars n) :
    c.toNat < 0x80 := by
  cases n with
  | ofNat n => exact toNat_lt_of_isDigit (isDigit_of_mem_decimal n c h)
  | negSucc n =>
    rcases List.mem_cons.1 h with rfl | h
    · decide
    · exact toNat_lt_of_isDigit (isDigit_of_mem_decimal (n + 1) c h)

/-- ASCII bytes are read as the characters that they stand for. -/
theorem exists_integerOfBytes_eq {cs : List Char} (hcs : ∀ c ∈ cs, c.toNat < 0x80) :
    ∃ shown, integerOfBytes (utf8 (String.ofList cs)) = readInteger 10 shown cs := by
  have hchars : cs.map ((fun b : UInt8 => Char.ofNat b.toNat) ∘ fun c => UInt8.ofNat c.toNat)
      = cs := by
    refine (List.map_congr_left fun c hc => ?_).trans (List.map_id _)
    show Char.ofNat (UInt8.ofNat c.toNat).toNat = c
    rw [toNat_ofNat_ascii (hcs c hc), Char.ofNat_toNat]
  unfold integerOfBytes
  rw [utf8_of_ascii hcs, List.map_map, hchars]
  exact ⟨_, rfl⟩

/-- A line with the decimal form of an integer is read as the integer, unless it is too long. -/
theorem integerOfBytes_line {n : Int} (hn : (decimal n.natAbs).length ≤ maxDigits) :
    integerOfBytes (utf8 (integerText n ++ "\n")) = .ok n := by
  have hblank : ∀ c ∈ ['\n'], isAsciiBlank c = true :=
    List.forall_mem_singleton.2 (by decide)
  have hline : integerText n ++ "\n" = String.ofList (integerChars n ++ ['\n']) := by
    rw [integerText, String.ofList_append]
  have hascii : ∀ c ∈ integerChars n ++ ['\n'], c.toNat < 0x80 := by
    intro c hc
    rcases List.mem_append.1 hc with hc | hc
    · exact toNat_lt_of_mem_integerChars hc
    · rw [List.mem_singleton.1 hc]
      decide
  obtain ⟨shown, hshown⟩ := exists_integerOfBytes_eq hascii
  rw [hline, hshown]
  exact readInteger_integerChars shown hn hblank

/-- The decimal form of a number is read as the number, unless it is too long. -/
theorem integerOfBytes_decimal {n : Nat} (hn : (decimal n).length ≤ maxDigits) :
    integerOfBytes (utf8 (String.ofList (decimal n))) = .ok n := by
  obtain ⟨shown, hshown⟩ := exists_integerOfBytes_eq fun c hc =>
    toNat_lt_of_isDigit (isDigit_of_mem_decimal n c hc)
  rw [hshown]
  have hread := readInteger_integerChars (n := n) shown hn (List.forall_mem_nil _)
  rwa [List.append_nil] at hread

end Number

end CharmDepot
