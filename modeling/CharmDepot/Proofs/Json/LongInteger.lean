/-
Documents with an integer of too many digits.

An integer is written with all its digits and is read only if there are at most `maxDigits` of them,
so there are documents that are written and not read (`ofBytes_write_of_long`). Where such an integer
stands in an object, the whole object is refused: what is refused in a value is refused in every
value around it (`readEntries_of_error`, `readValue_of_error`).
-/
import CharmDepot.Json.Reader
import CharmDepot.Json.Writer
import CharmDepot.Proofs.Text.Numeral

namespace CharmDepot

open Number Text

namespace Number

theorem spanDigits_append {ds rest : List Char} (hds : ∀ c ∈ ds, c.isDigit = true)
    (hrest : ∀ c ∈ rest.head?, c.isDigit = false) :
    spanDigits (ds ++ rest) = (digitValues ds, rest) := by
  unfold spanDigits digitValues
  rw [List.takeWhile_append_of_pos hds, List.dropWhile_append_of_pos hds]
  cases rest with
  | nil => simp
  | cons c rest =>
    have hc := hrest c rfl
    simp [hc]

end Number

namespace Text

/-- A text of ASCII characters is the same in bytes. -/
theorem charsOfUtf8?_utf8 (s : Surrogates) {cs : List Char} (hcs : ∀ c ∈ cs, c.toNat < 0x80) :
    charsOfUtf8? s (utf8 (String.ofList cs)) = some cs := by
  rw [utf8_of_ascii hcs]
  unfold charsOfUtf8?
  induction cs with
  | nil => simp [chars?]
  | cons c cs ih =>
    rw [List.forall_mem_cons] at hcs
    have hbyte := toNat_ofNat_ascii hcs.1
    have hlead : leadByte? s (UInt8.ofNat c.toNat) = some (c.toNat, 0, 0, 0) := by
      unfold leadByte?
      rw [if_pos (UInt8.lt_iff_toNat_lt.2 (by rw [hbyte]; exact hcs.1)), hbyte]
    have hcode : charOfCode c.toNat = c := by
      unfold charOfCode
      rw [if_pos (show c.toNat.isValidChar from c.valid), Char.ofNat_toNat]
    have hread (rest : Bytes) : readChar s (UInt8.ofNat c.toNat) rest = (some c, rest) := by
      unfold readChar
      rw [hlead]
      simp [readContinuation, hcode]
    rw [List.map_cons, chars?, hread, List.mapM_cons, ih hcs.2]
    rfl

end Text

namespace Json

-- ============================================================== texts

/-- A character that stands for itself in a text. -/
def IsPlain (c : Char) : Prop :=
  0x20 ≤ c.toNat ∧ c.toNat < 0x7F ∧ c ≠ '"' ∧ c ≠ '\\'

instance : DecidablePred IsPlain := fun _ => inferInstanceAs (Decidable (_ ∧ _))

theorem IsPlain.toNat_lt {c : Char} (h : IsPlain c) : c.toNat < 0x80 :=
  Nat.lt_succ_of_lt h.2.1

theorem textChar_of_isPlain {c : Char} (h : IsPlain c) : textChar c = [c] := by
  obtain ⟨hlow, hhigh, hquote, hslash⟩ := h
  unfold textChar
  simp [hlow, hhigh, hquote, hslash]

theorem toList_textForm {s : String} (h : ∀ c ∈ s.toList, IsPlain c) :
    (textForm s).toList = '"' :: s.toList ++ ['"'] := by
  have hsame : s.toList.flatMap textChar = s.toList := by
    rw [List.flatMap_congr fun c hc => textChar_of_isPlain (h c hc)]
    exact List.flatMap_singleton' _
  unfold textForm
  rw [String.toList_ofList, hsame]

theorem readText?_append {text rest : List Char} {fuel : Nat} (h : ∀ c ∈ text, IsPlain c)
    (hfuel : text.length < fuel) : readText? fuel (text ++ '"' :: rest) = some (text, rest) := by
  induction text generalizing fuel with
  | nil =>
    obtain ⟨fuel, rfl⟩ := Nat.exists_eq_add_one_of_ne_zero (Nat.ne_of_gt hfuel)
    rfl
  | cons c text ih =>
    obtain ⟨fuel, rfl⟩ := Nat.exists_eq_add_one_of_ne_zero (Nat.ne_zero_of_lt hfuel)
    rw [List.forall_mem_cons] at h
    obtain ⟨hlow, -, hquote, hslash⟩ := h.1
    have hrest := ih h.2 (Nat.lt_of_succ_lt_succ hfuel)
    rw [List.cons_append]
    unfold readText?
    split
    · rename_i heq
      cases heq
    · rename_i heq
      exact absurd (List.cons.inj heq).1 hquote
    · rename_i heq
      exact absurd (List.cons.inj heq).1 hslash
    · rename_i heq
      exact absurd (List.cons.inj heq).1 hslash
    · rename_i heq
      obtain ⟨rfl, rfl⟩ := List.cons.inj heq
      rw [if_neg (by simp [hslash, hlow]), hrest]
      rfl

-- ============================================================ refusals

section Long
variable {ds : List Char} (more : List Char) (hds : ∀ c ∈ ds, c.isDigit = true)
variable (hzero : ds.head? ≠ some '0') (hlong : maxDigits < ds.length)
include hds hzero hlong

theorem readNumber?_of_long : readNumber? false (ds ++ ',' :: more) = none := by
  have hspan : spanDigits (ds ++ ',' :: more) = (digitValues ds, ',' :: more) :=
    spanDigits_append hds (by simp)
  have hlength : maxDigits < (digitValues ds).length := by
    unfold digitValues
    rwa [List.length_map]
  have hne : (digitValues ds).isEmpty = false := by
    rw [List.isEmpty_eq_false_iff, ← List.length_pos_iff]
    exact Nat.zero_lt_of_lt hlength
  have hfraction : readFraction (',' :: more) = ([], ',' :: more) := rfl
  have hexponent : readExponent (',' :: more) = (0, ',' :: more) := rfl
  unfold readNumber?
  split
  rename_i whole after hwhole
  obtain ⟨rfl, rfl⟩ : whole = digitValues ds ∧ after = ',' :: more := by
    rw [← Prod.mk.injEq, ← hwhole, ← hspan]
    split
    · rename_i heq
      cases ds with
      | nil => cases hlong
      | cons d ds =>
        rw [(List.cons.inj heq).1] at hzero
        exact absurd rfl hzero
    · rfl
  rw [if_neg (by rw [hne]; exact Bool.false_ne_true), hfraction]
  dsimp only
  rw [hexponent]
  dsimp only
  rw [if_pos (by simp), if_pos hlength]

theorem readPlain?_of_long : readPlain? (ds ++ ',' :: more) = none := by
  have hnumber := readNumber?_of_long more hds hzero hlong
  cases ds with
  | nil => cases hlong
  | cons d ds =>
    have hd := hds d List.mem_cons_self
    have hwords : ∀ x ∈ words, dropStart? x.1 (d :: ds ++ ',' :: more) = none := by
      have hn : 'n' ≠ d := (ne_of_isDigit hd (by decide)).symm
      have ht : 't' ≠ d := (ne_of_isDigit hd (by decide)).symm
      have hf : 'f' ≠ d := (ne_of_isDigit hd (by decide)).symm
      have hN : 'N' ≠ d := (ne_of_isDigit hd (by decide)).symm
      have hI : 'I' ≠ d := (ne_of_isDigit hd (by decide)).symm
      have hminus : '-' ≠ d := (ne_of_isDigit hd (by decide)).symm
      simp [words, dropStart?, hn, ht, hf, hN, hI, hminus]
    unfold readPlain?
    rw [List.findSome?_eq_none_iff.2]
    · dsimp only
      split
      · rename_i heq
        exact absurd (List.cons.inj heq).1 (ne_of_isDigit hd (by decide))
      · exact hnumber
    · intro x hx
      exact congrArg (Option.map _) (hwords x hx)

theorem readValue_of_long (fuel levels : Nat) :
    readValue (fuel + 1) levels (ds ++ ',' :: more) = .error malformed := by
  have hplain := readPlain?_of_long more hds hzero hlong
  cases ds with
  | nil => cases hlong
  | cons d ds =>
    have hd := hds d List.mem_cons_self
    unfold readValue
    -- of all values only a number begins with a digit
    split
    all_goals
      rename_i heq
      first
        | (obtain ⟨rfl, -⟩ := List.cons.inj heq; cases hd)
        | (rw [hplain]; rfl)

end Long

theorem readValue_of_error {fuel levels : Nat} {rest : List Char} {f : Fault}
    (h : readEntries fuel levels ('"' :: rest) = .error f) :
    readValue (fuel + 1) (levels + 1) ('\x7b' :: '"' :: rest) = .error f := by
  have hspace : dropSpace ('"' :: rest) = '"' :: rest := rfl
  rw [readValue, if_neg (Nat.succ_ne_zero levels), hspace]
  split
  · rename_i heq
    cases heq
  · rw [Nat.add_sub_cancel, h]
    rfl

theorem readEntries_of_error {fuel levels : Nat} {key rest : List Char} {f : Fault}
    (hkey : ∀ c ∈ key, IsPlain c) (h : readValue fuel levels (dropSpace rest) = .error f) :
    readEntries (fuel + 1) levels ('"' :: (key ++ '"' :: ':' :: rest)) = .error f := by
  have hspace : dropSpace (':' :: rest) = ':' :: rest := rfl
  rw [readEntries, readText?_append hkey (by rw [List.length_append]; omega)]
  simp only [required, bind, Except.bind, hspace, h]

/-- An object of ASCII characters is the same in bytes. -/
theorem decode?_utf8_object {cs : List Char} (hcs : ∀ c ∈ cs, c.toNat < 0x80) :
    decode? (utf8 (String.ofList ('\x7b' :: '"' :: cs))) = some ('\x7b' :: '"' :: cs) := by
  have hall : ∀ c ∈ '\x7b' :: '"' :: cs, c.toNat < 0x80 :=
    List.forall_mem_cons.2 ⟨by decide, List.forall_mem_cons.2 ⟨by decide, hcs⟩⟩
  have hbytes : utf8 (String.ofList ('\x7b' :: '"' :: cs))
      = 0x7B :: 0x22 :: utf8 (String.ofList cs) := by
    simp only [utf8_eq_flatMap, String.toList_ofList, List.flatMap_cons]
    rfl
  have hdecode (rest : Bytes) : decode? (0x7B :: 0x22 :: rest)
      = charsOfUtf8? .lone (0x7B :: 0x22 :: rest) := by
    match rest with
    | [] | [_] | _ :: _ :: _ => rfl
  rw [hbytes, hdecode, ← hbytes, charsOfUtf8?_utf8 .lone hall]

section Record
variable {key name ds more : List Char}

/-- The characters of an object that holds one record, the record with an integer in front. -/
def recordChars (key name ds more : List Char) : List Char :=
  '\x7b' :: '"' :: (key ++ '"' :: ':' :: ' ' :: '\x7b' :: '"' ::
    (name ++ '"' :: ':' :: ' ' :: (ds ++ ',' :: more)))

/-- A record in which an integer of too many digits comes first makes the whole document refused. -/
theorem ofBytes_of_long (hkey : ∀ c ∈ key, IsPlain c) (hname : ∀ c ∈ name, IsPlain c)
    (hmore : ∀ c ∈ more, c.toNat < 0x80) (hds : ∀ c ∈ ds, c.isDigit = true)
    (hzero : ds.head? ≠ some '0') (hlong : maxDigits < ds.length) :
    ofBytes (utf8 (String.ofList (recordChars key name ds more))) = .error malformed := by
  have hdecode : decode? (utf8 (String.ofList (recordChars key name ds more)))
      = some (recordChars key name ds more) := by
    refine decode?_utf8_object ?_
    intro c hc
    simp only [List.mem_append, List.mem_cons] at hc
    rcases hc with hc | rfl | rfl | rfl | rfl | rfl | hc | rfl | rfl | rfl | hc | rfl | hc
    any_goals decide
    · exact (hkey c hc).toNat_lt
    · exact (hname c hc).toNat_lt
    · exact toNat_lt_of_isDigit (hds c hc)
    · exact hmore c hc
  have hdigits : dropSpace (' ' :: (ds ++ ',' :: more)) = ds ++ ',' :: more := by
    cases ds with
    | nil => cases hlong
    | cons d ds =>
      have hd := hds d List.mem_cons_self
      have hspace : ¬ isSpace d = true := by
        intro h
        unfold isSpace at h
        simp only [Bool.or_eq_true, beq_iff_eq] at h
        rcases h with ((rfl | rfl) | rfl) | rfl <;> cases hd
      unfold dropSpace
      rw [List.dropWhile_cons_of_pos rfl, List.cons_append, List.dropWhile_cons_of_neg hspace]
  have hread (fuel : Nat) : readValue (fuel + 5) nestingLevels (recordChars key name ds more)
      = .error malformed := by
    refine readValue_of_error (readEntries_of_error hkey ?_)
    refine readValue_of_error (readEntries_of_error hname ?_)
    rw [hdigits]
    exact readValue_of_long more hds hzero hlong _ _
  obtain ⟨fuel, hfuel⟩ : ∃ fuel, 2 * (recordChars key name ds more).length + 2 = fuel + 5 :=
    ⟨2 * (recordChars key name ds more).length - 3, by simp [recordChars]; omega⟩
  have hspace : dropSpace (recordChars key name ds more) = recordChars key name ds more := rfl
  unfold ofBytes ofChars
  rw [hdecode]
  simp only [required, bind, Except.bind, hspace, hfuel, hread]

end Record

theorem plainForm_text (s : String) : plainForm (.text s) = textForm s := rfl

/-- The record of a revision of too many digits is written, but what is written is not read. -/
theorem ofBytes_write_of_long {key digest : String} (hkey : ∀ c ∈ key.toList, IsPlain c)
    (hdigest : ∀ c ∈ digest.toList, IsPlain c) {n : Nat} (hlong : maxDigits < (decimal n).length) :
    ofBytes (utf8 (write (.map [(.text key, .map [
      (.text "revision", .int n), (.text "sha256", .text digest)])]))) = .error malformed := by
  have hzero : (decimal n).head? ≠ some '0' := by
    refine head?_decimal ?_
    rintro rfl
    exact absurd hlong (by decide +kernel)
  have hwrite : write (.map [(.text key, .map [
      (.text "revision", .int n), (.text "sha256", .text digest)])])
      = String.ofList (recordChars key.toList "revision".toList (decimal n)
        (" \"sha256\": ".toList ++ '"' :: (digest.toList ++ "\"\x7d\x7d".toList))) := by
    apply String.toList_inj.1
    have hname : (textForm "revision").toList = "\"revision\"".toList := by decide +kernel
    have hsha : (textForm "sha256").toList = "\"sha256\"".toList := by decide +kernel
    simp [write, plainForm_text, writeEntries, toList_textForm hkey,
      toList_textForm hdigest, hname, hsha, recordChars, Number.integerText, Number.integerChars]
  have hmore : ∀ c ∈ " \"sha256\": ".toList ++ '"' :: (digest.toList ++ "\"\x7d\x7d".toList),
      c.toNat < 0x80 := by
    have hfront : ∀ c ∈ " \"sha256\": ".toList, c.toNat < 0x80 := by simp
    have hback : ∀ c ∈ "\"\x7d\x7d".toList, c.toNat < 0x80 := by simp
    intro c hc
    simp only [List.mem_append, List.mem_cons] at hc
    rcases hc with hc | rfl | hc | hc
    · exact hfront c hc
    · decide
    · exact (hdigest c hc).toNat_lt
    · exact hback c hc
  rw [hwrite]
  exact ofBytes_of_long hkey (by simp [IsPlain]) hmore (isDigit_of_mem_decimal n) hzero hlong

end Json

end CharmDepot
