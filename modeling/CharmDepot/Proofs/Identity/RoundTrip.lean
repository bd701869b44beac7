/-
Identities written and read back.

`IdentityParts.Canonical` says of the parts of an identity what every part that was read satisfies
(`canonical_of_parse`) and what is enough for the written form to be read as the same parts again
(`parse_chars`): no word holds a slash, the first one is marked as a user only if it is one, and the
last word is cut at the hyphen in front of the revision and nowhere else.

`toString_roundTrip` states the consequences for complete identities and references: reading what
was written gives the identity back, so two identities that were read and are written alike are one,
and writing what was read settles on a form that stays.
-/
import CharmDepot.Identity.Parser
import CharmDepot.Proofs.Identity.Words
import CharmDepot.Proofs.Runs
import CharmDepot.Proofs.Text.Numeral

namespace CharmDepot

open Number Text

-- =========================================================== revisions

theorem isWritten_int (n : Int) : (Revision.int n).isWritten = decide (0 ≤ n) := by
  unfold Revision.isWritten Revision.compareInt?
  dsimp only
  rcases Int.lt_trichotomy n 0 with h | rfl | h
  · rw [Int.compare_eq_lt.2 h, decide_eq_false (by omega)]
  · rfl
  · rw [Int.compare_eq_gt.2 h, decide_eq_true (by omega)]

theorem isInt_int_iff (n m : Int) : (Revision.int n).isInt m = true ↔ n = m := by
  simp [Revision.isInt, Revision.compareInt?]

theorem isBelow_int_iff (n m : Int) : (Revision.int n).isBelow m = true ↔ n < m := by
  unfold Revision.isBelow Revision.compareInt?
  rw [beq_iff_eq, Option.some.injEq, Int.compare_eq_lt]

theorem toList_text_int (n : Nat) : (Revision.int n).text.toList = decimal n := by
  unfold Revision.text integerText
  rw [String.toList_ofList]
  rfl

namespace IdentityParts

variable {p : IdentityParts} {text : String}

-- ======================================================== written forms

/-- The last word of the written form. -/
def lastWord (p : IdentityParts) : List Char :=
  if 0 ≤ p.revision then p.name ++ '-' :: decimal p.revision.toNat else p.name

/-- The words of the written form after the schema. -/
def words (p : IdentityParts) : List (List Char) :=
  (if p.user.isEmpty then [] else ['~' :: p.user])
    ++ (if p.series.isEmpty then [] else [p.series]) ++ [p.lastWord]

/-- The written form. -/
def chars (p : IdentityParts) : List Char :=
  identityChars p.schema p.user p.series p.name (.int p.revision)

theorem chars_eq (p : IdentityParts) : p.chars = p.schema ++ ':' :: joinPieces '/' p.words := by
  unfold chars identityChars words lastWord
  rw [isWritten_int]
  by_cases h : 0 ≤ p.revision
  · obtain ⟨n, hn⟩ := Int.eq_ofNat_of_zero_le h
    simp only [hn, toList_text_int, Int.toNat_natCast, decide_eq_true_eq]
  · simp only [h, decide_false, Bool.false_eq_true, if_false]

/-- Parts each of which has the form that reading gives it, whatever the revision is. -/
structure Framed (p : IdentityParts) : Prop where
  schema : isSchema (String.ofList p.schema) = true
  user : p.user ≠ [] → isUser p.user = true ∧ p.schema ≠ localSchema.toList
  series : p.series ≠ [] → isSeries p.series = true
  name : isName p.name = true

/-- Parts that have the form that reading gives them. A name without a revision does not end in one,
and a name with one is on one line. -/
structure Canonical (p : IdentityParts) : Prop extends Framed p where
  unset : p.revision < 0 → p.revision = -1 ∧ splitRevision? p.name = none
  set : 0 ≤ p.revision → '\n' ∉ p.name ∧ p.revision.toNat < 10 ^ maxDigits

-- ============================================ reading what was written

theorem noColon_of_isSchema {cs : List Char} (h : isSchema (String.ofList cs) = true) :
    ':' ∉ cs := by
  unfold isSchema at h
  rw [Bool.or_eq_true, beq_iff_eq, beq_iff_eq] at h
  rcases h with h | h
  all_goals
    have hcs := congrArg String.toList h
    rw [String.toList_ofList] at hcs
    rw [hcs]
    decide

/-- A name with the digits of a revision behind it is cut where it was put together. -/
theorem splitRevision?_decimal {name : List Char} (hname : isName name = true) (hline : '\n' ∉ name)
    (n : Nat) : splitRevision? (name ++ '-' :: decimal n) = some (name, decimal n) := by
  have hdigits : '\n' ∉ decimal n := by
    intro hmem
    exact absurd (isDecimalDigit_of_mem_decimal n _ hmem) (by decide)
  have hword : '\n' ∉ name ++ '-' :: decimal n := by
    simp [hline, hdigits]
  rw [splitRevision?_eq_some_iff, dropFinalNewline_of_not_mem hword]
  refine ⟨rfl, decimal_ne_nil n, isDecimalDigit_of_mem_decimal n, ?_, hline⟩
  rintro rfl
  cases hname

theorem parseLast_lastWord (h : p.Canonical) (text : String) :
    parseLast text p.lastWord = .ok (p.name, p.revision) := by
  unfold parseLast lastWord
  by_cases hset : 0 ≤ p.revision
  · obtain ⟨hline, hsmall⟩ := h.set hset
    rw [if_pos hset, splitRevision?_decimal h.name hline]
    dsimp only
    rw [if_neg (Nat.not_lt.2 (length_decimal_le (by decide) hsmall))]
    dsimp only
    rw [if_pos h.name, decimalValue_decimal, Int.toNat_of_nonneg hset]
  · obtain ⟨hrevision, hnone⟩ := h.unset (by omega)
    rw [if_neg hset, hnone]
    dsimp only
    rw [if_pos h.name, hrevision]

/-- The last word begins as the name does, and there is no slash in it. -/
theorem isWord_lastWord (h : p.Framed) : IsWord p.lastWord := by
  have hname := isWord_of_isName h.name
  unfold lastWord
  split
  · obtain ⟨first, rest, heq, hlower⟩ := hname.begins
    refine ⟨?_, first, rest ++ '-' :: decimal p.revision.toNat, by rw [heq]; rfl, hlower⟩
    simp only [List.mem_append, List.mem_cons, not_or]
    refine ⟨hname.noSlash, by decide, fun hmem => ?_⟩
    exact absurd (isDecimalDigit_of_mem_decimal _ _ hmem) (by decide)
  · exact hname

theorem noSlash_words (h : p.Framed) : ∀ word ∈ p.words, '/' ∉ word := by
  unfold words
  rw [List.forall_mem_append, List.forall_mem_append]
  refine ⟨⟨?_, ?_⟩, by simpa using (isWord_lastWord h).noSlash⟩
  · split
    · simp
    · rename_i huser
      have huser := h.user (by simpa using huser)
      simpa using noSlash_of_isUser huser.1
  · split
    · simp
    · rename_i hseries
      simpa using (isWord_of_isSeries (h.series (by simpa using hseries))).noSlash

theorem parseRest_words (h : p.Framed) (text : String) :
    parseRest text p.schema p.user ((if p.series.isEmpty then [] else [p.series]) ++ [p.lastWord])
      = (parseLast text p.lastWord).map fun r => { p with name := r.1, revision := r.2 } := by
  split
  · rename_i hseries
    rw [List.nil_append, parseRest]
    rw [List.isEmpty_iff] at hseries
    rw [hseries]
  · rename_i hseries
    rw [List.singleton_append, parseRest, if_pos (h.series (by simpa using hseries))]

theorem parseWords_words (h : p.Framed) (text : String) :
    parseWords text p.schema p.words
      = (parseLast text p.lastWord).map fun r => { p with name := r.1, revision := r.2 } := by
  unfold words
  split
  · -- neither a series nor a name is marked as a user
    rename_i huser
    rw [List.isEmpty_iff] at huser
    rw [List.nil_append, parseWords]
    · rw [← huser]
      exact parseRest_words h text
    · intro user rest heq
      split at heq
      · exact (isWord_lastWord h).unmarked (List.cons.inj heq).1
      · rename_i hseries
        exact (isWord_of_isSeries (h.series (by simpa using hseries))).unmarked
          (List.cons.inj heq).1
  · rename_i huser
    obtain ⟨hsound, hlocal⟩ := h.user (by simpa using huser)
    rw [List.append_assoc, List.singleton_append, parseWords, if_neg hlocal, hsound]
    exact parseRest_words h text

/-- What is written is taken apart into the same words again, so that reading it comes down to
reading the last one. -/
theorem parse_chars_eq (h : p.Framed) :
    parse (String.ofList p.chars) = (parseLast (String.ofList p.chars) p.lastWord).map
      fun r => { p with name := r.1, revision := r.2 } := by
  have hcut : cutFirst? ':' (String.ofList p.chars).toList
      = some (p.schema, joinPieces '/' p.words) := by
    rw [String.toList_ofList, chars_eq]
    exact cutFirst?_append (noColon_of_isSchema h.schema) _
  have hpieces : pieces '/' (joinPieces '/' p.words) = p.words :=
    pieces_joinPieces (by simp [words]) (noSlash_words h)
  have hlength : ¬ 3 < p.words.length := by
    unfold words
    split <;> split <;> simp
  rw [parse, hcut, Option.getD_some]
  dsimp only
  rw [h.schema, hpieces, if_neg hlength]
  exact parseWords_words h _

/-- What is written from canonical parts is read as the same parts. -/
theorem parse_chars (h : p.Canonical) : parse (String.ofList p.chars) = .ok p := by
  rw [parse_chars_eq h.toFramed, parseLast_lastWord h]
  rfl

-- ================================================= what reading gives

theorem parseLast_eq_ok {word name : List Char} {revision : Int}
    (h : parseLast text word = .ok (name, revision)) :
    isName name = true ∧ (revision < 0 → revision = -1 ∧ splitRevision? name = none)
      ∧ (0 ≤ revision → '\n' ∉ name ∧ revision.toNat < 10 ^ maxDigits) := by
  unfold parseLast at h
  dsimp only at h
  cases hsplit : splitRevision? word with
  | none =>
    rw [hsplit] at h
    dsimp only at h
    split at h
    · rename_i hname
      obtain ⟨rfl, rfl⟩ := Prod.mk.inj (Except.ok.inj h)
      exact ⟨hname, fun _ => ⟨rfl, hsplit⟩, fun hset => absurd hset (by decide)⟩
    · cases h
  | some cut =>
    obtain ⟨front, digits⟩ := cut
    obtain ⟨-, -, -, -, hline⟩ := splitRevision?_eq_some_iff.1 hsplit
    rw [hsplit] at h
    dsimp only at h
    by_cases hlong : maxDigits < digits.length
    · rw [if_pos hlong] at h
      cases h
    · rw [if_neg hlong] at h
      dsimp only at h
      split at h
      · rename_i hname
        obtain ⟨rfl, rfl⟩ := Prod.mk.inj (Except.ok.inj h)
        refine ⟨hname, fun hneg => absurd hneg (by omega), fun _ => ⟨hline, ?_⟩⟩
        rw [Int.toNat_natCast]
        exact Nat.lt_of_lt_of_le (decimalValue_lt digits)
          (Nat.pow_le_pow_right (by decide) (Nat.not_lt.1 hlong))
      · cases h

theorem canonical_of_parseRest {schema user : List Char} {ws : List (List Char)}
    (hschema : isSchema (String.ofList schema) = true)
    (huser : user ≠ [] → isUser user = true ∧ schema ≠ localSchema.toList)
    (h : parseRest text schema user ws = .ok p) : p.Canonical := by
  unfold parseRest at h
  split at h
  · obtain ⟨⟨name, revision⟩, hlast, rfl⟩ := Outcome.map_eq_ok.1 h
    obtain ⟨hname, hunset, hset⟩ := parseLast_eq_ok hlast
    exact ⟨⟨hschema, huser, fun hne => absurd rfl hne, hname⟩, hunset, hset⟩
  · split at h
    · rename_i hseries
      obtain ⟨⟨name, revision⟩, hlast, rfl⟩ := Outcome.map_eq_ok.1 h
      obtain ⟨hname, hunset, hset⟩ := parseLast_eq_ok hlast
      exact ⟨⟨hschema, huser, fun _ => hseries, hname⟩, hunset, hset⟩
    · cases h
  · cases h

/-- Parts that were read are canonical. -/
theorem canonical_of_parse (h : parse text = .ok p) : p.Canonical := by
  unfold parse at h
  dsimp only at h
  split at h
  · cases h
  · rename_i hschema
    split at h
    · cases h
    · rw [Bool.not_eq_true', Bool.not_eq_false] at hschema
      unfold parseWords at h
      split at h
      · split at h
        · cases h
        · split at h
          · cases h
          · rename_i hlocal huser
            exact canonical_of_parseRest hschema (fun _ => ⟨by simpa using huser, hlocal⟩) h
      · exact canonical_of_parseRest hschema (fun hne => absurd rfl hne) h

-- ========================================================== identities

/-- The complete identity of these parts. -/
def url (p : IdentityParts) : Url :=
  ⟨String.ofList p.schema, String.ofList p.user, String.ofList p.series, String.ofList p.name,
    .int p.revision⟩

/-- The reference of these parts. -/
def reference (p : IdentityParts) : Reference :=
  ⟨String.ofList p.schema, String.ofList p.user, String.ofList p.name, .int p.revision,
    String.ofList p.series⟩

theorem toString_url (p : IdentityParts) : p.url.toString = String.ofList p.chars := by
  unfold url Url.toString chars
  simp only [String.toList_ofList]

theorem toString_reference (p : IdentityParts) : p.reference.toString = String.ofList p.chars := by
  unfold reference Reference.toString chars
  simp only [String.toList_ofList]

end IdentityParts

/-- Parts with a series make a complete identity, at any revision and at none. -/
theorem IdentityParts.make_eq_ok {p : IdentityParts} (h : p.Framed) (hseries : p.series ≠ [])
    (hlow : -1 ≤ p.revision) : Url.make (String.ofList p.schema) (String.ofList p.user)
      (String.ofList p.series) (String.ofList p.name) (.int p.revision) = .ok p.url := by
  have hnotEmpty : (String.ofList p.series).isEmpty = false := by
    rw [← Bool.not_eq_true, String.isEmpty_iff]
    simpa using hseries
  have hrevision : (Revision.int p.revision).isBelow (-1) = false := by
    rw [← Bool.not_eq_true, isBelow_int_iff]
    exact Int.not_lt.2 hlow
  rw [Url.make, h.schema, hnotEmpty, hrevision]
  rfl

theorem IdentityParts.Canonical.low {p : IdentityParts} (h : p.Canonical) : -1 ≤ p.revision := by
  by_contra hlow
  have hunset := (h.unset (by omega)).1
  omega

/-- A complete identity is that of the parts, if there is a series among them. -/
theorem Url.parse_eq (text : String) :
    Url.parse text = (IdentityParts.parse text).bind fun p =>
      if p.series.isEmpty then .error (.identity (.noSeries text)) else .ok p.url := by
  unfold Url.parse
  cases hp : IdentityParts.parse text with
  | error f => rfl
  | ok p =>
    have hcanonical := IdentityParts.canonical_of_parse hp
    rw [Outcome.ok_bind]
    show _ = if p.series.isEmpty then _ else _
    split
    · rfl
    · rename_i hseries
      exact IdentityParts.make_eq_ok hcanonical.toFramed (by simpa using hseries) hcanonical.low

theorem Url.parse_eq_ok_iff {text : String} {u : Url} :
    Url.parse text = .ok u ↔
      ∃ p, IdentityParts.parse text = .ok p ∧ p.series ≠ [] ∧ u = p.url := by
  rw [Url.parse_eq]
  refine Outcome.bind_eq_ok.trans (exists_congr fun p => and_congr_right fun _ => ?_)
  split
  · rename_i hseries
    exact iff_of_false nofun fun h => h.1 (List.isEmpty_iff.1 hseries)
  · rename_i hseries
    rw [Except.ok.injEq, eq_comm]
    exact (and_iff_right (mt List.isEmpty_iff.2 hseries)).symm

theorem Reference.parse_eq_ok_iff {text : String} {r : Reference} :
    Reference.parse text = .ok r ↔ ∃ p, IdentityParts.parse text = .ok p ∧ r = p.reference := by
  unfold Reference.parse
  rw [Outcome.bind_eq_ok]
  refine exists_congr fun p => and_congr_right fun _ => ?_
  show Except.ok p.reference = Except.ok r ↔ _
  rw [Except.ok.injEq]
  exact eq_comm

/-- A complete identity that was read is read again from its written form. -/
theorem Url.parse_toString_of_parse {text : String} {u : Url} (h : Url.parse text = .ok u) :
    Url.parse u.toString = .ok u := by
  obtain ⟨p, hp, hseries, rfl⟩ := Url.parse_eq_ok_iff.1 h
  rw [IdentityParts.toString_url]
  exact Url.parse_eq_ok_iff.2
    ⟨p, IdentityParts.parse_chars (IdentityParts.canonical_of_parse hp), hseries, rfl⟩

/-- A reference that was read is read again from its written form. -/
theorem Reference.parse_toString_of_parse {text : String} {r : Reference}
    (h : Reference.parse text = .ok r) : Reference.parse r.toString = .ok r := by
  obtain ⟨p, hp, rfl⟩ := Reference.parse_eq_ok_iff.1 h
  rw [IdentityParts.toString_reference]
  exact Reference.parse_eq_ok_iff.2
    ⟨p, IdentityParts.parse_chars (IdentityParts.canonical_of_parse hp), rfl⟩

/-- Writing and reading are inverse to each other on all identities that can be read. Written forms
of such identities are equal only for equal identities, and the written form of what was read stays
what it is when it is read and written again. -/
theorem toString_roundTrip :
    (∀ text u, Url.parse text = .ok u → Url.parse u.toString = .ok u)
      ∧ (∀ text r, Reference.parse text = .ok r → Reference.parse r.toString = .ok r)
      ∧ (∀ text text' u v, Url.parse text = .ok u → Url.parse text' = .ok v →
          u.toString = v.toString → u = v)
      ∧ (∀ text text' r q, Reference.parse text = .ok r → Reference.parse text' = .ok q →
          r.toString = q.toString → r = q)
      ∧ (∀ text written, (Url.parse text).map Url.toString = .ok written →
          (Url.parse written).map Url.toString = .ok written)
      ∧ ∀ text written, (Reference.parse text).map Reference.toString = .ok written →
          (Reference.parse written).map Reference.toString = .ok written := by
  refine ⟨fun _ _ => Url.parse_toString_of_parse, fun _ _ => Reference.parse_toString_of_parse,
    ?_, ?_, ?_, ?_⟩
  · intro text text' u v hu hv heq
    have hread := Url.parse_toString_of_parse hu
    rw [heq, Url.parse_toString_of_parse hv] at hread
    exact (Except.ok.inj hread).symm
  · intro text text' r q hr hq heq
    have hread := Reference.parse_toString_of_parse hr
    rw [heq, Reference.parse_toString_of_parse hq] at hread
    exact (Except.ok.inj hread).symm
  · intro text written h
    obtain ⟨u, hu, rfl⟩ := Outcome.map_eq_ok.1 h
    rw [Url.parse_toString_of_parse hu]
    rfl
  · intro text written h
    obtain ⟨r, hr, rfl⟩ := Outcome.map_eq_ok.1 h
    rw [Reference.parse_toString_of_parse hr]
    rfl

/-- An identity of a user that ends in a line feed, at a revision in the digits of another script
and with zeros in front. -/
theorem toString_roundTrip_lineFeed :
    ∃ u, Url.parse "~bob\n/precise/word-press-0٤٢\n" = .ok u
      ∧ u.toString = "cs:~bob\n/precise/word-press-42" ∧ Url.parse u.toString = .ok u := by
  obtain ⟨p, hp, hseries, hchars⟩ : ∃ p,
      IdentityParts.parse "~bob\n/precise/word-press-0٤٢\n" = .ok p ∧ p.series ≠ []
        ∧ String.ofList p.chars = "cs:~bob\n/precise/word-press-42" := by
    refine ⟨⟨"cs".toList, "bob\n".toList, "precise".toList, "word-press".toList, 42⟩, ?_, ?_, ?_⟩
    · rfl
    · decide
    · decide +kernel
  have hu : Url.parse "~bob\n/precise/word-press-0٤٢\n" = .ok p.url :=
    Url.parse_eq_ok_iff.2 ⟨p, hp, hseries, rfl⟩
  refine ⟨p.url, hu, ?_, toString_roundTrip.1 _ _ hu⟩
  rw [IdentityParts.toString_url, hchars]

end CharmDepot
