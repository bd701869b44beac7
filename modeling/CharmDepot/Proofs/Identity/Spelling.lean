/-
Which texts are identities.

A `Spelling` takes a text apart into a schema, a user, a series and a last part, each of which but
the last may be left out; it is `Sound` if every part is a word of its language. What is read from a
text are the parts of its sound spelling (`IdentityParts.parse_eq_ok_iff`), and there is at most one
(`Spelling.chars_injective`): the schema ends at the first colon, slashes stand between the words
and in none of them, only a user begins with a tilde, and the last hyphen in front of nothing but
digits is that of a revision, since no name ends so.

A text without a sound spelling is refused as malformed, unless it ends in a number too long to be
read (`IdentityParts.parse_fails_malformed`).
-/
import CharmDepot.Proofs.Identity.Language
import CharmDepot.Proofs.Identity.Written

namespace CharmDepot

open Number Text
open scoped Computability

-- ============================================================ last parts

/-- The last part of a spelling: a name, or a name with the digits of a revision, which a line feed
may follow. -/
inductive Ending
  | plain (name : List Char)
  | revised (name digits : List Char) (lineFeed : Bool)

namespace Ending

def chars : Ending → List Char
  | plain name => name
  | revised name digits lineFeed => name ++ '-' :: digits ++ if lineFeed then ['\n'] else []

def name : Ending → List Char
  | plain name => name
  | revised name .. => name

/-- The revision, minus one if there is none. -/
def revision : Ending → Int
  | plain _ => -1
  | revised _ digits _ => decimalValue digits

/-- The words of the last part are what they should be. Only a name without a revision has a line
feed of its own. -/
def Sound : Ending → Prop
  | plain name => name ∈ nameLanguage * optionalLineFeed
  | revised name digits _ => name ∈ nameLanguage ∧ digits ≠ [] ∧ digits.length ≤ maxDigits
      ∧ ∀ c ∈ digits, isDecimalDigit c = true

/-- A name with digits behind it, less the line feed. -/
theorem dropFinalNewline_revised (name : List Char) {digits : List Char} (hdigits : digits ≠ [])
    (hall : ∀ c ∈ digits, isDecimalDigit c = true) (lineFeed : Bool) :
    dropFinalNewline (revised name digits lineFeed).chars = name ++ '-' :: digits := by
  cases lineFeed with
  | true =>
    show dropFinalNewline (name ++ '-' :: digits ++ ['\n']) = _
    unfold dropFinalNewline
    rw [if_pos List.getLast?_concat, List.dropLast_concat]
  | false =>
    show dropFinalNewline (name ++ '-' :: digits ++ []) = _
    rw [List.append_nil]
    refine if_neg fun hlast => ?_
    have hmem : '\n' ∈ digits := by
      rw [List.getLast?_append_of_ne_nil _ (by simp), List.getLast?_cons_of_ne_nil hdigits] at hlast
      exact List.mem_of_getLast? hlast
    exact absurd (hall _ hmem) (by decide)

/-- A sound last part is cut at the hyphen in front of its revision, if it has one. -/
theorem splitRevision?_chars {l : Ending} (h : l.Sound) :
    splitRevision? l.chars = match l with
      | plain _ => none
      | revised name digits _ => some (name, digits) := by
  cases l with
  | plain name => exact splitRevision?_of_isName (isName_iff.2 h)
  | revised name digits lineFeed =>
    obtain ⟨hname, hdigits, -, hall⟩ := h
    refine splitRevision?_eq_some_iff.2
      ⟨dropFinalNewline_revised name hdigits hall lineFeed, hdigits, hall, ?_,
        lineFeed_not_mem_name hname⟩
    obtain ⟨-, first, rest, rfl, -⟩ := isPlainName_cases (isPlainName_iff.2 hname)
    exact List.cons_ne_nil _ _

/-- The last part stands in an identity by itself. -/
theorem isWord_chars {l : Ending} (h : l.Sound) : IsWord l.chars := by
  cases l with
  | plain name => exact isWord_of_isName (isName_iff.2 h)
  | revised name digits lineFeed =>
    obtain ⟨hname, -, -, hall⟩ := h
    obtain ⟨hchars, first, rest, rfl, hlower⟩ := isPlainName_cases (isPlainName_iff.2 hname)
    refine ⟨?_, first, _, rfl, hlower⟩
    have hslash : '/' ∉ first :: rest := fun hmem => absurd (hchars _ hmem) (by decide)
    have hdigit : '/' ∉ digits := fun hmem => absurd (hall _ hmem) (by decide)
    cases lineFeed <;> simp_all [chars]

/-- Sound last parts that are written alike are alike. -/
theorem chars_injective {l l' : Ending} (h : l.Sound) (h' : l'.Sound) (heq : l.chars = l'.chars) :
    l = l' := by
  have hsplit := splitRevision?_chars h
  rw [heq, splitRevision?_chars h'] at hsplit
  cases l with
  | plain name =>
    cases l' with
    | plain name' => exact congrArg plain heq
    | revised => cases hsplit
  | revised name digits lineFeed =>
    cases l' with
    | plain => cases hsplit
    | revised name' digits' lineFeed' =>
      obtain ⟨rfl, rfl⟩ := Prod.mk.inj (Option.some.inj hsplit)
      have hending := List.append_cancel_left heq
      cases lineFeed <;> cases lineFeed' <;> first | rfl | cases hending

end Ending

/-- The name and the revision are read from the last part, and it is a sound one. -/
theorem IdentityParts.parseLast_eq_ok_iff {text : String} {word : List Char} {r : List Char × Int} :
    parseLast text word = .ok r ↔
      ∃ l : Ending, l.Sound ∧ l.chars = word ∧ r = (l.name, l.revision) := by
  constructor
  · intro h
    unfold parseLast at h
    dsimp only at h
    cases hsplit : splitRevision? word with
    | none =>
      rw [hsplit] at h
      dsimp only at h
      split at h
      · rename_i hname
        exact ⟨.plain word, isName_iff.1 hname, rfl, (Except.ok.inj h).symm⟩
      · cases h
    | some cut =>
      obtain ⟨name, digits⟩ := cut
      obtain ⟨hword, hdigits, hall, -, hline⟩ := splitRevision?_eq_some_iff.1 hsplit
      rw [hsplit] at h
      dsimp only at h
      by_cases hlong : maxDigits < digits.length
      · rw [if_pos hlong] at h
        cases h
      rw [if_neg hlong] at h
      dsimp only at h
      split at h
      · rename_i hname
        have hplain : name ∈ nameLanguage := by
          unfold isName at hname
          rw [dropFinalNewline_of_not_mem hline] at hname
          exact isPlainName_iff.1 hname
        have hr := (Except.ok.inj h).symm
        have hsound (lineFeed : Bool) : (Ending.revised name digits lineFeed).Sound :=
          ⟨hplain, hdigits, Nat.not_lt.1 hlong, hall⟩
        rcases dropFinalNewline_cases word with hsame | hmore
        · refine ⟨.revised name digits false, hsound _, ?_, hr⟩
          rw [← hsame, hword]
          exact List.append_nil _
        · refine ⟨.revised name digits true, hsound _, ?_, hr⟩
          rw [hmore, hword]
          rfl
      · cases h
  · rintro ⟨l, hsound, rfl, rfl⟩
    unfold parseLast
    rw [Ending.splitRevision?_chars hsound]
    cases l with
    | plain name =>
      dsimp only
      exact if_pos (isName_iff.2 hsound)
    | revised name digits lineFeed =>
      obtain ⟨hname, -, hshort, -⟩ := hsound
      have hisName : isName name = true := by
        unfold isName
        rw [dropFinalNewline_of_not_mem (lineFeed_not_mem_name hname)]
        exact isPlainName_iff.2 hname
      dsimp only
      rw [if_neg (Nat.not_lt.2 hshort)]
      exact if_pos hisName

-- ============================================================ spellings

/-- A text taken apart as an identity: a schema with a colon behind it, a user with a tilde in front
and a slash behind it, a series with a slash behind it, any of which may be left out, and a last
part. -/
structure Spelling where
  schema? : Option (List Char)
  user? : Option (List Char)
  series? : Option (List Char)
  ending : Ending

namespace Spelling

def chars (s : Spelling) : List Char :=
  (s.schema?.elim [] fun schema => schema ++ [':'])
    ++ (s.user?.elim [] fun user => '~' :: user ++ ['/'])
    ++ (s.series?.elim [] fun series => series ++ ['/']) ++ s.ending.chars

/-- Every part is what it should be: the schema is one of two, and there is a colon only behind it;
a local identity has no user; and the words are those of their languages, with a line feed that may
end them. -/
structure Sound (s : Spelling) : Prop where
  schema : ∀ schema, s.schema? = some schema →
    schema = storeSchema.toList ∨ schema = localSchema.toList
  noColon : s.schema? = none → ':' ∉ s.chars
  user : ∀ user, s.user? = some user →
    user ∈ userLanguage * optionalLineFeed ∧ s.schema? ≠ some localSchema.toList
  series : ∀ series, s.series? = some series → series ∈ seriesLanguage * optionalLineFeed
  ending : s.ending.Sound

/-- The parts of the identity that is spelled. -/
def parts (s : Spelling) : IdentityParts :=
  ⟨s.schema?.getD storeSchema.toList, s.user?.getD [], s.series?.getD [], s.ending.name,
    s.ending.revision⟩

/-- The words between the slashes. -/
def words (s : Spelling) : List (List Char) :=
  (s.user?.map ('~' :: ·)).toList ++ s.series?.toList ++ [s.ending.chars]

theorem chars_eq (s : Spelling) :
    s.chars = (s.schema?.elim [] fun schema => schema ++ [':']) ++ joinPieces '/' s.words := by
  obtain ⟨schema?, user?, series?, ending⟩ := s
  cases user? <;> cases series? <;> simp [chars, words, joinPieces]

theorem isWord_series {s : Spelling} (h : s.Sound) (series : List Char)
    (hseries : s.series? = some series) : IsWord series :=
  isWord_of_isSeries (isSeries_iff.2 (h.series series hseries))

theorem noSlash_words {s : Spelling} (h : s.Sound) : ∀ word ∈ s.words, '/' ∉ word := by
  unfold words
  rw [List.forall_mem_append, List.forall_mem_append]
  refine ⟨⟨fun word hword => ?_, fun word hword => ?_⟩, ?_⟩
  · obtain ⟨user, huser, rfl⟩ := Option.map_eq_some_iff.1 (Option.mem_toList.1 hword)
    have hsound := noSlash_of_isUser (isUser_iff.2 (h.user user huser).1)
    simpa using hsound
  · exact (isWord_series h word (Option.mem_toList.1 hword)).noSlash
  · simpa using (Ending.isWord_chars h.ending).noSlash

theorem pieces_words {s : Spelling} (h : s.Sound) : pieces '/' (joinPieces '/' s.words) = s.words :=
  pieces_joinPieces (by simp [words]) (noSlash_words h)

theorem isSchema_ofList_iff {cs : List Char} :
    isSchema (String.ofList cs) = true ↔ cs = storeSchema.toList ∨ cs = localSchema.toList := by
  unfold isSchema
  rw [Bool.or_eq_true, beq_iff_eq, beq_iff_eq, ← String.toList_inj, ← String.toList_inj,
    String.toList_ofList]

/-- A schema of a sound spelling is a schema. -/
theorem isSchema_of_sound {s : Spelling} (h : s.Sound) {schema : List Char}
    (hschema : s.schema? = some schema) : isSchema (String.ofList schema) = true :=
  isSchema_ofList_iff.2 (h.schema schema hschema)

/-- Where a sound spelling is cut at its first colon. -/
theorem cutFirst?_chars {s : Spelling} (h : s.Sound) :
    cutFirst? ':' s.chars = s.schema?.map fun schema => (schema, joinPieces '/' s.words) := by
  cases hschema : s.schema? with
  | none => exact cutFirst?_eq_none_iff.2 (h.noColon hschema)
  | some schema =>
    rw [chars_eq, hschema, Option.elim_some, List.append_assoc, List.singleton_append]
    exact cutFirst?_append (IdentityParts.noColon_of_isSchema (isSchema_of_sound h hschema)) _

theorem toList_injective {a b : Option (List Char)} (h : a.toList = b.toList) : a = b := by
  cases a <;> cases b <;> simp_all

/-- Only a user begins with a tilde, so that the words of a sound spelling in front of the last part
tell which of them is a user and which a series. -/
theorem front_injective {user? user?' series? series?' : Option (List Char)}
    (hseries : ∀ series, series? = some series → IsWord series)
    (hseries' : ∀ series, series?' = some series → IsWord series)
    (heq : (user?.map ('~' :: ·)).toList ++ series?.toList
      = (user?'.map ('~' :: ·)).toList ++ series?'.toList) :
    user? = user?' ∧ series? = series?' := by
  cases user? with
  | none =>
    cases user?' with
    | none => exact ⟨rfl, toList_injective heq⟩
    | some user' =>
      cases series? with
      | none => cases heq
      | some series => exact absurd (List.cons.inj heq).1 (hseries series rfl).unmarked
  | some user =>
    cases user?' with
    | none =>
      cases series?' with
      | none => cases heq
      | some series' => exact absurd (List.cons.inj heq).1.symm (hseries' series' rfl).unmarked
    | some user' =>
      obtain ⟨huser, hrest⟩ := List.cons.inj heq
      exact ⟨congrArg some (List.cons.inj huser).2, toList_injective hrest⟩

/-- There is at most one sound spelling of a text. -/
theorem chars_injective {s s' : Spelling} (h : s.Sound) (h' : s'.Sound)
    (heq : s.chars = s'.chars) : s = s' := by
  have hcut := cutFirst?_chars h
  rw [heq, cutFirst?_chars h'] at hcut
  have hschema : s.schema? = s'.schema? := by
    cases hs : s.schema? <;> cases hs' : s'.schema? <;> simp_all
  have hjoined : joinPieces '/' s.words = joinPieces '/' s'.words := by
    rw [chars_eq, chars_eq, hschema] at heq
    exact List.append_cancel_left heq
  have hwords : s.words = s'.words := by
    rw [← pieces_words h, hjoined, pieces_words h']
  obtain ⟨hfront, hlast⟩ := List.append_inj' hwords rfl
  have hending := Ending.chars_injective h.ending h'.ending (List.cons.inj hlast).1
  obtain ⟨huser, hseries⟩ := front_injective (isWord_series h) (isWord_series h') hfront
  obtain ⟨schema?, user?, series?, ending⟩ := s
  exact Spelling.mk.injEq .. ▸ ⟨hschema, huser, hseries, hending⟩

end Spelling

namespace IdentityParts

variable {text : String} {p : IdentityParts}

theorem parseRest_eq_ok_iff {schema user : List Char} {ws : List (List Char)} :
    parseRest text schema user ws = .ok p ↔
      ∃ (series? : Option (List Char)) (l : Ending), ws = series?.toList ++ [l.chars]
        ∧ (∀ series, series? = some series → series ∈ seriesLanguage * optionalLineFeed)
        ∧ l.Sound ∧ p = ⟨schema, user, series?.getD [], l.name, l.revision⟩ := by
  constructor
  · intro h
    unfold parseRest at h
    split at h
    · obtain ⟨r, hlast, rfl⟩ := Outcome.map_eq_ok.1 h
      obtain ⟨l, hsound, rfl, rfl⟩ := parseLast_eq_ok_iff.1 hlast
      exact ⟨none, l, rfl, nofun, hsound, rfl⟩
    · split at h
      · rename_i series last hseries
        obtain ⟨r, hlast, rfl⟩ := Outcome.map_eq_ok.1 h
        obtain ⟨l, hsound, rfl, rfl⟩ := parseLast_eq_ok_iff.1 hlast
        refine ⟨some series, l, rfl, fun series' h' => ?_, hsound, rfl⟩
        obtain rfl := Option.some.inj h'
        exact isSeries_iff.1 hseries
      · cases h
    · cases h
  · rintro ⟨series?, l, rfl, hseries, hsound, rfl⟩
    have hlast : parseLast text l.chars = .ok (l.name, l.revision) :=
      parseLast_eq_ok_iff.2 ⟨l, hsound, rfl, rfl⟩
    cases series? with
    | none =>
      show parseRest text schema user [l.chars] = _
      rw [parseRest, hlast]
      rfl
    | some series =>
      show parseRest text schema user [series, l.chars] = _
      rw [parseRest, if_pos (isSeries_iff.2 (hseries series rfl)), hlast]
      rfl

theorem parseWords_eq_ok_iff {schema : List Char} {ws : List (List Char)} :
    parseWords text schema ws = .ok p ↔
      ∃ (user? series? : Option (List Char)) (l : Ending),
        ws = (user?.map ('~' :: ·)).toList ++ series?.toList ++ [l.chars]
        ∧ (∀ user, user? = some user →
          user ∈ userLanguage * optionalLineFeed ∧ schema ≠ localSchema.toList)
        ∧ (∀ series, series? = some series → series ∈ seriesLanguage * optionalLineFeed)
        ∧ l.Sound ∧ p = ⟨schema, user?.getD [], series?.getD [], l.name, l.revision⟩ := by
  constructor
  · intro h
    unfold parseWords at h
    split at h
    · rename_i user rest
      split at h
      · cases h
      rename_i hlocal
      split at h
      · cases h
      rename_i huser
      obtain ⟨series?, l, rfl, hseries, hsound, rfl⟩ := parseRest_eq_ok_iff.1 h
      refine ⟨some user, series?, l, rfl, fun user' h' => ?_, hseries, hsound, rfl⟩
      obtain rfl := Option.some.inj h'
      exact ⟨isUser_iff.1 (by simpa using huser), hlocal⟩
    · obtain ⟨series?, l, rfl, hseries, hsound, rfl⟩ := parseRest_eq_ok_iff.1 h
      exact ⟨none, series?, l, rfl, nofun, hseries, hsound, rfl⟩
  · rintro ⟨user?, series?, l, rfl, huser, hseries, hsound, rfl⟩
    have hrest (user : List Char) : parseRest text schema user (series?.toList ++ [l.chars])
        = .ok ⟨schema, user, series?.getD [], l.name, l.revision⟩ :=
      parseRest_eq_ok_iff.2 ⟨series?, l, rfl, hseries, hsound, rfl⟩
    cases user? with
    | none =>
      -- neither a series nor a last part is marked as a user
      show parseWords text schema (series?.toList ++ [l.chars]) = _
      rw [parseWords]
      · exact hrest []
      · intro user rest heq
        cases series? with
        | none => exact (Ending.isWord_chars hsound).unmarked (List.cons.inj heq).1
        | some series =>
          exact (isWord_of_isSeries (isSeries_iff.2 (hseries series rfl))).unmarked
            (List.cons.inj heq).1
    | some user =>
      obtain ⟨hmem, hlocal⟩ := huser user rfl
      show parseWords text schema (('~' :: user) :: (series?.toList ++ [l.chars])) = _
      rw [parseWords, if_neg hlocal, isUser_iff.2 hmem]
      exact hrest user

/-- What is read once the schema is cut off. -/
def parseAfterSchema (text : String) (schema rest : List Char) : Outcome IdentityParts :=
  if !isSchema (String.ofList schema) then .error (.identity (.invalidSchema text))
  else if 3 < (pieces '/' rest).length then .error (.identity (.invalidForm text))
  else parseWords text schema (pieces '/' rest)

theorem parseAfterSchema_eq_ok_iff {schema rest : List Char} :
    parseAfterSchema text schema rest = .ok p ↔
      isSchema (String.ofList schema) = true
        ∧ ∃ (user? series? : Option (List Char)) (l : Ending),
          pieces '/' rest = (user?.map ('~' :: ·)).toList ++ series?.toList ++ [l.chars]
          ∧ (∀ user, user? = some user →
            user ∈ userLanguage * optionalLineFeed ∧ schema ≠ localSchema.toList)
          ∧ (∀ series, series? = some series → series ∈ seriesLanguage * optionalLineFeed)
          ∧ l.Sound ∧ p = ⟨schema, user?.getD [], series?.getD [], l.name, l.revision⟩ := by
  unfold parseAfterSchema
  rw [← @parseWords_eq_ok_iff text]
  cases isSchema (String.ofList schema) with
  | false => simp
  | true =>
    simp only [Bool.not_true, Bool.false_eq_true, if_false, true_and]
    split
    · rename_i hlong
      refine iff_of_false nofun fun h => ?_
      obtain ⟨user?, series?, l, hwords, -⟩ := parseWords_eq_ok_iff.1 h
      rw [hwords] at hlong
      cases user? <;> cases series? <;> simp at hlong
    · exact Iff.rfl

theorem parse_eq (text : String) :
    parse text = match cutFirst? ':' text.toList with
      | none => parseAfterSchema text storeSchema.toList text.toList
      | some (schema, rest) => parseAfterSchema text schema rest := by
  unfold parse parseAfterSchema
  cases cutFirst? ':' text.toList with
  | none => rfl
  | some cut => rfl

/-- What is read from a text are the parts of its sound spelling. -/
theorem parse_eq_ok_iff :
    parse text = .ok p ↔ ∃ s : Spelling, s.Sound ∧ s.chars = text.toList ∧ p = s.parts := by
  rw [parse_eq]
  constructor
  · intro h
    cases hcut : cutFirst? ':' text.toList with
    | none =>
      rw [hcut] at h
      obtain ⟨-, user?, series?, l, hwords, huser, hseries, hsound, rfl⟩ :=
        parseAfterSchema_eq_ok_iff.1 h
      have hchars : (Spelling.mk none user? series? l).chars = text.toList := by
        rw [Spelling.chars_eq, ← joinPieces_pieces '/' text.toList, hwords]
        rfl
      refine ⟨⟨none, user?, series?, l⟩, ⟨nofun, fun _ => ?_, fun user hu => ?_, hseries, hsound⟩,
        hchars, rfl⟩
      · rw [hchars]
        exact cutFirst?_eq_none_iff.1 hcut
      · exact ⟨(huser user hu).1, nofun⟩
    | some cut =>
      obtain ⟨schema, rest⟩ := cut
      rw [hcut] at h
      obtain ⟨hschema, user?, series?, l, hwords, huser, hseries, hsound, rfl⟩ :=
        parseAfterSchema_eq_ok_iff.1 h
      refine ⟨⟨some schema, user?, series?, l⟩,
        ⟨fun schema' h' => ?_, nofun, fun user hu => ?_, hseries, hsound⟩, ?_, rfl⟩
      · obtain rfl := Option.some.inj h'
        exact Spelling.isSchema_ofList_iff.1 hschema
      · obtain ⟨hmem, hlocal⟩ := huser user hu
        exact ⟨hmem, fun h => hlocal (Option.some.inj h)⟩
      · rw [Spelling.chars_eq, (cutFirst?_eq_some_iff.1 hcut).1, ← joinPieces_pieces '/' rest,
          hwords]
        simp [Spelling.words]
  · rintro ⟨s, hsound, htext, rfl⟩
    have hafter (schema : List Char) (hschema : s.schema?.getD storeSchema.toList = schema) :
        parseAfterSchema text schema (joinPieces '/' s.words) = .ok s.parts := by
      refine parseAfterSchema_eq_ok_iff.2 ⟨?_, s.user?, s.series?, s.ending,
        Spelling.pieces_words hsound, fun user hu => ⟨(hsound.user user hu).1, ?_⟩, hsound.series,
        hsound.ending, by rw [← hschema]; rfl⟩
      · cases hs : s.schema? with
        | none =>
          rw [← hschema, hs]
          decide
        | some schema' =>
          rw [← hschema, hs]
          exact Spelling.isSchema_of_sound hsound hs
      · rintro rfl
        cases hs : s.schema? with
        | none =>
          rw [hs] at hschema
          exact absurd hschema (by decide)
        | some schema' =>
          rw [hs] at hschema
          exact (hsound.user user hu).2 (hs.trans (congrArg some hschema))
    rw [← htext, Spelling.cutFirst?_chars hsound]
    cases hs : s.schema? with
    | none =>
      have hchars : s.chars = joinPieces '/' s.words := by
        rw [Spelling.chars_eq, hs]
        rfl
      show parseAfterSchema text storeSchema.toList s.chars = _
      rw [hchars]
      exact hafter _ (by rw [hs]; rfl)
    | some schema => exact hafter schema (by rw [hs]; rfl)

end IdentityParts

-- ============================================================= refusals

/-- A fault that says that a text is no identity by its form. -/
def Fault.IsMalformed (f : Fault) : Prop :=
  f.kind? = some .malformedIdentity

/-- A text that ends in a hyphen and more digits than are read, less a line feed behind them.
Neither the hyphen nor a digit ends a part of an identity, so it is the last part that ends so. -/
def EndsInLongNumber (cs : List Char) : Prop :=
  ∃ front digits, dropFinalNewline cs = front ++ '-' :: digits ∧ maxDigits < digits.length
    ∧ ∀ c ∈ digits, isDecimalDigit c = true

theorem dropFinalNewline_append (front : List Char) {cs : List Char} (h : cs ≠ []) :
    dropFinalNewline (front ++ cs) = front ++ dropFinalNewline cs := by
  unfold dropFinalNewline
  rw [List.getLast?_append_of_ne_nil _ h]
  split
  · exact List.dropLast_append_of_ne_nil h
  · rfl

/-- What a text ends in, a longer one does as well. -/
theorem EndsInLongNumber.of_suffix {cs ds : List Char} (h : EndsInLongNumber cs)
    (hsuffix : cs <:+ ds) : EndsInLongNumber ds := by
  obtain ⟨more, rfl⟩ := hsuffix
  obtain ⟨front, digits, hcs, hlong, hall⟩ := h
  refine ⟨more ++ front, digits, ?_, hlong, hall⟩
  have hne : cs ≠ [] := by
    rintro rfl
    rw [show dropFinalNewline [] = [] from rfl] at hcs
    simp at hcs
  rw [dropFinalNewline_append more hne, hcs, List.append_assoc]

theorem EndsInLongNumber.length {cs : List Char} (h : EndsInLongNumber cs) :
    maxDigits < cs.length := by
  obtain ⟨front, digits, hcs, hlong, -⟩ := h
  have hlength := congrArg List.length hcs
  have hle : (dropFinalNewline cs).length ≤ cs.length := by
    rcases dropFinalNewline_cases cs with hsame | hmore
    · rw [hsame]
    · have hone := congrArg List.length hmore
      rw [List.length_append, List.length_singleton] at hone
      omega
  simp only [List.length_append, List.length_cons] at hlength
  omega

/-- The last piece of a text is what the text ends in. -/
theorem suffix_of_mem_getLast?_pieces {separator : Char} {cs piece : List Char}
    (h : piece ∈ (pieces separator cs).getLast?) : piece <:+ cs := by
  have hjoin (front : List (List Char)) : piece <:+ joinPieces separator (front ++ [piece]) := by
    induction front with
    | nil => exact List.suffix_rfl
    | cons first front ih =>
      rw [List.cons_append]
      cases hmore : front ++ [piece] with
      | nil => simp at hmore
      | cons next more =>
        rw [hmore] at ih
        exact ih.trans ⟨first ++ [separator], by simp [joinPieces]⟩
  have hlast := hjoin (pieces separator cs).dropLast
  rwa [List.dropLast_append_getLast? _ h, joinPieces_pieces] at hlast

namespace IdentityParts

theorem parseLast_fails_malformed (text : String) (word : List Char) :
    (parseLast text word).Fails fun f => f.IsMalformed ∨ EndsInLongNumber word := by
  unfold parseLast
  cases hsplit : splitRevision? word with
  | none =>
    dsimp only
    split
    · exact .ok _
    · exact .error (.inl rfl)
  | some cut =>
    obtain ⟨name, digits⟩ := cut
    obtain ⟨hword, -, hall, -, -⟩ := splitRevision?_eq_some_iff.1 hsplit
    dsimp only
    by_cases hlong : maxDigits < digits.length
    · rw [if_pos hlong]
      exact .error (.inr ⟨name, digits, hword, hlong, hall⟩)
    · rw [if_neg hlong]
      dsimp only
      split
      · exact .ok _
      · exact .error (.inl rfl)

theorem parseRest_fails_malformed (text : String) (schema user : List Char)
    (ws : List (List Char)) : (parseRest text schema user ws).Fails fun f =>
      f.IsMalformed ∨ ∃ word ∈ ws.getLast?, EndsInLongNumber word := by
  unfold parseRest
  split
  · have hlast := parseLast_fails_malformed text
    exact ((hlast _).mono fun f hf => hf.imp_right fun h => ⟨_, rfl, h⟩).map
  · split
    · exact ((parseLast_fails_malformed text _).mono fun f hf =>
        hf.imp_right fun h => ⟨_, rfl, h⟩).map
    · exact .error (.inl rfl)
  · exact .error (.inl rfl)

theorem parseWords_fails_malformed (text : String) (schema : List Char) (ws : List (List Char)) :
    (parseWords text schema ws).Fails fun f =>
      f.IsMalformed ∨ ∃ word ∈ ws.getLast?, EndsInLongNumber word := by
  unfold parseWords
  split
  · split
    · exact .error (.inl rfl)
    · split
      · exact .error (.inl rfl)
      · refine (parseRest_fails_malformed text _ _ _).mono fun f hf => hf.imp_right ?_
        rintro ⟨word, hword, hends⟩
        exact ⟨word, by simp [List.getLast?_cons, Option.mem_def.1 hword], hends⟩
  · exact parseRest_fails_malformed text _ _ _

/-- A text that is no identity is malformed, unless it ends in a number too long to be read. -/
theorem parse_fails_malformed (text : String) :
    (parse text).Fails fun f => f.IsMalformed ∨ EndsInLongNumber text.toList := by
  have hafter (schema : List Char) {rest : List Char} (hrest : rest <:+ text.toList) :
      (parseAfterSchema text schema rest).Fails fun f =>
        f.IsMalformed ∨ EndsInLongNumber text.toList := by
    unfold parseAfterSchema
    split
    · exact .error (.inl rfl)
    · split
      · exact .error (.inl rfl)
      · refine (parseWords_fails_malformed text schema _).mono fun f hf => hf.imp_right ?_
        rintro ⟨word, hword, hends⟩
        exact hends.of_suffix ((suffix_of_mem_getLast?_pieces hword).trans hrest)
  rw [parse_eq]
  cases hcut : cutFirst? ':' text.toList with
  | none => exact hafter _ List.suffix_rfl
  | some cut =>
    obtain ⟨schema, rest⟩ := cut
    refine hafter schema ⟨schema ++ [':'], ?_⟩
    rw [(cutFirst?_eq_some_iff.1 hcut).1]
    simp

end IdentityParts

theorem Reference.parse_fails_malformed (text : String) :
    (Reference.parse text).Fails fun f => f.IsMalformed ∨ EndsInLongNumber text.toList :=
  (IdentityParts.parse_fails_malformed text).bind fun _ => .ok _

theorem Url.parse_fails_malformed (text : String) :
    (Url.parse text).Fails fun f => f.IsMalformed ∨ EndsInLongNumber text.toList := by
  rw [Url.parse_eq]
  refine (IdentityParts.parse_fails_malformed text).bind fun p => ?_
  split
  · exact .error (.inl rfl)
  · exact .ok _

-- =========================================================== identities

/-- A text is read as a reference if and only if it has a sound spelling, and as a complete identity
if and only if there is a series in it. It has no more than one, and what is read are its parts. Any
other text is malformed, unless it ends in a number too long to be read. -/
theorem parse_spelling (text : String) :
    (∀ r, Reference.parse text = .ok r ↔
        ∃ s : Spelling, s.Sound ∧ s.chars = text.toList ∧ r = s.parts.reference)
      ∧ (∀ u, Url.parse text = .ok u ↔
        ∃ s : Spelling, s.Sound ∧ s.chars = text.toList ∧ s.series? ≠ none ∧ u = s.parts.url)
      ∧ (∀ s s' : Spelling, s.Sound → s'.Sound → s.chars = text.toList → s'.chars = text.toList →
        s = s')
      ∧ (¬ EndsInLongNumber text.toList →
        (Reference.parse text).Fails Fault.IsMalformed
          ∧ (Url.parse text).Fails Fault.IsMalformed) := by
  have hseries {s : Spelling} (hs : s.Sound) : s.parts.series ≠ [] ↔ s.series? ≠ none := by
    unfold Spelling.parts
    cases hseries : s.series? with
    | none => simp
    | some series =>
      obtain ⟨first, rest, rfl, -⟩ := (Spelling.isWord_series hs series hseries).begins
      simp
  refine ⟨fun r => ?_, fun u => ?_, fun s s' hs hs' htext htext' => ?_, fun hshort => ⟨?_, ?_⟩⟩
  · rw [Reference.parse_eq_ok_iff]
    simp only [IdentityParts.parse_eq_ok_iff]
    constructor
    · rintro ⟨_, ⟨s, hs, htext, rfl⟩, rfl⟩
      exact ⟨s, hs, htext, rfl⟩
    · rintro ⟨s, hs, htext, rfl⟩
      exact ⟨_, ⟨s, hs, htext, rfl⟩, rfl⟩
  · rw [Url.parse_eq_ok_iff]
    simp only [IdentityParts.parse_eq_ok_iff]
    constructor
    · rintro ⟨_, ⟨s, hs, htext, rfl⟩, hsome, rfl⟩
      exact ⟨s, hs, htext, (hseries hs).1 hsome, rfl⟩
    · rintro ⟨s, hs, htext, hsome, rfl⟩
      exact ⟨_, ⟨s, hs, htext, rfl⟩, (hseries hs).2 hsome, rfl⟩
  · exact Spelling.chars_injective hs hs' (htext.trans htext'.symm)
  · exact (Reference.parse_fails_malformed text).mono fun f hf => hf.resolve_right hshort
  · exact (Url.parse_fails_malformed text).mono fun f hf => hf.resolve_right hshort

/-- A text with a sound spelling, with a line feed behind the user and behind the revision, and one
without, since no line feed stands in front of a revision. -/
theorem parse_spelling_lineFeed :
    (∃ s : Spelling, s.Sound ∧ s.chars = "~bob\n/precise/word-press-0٤٢\n".toList
        ∧ Url.parse "~bob\n/precise/word-press-0٤٢\n" = .ok s.parts.url ∧ s.parts.revision = 42)
      ∧ ∃ f, Reference.parse "w\n-1" = .error f ∧ f.IsMalformed := by
  constructor
  · have hread : IdentityParts.parse "~bob\n/precise/word-press-0٤٢\n" = .ok
        ⟨"cs".toList, "bob\n".toList, "precise".toList, "word-press".toList, 42⟩ := rfl
    obtain ⟨s, hs, htext, hseries, hu⟩ := ((parse_spelling _).2.1 _).1
      (Url.parse_eq_ok_iff.2 ⟨_, hread, by decide, rfl⟩)
    refine ⟨s, hs, htext, Url.parse_eq_ok_iff.2 ⟨_, hread, by decide, hu.symm⟩, ?_⟩
    exact (Revision.int.inj (congrArg Url.revision hu)).symm
  · have hshort : ¬ EndsInLongNumber "w\n-1".toList := fun h => absurd h.length (by decide)
    have hrefused : IdentityParts.parse "w\n-1" = .error (.identity (.invalidName "w\n-1")) := rfl
    cases hread : Reference.parse "w\n-1" with
    | ok r =>
      obtain ⟨p, hp, -⟩ := Reference.parse_eq_ok_iff.1 hread
      cases hrefused.symm.trans hp
    | error f => exact ⟨f, rfl, ((parse_spelling _).2.2.2 hshort).1 f hread⟩

/-- A name with a revision of so many digits and a line feed behind it. -/
def numbered (n : Nat) : String :=
  String.ofList ('w' :: '-' :: (List.replicate n '1' ++ ['\n']))

theorem parse_numbered {n : Nat} (hlong : maxDigits < n) :
    IdentityParts.parse (numbered n) = .error (.value (.integer (.tooLong n))) := by
  have htext : (numbered n).toList = 'w' :: '-' :: (List.replicate n '1' ++ ['\n']) :=
    String.toList_ofList
  have hmem {c : Char} (hc : c ∈ (numbered n).toList) : c = 'w' ∨ c = '-' ∨ c = '1' ∨ c = '\n' := by
    rw [htext, List.mem_cons, List.mem_cons, List.mem_append, List.mem_singleton] at hc
    exact hc.imp_right (Or.imp_right (Or.imp_left List.eq_of_mem_replicate))
  have hcolon : ':' ∉ (numbered n).toList := fun hc => absurd (hmem hc) (by decide)
  have hslash : '/' ∉ (numbered n).toList := fun hc => absurd (hmem hc) (by decide)
  have hdigits : List.replicate n '1' ≠ [] := by
    rw [Ne, List.replicate_eq_nil_iff]
    omega
  have hsplit : splitRevision? (numbered n).toList = some (['w'], List.replicate n '1') := by
    refine splitRevision?_eq_some_iff.2 ⟨?_, hdigits, fun c hc => ?_, by simp, by decide⟩
    · rw [htext, ← List.cons_append, ← List.cons_append]
      unfold dropFinalNewline
      rw [if_pos List.getLast?_concat, List.dropLast_concat]
      rfl
    · rw [List.eq_of_mem_replicate hc]
      decide
  have hlast : IdentityParts.parseLast (numbered n) (numbered n).toList
      = .error (.value (.integer (.tooLong n))) := by
    unfold IdentityParts.parseLast
    rw [hsplit]
    dsimp only
    rw [List.length_replicate, if_pos hlong]
  rw [IdentityParts.parse_eq, cutFirst?_eq_none_iff.2 hcolon]
  unfold IdentityParts.parseAfterSchema
  rw [pieces_of_not_mem hslash, if_neg (by decide), if_neg (by simp), IdentityParts.parseWords]
  · rw [IdentityParts.parseRest, hlast]
    rfl
  · intro user rest h
    rw [htext] at h
    cases (List.cons.inj (List.cons.inj h).1).1

/-- A text that ends in a line feed does not end in a number; it is refused all the same for the
number in front of the line feed, and not as malformed. -/
theorem not_isMalformed_numbered :
    (∀ front digits, (numbered 4301).toList = front ++ '-' :: digits →
        ∃ c ∈ digits, isDecimalDigit c = false)
      ∧ (∃ f, Reference.parse (numbered 4301) = .error f ∧ ¬ f.IsMalformed)
      ∧ ∃ f, Url.parse (numbered 4301) = .error f ∧ ¬ f.IsMalformed := by
  have hread := parse_numbered (n := 4301) (by decide)
  have hfault : ¬ (Fault.value (.integer (.tooLong 4301))).IsMalformed := nofun
  refine ⟨fun front digits h => ⟨'\n', ?_, by decide⟩, ⟨_, ?_, hfault⟩, ⟨_, ?_, hfault⟩⟩
  · have hlast : (numbered 4301).toList.getLast? = some '\n' := by
      rw [numbered, String.toList_ofList, ← List.cons_append, ← List.cons_append]
      exact List.getLast?_concat
    rw [h, List.getLast?_append_of_ne_nil _ (by simp)] at hlast
    rcases List.mem_cons.1 (List.mem_of_getLast? hlast) with hhyphen | hmem
    · cases hhyphen
    · exact hmem
  · unfold Reference.parse
    rw [hread]
    rfl
  · unfold Url.parse
    rw [hread]
    rfl

end CharmDepot
