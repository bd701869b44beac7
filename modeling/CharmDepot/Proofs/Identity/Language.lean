/-
The words of identities as regular languages.

`userLanguage`, `seriesLanguage` and `nameLanguage` spell the words out as patterns: letters and
classes of letters put together by sequence, choice and repetition. Each is exactly what the readers
accept (`isPlainUser_iff`, `isPlainSeries_iff`, `isPlainName_iff`), and the same with one line feed
allowed at the end (`mem_optionalLineFeed_iff`).

Repetition leaves open where a text is cut; that is settled by separators which are in no other
letter class of the pattern (`mem_separated_iff`), in a name by its hyphens.
-/
import CharmDepot.Proofs.Identity.Words
import Mathlib.Computability.Language

namespace CharmDepot

open Text
open scoped Computability

-- ============================================================= letters

/-- The texts of one character of a class. -/
def letter (p : Char → Bool) : Language Char :=
  {cs | ∃ c, cs = [c] ∧ p c = true}

/-- The one text of one given character. -/
def mark (c : Char) : Language Char :=
  {[c]}

/-- Repeated letters of a class are the texts of that class. -/
theorem mem_letter_kstar_iff {p : Char → Bool} {cs : List Char} :
    cs ∈ (letter p)∗ ↔ cs.all p = true := by
  rw [Language.mem_kstar, List.all_eq_true]
  constructor
  · rintro ⟨parts, rfl, hparts⟩ c hc
    obtain ⟨part, hpart, hc⟩ := List.mem_flatten.1 hc
    obtain ⟨d, rfl, hd⟩ := hparts part hpart
    rw [List.mem_singleton.1 hc]
    exact hd
  · intro h
    refine ⟨cs.map fun c => [c], by simp [← List.flatMap_def], ?_⟩
    intro part hpart
    obtain ⟨c, hc, rfl⟩ := List.mem_map.1 hpart
    exact ⟨c, rfl, h c hc⟩

/-- What begins with a letter of a class. -/
theorem mem_letter_mul_iff {p : Char → Bool} {l : Language Char} {cs : List Char} :
    cs ∈ letter p * l ↔ ∃ c rest, cs = c :: rest ∧ p c = true ∧ rest ∈ l := by
  rw [Language.mem_mul]
  constructor
  · rintro ⟨_, ⟨c, rfl, hc⟩, rest, hrest, rfl⟩
    exact ⟨c, rest, rfl, hc, hrest⟩
  · rintro ⟨c, rest, rfl, hc, hrest⟩
    exact ⟨[c], ⟨c, rfl, hc⟩, rest, hrest, rfl⟩

/-- What begins with a given character. -/
theorem mem_mark_mul_iff {c : Char} {l : Language Char} {cs : List Char} :
    cs ∈ mark c * l ↔ ∃ rest, cs = c :: rest ∧ rest ∈ l := by
  rw [Language.mem_mul]
  constructor
  · rintro ⟨_, rfl, rest, hrest, rfl⟩
    exact ⟨rest, rfl, hrest⟩
  · rintro ⟨rest, rfl, hrest⟩
    exact ⟨[c], rfl, rest, hrest, rfl⟩

theorem letter_beq (c : Char) : letter (· == c) = mark c := by
  ext cs
  constructor
  · intro h
    obtain ⟨d, rfl, hd⟩ := h
    rw [beq_iff_eq.1 hd]
    rfl
  · intro h
    exact ⟨c, h, beq_self_eq_true c⟩

-- ========================================================== separators

/-- What stands behind the first piece of a text are the others, each after a separator. -/
theorem exists_separated {p : Char → Bool} {later : Language Char} {cs word : List Char}
    {words : List (List Char)} (h : piecesBy p cs = word :: words) (hwords : ∀ w ∈ words, w ∈ later) :
    ∃ rest ∈ (letter p * later)∗, word ++ rest = cs := by
  induction words generalizing cs word with
  | nil =>
    rcases piecesBy_cases p cs with hwhole | ⟨_, _, back, -, -, hpieces⟩
    · rw [hwhole] at h
      exact ⟨[], Language.nil_mem_kstar _, by rw [← (List.cons.inj h).1, List.append_nil]⟩
    · rw [hpieces] at h
      exact absurd (List.cons.inj h).2 (piecesBy_ne_nil p back)
  | cons next words ih =>
    rcases piecesBy_cases p cs with hwhole | ⟨front, c, back, rfl, hc, hpieces⟩
    · rw [hwhole] at h
      cases (List.cons.inj h).2
    · rw [hpieces] at h
      obtain ⟨rfl, hback⟩ := List.cons.inj h
      rw [List.forall_mem_cons] at hwords
      obtain ⟨rest, hrest, rfl⟩ := ih hback hwords.2
      obtain ⟨parts, rfl, hparts⟩ := Language.mem_kstar.1 hrest
      refine ⟨c :: next ++ parts.flatten, Language.mem_kstar.2 ⟨(c :: next) :: parts, rfl, ?_⟩, rfl⟩
      exact List.forall_mem_cons.2 ⟨mem_letter_mul_iff.2 ⟨c, next, rfl, hc, hwords.1⟩, hparts⟩

/-- Words with separators between them, none of which is in a word, are cut into the words. -/
theorem mem_separated_iff {p : Char → Bool} {first later : Language Char}
    (hfirst : ∀ word ∈ first, ∀ c ∈ word, p c = false)
    (hlater : ∀ word ∈ later, ∀ c ∈ word, p c = false) {cs : List Char} :
    cs ∈ first * (letter p * later)∗ ↔
      ∃ word words, piecesBy p cs = word :: words ∧ word ∈ first ∧ ∀ w ∈ words, w ∈ later := by
  have hcut {word : List Char} {parts : List (List Char)} (hword : ∀ c ∈ word, p c = false)
      (hparts : ∀ part ∈ parts, part ∈ letter p * later) :
      ∃ words, piecesBy p (word ++ parts.flatten) = word :: words ∧ ∀ w ∈ words, w ∈ later := by
    induction parts generalizing word with
    | nil =>
      rw [List.flatten_nil, List.append_nil, piecesBy_of_free hword]
      exact ⟨[], rfl, by simp⟩
    | cons part parts ih =>
      rw [List.forall_mem_cons] at hparts
      obtain ⟨c, next, rfl, hc, hnext⟩ := mem_letter_mul_iff.1 hparts.1
      obtain ⟨words, hpieces, hwords⟩ := ih (hlater next hnext) hparts.2
      rw [List.flatten_cons, List.cons_append, piecesBy_append hword hc, hpieces]
      exact ⟨next :: words, rfl, List.forall_mem_cons.2 ⟨hnext, hwords⟩⟩
  rw [Language.mem_mul]
  constructor
  · intro h
    obtain ⟨word, hword, _, hrest, rfl⟩ := h
    obtain ⟨parts, rfl, hparts⟩ := Language.mem_kstar.1 hrest
    obtain ⟨words, hpieces, hwords⟩ := hcut (hfirst word hword) hparts
    exact ⟨word, words, hpieces, hword, hwords⟩
  · intro h
    obtain ⟨word, words, hpieces, hword, hwords⟩ := h
    exact ⟨word, hword, exists_separated hpieces hwords⟩

-- =============================================================== words

/-- Users: a lower-case letter or a digit, and one or more characters of a user. -/
def userLanguage : Language Char :=
  letter isLowerOrDigit * (letter isUserChar * (letter isUserChar)∗)

/-- Series: one or more lower-case letters, and then perhaps one or more lower-case letters and
digits. -/
def seriesLanguage : Language Char :=
  letter isLower * (letter isLower)∗ * (1 + letter isLowerOrDigit * (letter isLowerOrDigit)∗)

/-- What follows a hyphen in a name: lower-case letters and digits, and a letter among them. -/
def laterPartLanguage : Language Char :=
  (letter isLowerOrDigit)∗ * (letter isLower * (letter isLowerOrDigit)∗)

/-- Names: a lower-case letter, lower-case letters and digits, and any number of later parts, each
after a hyphen. -/
def nameLanguage : Language Char :=
  letter isLower * (letter isLowerOrDigit)∗ * (mark '-' * laterPartLanguage)∗

theorem isPlainUser_iff {cs : List Char} : isPlainUser cs = true ↔ cs ∈ userLanguage := by
  unfold isPlainUser userLanguage
  simp only [mem_letter_mul_iff, mem_letter_kstar_iff]
  constructor
  · intro h
    split at h
    · rename_i first second rest
      rw [List.all_cons, Bool.and_eq_true, Bool.and_eq_true] at h
      exact ⟨first, _, rfl, h.1, second, rest, rfl, h.2.1, h.2.2⟩
    · cases h
  · rintro ⟨first, _, rfl, hfirst, second, rest, rfl, hsecond, hrest⟩
    simp [hfirst, hsecond, hrest]

theorem isLowerOrDigit_of_isLower {c : Char} (h : isLower c = true) : isLowerOrDigit c = true := by
  unfold isLowerOrDigit
  rw [h, Bool.true_or]

theorem isPlainSeries_iff {cs : List Char} : isPlainSeries cs = true ↔ cs ∈ seriesLanguage := by
  have hends {rest : List Char} :
      rest ∈ (letter isLower)∗ * (1 + letter isLowerOrDigit * (letter isLowerOrDigit)∗)
        ↔ rest.all isLowerOrDigit = true := by
    rw [Language.mem_mul]
    constructor
    · rintro ⟨letters, hletters, tail, htail, rfl⟩
      rw [mem_letter_kstar_iff, List.all_eq_true] at hletters
      rw [List.all_append, Bool.and_eq_true, List.all_eq_true]
      refine ⟨fun c hc => isLowerOrDigit_of_isLower (hletters c hc), ?_⟩
      rcases (Language.mem_add ..).1 htail with hnil | hmore
      · rw [(Language.mem_one tail).1 hnil]
        rfl
      · obtain ⟨c, more, rfl, hc, hmore⟩ := mem_letter_mul_iff.1 hmore
        rw [List.all_cons, hc, mem_letter_kstar_iff.1 hmore]
        rfl
    · intro h
      refine ⟨[], Language.nil_mem_kstar _, rest, (Language.mem_add ..).2 ?_, rfl⟩
      cases rest with
      | nil => exact .inl rfl
      | cons c more =>
        rw [List.all_cons, Bool.and_eq_true] at h
        exact .inr (mem_letter_mul_iff.2 ⟨c, more, rfl, h.1, mem_letter_kstar_iff.2 h.2⟩)
  unfold isPlainSeries seriesLanguage
  rw [mul_assoc, mem_letter_mul_iff]
  constructor
  · intro h
    split at h
    · rename_i first rest
      rw [Bool.and_eq_true] at h
      exact ⟨first, rest, rfl, h.1, hends.2 h.2⟩
    · cases h
  · rintro ⟨first, rest, rfl, hfirst, hrest⟩
    simp [hfirst, hends.1 hrest]

theorem isLaterPart_iff {cs : List Char} : isLaterPart cs = true ↔ cs ∈ laterPartLanguage := by
  unfold isLaterPart laterPartLanguage
  rw [Bool.and_eq_true, List.any_eq_true, Language.mem_mul]
  constructor
  · rintro ⟨hall, c, hc, hlower⟩
    obtain ⟨front, back, rfl⟩ := List.append_of_mem hc
    rw [List.all_append, List.all_cons, Bool.and_eq_true, Bool.and_eq_true] at hall
    exact ⟨front, mem_letter_kstar_iff.2 hall.1, c :: back,
      mem_letter_mul_iff.2 ⟨c, back, rfl, hlower, mem_letter_kstar_iff.2 hall.2.2⟩, rfl⟩
  · rintro ⟨front, hfront, _, hback, rfl⟩
    obtain ⟨c, back, rfl, hlower, hback⟩ := mem_letter_mul_iff.1 hback
    refine ⟨?_, c, by simp, hlower⟩
    rw [List.all_append, List.all_cons, mem_letter_kstar_iff.1 hfront,
      isLowerOrDigit_of_isLower hlower, mem_letter_kstar_iff.1 hback]
    rfl

theorem isFirstPart_iff {cs : List Char} :
    isFirstPart cs = true ↔ cs ∈ letter isLower * (letter isLowerOrDigit)∗ := by
  unfold isFirstPart
  simp only [mem_letter_mul_iff, mem_letter_kstar_iff]
  constructor
  · intro h
    split at h
    · rename_i first rest
      exact ⟨first, rest, rfl, Bool.and_eq_true_iff.1 h⟩
    · cases h
  · rintro ⟨first, rest, rfl, h⟩
    exact Bool.and_eq_true_iff.2 h

/-- The first part of a name consists of letters and digits. -/
theorem all_of_firstPart {cs : List Char} (h : cs ∈ letter isLower * (letter isLowerOrDigit)∗) :
    cs.all isLowerOrDigit = true := by
  obtain ⟨c, rest, rfl, hc, hrest⟩ := mem_letter_mul_iff.1 h
  rw [List.all_cons, isLowerOrDigit_of_isLower hc, mem_letter_kstar_iff.1 hrest]
  rfl

/-- What consists of letters and digits holds no separator. -/
theorem free_of_all {p : Char → Bool} (hp : ∀ c, isLowerOrDigit c = true → p c = false)
    {cs : List Char} (h : cs.all isLowerOrDigit = true) : ∀ c ∈ cs, p c = false :=
  fun c hc => hp c (List.all_eq_true.1 h c hc)

theorem ne_of_isLowerOrDigit {c d : Char} (hc : isLowerOrDigit c = true)
    (hd : isLowerOrDigit d = false) : c ≠ d := by
  intro hsame
  rw [hsame, hd] at hc
  cases hc

theorem isPlainName_iff {cs : List Char} : isPlainName cs = true ↔ cs ∈ nameLanguage := by
  have hhyphen (c : Char) (hc : isLowerOrDigit c = true) : (c == '-') = false :=
    beq_eq_false_iff_ne.2 (ne_of_isLowerOrDigit hc (by decide))
  unfold isPlainName nameLanguage pieces
  rw [← letter_beq, mem_separated_iff]
  · cases piecesBy (· == '-') cs with
    | nil => simp
    | cons word words => simp [isFirstPart_iff, isLaterPart_iff]
  · exact fun word hword => free_of_all hhyphen (all_of_firstPart hword)
  · intro word hword
    have hlater := isLaterPart_iff.2 hword
    unfold isLaterPart at hlater
    exact free_of_all hhyphen (Bool.and_eq_true_iff.1 hlater).1

-- ========================================================== line feeds

/-- Nothing, or one line feed. -/
def optionalLineFeed : Language Char :=
  1 + mark '\n'

/-- A line feed that may end the words of a language, none of which ends in one, is the one that is
dropped. -/
theorem mem_optionalLineFeed_iff {l : Language Char} (hl : ∀ word ∈ l, '\n' ∉ word)
    {cs : List Char} : cs ∈ l * optionalLineFeed ↔ dropFinalNewline cs ∈ l := by
  rw [Language.mem_mul]
  constructor
  · rintro ⟨word, hword, ending, hending, rfl⟩
    rcases (Language.mem_add ..).1 hending with hnil | hfeed
    · rw [(Language.mem_one ending).1 hnil, List.append_nil,
        dropFinalNewline_of_not_mem (hl word hword)]
      exact hword
    · obtain rfl : ending = ['\n'] := hfeed
      unfold dropFinalNewline
      rw [if_pos (by simp), List.dropLast_concat]
      exact hword
  · intro h
    refine ⟨dropFinalNewline cs, h, ?_⟩
    rcases dropFinalNewline_cases cs with hsame | hmore
    · exact ⟨[], (Language.mem_add ..).2 (.inl rfl), by rw [hsame, List.append_nil]⟩
    · exact ⟨['\n'], (Language.mem_add ..).2 (.inr rfl), hmore.symm⟩

/-- A text of a class that has no line feed in it is on one line. -/
theorem lineFeed_not_mem {p : Char → Bool} (hp : p '\n' = false) {cs : List Char}
    (h : ∀ c ∈ cs, p c = true) : '\n' ∉ cs := by
  intro hmem
  rw [h _ hmem] at hp
  cases hp

theorem lineFeed_not_mem_user {cs : List Char} (h : cs ∈ userLanguage) : '\n' ∉ cs := by
  obtain ⟨first, _, rfl, hfirst, hrest⟩ := mem_letter_mul_iff.1 h
  obtain ⟨second, rest, rfl, hsecond, hrest⟩ := mem_letter_mul_iff.1 hrest
  refine lineFeed_not_mem (p := isUserChar) (by decide) ?_
  rw [mem_letter_kstar_iff, List.all_eq_true] at hrest
  refine List.forall_mem_cons.2 ⟨?_, List.forall_mem_cons.2 ⟨hsecond, hrest⟩⟩
  unfold isUserChar
  simp [hfirst]

theorem lineFeed_not_mem_series {cs : List Char} (h : cs ∈ seriesLanguage) : '\n' ∉ cs := by
  have hplain := isPlainSeries_iff.2 h
  unfold isPlainSeries at hplain
  split at hplain
  · rw [Bool.and_eq_true, List.all_eq_true] at hplain
    refine lineFeed_not_mem (p := isLowerOrDigit) (by decide) (List.forall_mem_cons.2 ?_)
    exact ⟨isLowerOrDigit_of_isLower hplain.1, hplain.2⟩
  · cases hplain

theorem lineFeed_not_mem_name {cs : List Char} (h : cs ∈ nameLanguage) : '\n' ∉ cs :=
  lineFeed_not_mem (by decide) (isPlainName_cases (isPlainName_iff.2 h)).1

theorem isUser_iff {cs : List Char} : isUser cs = true ↔ cs ∈ userLanguage * optionalLineFeed := by
  rw [mem_optionalLineFeed_iff fun _ => lineFeed_not_mem_user]
  exact isPlainUser_iff

theorem isSeries_iff {cs : List Char} :
    isSeries cs = true ↔ cs ∈ seriesLanguage * optionalLineFeed := by
  rw [mem_optionalLineFeed_iff fun _ => lineFeed_not_mem_series]
  exact isPlainSeries_iff

theorem isName_iff {cs : List Char} : isName cs = true ↔ cs ∈ nameLanguage * optionalLineFeed := by
  rw [mem_optionalLineFeed_iff fun _ => lineFeed_not_mem_name]
  exact isPlainName_iff

end CharmDepot
