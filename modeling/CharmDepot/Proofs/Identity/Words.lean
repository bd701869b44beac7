/-
What the words of an identity are made of.

No word holds a slash, and a series or a name begins with a lower-case letter, so that it is never
taken for a user. One line feed may end a word; it is the only character of a word that its class
does not name (`mem_cases`).

A revision is cut off a word at its last hyphen (`splitRevision?_eq_some_iff`): the digits behind it
hold no hyphen, and the name in front is on one line.
-/
import CharmDepot.Identity.Grammar
import CharmDepot.Text.Pieces
import Mathlib.Data.List.Basic
import Mathlib.Data.List.TakeWhile

namespace CharmDepot

open Text

-- ====================================================== final line feeds

theorem dropFinalNewline_cases (cs : List Char) :
    dropFinalNewline cs = cs ∨ cs = dropFinalNewline cs ++ ['\n'] := by
  unfold dropFinalNewline
  split
  · rename_i hlast
    exact .inr (List.dropLast_append_getLast? _ hlast).symm
  · exact .inl rfl

theorem mem_cases {cs : List Char} {c : Char} (h : c ∈ cs) :
    c ∈ dropFinalNewline cs ∨ c = '\n' := by
  rcases dropFinalNewline_cases cs with hsame | hmore
  · rw [hsame]
    exact .inl h
  · rw [hmore, List.mem_append, List.mem_singleton] at h
    exact h

theorem dropFinalNewline_of_not_mem {cs : List Char} (h : '\n' ∉ cs) : dropFinalNewline cs = cs :=
  if_neg fun hlast => h (List.mem_of_getLast? hlast)

/-- A text without a line feed at its end is the text, or the text is that with a line feed. -/
theorem eq_dropFinalNewline_iff {cs ds : List Char} (h : '\n' ∉ ds) :
    ds = dropFinalNewline cs ↔ cs = ds ∨ cs = ds ++ ['\n'] := by
  constructor
  · rintro rfl
    exact (dropFinalNewline_cases cs).imp Eq.symm id
  · intro hcases
    rcases hcases with rfl | rfl
    · exact (dropFinalNewline_of_not_mem h).symm
    · unfold dropFinalNewline
      rw [if_pos List.getLast?_concat, List.dropLast_concat]

/-- A text that begins in some way does so whether or not a line feed ends it. -/
theorem eq_cons_of_dropFinalNewline {cs rest : List Char} {c : Char}
    (h : dropFinalNewline cs = c :: rest) : ∃ rest', cs = c :: rest' := by
  rcases dropFinalNewline_cases cs with hsame | hmore
  · exact ⟨rest, hsame.symm.trans h⟩
  · rw [h] at hmore
    exact ⟨rest ++ ['\n'], hmore⟩

-- =============================================================== words

/-- A word that stands in an identity by itself: there is no slash in it, and it begins with a
letter. -/
structure IsWord (cs : List Char) : Prop where
  noSlash : '/' ∉ cs
  begins : ∃ first rest, cs = first :: rest ∧ isLower first = true

/-- A word is not marked as a user. -/
theorem IsWord.unmarked {cs user : List Char} (h : IsWord cs) : cs ≠ '~' :: user := by
  rintro rfl
  obtain ⟨first, rest, heq, hlower⟩ := h.begins
  obtain ⟨rfl, -⟩ := List.cons.inj heq
  exact absurd hlower (by decide)

/-- A slash is in no class of characters, and a line feed is none. -/
theorem slash_not_mem {p : Char → Bool} (hp : p '/' = false) {cs : List Char}
    (h : ∀ c ∈ dropFinalNewline cs, p c = true) : '/' ∉ cs := by
  intro hmem
  rcases mem_cases hmem with hmem | hnew
  · exact absurd (h _ hmem) (by simp [hp])
  · exact absurd hnew (by decide)

theorem noSlash_of_isUser {cs : List Char} (h : isUser cs = true) : '/' ∉ cs := by
  unfold isUser isPlainUser at h
  split at h
  · rename_i first second rest hcs
    rw [Bool.and_eq_true, List.all_eq_true] at h
    refine slash_not_mem (p := isUserChar) (by decide) fun c hc => ?_
    rw [hcs, List.mem_cons] at hc
    rcases hc with rfl | hc
    · unfold isUserChar
      simp [h.1]
    · exact h.2 c hc
  · cases h

theorem isWord_of_isSeries {cs : List Char} (h : isSeries cs = true) : IsWord cs := by
  unfold isSeries isPlainSeries at h
  split at h
  · rename_i first rest hcs
    rw [Bool.and_eq_true, List.all_eq_true] at h
    obtain ⟨rest', heq⟩ := eq_cons_of_dropFinalNewline hcs
    refine ⟨slash_not_mem (p := isLowerOrDigit) (by decide) fun c hc => ?_, first, rest', heq, h.1⟩
    rw [hcs, List.mem_cons] at hc
    rcases hc with rfl | hc
    · unfold isLowerOrDigit
      simp [h.1]
    · exact h.2 c hc
  · cases h

/-- A name without a line feed consists of hyphens, lower-case letters and digits, the first of
which is a letter. -/
theorem isPlainName_cases {cs : List Char} (h : isPlainName cs = true) :
    (∀ c ∈ cs, (isLowerOrDigit c || c == '-') = true)
      ∧ ∃ first rest, cs = first :: rest ∧ isLower first = true := by
  unfold isPlainName at h
  split at h
  · rename_i part parts hpieces
    rw [Bool.and_eq_true, List.all_eq_true] at h
    obtain ⟨first, rest, rfl, hfirst, hrest⟩ : ∃ first rest, part = first :: rest
        ∧ isLower first = true ∧ ∀ c ∈ rest, isLowerOrDigit c = true := by
      have hpart := h.1
      unfold isFirstPart at hpart
      split at hpart
      · rw [Bool.and_eq_true, List.all_eq_true] at hpart
        exact ⟨_, _, rfl, hpart.1, hpart.2⟩
      · cases hpart
    have hjoin := joinPieces_pieces '-' cs
    rw [hpieces] at hjoin
    constructor
    · intro c hc
      rw [← hjoin] at hc
      rw [Bool.or_eq_true, beq_iff_eq]
      rcases mem_joinPieces hc with hsep | ⟨piece, hpiece, hc⟩
      · exact .inr hsep
      · left
        rcases List.mem_cons.1 hpiece with rfl | hpiece
        · rcases List.mem_cons.1 hc with rfl | hc
          · unfold isLowerOrDigit
            simp [hfirst]
          · exact hrest c hc
        · have hlater := h.2 piece hpiece
          unfold isLaterPart at hlater
          rw [Bool.and_eq_true, List.all_eq_true] at hlater
          exact hlater.1 c hc
    · rw [← hjoin]
      cases parts with
      | nil => exact ⟨first, rest, rfl, hfirst⟩
      | cons next parts => exact ⟨first, rest ++ '-' :: joinPieces '-' (next :: parts), rfl, hfirst⟩
  · cases h

theorem isWord_of_isName {cs : List Char} (h : isName cs = true) : IsWord cs := by
  obtain ⟨hall, first, rest, hcs, hlower⟩ := isPlainName_cases h
  obtain ⟨rest', heq⟩ := eq_cons_of_dropFinalNewline hcs
  exact ⟨slash_not_mem (by decide) hall, first, rest', heq, hlower⟩

-- ============================================================ revisions

theorem isDecimalDigit_of_isLower {c : Char} (h : isLower c = true) : isDecimalDigit c = false := by
  have hall : ∀ n < 123, 97 ≤ n →
      (digitZeros.find? fun z => z ≤ n && n < z + 10) = none := by decide
  unfold isLower at h
  rw [Bool.and_eq_true, decide_eq_true_eq, decide_eq_true_eq] at h
  have hlow : 97 ≤ c.toNat := h.1
  have hhigh : c.toNat ≤ 122 := h.2
  unfold isDecimalDigit digitValue?
  rw [hall c.toNat (by omega) hlow]
  rfl

/-- Where a word is cut into a name and the digits of a revision: at its last hyphen. -/
theorem splitRevision?_eq_some_iff {word name digits : List Char} :
    splitRevision? word = some (name, digits) ↔
      dropFinalNewline word = name ++ '-' :: digits ∧ digits ≠ []
        ∧ (∀ c ∈ digits, isDecimalDigit c = true) ∧ name ≠ [] ∧ '\n' ∉ name := by
  unfold splitRevision?
  dsimp only
  constructor
  · intro h
    split at h
    · rename_i front hfront
      split at h
      · cases h
      · rename_i hsound
        simp only [Bool.or_eq_true, not_or, List.isEmpty_iff, List.reverse_eq_nil_iff,
          List.contains_iff_mem] at hsound
        obtain ⟨rfl, rfl⟩ := Prod.mk.inj (Option.some.inj h)
        refine ⟨?_, by simpa using hsound.1.1, fun c hc => ?_, by simpa using hsound.1.2,
          by simpa using hsound.2⟩
        · have hsplit : (dropFinalNewline word).reverse.takeWhile isDecimalDigit ++ '-' :: front
              = (dropFinalNewline word).reverse := by
            rw [← hfront]
            exact List.takeWhile_append_dropWhile
          have hword := congrArg List.reverse hsplit
          simpa using hword.symm
        · rw [List.mem_reverse] at hc
          exact List.mem_takeWhile_imp hc
    · cases h
  · intro h
    obtain ⟨hword, hdigits, hall, hname, hline⟩ := h
    have hback : ∀ c ∈ digits.reverse, isDecimalDigit c = true := by
      intro c hc
      exact hall c (List.mem_reverse.1 hc)
    rw [hword, List.reverse_append, List.reverse_cons, List.append_assoc,
      List.takeWhile_append_of_pos hback, List.dropWhile_append_of_pos hback]
    have hhyphen : ¬ isDecimalDigit '-' = true := by
      rw [isDecimalDigit_hyphen]
      decide
    rw [List.singleton_append, List.takeWhile_cons_of_neg hhyphen,
      List.dropWhile_cons_of_neg hhyphen, List.append_nil]
    simp [hdigits, hname, hline]

/-- No name ends in a revision: what follows its last hyphen holds a letter. -/
theorem splitRevision?_of_isName {cs : List Char} (h : isName cs = true) :
    splitRevision? cs = none := by
  rw [Option.eq_none_iff_forall_ne_some]
  rintro ⟨name, digits⟩ hsplit
  obtain ⟨hcs, -, hdigits, -, -⟩ := splitRevision?_eq_some_iff.1 hsplit
  have hhyphen : '-' ∉ digits := by
    intro hmem
    have := hdigits _ hmem
    rw [isDecimalDigit_hyphen] at this
    cases this
  unfold isName isPlainName at h
  rw [hcs, pieces_append_pieces, pieces_of_not_mem hhyphen] at h
  cases hpieces : pieces '-' name with
  | nil => exact absurd hpieces (piecesBy_ne_nil _ _)
  | cons first rest =>
    rw [hpieces, List.cons_append] at h
    dsimp only at h
    rw [Bool.and_eq_true, List.all_eq_true] at h
    have hlater := h.2 digits (List.mem_append_right _ (List.mem_singleton_self _))
    unfold isLaterPart at hlater
    rw [Bool.and_eq_true, List.any_eq_true] at hlater
    obtain ⟨c, hc, hlower⟩ := hlater.2
    have := hdigits c hc
    rw [isDecimalDigit_of_isLower hlower] at this
    cases this

end CharmDepot
