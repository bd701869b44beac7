/-
Identities put at another revision, written and read back.

The name of an identity was read beside some revision or none, and stands beside another one when
the identity is written again. It is read there as the same name if it is on one line: no name ends
in a revision, so the last hyphen is that of the revision that was put in, and without a revision
there is nothing to cut off (`IdentityParts.Canonical.atRevision`).

# Names that end in a line feed

One line feed may end a text, and where no revision stands in front of it, it is kept in the name. A
revision that is put behind such a name leaves the line feed in the middle of the last word, where
neither a name nor a revision has one. So what is written is not read again
(`IdentityParts.parse_chars_atRevision`), and `withRevision_read` says that there is no other
identity of which this is true.
-/
import CharmDepot.Proofs.Identity.Spelling

namespace CharmDepot

open Number Text

namespace IdentityParts

variable {p : IdentityParts} {n : Int}

-- =========================================================== line feeds

/-- A last word is refused if it has a line feed that does not end it. -/
theorem parseLast_of_lineFeed (text : String) {word : List Char}
    (h : '\n' ∈ dropFinalNewline word) :
    parseLast text word = .error (.identity (.invalidName text)) := by
  have hsplit : splitRevision? word = none := by
    rw [Option.eq_none_iff_forall_ne_some]
    rintro ⟨name, digits⟩ hsplit
    obtain ⟨hword, -, hdigits, -, hline⟩ := splitRevision?_eq_some_iff.1 hsplit
    rw [hword, List.mem_append, List.mem_cons] at h
    rcases h with hmem | hhyphen | hmem
    · exact hline hmem
    · exact absurd hhyphen (by decide)
    · exact absurd (hdigits _ hmem) (by decide)
  have hname : isName word = false := by
    rw [← Bool.not_eq_true]
    intro hname
    exact lineFeed_not_mem_name (isPlainName_iff.1 hname) h
  unfold parseLast
  rw [hsplit]
  dsimp only
  rw [hname, if_neg Bool.false_ne_true]

/-- In front of a revision, a line feed of the name is not the end of the word. -/
theorem lineFeed_mem_lastWord (hset : 0 ≤ n) (hline : '\n' ∈ p.name) :
    '\n' ∈ dropFinalNewline (p.atRevision n).lastWord := by
  have hword : (p.atRevision n).lastWord = p.name ++ '-' :: decimal n.toNat := if_pos hset
  rw [hword, dropFinalNewline_append _ (List.cons_ne_nil _ _)]
  exact List.mem_append_left _ hline

/-- What is written of parts that were read, put at another revision, is read as these parts, unless
there is a line feed in front of the revision. -/
theorem parse_chars_atRevision (h : p.Canonical) (hlow : -1 ≤ n)
    (hshort : n.natAbs < Nat.pow 10 maxDigits) :
    parse (String.ofList (p.atRevision n).chars) = if 0 ≤ n ∧ '\n' ∈ p.name
      then .error (.identity (.invalidName (String.ofList (p.atRevision n).chars)))
      else .ok (p.atRevision n) := by
  split
  · rename_i hline
    rw [parse_chars_eq (h.toFramed.atRevision n),
      parseLast_of_lineFeed _ (lineFeed_mem_lastWord hline.1 hline.2)]
    rfl
  · rename_i hline
    exact parse_chars (h.atRevision hlow hshort (not_and.1 hline))

end IdentityParts

-- =========================================================== identities

/-- **Identities at another revision.** An identity that was read can be put at any revision that is
not below minus one, and is written there if the revision has at most 4300 digits. What is written
is read as that identity, unless a revision stands behind a name with a line feed; then it is
refused for the name. -/
theorem withRevision_read {n : Int} (hlow : -1 ≤ n) (hshort : n.natAbs < Nat.pow 10 maxDigits) :
    (∀ text u, Url.parse text = .ok u →
        ∃ v, u.withRevision (.int n) = .ok v ∧ (Identity.url v).written = .ok v.toString
          ∧ Url.parse v.toString = if 0 ≤ n ∧ '\n' ∈ u.name.toList
            then .error (.identity (.invalidName v.toString)) else .ok v)
      ∧ ∀ text r, Reference.parse text = .ok r →
        (Identity.reference (r.withRevision (.int n))).written
            = .ok (r.withRevision (.int n)).toString
          ∧ Reference.parse (r.withRevision (.int n)).toString
            = if 0 ≤ n ∧ '\n' ∈ r.name.toList
              then .error (.identity (.invalidName (r.withRevision (.int n)).toString))
              else .ok (r.withRevision (.int n)) := by
  constructor
  · intro text u hu
    obtain ⟨p, hp, hseries, rfl⟩ := Url.parse_eq_ok_iff.1 hu
    have hcanonical := IdentityParts.canonical_of_parse hp
    refine ⟨(p.atRevision n).url,
      IdentityParts.make_eq_ok (hcanonical.toFramed.atRevision n) hseries hlow,
      Identity.written_int rfl hshort, ?_⟩
    have hname : p.url.name.toList = p.name := String.toList_ofList
    rw [IdentityParts.toString_url, Url.parse_eq, hname,
      IdentityParts.parse_chars_atRevision hcanonical hlow hshort]
    split
    · rfl
    · exact if_neg (mt List.isEmpty_iff.1 hseries)
  · intro text r hr
    obtain ⟨p, hp, rfl⟩ := Reference.parse_eq_ok_iff.1 hr
    refine ⟨Identity.written_int rfl hshort, ?_⟩
    have hname : p.reference.name.toList = p.name := String.toList_ofList
    have hmoved : p.reference.withRevision (.int n) = (p.atRevision n).reference := rfl
    rw [hmoved, IdentityParts.toString_reference, Reference.parse, hname,
      IdentityParts.parse_chars_atRevision (IdentityParts.canonical_of_parse hp) hlow hshort]
    split
    · rfl
    · rfl

/-- An identity with a user gets another revision and is read there; the line feed behind the one it
had is gone. One without a revision keeps the line feed in its name, and is read no more. -/
theorem withRevision_read_lineFeed :
    (∃ u v, Url.parse "~bob/precise/word-press-7\n" = .ok u ∧ u.withRevision (.int 42) = .ok v
        ∧ v.toString = "cs:~bob/precise/word-press-42" ∧ Url.parse v.toString = .ok v)
      ∧ ∃ u v, Url.parse "cs:precise/w\n" = .ok u ∧ u.withRevision (.int 3) = .ok v
        ∧ v.toString = "cs:precise/w\n-3"
        ∧ Url.parse v.toString = .error (.identity (.invalidName v.toString)) := by
  have hshort {n : Nat} (hn : n ≤ maxDigits) : (n : Int).natAbs < Nat.pow 10 maxDigits :=
    lt_pow_ten_of_le hn
  have hwritten {u v : Url} {n : Int} (hv : u.withRevision (.int n) = .ok v) :
      v.toString = ({ u with revision := .int n } : Url).toString :=
    congrArg Url.toString (Url.withRevision_eq_ok hv).2
  constructor
  · have hu : Url.parse "~bob/precise/word-press-7\n"
        = .ok ⟨"cs", "bob", "precise", "word-press", .int 7⟩ :=
      Url.parse_eq_ok_iff.2 ⟨⟨"cs".toList, "bob".toList, "precise".toList, "word-press".toList, 7⟩,
        rfl, by decide, rfl⟩
    obtain ⟨v, hv, -, hread⟩ :=
      (withRevision_read (n := 42) (by decide) (hshort (by decide))).1 _ _ hu
    exact ⟨_, v, hu, hv, (hwritten hv).trans (by decide +kernel), hread.trans (if_neg (by decide))⟩
  · have hu : Url.parse "cs:precise/w\n" = .ok ⟨"cs", "", "precise", "w\n", .int (-1)⟩ :=
      Url.parse_eq_ok_iff.2 ⟨⟨"cs".toList, [], "precise".toList, "w\n".toList, -1⟩, rfl, by decide,
        rfl⟩
    obtain ⟨v, hv, -, hread⟩ :=
      (withRevision_read (n := 3) (by decide) (hshort (by decide))).1 _ _ hu
    exact ⟨_, v, hu, hv, (hwritten hv).trans (by decide +kernel), hread.trans (if_pos (by decide))⟩

end CharmDepot
