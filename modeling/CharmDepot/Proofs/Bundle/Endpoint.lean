/-
The language of endpoints.

`endpointLanguage` spells the endpoints out as a pattern: the name of a service, a colon, and the
name of a relation. The reader is exact for it, a line feed at the end apart, and divides each word
in the one way there is (`parse_divides`): no name holds a colon.

# What is refused

Whatever else there is, a text or any other value, is refused as no endpoint, in words that show it.
That takes words. A value that has none ends in the fault of putting it in words, which is none of
this library (`parse_unwritten`); modest values always have them.
-/
import CharmDepot.Proofs.Bundle.Report
import CharmDepot.Proofs.Identity.Language

namespace CharmDepot

open Outcome Text
open scoped Computability

-- ============================================================ languages

/-- Whether a character stands between the parts of a relation's name. -/
def isDivider (c : Char) : Bool :=
  c == '-' || c == '_'

/-- Names of relations: a lower-case letter, lower-case letters and digits, and any number of later
parts, each one or more of these, after a hyphen or an underscore. -/
def relationLanguage : Language Char :=
  letter isLower * (letter isLowerOrDigit)∗
    * (letter isDivider * (letter isLowerOrDigit * (letter isLowerOrDigit)∗))∗

/-- Endpoints: a service and a relation, with a colon between them. -/
def endpointLanguage : Language Char :=
  nameLanguage * (mark ':' * relationLanguage)

theorem isDivider_of_isLowerOrDigit {c : Char} (h : isLowerOrDigit c = true) :
    isDivider c = false := by
  unfold isDivider
  rw [Bool.or_eq_false_iff, beq_eq_false_iff_ne, beq_eq_false_iff_ne]
  exact ⟨ne_of_isLowerOrDigit h (by decide), ne_of_isLowerOrDigit h (by decide)⟩

/-- A later part of a relation's name is not empty. -/
theorem isLaterWord_iff {cs : List Char} :
    (!cs.isEmpty && cs.all isLowerOrDigit) = true
      ↔ cs ∈ letter isLowerOrDigit * (letter isLowerOrDigit)∗ := by
  rw [mem_letter_mul_iff]
  cases cs with
  | nil => simp
  | cons c rest => simp [mem_letter_kstar_iff]

theorem isRelationName_iff {cs : List Char} : isRelationName cs = true ↔ cs ∈ relationLanguage := by
  have hpieces : piecesBy (fun c => c == '-' || c == '_') cs = piecesBy isDivider cs := rfl
  unfold isRelationName relationLanguage
  rw [hpieces, mem_separated_iff]
  · cases piecesBy isDivider cs with
    | nil => simp
    | cons word words =>
      simp only [Bool.and_eq_true, List.all_eq_true, ← isFirstPart_iff, ← isLaterWord_iff,
        List.cons.injEq]
      constructor
      · intro h
        exact ⟨word, words, ⟨rfl, rfl⟩, h⟩
      · intro h
        obtain ⟨_, _, ⟨rfl, rfl⟩, h⟩ := h
        exact h
  · exact fun word hword =>
      free_of_all (fun _ => isDivider_of_isLowerOrDigit) (all_of_firstPart hword)
  · exact fun word hword => free_of_all (fun _ => isDivider_of_isLowerOrDigit)
      (Bool.and_eq_true_iff.1 (isLaterWord_iff.2 hword)).2

/-- The name of a relation consists of letters, digits, hyphens and underscores. -/
theorem mem_of_mem_relationLanguage {cs : List Char} (h : cs ∈ relationLanguage) {c : Char}
    (hc : c ∈ cs) : (isLowerOrDigit c || isDivider c) = true := by
  obtain ⟨first, hfirst, _, hrest, rfl⟩ := Language.mem_mul.1 h
  obtain ⟨parts, rfl, hparts⟩ := Language.mem_kstar.1 hrest
  rw [Bool.or_eq_true]
  rcases List.mem_append.1 hc with hc | hc
  · exact .inl (List.all_eq_true.1 (all_of_firstPart hfirst) c hc)
  · obtain ⟨part, hpart, hc⟩ := List.mem_flatten.1 hc
    obtain ⟨divider, word, rfl, hdivider, hword⟩ := mem_letter_mul_iff.1 (hparts part hpart)
    rcases List.mem_cons.1 hc with rfl | hc
    · exact .inr hdivider
    · have hall := (Bool.and_eq_true_iff.1 (isLaterWord_iff.2 hword)).2
      exact .inl (List.all_eq_true.1 hall c hc)

theorem lineFeed_not_mem_endpoint {cs : List Char} (h : cs ∈ endpointLanguage) : '\n' ∉ cs := by
  obtain ⟨name, hname, _, hrest, rfl⟩ := Language.mem_mul.1 h
  obtain ⟨relation, rfl, hrelation⟩ := mem_mark_mul_iff.1 hrest
  rw [List.mem_append, List.mem_cons, not_or, not_or]
  refine ⟨lineFeed_not_mem_name hname, by decide, fun hmem => ?_⟩
  exact absurd (mem_of_mem_relationLanguage hrelation hmem) (by decide)

namespace Endpoint

variable {e e' : Endpoint} {v : Value}

/-- Two names that make an endpoint. -/
structure Sound (e : Endpoint) : Prop where
  service : e.service.toList ∈ nameLanguage
  relation : e.relation.toList ∈ relationLanguage

theorem Sound.noColon (h : e.Sound) : ':' ∉ e.service.toList :=
  not_mem_of_isPlainName (isPlainName_iff.2 h.service) (by decide)

/-- The written form of an endpoint is cut at its only colon that ends a name. -/
theorem Sound.cutFirst?_chars (h : e.Sound) :
    cutFirst? ':' e.chars = some (e.service.toList, e.relation.toList) :=
  cutFirst?_append h.noColon _

theorem Sound.eq_of_chars (h : e.Sound) (h' : e'.Sound) (hchars : e.chars = e'.chars) : e = e' := by
  have hcut := h.cutFirst?_chars
  rw [hchars, h'.cutFirst?_chars] at hcut
  obtain ⟨hservice, hrelation⟩ := Prod.mk.inj (Option.some.inj hcut)
  cases e with
  | mk service relation =>
    obtain rfl : e'.service = service := String.toList_inj.1 hservice
    obtain rfl : e'.relation = relation := String.toList_inj.1 hrelation
    rfl

/-- The words of the language are the written forms of endpoints. -/
theorem mem_endpointLanguage_iff {cs : List Char} :
    cs ∈ endpointLanguage ↔ ∃ e : Endpoint, e.Sound ∧ e.chars = cs := by
  unfold endpointLanguage
  rw [Language.mem_mul]
  constructor
  · intro h
    obtain ⟨service, hservice, _, hrest, rfl⟩ := h
    obtain ⟨relation, rfl, hrelation⟩ := mem_mark_mul_iff.1 hrest
    refine ⟨⟨String.ofList service, String.ofList relation⟩, ⟨?_, ?_⟩, ?_⟩
    · rw [String.toList_ofList]
      exact hservice
    · rw [String.toList_ofList]
      exact hrelation
    · rw [chars, String.toList_ofList, String.toList_ofList]
  · intro h
    obtain ⟨e, he, rfl⟩ := h
    exact ⟨_, he.service, _, mem_mark_mul_iff.2 ⟨_, rfl, he.relation⟩, rfl⟩

-- ============================================================ the reader

theorem ofText?_eq_some_iff {s : String} :
    ofText? s = some e ↔ e.Sound ∧ e.chars = dropFinalNewline s.toList := by
  unfold ofText?
  constructor
  · intro h
    split at h
    · rename_i service relation hcut
      split at h
      · rename_i hnames
        obtain ⟨hservice, hrelation⟩ := Bool.and_eq_true_iff.1 hnames
        obtain rfl := Option.some.inj h
        obtain ⟨hchars, -⟩ := cutFirst?_eq_some_iff.1 hcut
        refine ⟨⟨?_, ?_⟩, ?_⟩
        · rw [String.toList_ofList, ← isPlainName_iff]
          exact hservice
        · rw [String.toList_ofList, ← isRelationName_iff]
          exact hrelation
        · rw [chars, String.toList_ofList, String.toList_ofList, hchars]
      · cases h
    · cases h
  · intro h
    obtain ⟨hsound, hchars⟩ := h
    rw [← hchars, hsound.cutFirst?_chars]
    simp [isPlainName_iff.2 hsound.service, isRelationName_iff.2 hsound.relation]

/-- What is read is sound, and is read from its written form only, a line feed at the end apart. -/
theorem parse_eq_ok_iff :
    parse v = .ok e ↔ e.Sound ∧ ∃ s, v = .text s ∧ e.chars = dropFinalNewline s.toList := by
  constructor
  · intro h
    obtain ⟨s, rfl⟩ := Value.isText_iff.1 (Deployment.isText_of_endpoint h)
    unfold parse at h
    dsimp only at h
    split at h
    · rename_i found hfound
      obtain rfl := Except.ok.inj h
      obtain ⟨hsound, hchars⟩ := ofText?_eq_some_iff.1 hfound
      exact ⟨hsound, s, rfl, hchars⟩
    · cases h
  · intro h
    obtain ⟨hsound, s, rfl, hchars⟩ := h
    unfold parse
    dsimp only
    rw [ofText?_eq_some_iff.2 ⟨hsound, hchars⟩]

theorem exists_parse_iff :
    (∃ e, parse v = .ok e) ↔
      ∃ s, v = .text s ∧ s.toList ∈ endpointLanguage * optionalLineFeed := by
  simp only [mem_optionalLineFeed_iff fun _ => lineFeed_not_mem_endpoint, mem_endpointLanguage_iff,
    parse_eq_ok_iff]
  constructor
  · intro h
    obtain ⟨e, hsound, s, rfl, hchars⟩ := h
    exact ⟨s, rfl, e, hsound, hchars⟩
  · intro h
    obtain ⟨s, rfl, e, hsound, hchars⟩ := h
    exact ⟨e, hsound, s, rfl, hchars⟩

theorem Sound.eq_dropFinalNewline_iff (h : e.Sound) {cs : List Char} :
    e.chars = dropFinalNewline cs ↔ cs = e.chars ∨ cs = e.chars ++ ['\n'] :=
  CharmDepot.eq_dropFinalNewline_iff
    (lineFeed_not_mem_endpoint (mem_endpointLanguage_iff.2 ⟨e, h, rfl⟩))

/-- What is no endpoint is refused in the words that show it, if it has any. -/
theorem parse_refused (h : ¬ ∃ e, parse v = .ok e) :
    parse v = v.shown.bind fun words => .error (.relation words) :=
  (Deployment.parse_endpoint_cases v).resolve_left h

/-- A text has words, and so has whatever is read. -/
theorem isText_eq_false_of_shown {f : Fault} (h : v.shown = .error f) : v.isText = false := by
  cases v with
  | text s =>
    rw [shown_text] at h
    cases h
  | _ => rfl

/-- **Endpoints are divided in one way.** A value is read exactly if it is a text of the language,
with or without a line feed at its end, and gives the two names that the text is made of: a service
and a relation with a colon between them are read as these two, and the text of an endpoint is the
text of no other. A value that is no endpoint is refused as such, in the words that show it. If
there are no such words, then it ends in the fault of putting it in words, which is none of this
library; that is no text, and no modest value. -/
theorem parse_divides (v : Value) :
    ((∃ e, parse v = .ok e) ↔
        ∃ s, v = .text s ∧ s.toList ∈ endpointLanguage * optionalLineFeed)
      ∧ (∀ e, parse v = .ok e ↔ e.Sound
        ∧ ∃ s, v = .text s ∧ (s.toList = e.chars ∨ s.toList = e.chars ++ ['\n']))
      ∧ (∀ service relation : String, service.toList ∈ nameLanguage →
        relation.toList ∈ relationLanguage → v = .text (service ++ ":" ++ relation) →
        parse v = .ok ⟨service, relation⟩)
      ∧ (∀ e e' : Endpoint, e.Sound → e'.Sound → v = .text (String.ofList e.chars) →
        v = .text (String.ofList e'.chars) → e = e')
      ∧ ((¬ ∃ s, v = .text s ∧ s.toList ∈ endpointLanguage * optionalLineFeed) →
        (∀ words, v.shown = .ok words → parse v = .error (.relation words))
        ∧ ∀ f, v.shown = .error f → parse v = .error f ∧ f.IsForeign ∧ v.isText = false)
      ∧ (Value.Modest Value.writtenLevels v → ∃ words, v.shown = .ok words) := by
  refine ⟨exists_parse_iff, fun e => ?_, fun service relation hservice hrelation hv => ?_,
    fun e e' he he' hv hv' => ?_, fun hnot => ?_, Value.exists_shown_of_modest⟩
  · rw [parse_eq_ok_iff]
    refine and_congr_right fun hsound => exists_congr fun s => and_congr_right fun _ => ?_
    exact hsound.eq_dropFinalNewline_iff
  · have hsound : (⟨service, relation⟩ : Endpoint).Sound := ⟨hservice, hrelation⟩
    refine parse_eq_ok_iff.2 ⟨hsound, _, hv, hsound.eq_dropFinalNewline_iff.2 (.inl ?_)⟩
    simp [chars]
  · rw [hv] at hv'
    exact he.eq_of_chars he' (String.ofList_injective (Value.text.inj hv'))
  · rw [← exists_parse_iff] at hnot
    rw [parse_refused hnot]
    constructor
    · intro words hwords
      rw [hwords]
      rfl
    · intro f hf
      rw [hf]
      exact ⟨rfl, Value.shown_fails v f hf, isText_eq_false_of_shown hf⟩

/-- Hyphens and underscores part the names of an endpoint, and a list of one endpoint is none. -/
theorem parse_divides_parted :
    ("my-sql2".toList ∈ nameLanguage ∧ "db_2-x".toList ∈ relationLanguage
        ∧ parse (.text ("my-sql2" ++ ":" ++ "db_2-x")) = .ok ⟨"my-sql2", "db_2-x"⟩)
      ∧ ∃ words, (Value.list [.text "a:b"]).shown = .ok words
        ∧ parse (.list [.text "a:b"]) = .error (.relation words) := by
  have hname : "my-sql2".toList ∈ nameLanguage := isPlainName_iff.1 (by decide)
  have hrelation : "db_2-x".toList ∈ relationLanguage := isRelationName_iff.1 (by decide)
  have hmodest : Value.Modest Value.writtenLevels (.list [.text "a:b"]) := by
    refine .list fun v hv => ?_
    obtain rfl := List.mem_singleton.1 hv
    exact .plain rfl nofun
  obtain ⟨-, -, hread, -, -, -⟩ := parse_divides (.text ("my-sql2" ++ ":" ++ "db_2-x"))
  obtain ⟨-, -, -, -, hrefused, hworded⟩ := parse_divides (.list [.text "a:b"])
  obtain ⟨words, hwords⟩ := hworded hmodest
  refine ⟨⟨hname, hrelation, hread _ _ hname hrelation rfl⟩, words, hwords, ?_⟩
  apply (hrefused _).1 words hwords
  intro h
  obtain ⟨_, htext, -⟩ := h
  cases htext

/-- An integer of more than 4300 digits is no endpoint, and is not refused as such. -/
theorem parse_unwritten :
    (∀ s, Value.int (16 ^ Number.maxDigits) ≠ .text s)
      ∧ parse (.int (16 ^ Number.maxDigits)) = .error (.value .tooLongToWrite)
      ∧ (Fault.value .tooLongToWrite).kind? ≠ some .malformedRelation := by
  refine ⟨nofun, ?_, nofun⟩
  have hnone : ¬ ∃ e, parse (.int (16 ^ Number.maxDigits)) = .ok e := by
    rw [exists_parse_iff]
    intro h
    obtain ⟨_, htext, -⟩ := h
    cases htext
  rw [parse_refused hnone, Value.shown_int_of_long (Value.pow_le_natAbs_pow _)]
  rfl

end Endpoint

end CharmDepot
