/-
The language of placement directives.

`directiveLanguage` spells a directive out as a pattern: perhaps the type of a container and a
colon, and then the name of a new machine, the number of a machine, or a service that is not called
so with or without the number of a unit. What is read of a directive is `Sound`, and its written
form is the directive, less a line feed at its end (`Placement.parse_eq_ok_iff`). So a text is read
exactly if it is a word of the language, unless its unit has more digits than are read.

# Four fields

`Placement.Fields` is a directive as callers see it, with an empty text for a part that is not there
and minus one for no unit. Not every four fields make a directive; those that do are `Fields.Sound`,
and each of them is what is read from its own written form (`Placement.parse_exact`).
-/
import CharmDepot.Proofs.Bundle.Report
import CharmDepot.Proofs.Identity.Language
import CharmDepot.Proofs.Text.Numeral

namespace CharmDepot

open Number Outcome Text
open scoped Computability

-- ============================================================= numerals

/-- Numerals: a zero, or a digit that is none and any number of digits. -/
def numeralLanguage : Language Char :=
  mark '0' + letter (fun c => '1' ≤ c && c ≤ '9') * (letter Char.isDigit)∗

theorem isNumeral_iff {cs : List Char} : IsNumeral cs ↔ cs ∈ numeralLanguage := by
  unfold IsNumeral numeralLanguage
  rw [Language.mem_add, mem_letter_mul_iff]
  refine or_congr Iff.rfl (exists_congr fun first => exists_congr fun rest => ?_)
  simp only [mem_letter_kstar_iff, List.all_eq_true, isDigit_iff, Bool.and_eq_true,
    decide_eq_true_eq, and_assoc]

namespace IsNumeral

variable {cs : List Char}

theorem isDigit_of_mem (h : IsNumeral cs) : ∀ c ∈ cs, c.isDigit = true := by
  rcases h with rfl | ⟨first, rest, rfl, h1, h9, hrest⟩
  · exact List.forall_mem_singleton.2 rfl
  · rw [List.forall_mem_cons]
    exact ⟨(isDigit_iff first).2 ⟨Char.le_trans (by decide) h1, h9⟩,
      fun c hc => (isDigit_iff c).2 (hrest c hc)⟩

theorem ne_nil (h : IsNumeral cs) : cs ≠ [] := by
  rintro rfl
  rcases h with h | ⟨_, _, h, -⟩
  · cases h
  · cases h

/-- A numeral is the decimal form of its value. -/
theorem decimal_decimalValue (h : IsNumeral cs) : decimal (decimalValue cs) = cs := by
  have hdigits := h.isDigit_of_mem
  rcases h with rfl | ⟨first, rest, rfl, h1, -, -⟩
  · exact decimal_zero
  · rw [List.forall_mem_cons] at hdigits
    exact (decimal_decimalValue_cons hdigits.1 h1 hdigits.2).1

/-- Numerals are no names: they begin with a digit. -/
theorem isPlainName_eq_false (h : IsNumeral cs) : isPlainName cs = false := by
  rw [← Bool.not_eq_true]
  intro hname
  obtain ⟨first, rest, rfl, hlower⟩ := (isPlainName_cases hname).2
  have hdigit := digitValue?_of_isDigit (h.isDigit_of_mem first List.mem_cons_self)
  have hother := isDecimalDigit_of_isLower hlower
  rw [isDecimalDigit, hdigit] at hother
  cases hother

end IsNumeral

/-- The decimal form of a number is a numeral. -/
theorem isNumeral_decimal (n : Nat) : IsNumeral (decimal n) := by
  by_cases hn : n = 0
  · exact .inl (by rw [hn, decimal_zero])
  · obtain ⟨first, rest, hchars, hfirst⟩ := exists_decimal_eq_cons n
    have hdigit := isDigit_of_mem_decimal n
    have hhead := head?_decimal hn
    rw [hchars, List.forall_mem_cons] at hdigit
    rw [hchars, List.head?_cons, Ne, Option.some.injEq] at hhead
    obtain ⟨h0, h9⟩ := (isDigit_iff first).1 hfirst
    refine .inr ⟨first, rest, hchars, ?_, h9, fun c hc => (isDigit_iff c).1 (hdigit.2 c hc)⟩
    -- a digit that is not zero is at least one
    have h48 : 48 ≤ first.toNat := UInt32.le_iff_toNat_le.1 h0
    have hne : first.toNat ≠ 48 := fun heq => hhead (Char.toNat_inj.1 heq)
    exact UInt32.le_iff_toNat_le.2 (show 49 ≤ first.toNat by omega)

-- ============================================================= pattern

/-- Types of containers: one or more lower-case letters. -/
def containerLanguage : Language Char :=
  letter isLower * (letter isLower)∗

/-- Services that a directive can point at: names but that of a new machine. -/
def serviceLanguage : Language Char :=
  {cs | cs ∈ nameLanguage ∧ cs ≠ newMachineName}

/-- What a directive points at: a new machine, a machine, or a service and perhaps a unit of it. -/
def targetLanguage : Language Char :=
  {newMachineName} + numeralLanguage + serviceLanguage * (1 + mark '/' * numeralLanguage)

/-- Directives: perhaps a container, and what the directive points at. -/
def directiveLanguage : Language Char :=
  (1 + containerLanguage * mark ':') * targetLanguage

theorem mem_containerLanguage_iff {cs : List Char} :
    cs ∈ containerLanguage ↔ cs ≠ [] ∧ ∀ c ∈ cs, isLower c = true := by
  unfold containerLanguage
  simp only [mem_letter_mul_iff, mem_letter_kstar_iff, List.all_eq_true]
  constructor
  · intro h
    obtain ⟨first, rest, rfl, hfirst, hrest⟩ := h
    exact ⟨by simp, List.forall_mem_cons.2 ⟨hfirst, hrest⟩⟩
  · intro h
    obtain ⟨first, rest, rfl⟩ := List.exists_cons_of_ne_nil h.1
    obtain ⟨hfirst, hrest⟩ := List.forall_mem_cons.1 h.2
    exact ⟨first, rest, rfl, hfirst, hrest⟩

theorem mem_serviceLanguage_iff {cs : List Char} :
    cs ∈ serviceLanguage ↔ isPlainName cs = true ∧ cs ≠ newMachineName := by
  rw [isPlainName_iff]
  rfl

theorem ne_nil_of_mem_service {cs : List Char} (h : cs ∈ serviceLanguage) : cs ≠ [] := by
  rintro rfl
  cases (mem_serviceLanguage_iff.1 h).1

theorem isContainer_iff {cs : List Char} :
    IsContainer cs ↔ cs ∈ 1 + containerLanguage * mark ':' := by
  unfold IsContainer
  rw [Language.mem_add, Language.mem_mul]
  refine or_congr (Language.mem_one cs).symm ?_
  constructor
  · intro h
    obtain ⟨kind, hne, hlower, rfl⟩ := h
    exact ⟨kind, mem_containerLanguage_iff.2 ⟨hne, hlower⟩, [':'], rfl, rfl⟩
  · intro h
    obtain ⟨kind, hkind, _, rfl, rfl⟩ := h
    obtain ⟨hne, hlower⟩ := mem_containerLanguage_iff.1 hkind
    exact ⟨kind, hne, hlower, rfl⟩

theorem mem_targetLanguage_iff {cs : List Char} :
    cs ∈ targetLanguage ↔ cs = newMachineName ∨ IsNumeral cs
      ∨ ∃ name ∈ serviceLanguage,
        cs = name ∨ ∃ unit, IsNumeral unit ∧ cs = name ++ '/' :: unit := by
  unfold targetLanguage
  rw [Language.mem_add, Language.mem_add, Language.mem_mul, or_assoc]
  refine or_congr Iff.rfl (or_congr isNumeral_iff.symm ?_)
  constructor
  · intro h
    obtain ⟨name, hname, ending, hending, rfl⟩ := h
    refine ⟨name, hname, ?_⟩
    rcases (Language.mem_add ..).1 hending with hnil | hmore
    · rw [(Language.mem_one ending).1 hnil, List.append_nil]
      exact .inl rfl
    · obtain ⟨unit, rfl, hunit⟩ := mem_mark_mul_iff.1 hmore
      exact .inr ⟨unit, isNumeral_iff.2 hunit, rfl⟩
  · intro h
    obtain ⟨name, hname, rfl | ⟨unit, hunit, rfl⟩⟩ := h
    · exact ⟨cs, hname, [], (Language.mem_add ..).2 (.inl rfl), List.append_nil cs⟩
    · refine ⟨name, hname, '/' :: unit, (Language.mem_add ..).2 (.inr ?_), rfl⟩
      exact mem_mark_mul_iff.2 ⟨unit, rfl, isNumeral_iff.1 hunit⟩

/-- A directive is on one line. -/
theorem lineFeed_not_mem_directive {cs : List Char} (h : cs ∈ directiveLanguage) : '\n' ∉ cs := by
  obtain ⟨front, hfront, target, htarget, rfl⟩ := Language.mem_mul.1 h
  rw [List.mem_append, not_or]
  constructor
  · rcases isContainer_iff.2 hfront with rfl | ⟨kind, -, hlower, rfl⟩
    · exact List.not_mem_nil
    · rw [List.mem_append, not_or]
      exact ⟨lineFeed_not_mem (p := isLower) (by decide) hlower, by decide⟩
  · have hnumeral {cs : List Char} (hcs : IsNumeral cs) : '\n' ∉ cs :=
      lineFeed_not_mem (p := Char.isDigit) (by decide) hcs.isDigit_of_mem
    rcases mem_targetLanguage_iff.1 htarget with rfl | hid | ⟨name, hname, hrest⟩
    · decide
    · exact hnumeral hid
    · have hline : '\n' ∉ name := lineFeed_not_mem_name hname.1
      rcases hrest with rfl | ⟨unit, hunit, rfl⟩
      · exact hline
      · rw [List.mem_append, List.mem_cons, not_or, not_or]
        exact ⟨hline, by decide, hnumeral hunit⟩

-- ============================================================== targets

/-- The parts of what a directive points at are words of their languages, and the unit has no more
digits than are read. -/
def Target.Sound : Target → Prop
  | newMachine => True
  | machine id => id.toList ∈ numeralLanguage
  | service name unit => name.toList ∈ serviceLanguage
      ∧ ∀ u, unit = some u → (decimal u).length ≤ maxDigits

namespace Placement

variable {directive : String} {cs : List Char} {t : Target}

/-- The written form of what a directive points at has no colon. -/
theorem noColon_targetChars (h : t.Sound) : ':' ∉ targetChars t := by
  cases t with
  | newMachine => decide
  | machine id => exact (isNumeral_iff.2 h).noColon
  | service name unit =>
    have hname : ':' ∉ name.toList :=
      not_mem_of_isPlainName (mem_serviceLanguage_iff.1 h.1).1 (by decide)
    cases unit with
    | none => exact hname
    | some unit =>
      rw [targetChars, List.mem_append, List.mem_cons, not_or, not_or]
      exact ⟨hname, by decide, (isNumeral_decimal unit).noColon⟩

/-- What is read as pointed at is sound, and is read from its written form only. -/
theorem parseTarget_eq_ok_iff :
    parseTarget directive cs = .ok t ↔ t.Sound ∧ targetChars t = cs := by
  unfold parseTarget
  constructor
  · intro h
    split at h
    · rename_i service unit hcut
      obtain ⟨rfl, -⟩ := cutFirst?_eq_some_iff.1 hcut
      split at h
      · cases h
      rename_i hform
      simp only [Bool.or_eq_true, Bool.not_eq_true', not_or, Bool.not_eq_false,
        isCanonicalNumber_iff] at hform
      obtain ⟨hname, hunit⟩ := hform
      split at h
      · cases h
      rename_i hshort
      split at h
      · cases h
      rename_i hold
      obtain rfl := Except.ok.inj h
      refine ⟨⟨?_, ?_⟩, ?_⟩
      · rw [String.toList_ofList]
        exact mem_serviceLanguage_iff.2 ⟨hname, hold⟩
      · intro u hu
        rw [← Option.some.inj hu, hunit.decimal_decimalValue]
        exact Nat.not_lt.1 hshort
      · rw [targetChars, String.toList_ofList, hunit.decimal_decimalValue]
    · split at h
      · rename_i hname
        split at h
        · rename_i hnew
          obtain rfl := Except.ok.inj h
          exact ⟨trivial, hnew.symm⟩
        · rename_i hold
          obtain rfl := Except.ok.inj h
          refine ⟨⟨?_, nofun⟩, String.toList_ofList⟩
          rw [String.toList_ofList]
          exact mem_serviceLanguage_iff.2 ⟨hname, hold⟩
      · split at h
        · rename_i hnumeral
          obtain rfl := Except.ok.inj h
          refine ⟨?_, String.toList_ofList⟩
          rw [Target.Sound, String.toList_ofList, ← isNumeral_iff]
          exact (isCanonicalNumber_iff cs).1 hnumeral
        · cases h
  · intro h
    obtain ⟨hsound, rfl⟩ := h
    cases t with
    | newMachine => rfl
    | machine id =>
      have hid : IsNumeral id.toList := isNumeral_iff.2 hsound
      have hslash : '/' ∉ id.toList := fun hmem =>
        absurd (hid.isDigit_of_mem _ hmem) (by decide)
      rw [targetChars, cutFirst?_eq_none_iff.2 hslash]
      dsimp only
      rw [hid.isPlainName_eq_false, (isCanonicalNumber_iff _).2 hid, String.ofList_toList]
      rfl
    | service name unit =>
      obtain ⟨hname, hold⟩ := mem_serviceLanguage_iff.1 hsound.1
      have hslash : '/' ∉ name.toList := not_mem_of_isPlainName hname (by decide)
      cases unit with
      | none =>
        rw [targetChars, cutFirst?_eq_none_iff.2 hslash]
        dsimp only
        rw [hname, if_pos rfl, if_neg hold, String.ofList_toList]
      | some unit =>
        have hshort := hsound.2 unit rfl
        rw [targetChars, cutFirst?_append hslash]
        dsimp only
        rw [hname, (isCanonicalNumber_iff _).2 (isNumeral_decimal unit), if_neg (by decide),
          if_neg (Nat.not_lt.2 hshort), if_neg hold, String.ofList_toList, decimalValue_decimal]

-- =========================================================== directives

/-- The parts of a directive are words of their languages. -/
structure Sound (p : Placement) : Prop where
  container : ∀ c, p.container = some c → c.toList ∈ containerLanguage
  target : p.target.Sound

variable {p : Placement}

/-- What is read as a directive is sound, and is read from its written form only, which a line feed
may follow. -/
theorem parse_eq_ok_iff :
    parse directive = .ok p ↔ p.Sound ∧ p.chars = dropFinalNewline directive.toList := by
  unfold parse
  dsimp only
  constructor
  · intro h
    split at h
    · rename_i kind rest hcut
      obtain ⟨hcs, -⟩ := cutFirst?_eq_some_iff.1 hcut
      split at h
      · rename_i hkind
        rw [Bool.and_eq_true, Bool.not_eq_true', List.isEmpty_eq_false_iff,
          List.all_eq_true] at hkind
        obtain ⟨t, ht, rfl⟩ := map_eq_ok.1 h
        obtain ⟨hsound, rfl⟩ := parseTarget_eq_ok_iff.1 ht
        refine ⟨⟨fun c hc => ?_, hsound⟩, ?_⟩
        · rw [← Option.some.inj hc, String.toList_ofList]
          exact mem_containerLanguage_iff.2 hkind
        · rw [hcs, chars, Option.map_some, Option.getD_some, String.toList_ofList,
            List.append_assoc, List.singleton_append]
      · cases h
    · obtain ⟨t, ht, rfl⟩ := map_eq_ok.1 h
      obtain ⟨hsound, hcs⟩ := parseTarget_eq_ok_iff.1 ht
      exact ⟨⟨nofun, hsound⟩, hcs⟩
  · intro h
    obtain ⟨hsound, hcs⟩ := h
    obtain ⟨container, t⟩ := p
    have ht : parseTarget directive (targetChars t) = .ok t :=
      parseTarget_eq_ok_iff.2 ⟨hsound.target, rfl⟩
    rw [← hcs]
    cases container with
    | none =>
      have hchars : (⟨none, t⟩ : Placement).chars = targetChars t := List.nil_append _
      rw [hchars, cutFirst?_eq_none_iff.2 (noColon_targetChars hsound.target)]
      dsimp only
      rw [ht]
      rfl
    | some kind =>
      obtain ⟨hne, hlower⟩ := mem_containerLanguage_iff.1 (hsound.container kind rfl)
      have hcolon : ':' ∉ kind.toList := fun hmem => absurd (hlower _ hmem) (by decide)
      rw [chars, Option.map_some, Option.getD_some, List.append_assoc, List.singleton_append,
        cutFirst?_append hcolon]
      dsimp only
      rw [if_pos (by simpa [hne] using hlower), ht, String.ofList_toList]
      rfl

/-- A sound directive is written as a word of the language. -/
theorem chars_mem_directiveLanguage (h : p.Sound) : p.chars ∈ directiveLanguage := by
  obtain ⟨container, t⟩ := p
  refine Language.mem_mul.2 ⟨_, isContainer_iff.1 ?_, targetChars t, ?_, rfl⟩
  · cases container with
    | none => exact .inl rfl
    | some kind =>
      obtain ⟨hne, hlower⟩ := mem_containerLanguage_iff.1 (h.container kind rfl)
      exact .inr ⟨kind.toList, hne, hlower, rfl⟩
  · have ht : t.Sound := h.target
    rw [mem_targetLanguage_iff]
    cases t with
    | newMachine => exact .inl rfl
    | machine id => exact .inr (.inl (isNumeral_iff.2 ht))
    | service name unit =>
      refine .inr (.inr ⟨name.toList, ht.1, ?_⟩)
      cases unit with
      | none => exact .inl rfl
      | some unit => exact .inr ⟨decimal unit, isNumeral_decimal unit, rfl⟩

/-- A word of the language is the written form of a sound directive, unless its unit has more digits
than are read. -/
theorem exists_sound_of_mem (h : dropFinalNewline directive.toList ∈ directiveLanguage)
    (hshort : ¬ Overlong directive) :
    ∃ p : Placement, p.Sound ∧ p.chars = dropFinalNewline directive.toList := by
  obtain ⟨front, hfront, target, htarget, hcs⟩ := Language.mem_mul.1 h
  have hcontainer := isContainer_iff.2 hfront
  obtain ⟨t, ht, rfl⟩ : ∃ t : Target, t.Sound ∧ targetChars t = target := by
    rcases mem_targetLanguage_iff.1 htarget with rfl | hid | ⟨name, hname, hrest⟩
    · exact ⟨.newMachine, trivial, rfl⟩
    · refine ⟨.machine (String.ofList target), ?_, String.toList_ofList⟩
      rw [Target.Sound, String.toList_ofList]
      exact isNumeral_iff.1 hid
    · have hname' : (String.ofList name).toList ∈ serviceLanguage := by
        rwa [String.toList_ofList]
      rcases hrest with rfl | ⟨unit, hunit, rfl⟩
      · exact ⟨.service (String.ofList target) none, ⟨hname', nofun⟩, String.toList_ofList⟩
      · refine ⟨.service (String.ofList name) (some (decimalValue unit)), ⟨hname', ?_⟩, ?_⟩
        · intro u hu
          rw [← Option.some.inj hu, hunit.decimal_decimalValue]
          refine Nat.not_lt.1 fun hlong => hshort ?_
          have hplain := (mem_serviceLanguage_iff.1 hname).1
          exact ⟨front, name, unit, hcs.symm, hcontainer, hplain, hunit, hlong⟩
        · rw [targetChars, String.toList_ofList, hunit.decimal_decimalValue]
  rw [← hcs]
  rcases hcontainer with rfl | ⟨kind, hne, hlower, rfl⟩
  · exact ⟨⟨none, t⟩, ⟨nofun, ht⟩, rfl⟩
  · refine ⟨⟨some (String.ofList kind), t⟩, ⟨fun c hc => ?_, ht⟩, ?_⟩
    · rw [← Option.some.inj hc, String.toList_ofList]
      exact mem_containerLanguage_iff.2 ⟨hne, hlower⟩
    · rw [chars, Option.map_some, Option.getD_some, String.toList_ofList]

-- ========================================================== four fields

/-- A directive in four fields. The text of a part that is not there is empty, and no unit is minus
one. -/
structure Fields where
  container : String
  machine : String
  service : String
  unit : Int
  deriving Repr, DecidableEq

/-- The fields of a directive; a new machine has a name of its own in place of a number. -/
def fields (p : Placement) : Fields :=
  let container := p.container.getD ""
  match p.target with
  | .newMachine => ⟨container, String.ofList newMachineName, "", -1⟩
  | .machine id => ⟨container, id, "", -1⟩
  | .service name unit => ⟨container, "", name, (unit.map Int.ofNat).getD (-1)⟩

namespace Fields

/-- The written form of four fields. -/
def chars (f : Fields) : List Char :=
  (if f.container = "" then [] else f.container.toList ++ [':'])
    ++ if f.service = "" then f.machine.toList
      else f.service.toList ++ if 0 ≤ f.unit then '/' :: decimal f.unit.toNat else []

/-- Four fields that make a directive: they name either a machine or a service, which alone can have
a unit, and what they name is a word of its language. -/
structure Sound (f : Fields) : Prop where
  container : f.container = "" ∨ f.container.toList ∈ containerLanguage
  either : f.machine = "" ↔ f.service ≠ ""
  machine : f.machine ≠ "" →
    (f.machine.toList = newMachineName ∨ f.machine.toList ∈ numeralLanguage) ∧ f.unit = -1
  service : f.service ≠ "" → f.service.toList ∈ serviceLanguage
  unit : -1 ≤ f.unit

end Fields

theorem ne_empty_of_toList {s : String} (h : s.toList ≠ []) : s ≠ "" := by
  rintro rfl
  exact h rfl

/-- The fields of a sound directive make a directive, and have its written form. -/
theorem Sound.fields (h : p.Sound) : p.fields.Sound ∧ p.fields.chars = p.chars := by
  obtain ⟨container, t⟩ := p
  have ht : t.Sound := h.target
  have hcontainer : container.getD "" = "" ∨ (container.getD "").toList ∈ containerLanguage := by
    cases container with
    | none => exact .inl rfl
    | some kind => exact .inr (h.container kind rfl)
  have hfront : (if container.getD "" = "" then [] else (container.getD "").toList ++ [':'])
      = (container.map fun c => c.toList ++ [':']).getD [] := by
    cases container with
    | none => rfl
    | some kind =>
      have hne := (mem_containerLanguage_iff.1 (h.container kind rfl)).1
      exact if_neg (ne_empty_of_toList hne)
  cases t with
  | newMachine =>
    refine ⟨⟨hcontainer, by simp [Placement.fields, newMachineName], ?_, ?_, ?_⟩, ?_⟩
    · exact fun _ => ⟨.inl String.toList_ofList, rfl⟩
    · exact fun hservice => absurd rfl hservice
    · exact Int.le_refl _
    · exact congrArg (· ++ newMachineName) hfront
  | machine id =>
    have hne := ne_empty_of_toList (isNumeral_iff.2 ht).ne_nil
    refine ⟨⟨hcontainer, iff_of_false hne fun hservice => hservice rfl, ?_, ?_, ?_⟩, ?_⟩
    · exact fun _ => ⟨.inr ht, rfl⟩
    · exact fun hservice => absurd rfl hservice
    · exact Int.le_refl _
    · exact congrArg (· ++ id.toList) hfront
  | service name unit =>
    have hne := ne_empty_of_toList (ne_nil_of_mem_service ht.1)
    have hunit : -1 ≤ (unit.map Int.ofNat).getD (-1) := by
      cases unit with
      | none => exact Int.le_refl _
      | some unit => exact Int.le_trans (by decide) (Int.natCast_nonneg unit)
    refine ⟨⟨hcontainer, iff_of_true rfl hne, ?_, fun _ => ht.1, hunit⟩, ?_⟩
    · exact fun hmachine => absurd rfl hmachine
    · refine congrArg₂ (· ++ ·) hfront ((if_neg hne).trans ?_)
      cases unit with
      | none => exact List.append_nil name.toList
      | some unit => exact congrArg (name.toList ++ ·) (if_pos (Int.natCast_nonneg unit))

/-- Four fields that make a directive are those of a directive, which is sound if its unit has no
more digits than are read. -/
theorem Fields.Sound.exists_sound {f : Fields} (h : f.Sound)
    (hshort : (decimal f.unit.toNat).length ≤ maxDigits) :
    ∃ p : Placement, p.Sound ∧ p.fields = f := by
  obtain ⟨container, machine, service, unit⟩ := f
  obtain ⟨container?, hcontainer, rfl⟩ : ∃ container? : Option String,
      (∀ c, container? = some c → c.toList ∈ containerLanguage)
        ∧ container?.getD "" = container := by
    rcases h.container with rfl | hmem
    · exact ⟨none, nofun, rfl⟩
    · exact ⟨some container, fun c hc => Option.some.inj hc ▸ hmem, rfl⟩
  by_cases hservice : service = ""
  · subst hservice
    have hmachine : machine ≠ "" := fun hnone => h.either.1 hnone rfl
    obtain ⟨hid, rfl⟩ : _ ∧ unit = -1 := h.machine hmachine
    rcases hid with hnew | hid
    · have hsame : String.ofList newMachineName = machine := by
        rw [← hnew, String.ofList_toList]
      exact ⟨⟨container?, .newMachine⟩, ⟨hcontainer, trivial⟩, by rw [← hsame]; rfl⟩
    · exact ⟨⟨container?, .machine machine⟩, ⟨hcontainer, hid⟩, rfl⟩
  · obtain rfl : machine = "" := h.either.2 hservice
    have hmem : service.toList ∈ serviceLanguage := h.service hservice
    cases unit with
    | ofNat u =>
      refine ⟨⟨container?, .service service (some u)⟩, ⟨hcontainer, hmem, ?_⟩, rfl⟩
      exact fun v hv => Option.some.inj hv ▸ hshort
    | negSucc u =>
      obtain rfl : u = 0 := by
        have hunit : -1 ≤ Int.negSucc u := h.unit
        omega
      exact ⟨⟨container?, .service service none⟩, ⟨hcontainer, hmem, nofun⟩, rfl⟩

-- ========================================================= the language

/-- **The language of directives.** A text is read as a directive exactly if it is a word of the
language, a line feed at its end apart, whose unit has no more digits than are read; any other text
is malformed, unless it is only the unit that is too long. What is read makes a directive, whose
written form is the text less the line feed; and four fields that make a directive are read from
their written form. -/
theorem parse_exact :
    (∀ directive, (∃ p, parse directive = .ok p) ↔
        directive.toList ∈ directiveLanguage * optionalLineFeed ∧ ¬ Overlong directive)
      ∧ (∀ directive, directive.toList ∉ directiveLanguage * optionalLineFeed →
        ¬ Overlong directive → parse directive = .error (.placement directive))
      ∧ (∀ directive p, parse directive = .ok p → p.fields.Sound
        ∧ (directive.toList = p.fields.chars ∨ directive.toList = p.fields.chars ++ ['\n']))
      ∧ ∀ f : Fields, f.Sound → (decimal f.unit.toNat).length ≤ maxDigits →
        ∃ p, parse (String.ofList f.chars) = .ok p ∧ p.fields = f := by
  have hread (directive : String) : (∃ p, parse directive = .ok p) ↔
      directive.toList ∈ directiveLanguage * optionalLineFeed ∧ ¬ Overlong directive := by
    rw [mem_optionalLineFeed_iff fun _ => lineFeed_not_mem_directive]
    constructor
    · intro h
      obtain ⟨p, hp⟩ := h
      obtain ⟨hsound, hchars⟩ := parse_eq_ok_iff.1 hp
      refine ⟨hchars ▸ chars_mem_directiveLanguage hsound, fun hlong => ?_⟩
      obtain ⟨f, hf, -⟩ := parse_tooLong_iff.2 hlong
      cases hp.symm.trans hf
    · intro h
      obtain ⟨hmem, hshort⟩ := h
      obtain ⟨p, hp⟩ := exists_sound_of_mem hmem hshort
      exact ⟨p, parse_eq_ok_iff.2 hp⟩
  refine ⟨hread, fun directive hnot hshort => ?_, fun directive p hp => ?_, fun f hf hshort => ?_⟩
  · cases hparse : parse directive with
    | ok p => exact absurd ((hread directive).1 ⟨p, hparse⟩).1 hnot
    | error f =>
      rcases parse_error hparse with rfl | hlong
      · rfl
      · exact absurd (parse_tooLong_iff.1 ⟨f, hparse, hlong⟩) hshort
  · obtain ⟨hsound, hchars⟩ := parse_eq_ok_iff.1 hp
    obtain ⟨hfields, hwritten⟩ := hsound.fields
    have hline := lineFeed_not_mem_directive (chars_mem_directiveLanguage hsound)
    rw [hwritten]
    exact ⟨hfields, (eq_dropFinalNewline_iff hline).1 hchars⟩
  · obtain ⟨p, hsound, rfl⟩ := hf.exists_sound hshort
    have hwritten := hsound.fields.2
    have hline := lineFeed_not_mem_directive (chars_mem_directiveLanguage hsound)
    refine ⟨p, parse_eq_ok_iff.2 ⟨hsound, ?_⟩, rfl⟩
    rw [hwritten, String.toList_ofList, dropFinalNewline_of_not_mem hline]

/-- A directive with all its parts is read from what is written for them, and a new machine from a
line. -/
theorem parse_exact_allParts :
    (∃ p, parse "lxc:wordpress/7" = .ok p ∧ p.fields = ⟨"lxc", "", "wordpress", 7⟩)
      ∧ ∃ p, parse "new\n" = .ok p ∧ p.fields.Sound
        ∧ ("new\n".toList = p.fields.chars ∨ "new\n".toList = p.fields.chars ++ ['\n']) := by
  constructor
  · have hseven : decimal 7 = ['7'] := by
      unfold decimal
      rfl
    have hsound : (⟨"lxc", "", "wordpress", 7⟩ : Fields).Sound := by
      refine ⟨.inr ?_, by decide, fun h => absurd rfl h, fun _ => ?_, by decide⟩
      · exact mem_containerLanguage_iff.2 ⟨by decide, List.all_eq_true.1 (by decide)⟩
      · exact mem_serviceLanguage_iff.2 ⟨by decide, by decide⟩
    have hwritten : String.ofList (⟨"lxc", "", "wordpress", 7⟩ : Fields).chars
        = "lxc:wordpress/7" := by
      show String.ofList ("lxc".toList ++ [':'] ++ ("wordpress".toList ++ '/' :: decimal 7)) = _
      rw [hseven]
      rfl
    have hshort : (decimal 7).length ≤ maxDigits := by
      rw [hseven]
      decide
    rw [← hwritten]
    exact parse_exact.2.2.2 _ hsound hshort
  · have hparse : parse "new\n" = .ok ⟨none, .newMachine⟩ := rfl
    exact ⟨_, hparse, parse_exact.2.2.1 _ _ hparse⟩

end Placement

end CharmDepot
