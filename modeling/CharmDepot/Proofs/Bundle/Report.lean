/-
When verification ends in a report.

A report is a list of problems, an empty one included. Verification ends in one exactly if the
bundle is `Reportable`: every charm is a text, no directive has a unit number beyond the digits that
are read, and every value that a problem has to show can be put in words. Which of these a bundle
lacks is decided by its data alone (`exists_report_iff`): neither the checker of constraints nor what
it remembers has a part in it. Whatever ends a verification without a report is no fault of this
library, so that a caller who waits for one waits in vain.

# The laws

Every check has one law, which says when it has a result. Those of the relations, the directives and
the charms are about outcomes; a service and a machine consult the checker in between, and since the
checker always answers, the success of what comes after does not depend on what it said
(`Succeeds.bind_iff`).
-/
import CharmDepot.Proofs.Bundle.WellFormed
import CharmDepot.Proofs.Identity.Written
import CharmDepot.Proofs.Value.Foreign

namespace CharmDepot

open Number Outcome Text

-- ================================================================ words

theorem shown_text (s : String) : (Value.text s).shown = .ok (quoted s) := rfl

/-- A list of texts can be shown. -/
theorem exists_shown_texts {items : List Value} (h : ∀ v ∈ items, v.isText = true) :
    ∃ words, (Value.list items).shown = .ok words := by
  show ∃ words, (items.mapM (Value.shownWithin 987 [] [])).map (Value.bracketed "[" "]") = .ok words
  rw [exists_map_eq_ok_iff, exists_mapM_eq_ok_iff]
  intro v hv
  obtain ⟨s, rfl⟩ := Value.isText_iff.1 (h v hv)
  exact ⟨quoted s, rfl⟩

theorem exists_noted_iff {p : Problem} :
    (∃ found, p.noted = .ok found) ↔ ∃ words, p.message = .ok words := by
  unfold Problem.noted
  exact exists_map_eq_ok_iff

theorem exists_notedIf_iff {isThere : Bool} {p : Problem} :
    (∃ found, Problem.notedIf isThere p = .ok found) ↔
      (isThere = true → ∃ words, p.message = .ok words) := by
  unfold Problem.notedIf
  cases isThere with
  | false => simp
  | true => simpa using exists_noted_iff

/-- The type of a container in front of a directive, with its colon, or nothing. -/
def IsContainer (cs : List Char) : Prop :=
  cs = [] ∨ ∃ kind, kind ≠ [] ∧ (∀ c ∈ kind, isLower c = true) ∧ cs = kind ++ [':']

/-- A directive for a unit whose number has more digits than are read. -/
def Overlong (directive : String) : Prop :=
  ∃ container name unit, dropFinalNewline directive.toList = container ++ (name ++ '/' :: unit)
    ∧ IsContainer container ∧ isPlainName name = true ∧ IsNumeral unit ∧ maxDigits < unit.length

/-- A directive that is overlong has more characters than the digits that are read. -/
theorem Overlong.length {directive : String} (h : Overlong directive) :
    maxDigits < directive.length := by
  obtain ⟨container, name, unit, hcs, -, -, -, hlong⟩ := h
  have hunit : unit.length ≤ (dropFinalNewline directive.toList).length := by
    rw [hcs]
    simp only [List.length_append, List.length_cons]
    omega
  have hdrop : (dropFinalNewline directive.toList).length ≤ directive.toList.length := by
    rcases dropFinalNewline_cases directive.toList with hsame | hmore
    · rw [hsame]
    · conv_rhs => rw [hmore]
      simp
  rw [← String.length_toList]
  omega

/-- A fault that says of a numeral that it has too many digits. -/
def Fault.IsTooLong (f : Fault) : Prop :=
  ∃ n, f = .value (.integer (.tooLong n))

theorem not_mem_of_isPlainName {cs : List Char} (h : isPlainName cs = true) {c : Char}
    (hc : (isLowerOrDigit c || c == '-') = false) : c ∉ cs := by
  intro hmem
  rw [(isPlainName_cases h).1 c hmem] at hc
  cases hc

/-- There is no colon in a numeral. -/
theorem IsNumeral.noColon {cs : List Char} (h : IsNumeral cs) : ':' ∉ cs := by
  rcases h with rfl | ⟨first, rest, rfl, -, h9, hrest⟩
  · decide
  · rw [List.mem_cons, not_or]
    constructor
    · rintro rfl
      exact absurd h9 (by decide)
    · intro hmem
      exact absurd (hrest _ hmem).2 (by decide)

namespace Placement

variable {directive : String} {cs : List Char}

theorem parseTarget_error {f : Fault} (h : parseTarget directive cs = .error f) :
    f = .placement directive ∨ f.IsTooLong := by
  unfold parseTarget at h
  split at h
  · split at h
    · exact .inl (Except.error.inj h).symm
    · split at h
      · exact .inr ⟨_, (Except.error.inj h).symm⟩
      · split at h
        · exact .inl (Except.error.inj h).symm
        · cases h
  · split at h
    · split at h <;> cases h
    · split at h
      · cases h
      · exact .inl (Except.error.inj h).symm

theorem parseTarget_tooLong_iff :
    (∃ f, parseTarget directive cs = .error f ∧ f.IsTooLong) ↔
      ∃ name unit, cs = name ++ '/' :: unit ∧ isPlainName name = true ∧ IsNumeral unit
        ∧ maxDigits < unit.length := by
  unfold parseTarget Fault.IsTooLong
  constructor
  · intro h
    obtain ⟨_, h, n, rfl⟩ := h
    split at h
    · rename_i name unit hcut
      split at h
      · cases h
      · rename_i hform
        split at h
        · rename_i hlong
          simp only [Bool.or_eq_true, Bool.not_eq_true', not_or, Bool.not_eq_false] at hform
          exact ⟨name, unit, (cutFirst?_eq_some_iff.1 hcut).1, hform.1,
            (isCanonicalNumber_iff unit).1 hform.2, hlong⟩
        · split at h <;> cases h
    · split at h
      · split at h <;> cases h
      · split at h <;> cases h
  · intro h
    obtain ⟨name, unit, rfl, hname, hunit, hlong⟩ := h
    have hslash : '/' ∉ name := not_mem_of_isPlainName hname (by decide)
    rw [cutFirst?_append hslash]
    dsimp only
    rw [hname, (isCanonicalNumber_iff unit).2 hunit, if_neg (by decide), if_pos hlong]
    exact ⟨_, rfl, _, rfl⟩

theorem parse_error {f : Fault} (h : parse directive = .error f) :
    f = .placement directive ∨ f.IsTooLong := by
  unfold parse at h
  dsimp only at h
  split at h
  · split at h
    · exact parseTarget_error (map_eq_error.1 h)
    · exact .inl (Except.error.inj h).symm
  · exact parseTarget_error (map_eq_error.1 h)

theorem parse_tooLong_iff :
    (∃ f, parse directive = .error f ∧ f.IsTooLong) ↔ Overlong directive := by
  unfold parse Overlong
  dsimp only
  constructor
  · intro h
    obtain ⟨f, h, hlong⟩ := h
    split at h
    · rename_i kind rest hcut
      obtain ⟨hcs, -⟩ := cutFirst?_eq_some_iff.1 hcut
      split at h
      · rename_i hkind
        simp only [Bool.and_eq_true, Bool.not_eq_true', List.isEmpty_eq_false_iff,
          List.all_eq_true] at hkind
        obtain ⟨name, unit, rfl, hname, hunit, hdigits⟩ :=
          parseTarget_tooLong_iff.1 ⟨f, map_eq_error.1 h, hlong⟩
        refine ⟨kind ++ [':'], name, unit, ?_, .inr ⟨kind, hkind.1, hkind.2, rfl⟩, hname, hunit,
          hdigits⟩
        rw [hcs, List.append_assoc, List.singleton_append]
      · obtain rfl := Except.error.inj h
        obtain ⟨n, hn⟩ := hlong
        cases hn
    · obtain ⟨name, unit, hcs, hname, hunit, hdigits⟩ :=
        parseTarget_tooLong_iff.1 ⟨f, map_eq_error.1 h, hlong⟩
      exact ⟨[], name, unit, hcs, .inl rfl, hname, hunit, hdigits⟩
  · intro h
    obtain ⟨container, name, unit, hcs, hcontainer, hname, hunit, hdigits⟩ := h
    obtain ⟨f, hf, hlong⟩ : ∃ f, parseTarget directive (name ++ '/' :: unit) = .error f
        ∧ f.IsTooLong :=
      parseTarget_tooLong_iff.2 ⟨name, unit, rfl, hname, hunit, hdigits⟩
    refine ⟨f, ?_, hlong⟩
    rw [hcs]
    rcases hcontainer with rfl | ⟨kind, hne, hlower, rfl⟩
    · -- the colon of a container is the only one that a directive can have
      have hcolon : ':' ∉ name ++ '/' :: unit := by
        rw [List.mem_append, List.mem_cons, not_or, not_or]
        exact ⟨not_mem_of_isPlainName hname (by decide), by decide, hunit.noColon⟩
      rw [List.nil_append, cutFirst?_eq_none_iff.2 hcolon]
      exact map_eq_error.2 hf
    · have hcolon : ':' ∉ kind := by
        intro hmem
        exact absurd (hlower _ hmem) (by decide)
      rw [List.append_assoc, List.singleton_append, cutFirst?_append hcolon]
      dsimp only
      rw [if_pos (by simpa [hne] using hlower)]
      exact map_eq_error.2 hf

end Placement

-- ================================================================ charms

/-- A check of charms collects why a text is no identity. -/
theorem isValue_of_parse {text : String} {f : Fault} (h : Url.parse text = .error f) :
    f.isValue = true := by
  rcases Url.parse_fails text f h with ⟨form, rfl⟩ | ⟨n, rfl⟩
  · rfl
  · rfl

namespace Deployment

variable {σ : Type} {b : Deployment} {s : σ} {check : Value → StateM σ (Option String)}

-- =========================================================== reportability

/-- What verification says about an endpoint can be put in words: the endpoint itself, and the whole
relation if the endpoint is one of a service that the bundle does not have. -/
def Describes (b : Deployment) (relation : List Value) (v : Value) : Prop :=
  (∃ words, v.shown = .ok words)
    ∧ ∀ e, Endpoint.parse v = .ok e → ¬ b.Defines e.service →
      ∃ words, (Value.list relation).shown = .ok words

/-- What verification says about a directive can be put in words: its unit number, if it has one, is
read, and the number of units of a service that has no such unit is written. -/
def Reads (b : Deployment) (directive : String) : Prop :=
  ¬ Overlong directive
    ∧ ∀ p, Placement.parse directive = .ok p →
      ∀ name unit service, p.target = .service name (some unit) → b.service? name = some service →
        service.units - 1 ≤ unit → ∃ words, Value.shownInteger service.units = .ok words

/-- A service about which everything can be said. -/
structure ReportableService (b : Deployment) (e : Value × Service) : Prop where
  name : ∃ words, e.1.shown = .ok words
  charm : e.2.charm.isText = true
  placed : ∀ d ∈ e.2.placements, b.Reads d

/-- A bundle about which everything can be said. -/
structure Reportable (b : Deployment) : Prop where
  relations : ∀ r ∈ b.relations, ∀ v ∈ r, b.Describes r v
  services : ∀ e ∈ b.services, b.ReportableService e

theorem mem_of_service? {name : String} {service : Service}
    (h : b.service? name = some service) : ∃ v, (v, service) ∈ b.services := by
  unfold service? at h
  obtain ⟨⟨v, found⟩, hfind, rfl⟩ := Option.map_eq_some_iff.1 h
  exact ⟨v, List.mem_of_find?_eq_some hfind⟩

-- ============================================================== relations

theorem isText_of_endpoint {v : Value} {e : Endpoint} (h : Endpoint.parse v = .ok e) :
    v.isText = true := by
  unfold Endpoint.parse at h
  cases v with
  | text text => rfl
  | _ =>
    obtain ⟨_, -, h⟩ := bind_eq_ok.1 h
    cases h

theorem parse_endpoint_cases (v : Value) :
    (∃ e, Endpoint.parse v = .ok e) ∨ Endpoint.parse v = (v.shown.bind fun words =>
      .error (.relation words)) := by
  unfold Endpoint.parse
  dsimp only
  split
  · exact .inl ⟨_, rfl⟩
  · exact .inr rfl

theorem exists_endpointProblems_iff {relation : List Value} {v : Value} :
    (∃ found, b.endpointProblems relation v = .ok found) ↔ b.Describes relation v := by
  unfold endpointProblems Describes
  rcases parse_endpoint_cases v with ⟨e, he⟩ | hparse
  · obtain ⟨text, rfl⟩ := Value.isText_iff.1 (isText_of_endpoint he)
    have hnoted : (∃ found, (Problem.notedIf (b.service? e.service).isNone
        (.undefinedService e.service relation)) = .ok found) ↔
          (¬ b.Defines e.service → ∃ words, (Value.list relation).shown = .ok words) := by
      rw [exists_notedIf_iff, ← service?_isSome_iff, Option.isNone_iff_eq_none,
        Option.not_isSome_iff_eq_none]
      refine imp_congr_right fun _ => ?_
      rw [Problem.message]
      exact exists_map_eq_ok_iff
    simp only [he, exists_map_eq_ok_iff, Except.ok.injEq, forall_eq', shown_text, exists_eq',
      true_and]
    exact hnoted
  · cases hshown : v.shown with
    | ok words =>
      rw [hshown] at hparse
      simp [hparse, Except.bind]
    | error f =>
      rw [hshown] at hparse
      have hf : f.IsForeign := Value.shown_fails v f hshown
      simp only [hparse, Except.bind]
      constructor
      · intro h
        obtain ⟨_, h⟩ := h
        split at h
        · rename_i hrel
          rw [Except.error.inj hrel] at hf
          cases hf
        · cases h
        · rename_i h'
          cases h'
      · intro h
        obtain ⟨⟨_, h⟩, -⟩ := h
        cases h

/-- An endpoint whose service is known is a text. -/
theorem isText_of_endpointProblems {relation : List Value} {v : Value} {found : List Problem}
    {name : String} (h : b.endpointProblems relation v = .ok (found, some name)) :
    v.isText = true := by
  unfold endpointProblems at h
  split at h
  · cases h
  · cases h
  · rename_i e he
    exact isText_of_endpoint he

/-- A relation that joins a service to itself consists of two texts, so it can be shown. -/
theorem exists_shown_of_related {relation : List Value} {ends : List (List Problem × Option String)}
    {first second : String} (hends : relation.mapM (b.endpointProblems relation) = .ok ends)
    (hsize : relation.length = 2) (hnames : ends.filterMap (·.2) = [first, second]) :
    ∃ words, (Value.list relation).shown = .ok words := by
  obtain ⟨v, w, rfl⟩ := List.length_eq_two.1 hsize
  rw [mapM_eq_ok_iff] at hends
  obtain ⟨⟨p, n⟩, _, hv, htail, rfl⟩ := List.forall₂_cons_left_iff.1 hends
  obtain ⟨⟨q, m⟩, _, hw, hrest, rfl⟩ := List.forall₂_cons_left_iff.1 htail
  obtain rfl := List.forall₂_nil_left_iff.1 hrest
  cases n with
  | none => cases m <;> simp at hnames
  | some n =>
    cases m with
    | none => simp at hnames
    | some m =>
      refine exists_shown_texts ?_
      rw [List.forall_mem_cons, List.forall_mem_singleton]
      exact ⟨isText_of_endpointProblems hv, isText_of_endpointProblems hw⟩

theorem exists_relationProblems_iff {index : Nat} {relation : List Value} :
    (∃ found, b.relationProblems index relation = .ok found) ↔
      ∀ v ∈ relation, b.Describes relation v := by
  have hends : (∃ ends, relation.mapM (b.endpointProblems relation) = .ok ends) ↔
      ∀ v ∈ relation, b.Describes relation v := by
    rw [exists_mapM_eq_ok_iff]
    exact forall₂_congr fun v _ => exists_endpointProblems_iff
  rw [← hends]
  unfold relationProblems
  simp only [bind_eq_ok]
  constructor
  · intro h
    obtain ⟨_, _, -, ends, hends, -⟩ := h
    exact ⟨ends, hends⟩
  · intro h
    obtain ⟨ends, hends⟩ := h
    obtain ⟨wrongSize, hsize⟩ : ∃ found, Problem.notedIf (relation.length != 2)
        (.relationSize index relation.length) = .ok found :=
      exists_notedIf_iff.2 fun _ => ⟨_, rfl⟩
    have hnoted {itself : Bool} (h : itself = true → ∃ text,
        (Problem.selfRelation relation).message = .ok text) :
        ∃ found related, Problem.notedIf itself (.selfRelation relation) = .ok related
          ∧ pure (wrongSize ++ ends.flatMap (·.1) ++ related) = (.ok found : Outcome _) := by
      obtain ⟨related, hrelated⟩ := exists_notedIf_iff.2 h
      exact ⟨_, related, hrelated, rfl⟩
    refine (hnoted fun hitself => ?_).elim fun found hrelated =>
      ⟨found, wrongSize, hsize, ends, hends, hrelated⟩
    split at hitself
    · rename_i first second hnames
      rw [Bool.and_eq_true, beq_iff_eq] at hitself
      rw [Problem.message]
      exact exists_map_eq_ok_iff.2 (exists_shown_of_related hends hitself.1 hnames)
    · cases hitself

theorem exists_allRelationProblems_iff :
    (∃ found, b.allRelationProblems = .ok found) ↔
      ∀ r ∈ b.relations, ∀ v ∈ r, b.Describes r v := by
  unfold allRelationProblems
  rw [exists_map_eq_ok_iff, exists_mapM_eq_ok_iff]
  constructor
  · intro h r hr
    obtain ⟨i, hi, rfl⟩ := List.mem_iff_getElem.1 hr
    have hmem : (b.relations[i], i) ∈ b.relations.zipIdx := by
      rw [List.mk_mem_zipIdx_iff_getElem?]
      exact List.getElem?_eq_getElem hi
    exact exists_relationProblems_iff.1 (h _ hmem)
  · intro h e hmem
    obtain ⟨r, i⟩ := e
    exact exists_relationProblems_iff.2 (h r (List.fst_mem_of_mem_zipIdx hmem))

-- ============================================================= services

/-- The problem of what a directive points at can be put in words, unless it shows a number of units
that cannot. -/
theorem exists_targetWords_iff {directive : String} {target : Target} :
    (∀ problem, b.targetProblem? directive target = some problem →
        ∃ words, problem.message = .ok words) ↔
      ∀ name unit service, target = .service name (some unit) → b.service? name = some service →
        service.units - 1 ≤ unit → ∃ words, Value.shownInteger service.units = .ok words := by
  cases target with
  | newMachine => simp [targetProblem?]
  | machine id =>
    have hmessage : ∃ words, (Problem.unknownMachine directive).message = .ok words := ⟨_, rfl⟩
    simp [targetProblem?, hmessage]
  | service name unit =>
    have hmessage : ∃ words, (Problem.unknownService directive).message = .ok words := ⟨_, rfl⟩
    cases hservice : b.service? name with
    | none =>
      simp only [targetProblem?, hservice, Option.some.injEq, forall_eq', hmessage, true_iff]
      intro name' unit' service' htarget hservice'
      obtain ⟨rfl, -⟩ := Target.service.inj htarget
      rw [hservice] at hservice'
      cases hservice'
    | some service =>
      cases unit with
      | none => simp [targetProblem?, hservice]
      | some unit =>
        have hwords : (∃ words, (Problem.unitOutOfRange directive service.units).message = .ok words)
            ↔ ∃ words, Value.shownInteger service.units = .ok words := by
          rw [Problem.message]
          exact exists_map_eq_ok_iff
        simp only [targetProblem?, hservice, Option.ite_none_right_eq_some, Option.some.injEq,
          and_imp]
        constructor
        · intro h name' unit' service' htarget hservice' hrange
          obtain ⟨rfl, hunit⟩ := Target.service.inj htarget
          obtain rfl := Option.some.inj hunit
          rw [hservice] at hservice'
          obtain rfl := Option.some.inj hservice'
          exact hwords.1 (h _ hrange rfl)
        · intro h problem hrange hproblem
          rw [← hproblem]
          exact hwords.2 (h name unit service rfl hservice hrange)

theorem exists_placementProblems_iff {directive : String} :
    (∃ found, b.placementProblems directive = .ok found) ↔ b.Reads directive := by
  unfold placementProblems Reads
  rw [← Placement.parse_tooLong_iff]
  split
  · rename_i p hp
    simp only [hp, Except.ok.injEq, forall_eq', reduceCtorEq, false_and, exists_false,
      not_false_eq_true, true_and]
    rw [← exists_targetWords_iff]
    cases b.targetProblem? directive p.target with
    | none => simp
    | some problem => simpa using exists_noted_iff
  · rename_i d hp
    simp [hp, Fault.IsTooLong]
  · rename_i f hother hf
    rcases Placement.parse_error hf with rfl | hlong
    · exact absurd rfl (hother directive)
    · simp [hf, hlong]

theorem exists_charmProblems_iff {name charm : Value} (hname : ∃ words, name.shown = .ok words) :
    (∃ found, charmProblems name charm = .ok found) ↔ charm.isText = true := by
  unfold charmProblems
  cases htext : charm.isText with
  | false =>
    obtain ⟨f, hf, hvalue, -⟩ := Url.ofValue_of_not_isText htext
    simp [hf, hvalue]
  | true =>
    obtain ⟨text, rfl⟩ := Value.isText_iff.1 htext
    rw [iff_true_right rfl]
    split
    · exact ⟨_, rfl⟩
    · rename_i f hf
      have hvalue := isValue_of_parse hf
      rw [if_pos hvalue, exists_noted_iff, Problem.message, exists_map_eq_ok_iff]
      exact hname

theorem succeeds_constraintsProblems_iff {owner : Owner} {v : Value} :
    Succeeds (constraintsProblems check owner v) s ↔ ∃ words, owner.shown = .ok words := by
  unfold constraintsProblems
  rw [Succeeds.bind_iff_left, Succeeds.ofOutcome_iff]
  intro words s₁
  rw [Succeeds.bind_iff_left]
  · exact Succeeds.lift _
  · intro verdict s₂
    split
    · exact Succeeds.pure _
    · exact Succeeds.pure _

theorem succeeds_serviceProblems_iff {e : Value × Service} :
    Succeeds (b.serviceProblems check e) s ↔ b.ReportableService e := by
  obtain ⟨name, service⟩ := e
  have hchecks : Succeeds (b.serviceProblems check (name, service)) s ↔
      (∃ found, Problem.notedIf (service.units < 0) (.negativeUnits name) = .ok found)
        ∧ (∃ found, charmProblems name service.charm = .ok found)
        ∧ (∃ words, (Owner.service name).shown = .ok words)
        ∧ (∃ found, Problem.notedIf (service.units < service.placements.length)
          (.tooManyPlacements name) = .ok found)
        ∧ ∃ found, service.placements.mapM b.placementProblems = .ok found := by
    unfold serviceProblems
    refine (Succeeds.bind_iff fun _ _ => ?_).trans (and_congr_left' Succeeds.ofOutcome_iff)
    refine (Succeeds.bind_iff fun _ _ => ?_).trans (and_congr_left' Succeeds.ofOutcome_iff)
    refine (Succeeds.bind_iff fun _ _ => ?_).trans
      (and_congr_left' succeeds_constraintsProblems_iff)
    refine (Succeeds.bind_iff fun _ _ => ?_).trans (and_congr_left' Succeeds.ofOutcome_iff)
    exact (Succeeds.bind_iff_left fun _ _ => Succeeds.pure _).trans Succeeds.ofOutcome_iff
  have hshown {words : String → String} :
      (∃ shown, name.shown.map words = .ok shown) ↔ ∃ shown, name.shown = .ok shown :=
    exists_map_eq_ok_iff
  have hplaced : (∃ found, service.placements.mapM b.placementProblems = .ok found) ↔
      ∀ d ∈ service.placements, b.Reads d := by
    rw [exists_mapM_eq_ok_iff]
    exact forall₂_congr fun d _ => exists_placementProblems_iff
  rw [hchecks, exists_notedIf_iff, exists_notedIf_iff, hplaced, Owner.shown, Problem.message,
    Problem.message, hshown, hshown, hshown]
  constructor
  · intro h
    obtain ⟨-, hcharm, hname, -, hdirectives⟩ := h
    exact ⟨hname, (exists_charmProblems_iff hname).1 hcharm, hdirectives⟩
  · intro h
    exact ⟨fun _ => h.name, (exists_charmProblems_iff h.name).2 h.charm, h.name, fun _ => h.name,
      h.placed⟩

theorem succeeds_machineProblems (e : String × Machine) :
    Succeeds (machineProblems check e) s := by
  unfold machineProblems
  rw [Succeeds.bind_iff_left fun _ _ => Succeeds.pure _, succeeds_constraintsProblems_iff]
  exact ⟨_, rfl⟩

theorem succeeds_problems_iff : Succeeds (b.problems check) s ↔ b.Reportable := by
  have hchecks : Succeeds (b.problems check) s ↔
      (∃ found, b.allRelationProblems = .ok found) ∧ ∀ e ∈ b.services, b.ReportableService e := by
    unfold problems
    refine (Succeeds.bind_iff fun _ _ => ?_).trans (and_congr_left' Succeeds.ofOutcome_iff)
    refine (Succeeds.bind_iff_left fun _ _ => ?_).trans
      (Succeeds.mapM_iff (fun e s₁ => succeeds_serviceProblems_iff) b.services)
    refine (Succeeds.bind_iff_left fun _ _ => Succeeds.pure _).2 ?_
    exact (Succeeds.mapM_iff (P := fun _ => True)
      (fun e s₁ => iff_true_intro (succeeds_machineProblems e)) b.machines).2 fun _ _ => trivial
  rw [hchecks, exists_allRelationProblems_iff]
  exact ⟨fun h => ⟨h.1, h.2⟩, fun h => ⟨h.relations, h.services⟩⟩

-- =============================================================== failures

/-- Texts and short numbers can always be put in words, so a bundle of texts whose numbers are short
is always reported on. -/
theorem reportable_of_texts
    (hrelations : ∀ r ∈ b.relations, ∀ v ∈ r, v.isText = true)
    (hservices : ∀ e ∈ b.services, e.1.isText = true ∧ e.2.charm.isText = true
      ∧ e.2.units.natAbs < Nat.pow 10 maxDigits ∧ ∀ d ∈ e.2.placements, d.length ≤ maxDigits) :
    b.Reportable := by
  constructor
  · intro r hr v hv
    obtain ⟨text, rfl⟩ := Value.isText_iff.1 (hrelations r hr v hv)
    exact ⟨⟨_, shown_text text⟩, fun _ _ _ => exists_shown_texts (hrelations r hr)⟩
  · intro e he
    obtain ⟨hname, hcharm, -, hplacements⟩ := hservices e he
    obtain ⟨name, hname⟩ := Value.isText_iff.1 hname
    refine ⟨⟨_, hname ▸ shown_text name⟩, hcharm, fun d hd => ⟨fun hlong => ?_, ?_⟩⟩
    · exact absurd (hplacements d hd) (Nat.not_le.2 hlong.length)
    · intro p hp target unit service htarget hservice hrange
      obtain ⟨found, hmem⟩ := mem_of_service? hservice
      rw [Value.shownInteger, if_pos (hservices _ hmem).2.2.1]
      exact ⟨_, rfl⟩

/-- The raw contents of a bundle with one service, whose charm is a number. -/
def numberedCharm : Value :=
  .map [(.text "services", .map [(.text "a", .map [(.text "charm", .int 5)])])]

/-- Such a bundle is decoded, and its verification ends without a report. -/
theorem numberedCharm_unreported :
    ∃ b, decode numberedCharm = .ok b
      ∧ ∀ found s', ¬ Runs (b.problems fun _ => pure none) () (.ok found) s' := by
  have hread : ((decode numberedCharm).toOption.any fun b =>
      b.services.any fun e => !e.2.charm.isText) = true := by
    decide +kernel
  cases hb : decode numberedCharm with
  | error f =>
    rw [hb] at hread
    cases hread
  | ok b =>
    rw [hb] at hread
    obtain ⟨e, he, hcharm⟩ := List.any_eq_true.1 hread
    refine ⟨b, rfl, fun found s' h => ?_⟩
    have hreportable := succeeds_problems_iff.1 ⟨found, s', h⟩
    rw [(hreportable.services e he).charm] at hcharm
    cases hcharm

end Deployment

end CharmDepot
