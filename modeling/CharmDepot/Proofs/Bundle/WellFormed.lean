/-
What verification accepts.

`Deployment.WellFormed` says what a sound bundle is without running a check: its relations join
services that it has, its services have room for their directives and charms that are identities,
every directive points at something that is there, and every machine has a number for its id and is
pointed at.

`problems_eq_nil_iff` ties the two together for every bundle and every checker of constraints, one
with a memory of its own included: verification comes to its end without a problem exactly if the
bundle is well formed, the checker accepts the constraints in the order in which it is consulted,
and the names of the services can be put in words.

# The last condition

What a check of constraints is about is put in words before the checker speaks. So the name of a
service that has no written form ends the verification, however sound the bundle is. Names that are
texts always have one; `longNamed_rejected` is the smallest kind of name that has none, an integer
of more digits than are written.
-/
import CharmDepot.Bundle.Problems
import CharmDepot.Proofs.Value.Written

namespace CharmDepot

open Text

-- ========================================================== numerals

/-- A number in ASCII digits without leading zeros. -/
def IsNumeral (cs : List Char) : Prop :=
  cs = ['0'] ∨ ∃ first rest, cs = first :: rest ∧ '1' ≤ first ∧ first ≤ '9'
    ∧ ∀ c ∈ rest, '0' ≤ c ∧ c ≤ '9'

/-- The id of a machine: a numeral, behind which one line feed may stand. -/
def IsMachineId (id : String) : Prop :=
  ∃ cs, IsNumeral cs ∧ (id.toList = cs ∨ id.toList = cs ++ ['\n'])

theorem isDigit_iff (c : Char) : c.isDigit = true ↔ '0' ≤ c ∧ c ≤ '9' := by
  rw [Char.isDigit, Bool.and_eq_true, decide_eq_true_eq, decide_eq_true_eq]
  rfl

theorem isCanonicalNumber_iff (cs : List Char) : isCanonicalNumber cs = true ↔ IsNumeral cs := by
  unfold isCanonicalNumber IsNumeral
  split
  · simp
  · rename_i first rest hne
    simp only [Bool.and_eq_true, decide_eq_true_eq, List.all_eq_true, isDigit_iff, List.cons.injEq]
    constructor
    · intro h
      obtain ⟨⟨h1, h9⟩, hrest⟩ := h
      exact .inr ⟨first, rest, ⟨rfl, rfl⟩, h1, h9, hrest⟩
    · intro h
      obtain ⟨rfl, rfl⟩ | ⟨_, _, ⟨rfl, rfl⟩, h1, h9, hrest⟩ := h
      · exact absurd rfl (hne rfl)
      · exact ⟨⟨h1, h9⟩, hrest⟩
  · simp

/-- A numeral ends in no line feed. -/
theorem IsNumeral.getLast?_ne {cs : List Char} (h : IsNumeral cs) : cs.getLast? ≠ some '\n' := by
  intro hlast
  have hmem : '\n' ∈ cs := List.mem_of_getLast? hlast
  rcases h with rfl | ⟨first, rest, rfl, h1, -, hrest⟩
  · simp at hmem
  · rcases List.mem_cons.1 hmem with hfirst | hmem
    · rw [← hfirst] at h1
      exact absurd h1 (by decide)
    · exact absurd (hrest _ hmem).1 (by decide)

/-- The check of an id passes over one line feed at its end, and asks for a numeral. -/
theorem isCanonicalNumber_dropFinalNewline_iff (id : String) :
    isCanonicalNumber (dropFinalNewline id.toList) = true ↔ IsMachineId id := by
  rw [isCanonicalNumber_iff]
  unfold dropFinalNewline IsMachineId
  constructor
  · intro h
    refine ⟨_, h, ?_⟩
    split
    · rename_i hlast
      exact .inr (List.dropLast_append_getLast? _ hlast).symm
    · exact .inl rfl
  · intro h
    obtain ⟨cs, hcs, h | h⟩ := h
    · -- a numeral ends in no line feed, so nothing of it is dropped
      rw [h, if_neg hcs.getLast?_ne]
      exact hcs
    · rw [h, if_pos (by simp), List.dropLast_concat]
      exact hcs

/-- What the owner of constraints is told after the answer of a checker. -/
def Owner.rejection (owner : Owner) : Option String → List Problem
  | none => []
  | some reason => [.invalidConstraints owner reason]

namespace Deployment

variable {σ : Type} {b : Deployment} {s s' : σ}

-- ===================================================== well-formedness

/-- The bundle has a service of this name. -/
def Defines (b : Deployment) (name : String) : Prop :=
  ∃ service, (Value.text name, service) ∈ b.services

/-- A relation has two endpoints, which belong to two services of the bundle. -/
def Joins (b : Deployment) (relation : List Value) : Prop :=
  ∃ v w e f, relation = [v, w] ∧ Endpoint.parse v = .ok e ∧ Endpoint.parse w = .ok f
    ∧ b.Defines e.service ∧ b.Defines f.service ∧ e.service ≠ f.service

/-- What a directive points at is there: a machine or a service of the bundle, or a unit of a
service below the last one. -/
def Offers (b : Deployment) : Target → Prop
  | .newMachine => True
  | .machine id => ∃ spec, (id, spec) ∈ b.machines
  | .service name none => b.Defines name
  | .service name (some unit) => ∃ target, b.service? name = some target ∧ unit < target.units - 1

/-- A directive is well formed and points at something that is there. -/
def Places (b : Deployment) (directive : String) : Prop :=
  ∃ p, Placement.parse directive = .ok p ∧ b.Offers p.target

/-- Some directive of the bundle points at the machine of this id. -/
def Uses (b : Deployment) (id : String) : Prop :=
  ∃ e ∈ b.services, ∃ d ∈ e.2.placements, ∃ p, Placement.parse d = .ok p ∧ p.target = .machine id

/-- A service of a sound bundle, its constraints apart. -/
structure SoundService (b : Deployment) (service : Service) : Prop where
  units_nonneg : 0 ≤ service.units
  charm : ∃ text u, service.charm = .text text ∧ Url.parse text = .ok u
  room : service.placements.length ≤ service.units
  placed : ∀ d ∈ service.placements, b.Places d

/-- A sound bundle, its constraints apart. -/
structure WellFormed (b : Deployment) : Prop where
  relations : ∀ r ∈ b.relations, b.Joins r
  services : ∀ e ∈ b.services, b.SoundService e.2
  machines : ∀ e ∈ b.machines, IsMachineId e.1
  used : ∀ e ∈ b.machines, b.Uses e.1

/-- The constraints of a bundle in the order in which a checker is consulted about them. -/
def constraints (b : Deployment) : List Value :=
  b.services.map (·.2.constraints) ++ b.machines.map (·.2.constraints)

/-- A checker, consulted about these values one after the other, accepts all of them. It starts in
the first state and ends in the second. -/
def Accepts (check : Value → StateM σ (Option String)) : List Value → σ → σ → Prop
  | [], s, s' => s' = s
  | v :: vs, s, s' => ∃ s₁, ((check v).run s).run = (none, s₁) ∧ Accepts check vs s₁ s'

-- ================================================ single problems

/-- A problem that is there is never passed over. -/
theorem noted_ne_nil (p : Problem) : p.noted ≠ .ok [] := by
  unfold Problem.noted
  intro h
  obtain ⟨_, -, h⟩ := Outcome.map_eq_ok.1 h
  cases h

theorem notedIf_eq_nil_iff {isThere : Bool} {p : Problem} :
    Problem.notedIf isThere p = .ok [] ↔ isThere = false := by
  unfold Problem.notedIf
  cases isThere with
  | false => simp
  | true => simpa using noted_ne_nil p

theorem service?_isSome_iff (b : Deployment) (name : String) :
    (b.service? name).isSome = true ↔ b.Defines name := by
  unfold service? Defines
  rw [Option.isSome_map, List.find?_isSome]
  constructor
  · intro h
    obtain ⟨⟨v, service⟩, hmem, hv⟩ := h
    rw [Value.same_text_iff] at hv
    exact ⟨service, hv ▸ hmem⟩
  · intro h
    obtain ⟨service, hmem⟩ := h
    exact ⟨_, hmem, (Value.same_text_iff _ _).2 rfl⟩

theorem hasMachine_iff (b : Deployment) (id : String) :
    b.hasMachine id = true ↔ ∃ spec, (id, spec) ∈ b.machines := by
  unfold hasMachine
  rw [List.any_eq_true]
  constructor
  · intro h
    obtain ⟨⟨found, spec⟩, hmem, hid⟩ := h
    rw [beq_iff_eq] at hid
    exact ⟨spec, hid ▸ hmem⟩
  · intro h
    obtain ⟨spec, hmem⟩ := h
    exact ⟨_, hmem, beq_self_eq_true id⟩

-- ====================================================== relations

theorem endpointProblems_eq_nil_iff {relation : List Value} {v : Value} {name? : Option String} :
    b.endpointProblems relation v = .ok ([], name?) ↔
      ∃ e, Endpoint.parse v = .ok e ∧ b.Defines e.service ∧ name? = some e.service := by
  unfold endpointProblems
  split
  · rename_i h
    simp [h]
  · rename_i h
    simp [h]
  · rename_i e h
    rw [Outcome.map_eq_ok]
    constructor
    · intro h
      obtain ⟨problems, hnoted, hpair⟩ := h
      obtain ⟨rfl, rfl⟩ := Prod.mk.inj hpair
      rw [notedIf_eq_nil_iff, Option.isNone_eq_false_iff, service?_isSome_iff] at hnoted
      exact ⟨e, h, hnoted, rfl⟩
    · intro h
      obtain ⟨e', he, hdef, rfl⟩ := h
      obtain rfl : e = e' := Except.ok.inj (h.symm.trans he)
      refine ⟨[], ?_, rfl⟩
      rw [notedIf_eq_nil_iff, Option.isNone_eq_false_iff, service?_isSome_iff]
      exact hdef

/-- A relation has no problem exactly if it joins two services of the bundle. -/
theorem relationProblems_eq_nil_iff {index : Nat} {relation : List Value} :
    b.relationProblems index relation = .ok [] ↔ b.Joins relation := by
  unfold relationProblems
  simp only [Outcome.bind_eq_ok]
  constructor
  · intro h
    obtain ⟨wrongSize, hsize, ends, hends, related, hrelated, hnil⟩ := h
    have hnil := List.append_eq_nil_iff.1 (Except.ok.inj hnil)
    obtain ⟨rfl, hclean⟩ := List.append_eq_nil_iff.1 hnil.1
    obtain rfl := hnil.2
    rw [notedIf_eq_nil_iff, bne_eq_false_iff_eq] at hsize
    obtain ⟨v, w, rfl⟩ := List.length_eq_two.1 hsize
    rw [Outcome.mapM_eq_ok_iff] at hends
    obtain ⟨⟨p, n⟩, _, hv, htail, rfl⟩ := List.forall₂_cons_left_iff.1 hends
    obtain ⟨⟨q, m⟩, _, hw, hrest, rfl⟩ := List.forall₂_cons_left_iff.1 htail
    obtain rfl := List.forall₂_nil_left_iff.1 hrest
    simp only [List.flatMap_cons, List.flatMap_nil, List.append_nil,
      List.append_eq_nil_iff] at hclean
    obtain ⟨rfl, rfl⟩ := hclean
    obtain ⟨e, he, hedef, rfl⟩ := endpointProblems_eq_nil_iff.1 hv
    obtain ⟨f, hf, hfdef, rfl⟩ := endpointProblems_eq_nil_iff.1 hw
    rw [notedIf_eq_nil_iff] at hrelated
    exact ⟨v, w, e, f, rfl, he, hf, hedef, hfdef, by simpa using hrelated⟩
  · intro h
    obtain ⟨v, w, e, f, rfl, he, hf, hedef, hfdef, hne⟩ := h
    have hv : b.endpointProblems [v, w] v = .ok ([], some e.service) :=
      endpointProblems_eq_nil_iff.2 ⟨e, he, hedef, rfl⟩
    have hw : b.endpointProblems [v, w] w = .ok ([], some f.service) :=
      endpointProblems_eq_nil_iff.2 ⟨f, hf, hfdef, rfl⟩
    refine ⟨[], notedIf_eq_nil_iff.2 rfl, [([], some e.service), ([], some f.service)], ?_, [], ?_,
      rfl⟩
    · exact Outcome.mapM_eq_ok_iff.2 (.cons hv (.cons hw .nil))
    · rw [notedIf_eq_nil_iff]
      simpa using hne

theorem allRelationProblems_eq_nil_iff :
    b.allRelationProblems = .ok [] ↔ ∀ r ∈ b.relations, b.Joins r := by
  unfold allRelationProblems
  rw [Outcome.mapM_flatten_eq_nil]
  constructor
  · intro h r hr
    obtain ⟨i, hi, rfl⟩ := List.mem_iff_getElem.1 hr
    have hmem : (b.relations[i], i) ∈ b.relations.zipIdx := by
      rw [List.mk_mem_zipIdx_iff_getElem?]
      exact List.getElem?_eq_getElem hi
    exact relationProblems_eq_nil_iff.1 (h _ hmem)
  · intro h e hmem
    obtain ⟨r, i⟩ := e
    exact relationProblems_eq_nil_iff.2 (h r (List.fst_mem_of_mem_zipIdx hmem))

-- ===================================================== placements

theorem targetProblem?_eq_none_iff {directive : String} {target : Target} :
    b.targetProblem? directive target = none ↔ b.Offers target := by
  cases target with
  | newMachine => simp [targetProblem?, Offers]
  | machine id =>
    rw [Offers, ← hasMachine_iff]
    simp [targetProblem?]
  | service name unit =>
    cases unit with
    | none =>
      rw [Offers, ← service?_isSome_iff]
      cases h : b.service? name <;> simp [targetProblem?, h]
    | some unit =>
      rw [Offers]
      cases h : b.service? name with
      | none => simp [targetProblem?, h]
      | some target =>
        simp only [targetProblem?, h, ite_eq_right_iff, reduceCtorEq, imp_false, Int.not_le,
          Option.some.injEq, exists_eq_left']

theorem placementProblems_eq_nil_iff {directive : String} :
    b.placementProblems directive = .ok [] ↔ b.Places directive := by
  unfold placementProblems Places
  split
  · rename_i p hp
    constructor
    · intro h
      split at h
      · exact absurd h (noted_ne_nil _)
      · rename_i hnone
        exact ⟨p, hp, targetProblem?_eq_none_iff.1 hnone⟩
    · intro h
      obtain ⟨q, hq, hoffers⟩ := h
      obtain rfl : p = q := Except.ok.inj (hp.symm.trans hq)
      rw [targetProblem?_eq_none_iff.2 hoffers]
  · rename_i hp
    simp [hp]
  · rename_i hp
    simp [hp]

/-- The machine that a directive is placed on is the one that it points at, if the bundle has it. -/
theorem placedMachine?_eq_some_iff {directive id : String} :
    b.placedMachine? directive = some id ↔
      (∃ p, Placement.parse directive = .ok p ∧ p.target = .machine id)
        ∧ ∃ spec, (id, spec) ∈ b.machines := by
  rw [← hasMachine_iff]
  unfold placedMachine?
  split
  · rename_i c i hp
    simp only [hp, Except.ok.injEq, exists_eq_left', Target.machine.injEq,
      Option.ite_none_right_eq_some, Option.some.injEq]
    constructor
    · intro h
      obtain ⟨hhas, rfl⟩ := h
      exact ⟨rfl, hhas⟩
    · intro h
      obtain ⟨rfl, hhas⟩ := h
      exact ⟨hhas, rfl⟩
  · rename_i hother
    simp only [reduceCtorEq, false_iff]
    intro h
    obtain ⟨⟨⟨c, t⟩, hp, rfl⟩, -⟩ := h
    exact hother c id hp

/-- A machine of the bundle is used exactly if the count of its uses is not zero. -/
theorem machineUses_pos_iff :
    (∀ use ∈ b.machineUses, use.2 ≠ 0) ↔ ∀ e ∈ b.machines, b.Uses e.1 := by
  unfold machineUses Uses
  rw [List.forall_mem_map]
  refine forall₂_congr fun e he => ?_
  rw [← Nat.pos_iff_ne_zero, List.count_pos_iff, List.mem_flatMap]
  refine exists_congr fun service => and_congr_right fun _ => ?_
  rw [List.mem_filterMap]
  refine exists_congr fun directive => and_congr_right fun _ => ?_
  rw [placedMachine?_eq_some_iff]
  exact and_iff_left ⟨e.2, he⟩

-- ======================================================= services

theorem charmProblems_eq_nil_iff {name charm : Value} :
    charmProblems name charm = .ok [] ↔ ∃ text u, charm = .text text ∧ Url.parse text = .ok u := by
  have hread : (∃ u, Url.ofValue charm = .ok u) ↔
      ∃ text u, charm = .text text ∧ Url.parse text = .ok u := by
    cases charm <;> simp [Url.ofValue]
  rw [← hread]
  unfold charmProblems
  split
  · rename_i u hu
    simp [hu]
  · rename_i f hf
    constructor
    · intro h
      split at h
      · exact absurd h (noted_ne_nil _)
      · cases h
    · intro h
      obtain ⟨u, hu⟩ := h
      cases hf.symm.trans hu

variable {check : Value → StateM σ (Option String)}

/-- A check of constraints ends in what its owner is told after the answer of the checker, if the
owner can be put in words. -/
theorem runs_constraintsProblems_ok_iff {owner : Owner} {v : Value} {found : List Problem} :
    Runs (constraintsProblems check owner v) s (.ok found) s' ↔
      (∃ shown, owner.shown = .ok shown)
        ∧ ∃ answer, ((check v).run s).run = (answer, s') ∧ owner.rejection answer = found := by
  unfold constraintsProblems
  simp only [Runs.bind_ok_iff, Runs.ofOutcome_iff, Runs.lift_iff]
  constructor
  · intro h
    obtain ⟨shown, s₀, ⟨hshown, rfl⟩, answer, s₁, ⟨hanswer, hs₁⟩, h⟩ := h
    have hcheck : ((check v).run s₀).run = (answer, s₁) :=
      Prod.ext (Except.ok.inj hanswer).symm hs₁.symm
    refine ⟨⟨shown, hshown.symm⟩, answer, ?_⟩
    cases answer with
    | none =>
      obtain ⟨hfound, rfl⟩ := Runs.pure_iff.1 h
      exact ⟨hcheck, (Except.ok.inj hfound).symm⟩
    | some reason =>
      obtain ⟨hfound, rfl⟩ := Runs.pure_iff.1 h
      exact ⟨hcheck, (Except.ok.inj hfound).symm⟩
  · intro h
    obtain ⟨⟨shown, hshown⟩, answer, hcheck, rfl⟩ := h
    refine ⟨shown, s, ⟨hshown.symm, rfl⟩, answer, s', ⟨?_, ?_⟩, ?_⟩
    · exact congrArg Except.ok (congrArg Prod.fst hcheck).symm
    · exact (congrArg Prod.snd hcheck).symm
    · cases answer with
      | none => exact Runs.pure_iff.2 ⟨rfl, rfl⟩
      | some reason => exact Runs.pure_iff.2 ⟨rfl, rfl⟩

/-- A check of constraints finds nothing if what it is about can be put in words and the checker
accepts. -/
theorem runs_constraintsProblems_iff {owner : Owner} {v : Value} :
    Runs (constraintsProblems check owner v) s (.ok []) s' ↔
      (∃ shown, owner.shown = .ok shown) ∧ ((check v).run s).run = (none, s') := by
  rw [runs_constraintsProblems_ok_iff]
  refine and_congr_right fun _ => ⟨?_, fun hcheck => ⟨none, hcheck, rfl⟩⟩
  rintro ⟨answer, hcheck, hnil⟩
  cases answer with
  | none => exact hcheck
  | some reason => cases hnil

/-- A service has no problem exactly if it is sound, its name can be put in words, and the checker
accepts its constraints. -/
theorem runs_serviceProblems_iff {e : Value × Service} :
    Runs (b.serviceProblems check e) s (.ok []) s' ↔
      (b.SoundService e.2 ∧ ∃ shown, e.1.shown = .ok shown)
        ∧ ((check e.2.constraints).run s).run = (none, s') := by
  obtain ⟨name, service⟩ := e
  have hname :
      (∃ shown, (Owner.service name).shown = .ok shown) ↔ ∃ shown, name.shown = .ok shown := by
    simp [Owner.shown, Outcome.map_eq_ok]
  unfold serviceProblems
  -- of all the checks, only that of the constraints has a memory to carry on
  simp only [Runs.bind_ok_iff, Runs.ofOutcome_iff, Runs.pure_iff]
  constructor
  · intro h
    obtain ⟨negative, _, ⟨hneg, rfl⟩, charm, _, ⟨hcharm, rfl⟩, found, s₁, hcheck, tooMany, _,
      ⟨hmany, rfl⟩, placed, _, ⟨hplaced, rfl⟩, hnil, rfl⟩ := h
    have hnil := Except.ok.inj hnil
    simp only [List.nil_eq, List.append_eq_nil_iff] at hnil
    obtain ⟨⟨⟨⟨rfl, rfl⟩, rfl⟩, rfl⟩, hplacednil⟩ := hnil
    obtain ⟨hshown, haccept⟩ := runs_constraintsProblems_iff.1 hcheck
    have hunits := notedIf_eq_nil_iff.1 hneg.symm
    have hroom := notedIf_eq_nil_iff.1 hmany.symm
    have hall := Outcome.mapM_flatten_eq_nil.1
      (Outcome.map_eq_ok.2 ⟨placed, hplaced.symm, hplacednil⟩)
    refine ⟨⟨⟨?_, charmProblems_eq_nil_iff.1 hcharm.symm, ?_, fun d hd => ?_⟩, hname.1 hshown⟩,
      haccept⟩
    · simpa using hunits
    · simpa using hroom
    · exact placementProblems_eq_nil_iff.1 (hall d hd)
  · intro h
    obtain ⟨⟨hsound, hshown⟩, haccept⟩ := h
    have hall := Outcome.mapM_flatten_eq_nil.2 fun d hd =>
      placementProblems_eq_nil_iff.2 (hsound.placed d hd)
    obtain ⟨placed, hplaced, hplacednil⟩ := Outcome.map_eq_ok.1 hall
    refine ⟨[], s, ⟨?_, rfl⟩, [], s, ⟨?_, rfl⟩, [], s', ?_, [], s', ⟨?_, rfl⟩, placed, s',
      ⟨hplaced.symm, rfl⟩, ?_, rfl⟩
    · rw [eq_comm, notedIf_eq_nil_iff]
      simpa using hsound.units_nonneg
    · rw [eq_comm, charmProblems_eq_nil_iff]
      exact hsound.charm
    · exact runs_constraintsProblems_iff.2 ⟨hname.2 hshown, haccept⟩
    · rw [eq_comm, notedIf_eq_nil_iff]
      simpa using hsound.room
    · simp [hplacednil]

theorem runs_machineProblems_iff {e : String × Machine} :
    Runs (machineProblems check e) s (.ok []) s' ↔
      IsMachineId e.1 ∧ ((check e.2.constraints).run s).run = (none, s') := by
  obtain ⟨id, spec⟩ := e
  unfold machineProblems
  simp only [Runs.bind_ok_iff, Runs.pure_iff]
  rw [← isCanonicalNumber_dropFinalNewline_iff]
  constructor
  · intro h
    obtain ⟨found, s₁, hcheck, hnil, rfl⟩ := h
    have hnil := Except.ok.inj hnil
    simp only [List.nil_eq, List.append_eq_nil_iff] at hnil
    obtain ⟨hid, rfl⟩ := hnil
    exact ⟨by simpa using hid, (runs_constraintsProblems_iff.1 hcheck).2⟩
  · intro h
    obtain ⟨hid, haccept⟩ := h
    exact ⟨[], s', runs_constraintsProblems_iff.2 ⟨⟨_, rfl⟩, haccept⟩, by simp [hid], rfl⟩

-- ==================================================== verification

theorem accepts_append_iff {vs ws : List Value} :
    Accepts check (vs ++ ws) s s' ↔ ∃ s₁, Accepts check vs s s₁ ∧ Accepts check ws s₁ s' := by
  induction vs generalizing s with
  | nil => simp [Accepts]
  | cons v vs ih =>
    simp only [List.cons_append, Accepts, ih]
    constructor
    · intro h
      obtain ⟨s₁, hv, s₂, hvs, hws⟩ := h
      exact ⟨s₂, ⟨s₁, hv, hvs⟩, hws⟩
    · intro h
      obtain ⟨s₂, ⟨s₁, hv, hvs⟩, hws⟩ := h
      exact ⟨s₁, hv, s₂, hvs, hws⟩

/-- The items of a list, each of which the checker is consulted about once, have no problem exactly
if each is sound and the checker accepts the constraints of all. -/
theorem runs_mapM_flatten_iff {α : Type} {find : α → ExceptT Fault (StateM σ) (List Problem)}
    {Sound : α → Prop} {constraintsOf : α → Value}
    (hfind : ∀ a s s', Runs (find a) s (.ok []) s' ↔
      Sound a ∧ ((check (constraintsOf a)).run s).run = (none, s')) (l : List α) :
    (∃ r, Runs (l.mapM find) s (.ok r) s' ∧ r.flatten = []) ↔
      (∀ a ∈ l, Sound a) ∧ Accepts check (l.map constraintsOf) s s' := by
  induction l generalizing s with
  | nil => simp [Runs.pure_iff, Accepts]
  | cons a l ih =>
    simp only [Runs.mapM_cons_ok_iff, List.forall_mem_cons, List.map_cons, Accepts]
    constructor
    · intro h
      obtain ⟨_, ⟨found, s₁, others, ha, hl, rfl⟩, hnil⟩ := h
      rw [List.flatten_cons, List.append_eq_nil_iff] at hnil
      obtain ⟨rfl, hothers⟩ := hnil
      obtain ⟨hsound, haccept⟩ := (hfind a s s₁).1 ha
      obtain ⟨hall, hrest⟩ := ih.1 ⟨others, hl, hothers⟩
      exact ⟨⟨hsound, hall⟩, s₁, haccept, hrest⟩
    · intro h
      obtain ⟨⟨hsound, hall⟩, s₁, haccept, hrest⟩ := h
      obtain ⟨others, hl, hothers⟩ := ih.2 ⟨hall, hrest⟩
      exact ⟨[] :: others, ⟨[], s₁, others, (hfind a s s₁).2 ⟨hsound, haccept⟩, hl, rfl⟩,
        by simpa using hothers⟩

/-- The machines that are reported as unused are those that no directive points at. -/
theorem unused_eq_nil_iff :
    (b.machineUses.filterMap fun (id, count) =>
      if count = 0 then some (Problem.unusedMachine id) else none) = [] ↔
        ∀ e ∈ b.machines, b.Uses e.1 := by
  rw [← machineUses_pos_iff, List.filterMap_eq_nil_iff]
  exact forall₂_congr fun use _ => by simp

/-- Verification of a bundle comes to its end without a problem exactly if the bundle is well
formed, every name of a service can be put in words, and the checker accepts the constraints, one
after the other. -/
theorem problems_eq_nil_iff (b : Deployment) (check : Value → StateM σ (Option String))
    (s s' : σ) :
    Runs (b.problems check) s (.ok []) s' ↔
      b.WellFormed ∧ (∀ e ∈ b.services, ∃ shown, e.1.shown = .ok shown)
        ∧ Accepts check b.constraints s s' := by
  have hservices (s s' : σ) :
      (∃ r, Runs (b.services.mapM (b.serviceProblems check)) s (.ok r) s' ∧ r.flatten = []) ↔
        (∀ e ∈ b.services, b.SoundService e.2 ∧ ∃ shown, e.1.shown = .ok shown)
          ∧ Accepts check (b.services.map (·.2.constraints)) s s' :=
    runs_mapM_flatten_iff (fun _ _ _ => runs_serviceProblems_iff) b.services
  have hmachines (s s' : σ) :
      (∃ r, Runs (b.machines.mapM (machineProblems check)) s (.ok r) s' ∧ r.flatten = []) ↔
        (∀ e ∈ b.machines, IsMachineId e.1)
          ∧ Accepts check (b.machines.map (·.2.constraints)) s s' :=
    runs_mapM_flatten_iff (fun _ _ _ => runs_machineProblems_iff) b.machines
  unfold problems constraints
  -- what the checker remembers goes from the services on to the machines
  rw [accepts_append_iff]
  simp only [Runs.bind_ok_iff, Runs.ofOutcome_iff, Runs.pure_iff]
  constructor
  · intro h
    obtain ⟨relations, _, ⟨hrelations, rfl⟩, services, s₁, hserv, machines, _, hmach, hnil,
      rfl⟩ := h
    have hnil := Except.ok.inj hnil
    simp only [List.nil_eq, List.append_eq_nil_iff] at hnil
    obtain ⟨⟨⟨rfl, hservnil⟩, hmachnil⟩, hunused⟩ := hnil
    obtain ⟨hsound, haccept⟩ := (hservices _ s₁).1 ⟨services, hserv, hservnil⟩
    obtain ⟨hids, haccept'⟩ := (hmachines s₁ s').1 ⟨machines, hmach, hmachnil⟩
    refine ⟨⟨?_, fun e he => (hsound e he).1, hids, unused_eq_nil_iff.1 hunused⟩,
      fun e he => (hsound e he).2, s₁, haccept, haccept'⟩
    exact allRelationProblems_eq_nil_iff.1 hrelations.symm
  · intro h
    obtain ⟨hwf, hshown, s₁, haccept, haccept'⟩ := h
    obtain ⟨services, hserv, hservnil⟩ :=
      (hservices s s₁).2 ⟨fun e he => ⟨hwf.services e he, hshown e he⟩, haccept⟩
    obtain ⟨machines, hmach, hmachnil⟩ := (hmachines s₁ s').2 ⟨hwf.machines, haccept'⟩
    refine ⟨[], s, ⟨?_, rfl⟩, services, s₁, hserv, machines, s', hmach, ?_, rfl⟩
    · rw [eq_comm, allRelationProblems_eq_nil_iff]
      exact hwf.relations
    · simp [hservnil, hmachnil, unused_eq_nil_iff.2 hwf.used]

-- ========================================================= long names

/-- A bundle of one sound service, whose name is an integer of more than 4300 digits. -/
def longNamed : Deployment where
  services := [(.int (16 ^ Number.maxDigits),
    ⟨.text "cs:precise/wordpress", 0, [], [], [], .text ""⟩)]
  machines := []
  series := .text ""
  relations := []

/-- A name that has no written form ends the verification of a bundle that is well formed and whose
constraints are accepted: there is not even a list of problems. -/
theorem longNamed_rejected :
    (∀ e ∈ longNamed.services, e.2.charm.isText = true ∧ e.2.placements = [])
      ∧ longNamed.WellFormed ∧ Accepts (fun _ => pure none) longNamed.constraints () ()
      ∧ ∀ found s', ¬ Runs (longNamed.problems fun _ => pure none) () (.ok found) s' := by
  refine ⟨?_, ⟨?_, ?_, ?_, ?_⟩, ?_, ?_⟩
  · simp [longNamed, Value.isText]
  · simp [longNamed]
  · intro e he
    obtain rfl := List.mem_singleton.1 he
    exact ⟨Int.le_refl _, ⟨_, _, rfl, rfl⟩, Int.le_refl _, by simp⟩
  · simp [longNamed]
  · simp [longNamed]
  · exact ⟨(), rfl, rfl⟩
  · intro found s' h
    unfold problems at h
    simp only [Runs.bind_ok_iff] at h
    -- the name is put in words before the checker is consulted
    obtain ⟨_, s₁, -, services, s₂, hservices, -⟩ := h
    obtain ⟨_, s₃, _, hservice, -, -⟩ := Runs.mapM_cons_ok_iff.1 hservices
    unfold serviceProblems constraintsProblems at hservice
    simp only [Runs.bind_ok_iff, Runs.ofOutcome_iff] at hservice
    obtain ⟨_, _, -, _, _, -, _, _, ⟨shown, _, ⟨hshown, -⟩, -⟩, -⟩ := hservice
    rw [Owner.shown, Value.shown_int_of_long (Value.pow_le_natAbs_pow _)] at hshown
    cases hshown

end Deployment

end CharmDepot
