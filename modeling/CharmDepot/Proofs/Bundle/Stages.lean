/-
The stages of a verification.

Verification looks at the relations, then at the services, then at the machines, and last at how
often the directives refer to each machine. Every problem belongs to one of these stages, and no
check finds a problem of another stage than its own. So a report is made of four parts, one after
the other (`runs_problems_iff`), and what stage a problem is of says in which part it stands.
-/
import CharmDepot.Proofs.Bundle.WellFormed

namespace CharmDepot

open Outcome

/-- A stage of the verification. -/
inductive Stage
  | relations
  | services
  | machines
  | uses
  deriving Repr, DecidableEq

/-- The stage that a problem belongs to. -/
def Problem.stage : Problem → Stage
  | relationSize .. | malformedEndpoint _ | undefinedService .. | selfRelation _ => .relations
  | negativeUnits _ | invalidCharm .. | tooManyPlacements _ | malformedPlacement _
  | unknownService _ | unitOutOfRange .. | unknownMachine _ => .services
  | invalidConstraints (.service _) _ => .services
  | invalidConstraints (.machine _) _ | invalidMachineId _ => .machines
  | unusedMachine _ => .uses

/-- The stage in which the constraints of an owner are checked. -/
def Owner.stage : Owner → Stage
  | service _ => .services
  | machine _ => .machines

/-- A problem of a directive. -/
inductive Problem.OfDirective (directive : String) : Problem → Prop
  | malformedPlacement : OfDirective directive (.malformedPlacement directive)
  | unknownService : OfDirective directive (.unknownService directive)
  | unitOutOfRange (units : Int) : OfDirective directive (.unitOutOfRange directive units)
  | unknownMachine : OfDirective directive (.unknownMachine directive)

theorem Problem.eq_of_mem_noted {p q : Problem} {found : List Problem} (h : p.noted = .ok found)
    (hq : q ∈ found) : q = p := by
  obtain ⟨_, -, rfl⟩ := map_eq_ok.1 h
  exact List.mem_singleton.1 hq

theorem Problem.eq_of_mem_notedIf {isThere : Bool} {p q : Problem} {found : List Problem}
    (h : Problem.notedIf isThere p = .ok found) (hq : q ∈ found) : q = p := by
  unfold Problem.notedIf at h
  split at h
  · exact eq_of_mem_noted h hq
  · rw [← Except.ok.inj h] at hq
    cases hq

namespace Deployment

variable {σ : Type} {b : Deployment} {s s' : σ} {check : Value → StateM σ (Option String)}
variable {found : List Problem} {q : Problem}

-- ============================================================ relations

/-- What is found about an endpoint is one of two problems. -/
theorem mem_endpointProblems {relation : List Value} {v : Value} {name? : Option String}
    (h : b.endpointProblems relation v = .ok (found, name?)) (hq : q ∈ found) :
    q = .malformedEndpoint v ∨ ∃ service, q = .undefinedService service relation := by
  unfold endpointProblems at h
  split at h
  · obtain ⟨rfl, -⟩ := Prod.mk.inj (Except.ok.inj h)
    exact .inl (List.mem_singleton.1 hq)
  · cases h
  · obtain ⟨found', hnoted, hpair⟩ := map_eq_ok.1 h
    obtain ⟨rfl, -⟩ := Prod.mk.inj hpair
    exact .inr ⟨_, Problem.eq_of_mem_notedIf hnoted hq⟩

theorem stage_of_endpointProblems {relation : List Value} {v : Value} {name? : Option String}
    (h : b.endpointProblems relation v = .ok (found, name?)) (hq : q ∈ found) :
    q.stage = .relations := by
  rcases mem_endpointProblems h hq with rfl | ⟨service, rfl⟩
  · rfl
  · rfl

theorem stage_of_relationProblems {index : Nat} {relation : List Value}
    (h : b.relationProblems index relation = .ok found) (hq : q ∈ found) :
    q.stage = .relations := by
  unfold relationProblems at h
  simp only [bind_eq_ok] at h
  obtain ⟨wrongSize, hsize, ends, hends, related, hrelated, h⟩ := h
  rw [← Except.ok.inj h, List.mem_append, List.mem_append, List.mem_flatMap] at hq
  rcases hq with (hq | ⟨e, he, hq⟩) | hq
  · rw [Problem.eq_of_mem_notedIf hsize hq]
    rfl
  · obtain ⟨v, -, hv⟩ := exists_mem_left_of_forall₂ (mapM_eq_ok_iff.1 hends) he
    exact stage_of_endpointProblems hv hq
  · rw [Problem.eq_of_mem_notedIf hrelated hq]
    rfl

theorem stage_of_allRelationProblems (h : b.allRelationProblems = .ok found) (hq : q ∈ found) :
    q.stage = .relations := by
  unfold allRelationProblems at h
  obtain ⟨parts, hparts, rfl⟩ := map_eq_ok.1 h
  obtain ⟨part, hpart, hq⟩ := List.mem_flatten.1 hq
  obtain ⟨e, -, he⟩ := exists_mem_left_of_forall₂ (mapM_eq_ok_iff.1 hparts) hpart
  exact stage_of_relationProblems he hq

-- ============================================================= services

/-- What is found about a directive is one of four problems, each of which shows the directive. -/
theorem ofDirective_of_placementProblems {directive : String}
    (h : b.placementProblems directive = .ok found) (hq : q ∈ found) : q.OfDirective directive := by
  unfold placementProblems at h
  split at h
  · split at h
    · rename_i problem hproblem
      rw [Problem.eq_of_mem_noted h hq]
      unfold targetProblem? at hproblem
      split at hproblem
      · cases hproblem
      · split at hproblem
        · cases hproblem
        · exact Option.some.inj hproblem ▸ .unknownMachine
      · split at hproblem
        · exact Option.some.inj hproblem ▸ .unknownService
        · split at hproblem
          · cases hproblem
          · split at hproblem
            · exact Option.some.inj hproblem ▸ .unitOutOfRange _
            · cases hproblem
    · rw [← Except.ok.inj h] at hq
      cases hq
  · rw [← Except.ok.inj h, List.mem_singleton] at hq
    exact hq ▸ .malformedPlacement
  · cases h

theorem stage_of_placementProblems {directive : String}
    (h : b.placementProblems directive = .ok found) (hq : q ∈ found) : q.stage = .services := by
  cases ofDirective_of_placementProblems h hq with
  | _ => rfl

theorem stage_of_charmProblems {name charm : Value} (h : charmProblems name charm = .ok found)
    (hq : q ∈ found) : q.stage = .services := by
  unfold charmProblems at h
  split at h
  · rw [← Except.ok.inj h] at hq
    cases hq
  · split at h
    · rw [Problem.eq_of_mem_noted h hq]
      rfl
    · cases h

theorem stage_of_constraintsProblems {owner : Owner} {v : Value}
    (h : Runs (constraintsProblems check owner v) s (.ok found) s') (hq : q ∈ found) :
    q.stage = owner.stage := by
  obtain ⟨-, answer, -, rfl⟩ := runs_constraintsProblems_ok_iff.1 h
  cases answer with
  | none => cases hq
  | some reason =>
    rw [List.mem_singleton.1 hq]
    cases owner with
    | service name => rfl
    | machine id => rfl

theorem stage_of_serviceProblems {e : Value × Service}
    (h : Runs (b.serviceProblems check e) s (.ok found) s') (hq : q ∈ found) :
    q.stage = .services := by
  unfold serviceProblems at h
  simp only [Runs.bind_ok_iff, Runs.ofOutcome_iff, Runs.pure_iff] at h
  obtain ⟨negative, _, ⟨hnegative, rfl⟩, charm, _, ⟨hcharm, rfl⟩, constraints, _, hconstraints,
    tooMany, _, ⟨htooMany, rfl⟩, placements, _, ⟨hplacements, rfl⟩, hfound, -⟩ := h
  rw [Except.ok.inj hfound] at hq
  simp only [List.mem_append, List.mem_flatten] at hq
  rcases hq with (((hq | hq) | hq) | hq) | ⟨part, hpart, hq⟩
  · rw [Problem.eq_of_mem_notedIf hnegative.symm hq]
    rfl
  · exact stage_of_charmProblems hcharm.symm hq
  · exact stage_of_constraintsProblems hconstraints hq
  · rw [Problem.eq_of_mem_notedIf htooMany.symm hq]
    rfl
  · obtain ⟨directive, -, hdirective⟩ :=
      exists_mem_left_of_forall₂ (mapM_eq_ok_iff.1 hplacements.symm) hpart
    exact stage_of_placementProblems hdirective hq

-- ============================================================= machines

/-- A check of a machine says first whether the id is one, and then whether the constraints are
accepted. -/
theorem runs_machineProblems_ok_iff {e : String × Machine} :
    Runs (machineProblems check e) s (.ok found) s' ↔ ∃ constraints,
      Runs (constraintsProblems check (.machine e.1) e.2.constraints) s (.ok constraints) s'
        ∧ found = (if isCanonicalNumber (dropFinalNewline e.1.toList) then []
          else [.invalidMachineId e.1]) ++ constraints := by
  unfold machineProblems
  simp only [Runs.bind_ok_iff, Runs.pure_iff, Except.ok.injEq]
  constructor
  · intro h
    obtain ⟨constraints, _, hconstraints, rfl, rfl⟩ := h
    exact ⟨constraints, hconstraints, rfl⟩
  · intro h
    obtain ⟨constraints, hconstraints, rfl⟩ := h
    exact ⟨constraints, s', hconstraints, rfl, rfl⟩

theorem stage_of_machineProblems {e : String × Machine}
    (h : Runs (machineProblems check e) s (.ok found) s') (hq : q ∈ found) :
    q.stage = .machines := by
  obtain ⟨constraints, hconstraints, rfl⟩ := runs_machineProblems_ok_iff.1 h
  rcases List.mem_append.1 hq with hq | hq
  · split at hq
    · cases hq
    · rw [List.mem_singleton.1 hq]
      rfl
  · exact stage_of_constraintsProblems hconstraints hq

-- ============================================================== reports

/-- The machines that no directive is counted for, as problems. -/
def unusedProblems (b : Deployment) : List Problem :=
  b.machineUses.filterMap fun (id, count) =>
    if count = 0 then some (Problem.unusedMachine id) else none

/-- A report has the problems of the relations, of the services, of the machines and of the uses,
one after the other. -/
theorem runs_problems_iff :
    Runs (b.problems check) s (.ok found) s' ↔ ∃ relations services machines s₁,
      b.allRelationProblems = .ok relations
        ∧ Runs (b.services.mapM (b.serviceProblems check)) s (.ok services) s₁
        ∧ Runs (b.machines.mapM (machineProblems check)) s₁ (.ok machines) s'
        ∧ found = relations ++ services.flatten ++ machines.flatten ++ b.unusedProblems := by
  unfold problems
  simp only [Runs.bind_ok_iff, Runs.ofOutcome_iff, Runs.pure_iff, Except.ok.injEq]
  constructor
  · intro h
    obtain ⟨relations, _, ⟨hrelations, rfl⟩, services, s₁, hservices, machines, _, hmachines, rfl,
      rfl⟩ := h
    exact ⟨relations, services, machines, s₁, hrelations.symm, hservices, hmachines, rfl⟩
  · intro h
    obtain ⟨relations, services, machines, s₁, hrelations, hservices, hmachines, rfl⟩ := h
    exact ⟨relations, s, ⟨hrelations.symm, rfl⟩, services, s₁, hservices, machines, s', hmachines,
      rfl, rfl⟩

/-- Nothing that is found item by item is of another stage than what is found of each item. -/
theorem stage_of_mapM {α : Type} {find : α → ExceptT Fault (StateM σ) (List Problem)}
    {stage : Stage}
    (hfind : ∀ {a s s' found q}, Runs (find a) s (.ok found) s' → q ∈ found → q.stage = stage)
    {l : List α} {parts : List (List Problem)} (h : Runs (l.mapM find) s (.ok parts) s')
    (hq : q ∈ parts.flatten) : q.stage = stage := by
  obtain ⟨part, hpart, hq⟩ := List.mem_flatten.1 hq
  obtain ⟨a, -, _, _, ha⟩ := exists_mem_left_of_forall₂ (Runs.forall₂_of_mapM h) hpart
  exact hfind ha hq

end Deployment

end CharmDepot
