/-
Verification of a bundle.

Verification looks at every relation, service and machine and lists all the problems it finds, in
the order of the bundle: those of the relations, of the services, of the machines, and last the
machines that no directive refers to. Constraints are judged by a checker that the caller supplies
and that may have effects; it is consulted once for each service and then once for each machine.

Three things make verification itself fail: a charm field that is no text, a unit number too long
to be read, and a problem whose words hold a value that has no written form. What a check of
constraints is about is put in words beforehand, whatever the checker says. The first of such
failures ends the verification.
-/
import CharmDepot.Bundle.Deployment
import CharmDepot.Bundle.Endpoint
import CharmDepot.Bundle.Placement
import CharmDepot.Identity.Parser

namespace CharmDepot

open Text

/-- What constraints belong to. -/
inductive Owner
  | service (name : Value)
  | machine (id : String)

/-- A problem of a bundle. -/
inductive Problem
  | relationSize (index size : Nat)
  | malformedEndpoint (endpoint : Value)
  | undefinedService (service : String) (relation : List Value)
  | selfRelation (relation : List Value)
  | negativeUnits (service : Value)
  | invalidCharm (service : Value) (reason : String)
  | invalidConstraints (owner : Owner) (reason : String)
  | tooManyPlacements (service : Value)
  | malformedPlacement (directive : String)
  | unknownService (directive : String)
  | unitOutOfRange (directive : String) (units : Int)
  | unknownMachine (directive : String)
  | invalidMachineId (id : String)
  | unusedMachine (id : String)

/-- The name of an owner, as messages show it. -/
def Owner.shown : Owner → Outcome String
  | service name => name.shown.map ("service " ++ ·)
  | machine id => .ok ("machine " ++ quoted id)

namespace Problem

/-- The words of a problem. -/
def message : Problem → Outcome String
  | relationSize i n =>
    .ok ("relation " ++ toString i ++ " has " ++ toString n ++ " relations, not 2")
  | malformedEndpoint e => e.shown.map fun shown => (Fault.relation shown).message
  | undefinedService s r =>
    (Value.list r).shown.map fun shown =>
      "service " ++ quoted s ++ " not defined (referred to by relation " ++ shown ++ ")"
  | selfRelation r =>
    (Value.list r).shown.map fun shown =>
      "relation " ++ shown ++ " relates a service to itself"
  | negativeUnits s =>
    s.shown.map ("negative number of units specified on service " ++ ·)
  | invalidCharm s reason =>
    s.shown.map fun shown => "invalid charm URL in service " ++ shown ++ ": " ++ reason
  | invalidConstraints owner reason =>
    owner.shown.map fun shown => "invalid constraints in " ++ shown ++ ": " ++ reason
  | tooManyPlacements s =>
    s.shown.map ("too many units specified in unit placement for service " ++ ·)
  | malformedPlacement d => .ok (Fault.placement d).message
  | unknownService d => .ok ("placement " ++ quoted d ++ " refers to non-existent service")
  | unitOutOfRange d units =>
    (Value.shownInteger units).map fun shown =>
      "placement " ++ quoted d ++ " specifies a unit greater than the " ++ shown
        ++ " unit(s) started by the target service"
  | unknownMachine d => .ok ("placement " ++ quoted d ++ " refers to non-existent machine")
  | invalidMachineId id => .ok ("invalid machine id " ++ quoted id ++ " found in machines")
  | unusedMachine id =>
    .ok ("machine " ++ quoted id ++ " is not referred to by a placement directive")

/-- A problem as a list of one, if it can be put in words. -/
def noted (p : Problem) : Outcome (List Problem) :=
  p.message.map fun _ => [p]

/-- A problem as a list of one where it is there, and none elsewhere. -/
def notedIf (isThere : Bool) (p : Problem) : Outcome (List Problem) :=
  if isThere then p.noted else .ok []

/-- The kind of a problem that is a malformed endpoint or directive; other problems are plain
text. -/
def kind? : Problem → Option Kind
  | malformedEndpoint _ => some .malformedRelation
  | malformedPlacement _ => some .malformedPlacement
  | _ => none

end Problem

namespace Deployment

-- ========================================================== relations

/-- The problems of one endpoint, and its service if it is well formed. -/
def endpointProblems (b : Deployment) (relation : List Value) (v : Value) :
    Outcome (List Problem × Option String) :=
  match Endpoint.parse v with
  | .error (.relation _) => .ok ([.malformedEndpoint v], none)
  | .error f => .error f
  | .ok e =>
    (Problem.notedIf (b.service? e.service).isNone (.undefinedService e.service relation)).map
      fun undefinedHere => (undefinedHere, some e.service)

/-- The problems of one relation. -/
def relationProblems (b : Deployment) (index : Nat) (relation : List Value) :
    Outcome (List Problem) := do
  let size := relation.length
  let wrongSize ← Problem.notedIf (size != 2) (.relationSize index size)
  let ends ← relation.mapM (b.endpointProblems relation)
  let itself := match ends.filterMap (·.2) with
    | [first, second] => size == 2 && first == second
    | _ => false
  let related ← Problem.notedIf itself (.selfRelation relation)
  pure (wrongSize ++ ends.flatMap (·.1) ++ related)

/-- The problems of all relations. -/
def allRelationProblems (b : Deployment) : Outcome (List Problem) :=
  (b.relations.zipIdx.mapM fun (relation, index) => b.relationProblems index relation).map
    List.flatten

-- ========================================================= placements

/-- The problem of a directive that is well formed, if there is one. -/
def targetProblem? (b : Deployment) (directive : String) : Target → Option Problem
  | .newMachine => none
  | .machine id => if b.hasMachine id then none else some (.unknownMachine directive)
  | .service name unit =>
    match b.service? name with
    | none => some (.unknownService directive)
    | some target =>
      match unit with
      | none => none
      | some u =>
        if target.units - 1 ≤ u then some (.unitOutOfRange directive target.units) else none

/-- The problems of a directive. -/
def placementProblems (b : Deployment) (directive : String) : Outcome (List Problem) :=
  match Placement.parse directive with
  | .ok p =>
    match b.targetProblem? directive p.target with
    | some problem => problem.noted
    | none => .ok []
  | .error (.placement _) => .ok [.malformedPlacement directive]
  | .error f => .error f

/-- The machine of the bundle that a directive refers to. -/
def placedMachine? (b : Deployment) (directive : String) : Option String :=
  match Placement.parse directive with
  | .ok ⟨_, .machine id⟩ => if b.hasMachine id then some id else none
  | _ => none

/-- For each machine, how many directives of the bundle refer to it. -/
def machineUses (b : Deployment) : List (String × Nat) :=
  let placed := b.services.flatMap fun e => e.2.placements.filterMap b.placedMachine?
  b.machines.map fun e => (e.1, placed.count e.1)

-- =========================================================== services

/-- The problems of a charm field. -/
def charmProblems (service charm : Value) : Outcome (List Problem) :=
  match Url.ofValue charm with
  | .ok _ => .ok []
  | .error f => if f.isValue then (Problem.invalidCharm service f.message).noted else .error f

section Checked

variable {m : Type → Type} [Monad m] (check : Value → m (Option String))

/-- Consults the checker about constraints. -/
def constraintsProblems (owner : Owner) (constraints : Value) : ExceptT Fault m (List Problem) := do
  let _ ← ExceptT.mk (pure owner.shown)
  match ← ExceptT.lift (check constraints) with
  | none => pure []
  | some reason => pure [.invalidConstraints owner reason]

/-- The problems of one service. -/
def serviceProblems (b : Deployment) (entry : Value × Service) :
    ExceptT Fault m (List Problem) := do
  let (name, s) := entry
  let negative ← ExceptT.mk (pure (Problem.notedIf (s.units < 0) (.negativeUnits name)))
  let charm ← ExceptT.mk (pure (charmProblems name s.charm))
  let constraints ← constraintsProblems check (.service name) s.constraints
  let tooMany ← ExceptT.mk (pure
    (Problem.notedIf (s.units < s.placements.length) (.tooManyPlacements name)))
  let placements ← ExceptT.mk (pure (s.placements.mapM b.placementProblems))
  pure (negative ++ charm ++ constraints ++ tooMany ++ placements.flatten)

/-- The problems of one machine. -/
def machineProblems (entry : String × Machine) : ExceptT Fault m (List Problem) := do
  let (id, spec) := entry
  let malformed := if isCanonicalNumber (dropFinalNewline id.toList) then []
    else [Problem.invalidMachineId id]
  let constraints ← constraintsProblems check (.machine id) spec.constraints
  pure (malformed ++ constraints)

/-- All the problems of a bundle. -/
def problems (b : Deployment) : ExceptT Fault m (List Problem) := do
  let relations ← ExceptT.mk (pure b.allRelationProblems)
  let services ← b.services.mapM (b.serviceProblems check)
  let machines ← b.machines.mapM (machineProblems check)
  let unused := b.machineUses.filterMap fun (id, count) =>
    if count = 0 then some (Problem.unusedMachine id) else none
  pure (relations ++ services.flatten ++ machines.flatten ++ unused)

end Checked

end Deployment

end CharmDepot
