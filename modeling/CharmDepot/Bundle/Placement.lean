/-
Placement directives: where a unit of a service goes.

A directive names a new machine, a machine of the bundle by its number, or a service of the bundle
with or without a unit number. In front of it may stand the type of a container that the unit is
put into, and a colon.
-/
import CharmDepot.Fault
import CharmDepot.Identity.Grammar

namespace CharmDepot

open Number Text

/-- What a directive points at. -/
inductive Target
  | newMachine
  | machine (id : String)
  | service (name : String) (unit : Option Nat)
  deriving Repr, DecidableEq

/-- A placement directive. -/
structure Placement where
  container : Option String
  target : Target
  deriving Repr, DecidableEq

/-- A number without leading zeros, in ASCII digits. -/
def isCanonicalNumber : List Char → Bool
  | ['0'] => true
  | first :: rest => '1' ≤ first && first ≤ '9' && rest.all Char.isDigit
  | [] => false

/-- The name that stands for a new machine. -/
def newMachineName : List Char := "new".toList

namespace Placement

/-- The written form of what a directive points at. -/
def targetChars : Target → List Char
  | .newMachine => newMachineName
  | .machine id => id.toList
  | .service name none => name.toList
  | .service name (some unit) => name.toList ++ '/' :: decimal unit

/-- The written form of a directive. -/
def chars (p : Placement) : List Char :=
  (p.container.map fun c => c.toList ++ [':']).getD [] ++ targetChars p.target

/-- Reads what a directive points at. -/
def parseTarget (directive : String) (cs : List Char) : Outcome Target :=
  match cutFirst? '/' cs with
  | some (service, unit) =>
    if !isPlainName service || !isCanonicalNumber unit then .error (.placement directive)
    else if maxDigits < unit.length then .error (.value (.integer (.tooLong unit.length)))
    else if service = newMachineName then .error (.placement directive)
    else .ok (.service (String.ofList service) (some (decimalValue unit)))
  | none =>
    if isPlainName cs then
      if cs = newMachineName then .ok .newMachine
      else .ok (.service (String.ofList cs) none)
    else if isCanonicalNumber cs then .ok (.machine (String.ofList cs))
    else .error (.placement directive)

/-- Reads a directive; one line feed at its end is passed over. -/
def parse (directive : String) : Outcome Placement :=
  let cs := dropFinalNewline directive.toList
  match cutFirst? ':' cs with
  | some (container, rest) =>
    if !container.isEmpty && container.all isLower then
      (parseTarget directive rest).map fun target => ⟨some (String.ofList container), target⟩
    else .error (.placement directive)
  | none => (parseTarget directive cs).map fun target => ⟨none, target⟩

end Placement

end CharmDepot
