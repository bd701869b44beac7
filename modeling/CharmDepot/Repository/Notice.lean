/-
Notices: what a repository reports beside its results.
-/
namespace CharmDepot

/-- The kind of repository that a notice comes from. -/
inductive Reporter
  | localRepository
  | store
  deriving Repr, DecidableEq

/-- How grave a notice is. -/
inductive Severity
  | debug
  | warning
  | error
  deriving Repr, DecidableEq

/-- A notice. -/
structure Notice where
  reporter : Reporter
  severity : Severity
  text : String
  deriving Repr, DecidableEq

end CharmDepot
