/-
The release that a program was built from, as a version text.

A description of a release is its tag, and if the program has changed since, the number of changes
and what they are, with hyphens between these parts. In a version the first hyphen becomes a plus
sign, which sets off what belongs to this build only, and the others become full stops.
-/
import CharmDepot.Text.Blank
import CharmDepot.Text.Pieces

namespace CharmDepot

open Text

/-- The version of a build whose release is not known. -/
def unknownRelease : String := "0.1.dev0+unknown"

/-- The version that a description of a release stands for. -/
def versionOfDescription (description : String) : String :=
  let cs := trim isAsciiBlank description.toList
  match cutFirst? '-' cs with
  | none => String.ofList cs
  | some (tag, build) =>
    String.ofList (tag ++ '+' :: build.map fun c => if c = '-' then '.' else c)

/-- The version of a build: that of its description, if there is one. -/
def version (description? : Option String) : String :=
  (description?.map versionOfDescription).getD unknownRelease

end CharmDepot
