/-
Locations of the development branches that charms are published from.

A charm lives on the branch `lp:charms/series/name`, or on the trunk of a user's branch
`lp:~user/charms/series/name/trunk`. A location may also be given as the address of the branch on
one of several hosts, with slashes at its end.
-/
import CharmDepot.Identity.Parser

namespace CharmDepot

open Text

/-- The location of the branch of a charm. -/
def branchOf (i : Identity) : String :=
  if i.user.isEmpty then "lp:charms/" ++ i.series ++ "/" ++ i.name
  else "lp:~" ++ i.user ++ "/charms/" ++ i.series ++ "/" ++ i.name ++ "/trunk"

/-- The ways in which a location may begin, the longer ones of a host first. -/
def branchHosts : List String :=
  ["lp:",
   "bzr+ssh://bazaar.launchpad.net/+branch/",
   "bzr+ssh://bazaar.launchpad.net/",
   "http://launchpad.net/+branch/",
   "http://launchpad.net/",
   "https://launchpad.net/+branch/",
   "https://launchpad.net/",
   "http://code.launchpad.net/+branch/",
   "http://code.launchpad.net/",
   "https://code.launchpad.net/+branch/",
   "https://code.launchpad.net/"]

/-- The branch that a location names: itself if it begins with a user, and otherwise what follows
the host. Empty if no host is known. -/
def branchPath (location : List Char) : List Char :=
  match location with
  | '~' :: _ => location
  | _ => (branchHosts.findSome? fun host => dropStart? host.toList location).getD []

/-- The text of the identity that the words of a branch stand for. -/
def branchIdentity? : List (List Char) → Option (List Char)
  | [charms, series, name] =>
    if charms = "charms".toList then some (joinPieces '/' [series, name]) else none
  | [charms, series, name, trunk] =>
    if charms = "charms".toList && trunk = "trunk".toList then some (joinPieces '/' [series, name])
    else none
  | ['~' :: user, charms, series, name, trunk] =>
    if charms = "charms".toList && trunk = "trunk".toList then
      some (joinPieces '/' ['~' :: user, series, name])
    else none
  | _ => none

/-- The identity of the charm on the branch at a location. -/
def urlOfBranch (location : String) : Outcome Url :=
  match branchIdentity? (pieces '/' (dropFinal '/' (branchPath location.toList))) with
  | some identity => Url.parse (String.ofList ("cs:".toList ++ identity))
  | none => .error (.refused (.unknownBranch location))

end CharmDepot
