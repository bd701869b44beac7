/-
Requests of a client.

A request is sent once. If the store answers that the user has to log in, and the client can show a
page, the page is visited and the request is sent once more; the second answer is final. An answer
that is no success, and a failure of the network, are faults of this library; other failures of the
system are let through.
-/
import CharmDepot.FileTree.Edit
import CharmDepot.Repository.Notice
import CharmDepot.Store.Basic
import CharmDepot.Store.Index
import CharmDepot.Store.Record

namespace CharmDepot

/-- What a client works with, and what it left behind: the files, the store on the other side, the
notices, the requests that were sent, and the pages that were visited. -/
structure World where
  tree : FileTree := {}
  index : Index := {}
  notices : List Notice := []
  requests : List SentRequest := []
  visited : List Value := []

/-- What a client does: it gives a result or fails, and what it did before stays done. -/
abbrev Act (α : Type) := ExceptT Fault (StateM World) α

namespace Act

/-- Does something that can fail. -/
def ofOutcome (o : Outcome α) : Act α :=
  ExceptT.mk (pure o)

/-- Changes the files. -/
def edit (e : Edit α) : Act α := do
  let w ← get
  let (outcome, tree) := e.run.run w.tree
  set { w with tree }
  ofOutcome outcome

/-- Looks at the files. -/
def look (f : FileTree → Outcome α) : Act α := do
  ofOutcome (f (← get).tree)

/-- Gives a notice. -/
def notify (severity : Severity) (text : String) : Act Unit :=
  modify fun w => { w with notices := w.notices ++ [Notice.mk .store severity text] }

/-- Gives a notice of some words and a value. A value that cannot be written makes no notice, and
what is noted goes on without one. -/
def notifyOf (severity : Severity) (words : String) (v : Value) : Act Unit :=
  match v.written with
  | .ok text => notify severity (words ++ text)
  | .error _ => pure ()

/-- Visits a page. -/
def visit (page : Value) : Act Unit :=
  modify fun w => { w with visited := w.visited ++ [page] }

end Act

namespace Store

-- =========================================================== exchange

/-- The address of a request. -/
def address (s : Store) (r : Request) : Outcome (List Char) :=
  let full := bareAddress (s.baseUrl ++ r.target).toList
  if hasScheme full then .ok full else .error (.value (.unknownUrl (String.ofList full)))

/-- The line that authenticates the client's requests. -/
def authorization (s : Store) : Outcome (Option String) :=
  if s.authAttrs.truthy then s.authAttrs.written.map fun attrs => some ("charmstore " ++ attrs)
  else .ok none

/-- Sends a request and takes the reply. -/
def exchange (s : Store) (r : Request) : Act Reply := do
  let authorization ← Act.ofOutcome s.authorization
  let address ← Act.ofOutcome (s.address r)
  let w ← get
  let (reply, index) := w.index.reply address r.resource
  set { w with
    index
    requests := w.requests ++ [SentRequest.mk (String.ofList address) authorization s.timeout] }
  pure reply

/-- The page that a reply asks to visit before the request is sent again. -/
def pageOf? (s : Store) (reply : Reply) : Outcome (Option Value) :=
  match reply with
  | .status 401 _ b => if s.interactive then visitPage? (.text b.explanation) else .ok none
  | _ => .ok none

/-- The body of a reply that is final. -/
def settle (reply : Reply) : Act Body :=
  match reply with
  | .body b => pure b
  | .status code reason b => do
    Act.notify .error ("Cannot access the charm store: "
      ++ statusWords (Number.integerText code) reason
      ++ ". Response body: " ++ b.explanation)
    throw (.status code reason b.explanation)
  | .unreached reason => throw (.unreached reason)
  | .unreachedBy f => throw (.network f.describe)
  | .failure f => throw (if f.endsConnection then .network f.describe else .system f)
  | .garbled words => throw (.network words)

/-- Makes a request. -/
def request (s : Store) (r : Request) : Act Body := do
  let first ← s.exchange r
  match ← Act.ofOutcome (s.pageOf? first) with
  | none => settle first
  | some page => do
    Act.notifyOf .debug "Charm store requires interaction, visiting " page
    Act.visit page
    settle (← s.exchange r)

/-- The request for a resource, with the client's wish about statistics. -/
def ask (s : Store) (resource : Resource) : Request :=
  ⟨resource, s.testMode.truthy⟩

-- ========================================================== documents

/-- The entries of the object that a body holds. -/
def objectOf (resource : Resource) (b : Body) : Outcome (List (Value × Value)) :=
  match b with
  | .broken _ => .error (.system brokenConnection)
  | .whole content =>
    match content.value with
    | .ok (.map entries) => .ok entries
    | .ok _ => .error (.answer (.notObject resource.path))
    | .error (.value f) => .error (.unreadable (.storeAnswer resource.path) (.value f))
    | .error f => .error f

/-- Makes a request whose answer is an object. -/
def requestObject (s : Store) (r : Request) : Act (List (Value × Value)) := do
  let b ← s.request r
  Act.ofOutcome (objectOf r.resource b)

/-- The record under a key of an answer. -/
def recordUnder (key : String) (entries : List (Value × Value)) : Outcome Value :=
  match Value.lookup? key entries with
  | some (.map record) => .ok (.map record)
  | _ => .error (.answer (.noCharm key))

end Store

end CharmDepot
