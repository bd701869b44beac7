/-
What a client asks of the store and what it may be told.

A request is for one of the store's resources: records about charms, the record of an event, or the
content of a charm. A reply is a body, a status that says why there is none, or a failure of the
network. Any list of replies is a possible behaviour of a store; besides, an index can answer from a
table of charms.
-/
import CharmDepot.Fault
import CharmDepot.FileTree.Basic
import CharmDepot.Json.Reader
import CharmDepot.Json.Writer
import CharmDepot.Text.Blank
import CharmDepot.Text.Percent
import CharmDepot.Text.Pieces

namespace CharmDepot

open Text

-- =========================================================== requests

/-- What a request is for. -/
inductive Resource
  | info (charms : List String)
  | event (query : String)
  | download (path : String)
  deriving Repr, DecidableEq

/-- A request. -/
structure Request where
  resource : Resource
  /-- Whether the store is to leave the request out of its statistics. -/
  unrecorded : Bool
  deriving Repr, DecidableEq

/-- The path of a resource. -/
def Resource.path : Resource → String
  | info _ => "/charm-info"
  | event _ => "/charm-event"
  | download path => "/charm/" ++ percentPath path

/-- The fields of a request's query. -/
def Request.fields (r : Request) : List (String × String) :=
  let own := match r.resource with
    | .info charms => charms.map fun c => ("charms", c)
    | .event query => [("charms", query)]
    | .download _ => []
  own ++ if r.unrecorded then [("stats", "0")] else []

/-- The path and the query of a request. -/
def Request.target (r : Request) : String :=
  let query := "&".intercalate (r.fields.map fun f => percentField f.1 ++ "=" ++ percentField f.2)
  if r.fields.isEmpty then r.resource.path else r.resource.path ++ "?" ++ query

/-- A request as it was sent. -/
structure SentRequest where
  url : String
  authorization : Option String
  timeout : Value

-- ============================================================ addresses

/-- White space that an address may have around it. -/
def isAddressBlank (c : Char) : Bool :=
  isBlank c || (0x1C ≤ c.toNat && c.toNat ≤ 0x1F)

/-- An address without angle brackets around it and white space inside them. -/
def withoutBrackets (cs : List Char) : List Char :=
  match cs with
  | '<' :: rest => if rest.getLast? = some '>' then trim isAddressBlank rest.dropLast else cs
  | _ => cs

/-- An address without the word `URL:` and white space after it. -/
def withoutWord (cs : List Char) : List Char :=
  match dropStart? "URL:".toList cs with
  | some rest => trim isAddressBlank rest
  | none => cs

/-- An address without white space, angle brackets and the word `URL:` around it. -/
def bareAddress (cs : List Char) : List Char :=
  withoutWord (withoutBrackets (trim isAddressBlank cs))

/-- Whether an address has a scheme: a colon, with something in front of it, before the first
slash. -/
def hasScheme (cs : List Char) : Bool :=
  let scheme := cs.takeWhile fun c => c != '/' && c != ':'
  !scheme.isEmpty && (cs.drop scheme.length).head? == some ':'

/-- The path in an address that has a scheme: what follows the host, up to a query or fragment. -/
def addressPath (cs : List Char) : List Char :=
  let rest := (cs.dropWhile (· != ':')).drop 1
  let onward := match rest with
    | '/' :: '/' :: afterSlashes =>
      afterSlashes.dropWhile fun c => c != '/' && c != '?' && c != '#'
    | _ => rest
  onward.takeWhile fun c => c != '?' && c != '#'

-- ============================================================= replies

/-- What a body holds: any bytes, or a JSON document, which is given by its value. -/
inductive Content
  | blob (content : Blob)
  | document (v : Value)

/-- A content as that of a file. -/
def Content.toBlob : Content → Blob
  | blob content => content
  | document v => .plain (utf8 (Json.write v))

/-- The value of the document that a content is. -/
def Content.value : Content → Outcome Value
  | blob content => Json.ofBytes content.bytes
  | document v => .ok v

/-- A body, by what reading it gives. -/
inductive Body
  /-- Reading comes to an end without a failure, and this is all that was read. A connection that is
  closed early without one is no different. -/
  | whole (content : Content)
  /-- After these bytes reading fails. Whatever may fail there, it is `brokenConnection` that stands
  for it. -/
  | broken (received : Bytes)

/-- What a request is answered with. -/
inductive Reply
  | body (b : Body)
  /-- A status that is no success. -/
  | status (code : Int) (reason : String) (b : Body)
  /-- The store was not reached, for a reason given in words. -/
  | unreached (reason : String)
  /-- The store was not reached because the system failed. -/
  | unreachedBy (f : SystemFault)
  /-- The system failed while the request was made. -/
  | failure (f : SystemFault)
  /-- What came back is no answer of a store. -/
  | garbled (words : String)

/-- The failure of reading a body that breaks. -/
def brokenConnection : SystemFault := ⟨104, "Connection reset by peer", []⟩

/-- The text of a body that explains a status; of one that breaks, what happened. -/
def Body.explanation : Body → String
  | whole content => ofUtf8 content.toBlob.bytes
  | broken _ => brokenConnection.name ++ " - " ++ brokenConnection.describe

-- =============================================================== index

/-- A charm in the table of an index. -/
structure Listing where
  /-- The identity, without a revision. -/
  key : String
  revision : Value
  digest : Value
  content : Blob

/-- The identity of a listed charm at its revision. -/
def Listing.canonical (l : Listing) : String :=
  l.key ++ "-" ++ l.revision.written.toOption.getD ""

/-- The path of a listed charm: its identity without the schema. -/
def Listing.path (l : Listing) : String :=
  String.ofList ((l.canonical.toList.dropWhile (· != ':')).drop 1)

/-- A store as a client meets it: the replies that it will give first, whatever is asked, and a
table from which it answers after that. -/
structure Index where
  replies : List Reply := []
  table : List Listing := []

namespace Index

/-- The record of a charm. -/
def record (i : Index) (key : String) : Value :=
  match i.table.find? fun l => l.key == key with
  | some l =>
    .map [(.text "canonical-url", .text l.canonical), (.text "revision", l.revision),
      (.text "sha256", l.digest)]
  | none => .map [(.text "errors", .list [.text "entry not found"])]

/-- The reply to a request for something that is not there. -/
def notFound : Reply :=
  .status 404 "Not Found" (.whole (.blob (.plain (utf8 "no such charm"))))

/-- The answer from the table to a request that was sent to an address. -/
def served (i : Index) (address : List Char) (r : Resource) : Reply :=
  if addressPath address != r.path.toList then notFound
  else match r with
    | .info charms =>
      .body (.whole (.document (.map
        (Value.mappingOf (charms.map fun key => (.text key, i.record key))))))
    | .download path =>
      match i.table.find? fun l => l.path == path with
      | some l => .body (.whole (.blob l.content))
      | none => notFound
    | .event _ => notFound

/-- The reply to a request, and the store after it. -/
def reply (i : Index) (address : List Char) (r : Resource) : Reply × Index :=
  match i.replies with
  | first :: rest => (first, { i with replies := rest })
  | [] => (i.served address r, i)

end Index

end CharmDepot
