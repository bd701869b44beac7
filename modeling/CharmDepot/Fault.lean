/-
What can go wrong, by cause.

A fault is a cause with the data that its message shows; `Fault.message` is the only place where
messages are worded. Of values it holds their written forms, because not every value has one.

The faults of this library proper have a `Kind`, and the kinds form a small hierarchy; the rest are
faults of the file system and of unsuitable values, which some operations turn into faults of the
library and others let through.

Where a message quotes the fault that it wraps, it spells out what the file system or the number
reader said, and stands `<detail>` for the words of any other reader.
-/
import CharmDepot.Number.Integer

namespace CharmDepot

open Number Text

-- ============================================================== kinds

/-- The kinds of fault that belong to this library. -/
inductive Kind
  | error
  | malformedIdentity
  | malformedRelation
  | malformedPlacement
  | verification
  | notFound
  | packageNotFound
  | repositoryNotFound
  | revisionConflict
  | digestMismatch
  | connectivity
  | protocol
  | api
  | invalidCharm
  | invalidBundle
  deriving Repr, DecidableEq

namespace Kind

/-- The name of a kind. -/
def name : Kind → String
  | error => "Error"
  | malformedIdentity => "MalformedIdentity"
  | malformedRelation => "MalformedRelation"
  | malformedPlacement => "MalformedPlacement"
  | verification => "VerificationError"
  | notFound => "NotFoundError"
  | packageNotFound => "PackageNotFound"
  | repositoryNotFound => "RepositoryNotFound"
  | revisionConflict => "RevisionConflict"
  | digestMismatch => "DigestMismatch"
  | connectivity => "ConnectivityError"
  | protocol => "ProtocolError"
  | api => "APIError"
  | invalidCharm => "InvalidCharm"
  | invalidBundle => "InvalidBundle"

/-- All kinds. -/
def all : List Kind :=
  [error, malformedIdentity, malformedRelation, malformedPlacement, verification, notFound,
   packageNotFound, repositoryNotFound, revisionConflict, digestMismatch, connectivity, protocol,
   api, invalidCharm, invalidBundle]

/-- The kind of a name. -/
def ofName? (s : String) : Option Kind :=
  all.find? fun k => k.name == s

/-- Whether a fault of this kind also counts as an unsuitable value. -/
def isValueFault : Kind → Bool
  | malformedIdentity | malformedRelation | malformedPlacement => true
  | _ => false

/-- A kind and the more general ones that it belongs to, the most general last. -/
def lineage (k : Kind) : List String :=
  let own := match k with
    | error => []
    | packageNotFound | repositoryNotFound => [k.name, notFound.name]
    | _ => [k.name]
  own ++ [error.name] ++ (if k.isValueFault then ["ValueError"] else []) ++ ["Exception"]

end Kind

-- ============================================================= causes

/-- Why something is no identity. -/
inductive IdentityFault
  | invalidSchema (text : String)
  | invalidForm (text : String)
  | localUser (text : String)
  | invalidUser (text : String)
  | invalidSeries (text : String)
  | invalidName (text : String)
  /-- A complete identity was asked for, and the text has no series. -/
  | noSeries (text : String)
  /-- The schema is given as messages show it. -/
  | unknownSchema (shown : String)
  /-- A complete identity of this name, given as messages show it, was made without a series. -/
  | emptySeries (shown : String)
  | lowRevision (revision : String)
  /-- Neither a reference nor the default names a series. -/
  | unresolved (reference : String)
  | notSeries (series : String)
  deriving Repr, DecidableEq

/-- What is not there. -/
inductive Missing
  | localCharm (root url : String)
  | localBundle (root url : String)
  | event (key : String)
  /-- The event of a digest, which is given as messages show it. -/
  | eventWithDigest (key shown : String)
  | canonicalUrl (reference : String)
  | memoryCharm (url : String)
  /-- The store's own words. -/
  | reported (message : String)

/-- Why a repository refuses a request. -/
inductive Refusal
  | notLocal (url : String)
  | noLocalPath
  /-- The schema is given as messages show it. -/
  | unknownSchema (shown reference : String)
  | unknownBranch (location : String)
  /-- The store has these errors for a charm. -/
  | storeErrors (location : String) (errors : List String)
  | unrevisioned
  /-- The identity of a charm, and its name and revision as it has them itself. -/
  | charmMismatch (url charm : String)

/-- What a charm lacks. -/
inductive CharmFault
  | noName
  | badRevision (shown : String)
  | badRevisionFile (path : String)
  | noMetadata (path : String)

/-- What a bundle lacks. -/
inductive BundleFault
  | noData (path : String)
  | noReadme (path : String)

/-- What is wrong with an answer of the store. -/
inductive AnswerFault
  | notObject (path : String)
  | noCharm (key : String)

/-- What could not be read, where another fault is the reason. -/
inductive Unreadable
  | bundleData
  | bundleFile
  | readme
  | bundleArchive (path : String)
  | charmMetadata
  | charmConfig (path : String)
  | charmDirectory (path : String)
  | charmArchive (path : String)
  | storeAnswer (path : String)

/-- A failure of the operating system: its number, its words, and the paths it is about. -/
structure SystemFault where
  code : Int
  reason : String
  paths : List String := []
  deriving Repr, DecidableEq

/-- A value of a suitable kind that is out of range or has the wrong form. -/
inductive ValueFault
  | integer (f : IntegerFault)
  /-- An integer has too many digits to be written. -/
  | tooLongToWrite
  | real (shown : String)
  | notMapping (what : String)
  | unknownUrl (url : String)
  /-- Bytes that are no text. -/
  | undecodable
  /-- Any other: an impossible date or one that is too early for an archive, a list of pairs with an
  item that is none, a path or the name of a user with a null character. -/
  | other

/-- Why the state of a program does not allow a request. -/
inductive StateFault
  | noCache
  | noHome
  | resultCount (n : Nat)

/-- What can go wrong. -/
inductive Fault
  | identity (f : IdentityFault)
  /-- No endpoint of a relation, as messages show it. -/
  | relation (shown : String)
  | placement (directive : String)
  | missing (m : Missing)
  | noRepository (path : String)
  | revisionConflict (revision url : String)
  | digestMismatch (path : String)
  /-- The store was not reached, for this reason. -/
  | unreached (reason : String)
  /-- The store was not reached: the network failed with these words. -/
  | network (words : String)
  | answer (f : AnswerFault)
  | status (code : Int) (reason body : String)
  | charm (f : CharmFault)
  | bundle (f : BundleFault)
  | refused (r : Refusal)
  | unreadable (what : Unreadable) (cause : Fault)
  /-- A fault of a given kind that another repository reports in its own words. -/
  | reported (kind : Kind) (message : String)
  | system (f : SystemFault)
  | notArchive
  | noTree (path : String)
  /-- Of what was copied, some could not be: from where, to where, and why. -/
  | copy (failures : List (String × String × String))
  | value (f : ValueFault)
  | state (f : StateFault)
  /-- A text that is no YAML document of the safe kind. -/
  | document
  /-- A value of an unsuitable kind. -/
  | unsuitable
  /-- An operation that a value of this kind does not have. -/
  | unsupported
  /-- A number beyond what can be represented. -/
  | overflow
  /-- A date that is too late for the field of an archive that is to hold it. -/
  | unfit
  | unknownKey
  | outOfRange
  /-- Collections or directories that are nested too deep. -/
  | tooDeep

/-- The outcome of an operation that can fail. -/
abbrev Outcome (α : Type) := Except Fault α

-- =========================================================== messages

/-- The words that stand for those of another reader. -/
def unspelled : String := "<detail>"

/-- A system failure with its number and paths. -/
def SystemFault.describe (f : SystemFault) : String :=
  let about := if f.paths.isEmpty then "" else ": " ++ " -> ".intercalate (f.paths.map quoted)
  "[Errno " ++ integerText f.code ++ "] " ++ f.reason ++ about

/-- The name of the class of system failures that a number belongs to. -/
def SystemFault.name (f : SystemFault) : String :=
  match f.code with
  | 1 | 13 => "PermissionError"
  | 2 => "FileNotFoundError"
  | 3 => "ProcessLookupError"
  | 4 => "InterruptedError"
  | 10 => "ChildProcessError"
  | 11 | 114 | 115 => "BlockingIOError"
  | 17 => "FileExistsError"
  | 20 => "NotADirectoryError"
  | 21 => "IsADirectoryError"
  | 32 | 108 => "BrokenPipeError"
  | 103 => "ConnectionAbortedError"
  | 104 => "ConnectionResetError"
  | 110 => "TimeoutError"
  | 111 => "ConnectionRefusedError"
  | _ => "OSError"

/-- Whether a failure ended a connection or kept it from being made. -/
def SystemFault.endsConnection (f : SystemFault) : Bool :=
  [32, 103, 104, 108, 110, 111].contains f.code

/-- Why it is no identity, in words. -/
def IdentityFault.message : IdentityFault → String
  | invalidSchema t => "charm or bundle URL has invalid schema: " ++ quoted t
  | invalidForm t => "charm or bundle URL has invalid form: " ++ quoted t
  | localUser t => "local charm or bundle URL with user name: " ++ quoted t
  | invalidUser t => "charm or bundle URL has invalid user name: " ++ quoted t
  | invalidSeries t => "charm or bundle URL has invalid series: " ++ quoted t
  | invalidName t => "charm or bundle URL has invalid charm or bundle name: " ++ quoted t
  | noSeries t => "charm or bundle URL without series: " ++ quoted t
  | unknownSchema s => "invalid schema " ++ s
  | emptySeries n => "charm or bundle URL " ++ n ++ " has no series"
  | lowRevision r => "invalid revision " ++ r
  | unresolved r => "cannot resolve series for charm URL " ++ quoted r
  | notSeries s => "invalid series " ++ quoted s

/-- What is not there, in words. -/
def Missing.message : Missing → String
  | localCharm root url => "charm not found in " ++ quoted root ++ ": " ++ url
  | localBundle root url => "bundle not found in " ++ quoted root ++ ": " ++ url
  | event key => "charm event not found for " ++ quoted key
  | eventWithDigest key shown =>
    "charm event not found for " ++ quoted key ++ " with digest " ++ shown
  | canonicalUrl r => "cannot resolve charm URL: " ++ quoted r
  | memoryCharm url => "charm not found in mock store: " ++ url
  | reported m => m

/-- Why it is refused, in words. -/
def Refusal.message : Refusal → String
  | notLocal url => "local repository got URL with non-local schema: " ++ quoted url
  | noLocalPath => "path to local repository not specified"
  | unknownSchema s r =>
    "unknown schema " ++ s ++ " for charm or bundle reference " ++ quoted r
  | unknownBranch l => "unknown branch location: " ++ quoted l
  | storeErrors l es => "charm info errors for " ++ quoted l ++ ": " ++ "; ".intercalate es
  | unrevisioned => "bad charm url revision"
  | charmMismatch url charm => "charm url " ++ url ++ " mismatch with archive " ++ charm

/-- What the charm lacks, in words. -/
def CharmFault.message : CharmFault → String
  | noName => "charm metadata has no name"
  | badRevision r => "invalid revision " ++ r ++ " in charm metadata"
  | badRevisionFile path => "invalid revision file in " ++ path
  | noMetadata path => "charm archive " ++ quoted path ++ " has no metadata.yaml"

/-- What the bundle lacks, in words. -/
def BundleFault.message : BundleFault → String
  | noData path => "bundle archive " ++ quoted path ++ " has no bundle.yaml"
  | noReadme path => "cannot read README file in " ++ quoted path

/-- What is wrong with the answer, in words. -/
def AnswerFault.message : AnswerFault → String
  | notObject path => "charm store response from " ++ path ++ " is not a JSON object"
  | noCharm key => "charm store returned response without charm " ++ quoted key

/-- The words in front of the reason. -/
def Unreadable.message : Unreadable → String
  | bundleData => "cannot unmarshal bundle data"
  | bundleFile => "cannot read bundle.yaml"
  | readme => "cannot read README file"
  | bundleArchive path => "cannot read bundle archive " ++ quoted path
  | charmMetadata => "cannot parse charm metadata"
  | charmConfig path => "cannot parse config.yaml in " ++ path
  | charmDirectory path => "cannot read charm metadata in " ++ quoted path
  | charmArchive path => "cannot read charm archive " ++ quoted path
  | storeAnswer path => "cannot decode charm store response from " ++ path

/-- The kind of what could not be read. -/
def Unreadable.kind : Unreadable → Kind
  | bundleData | bundleFile | readme | bundleArchive _ => .invalidBundle
  | charmMetadata | charmConfig _ | charmDirectory _ | charmArchive _ => .invalidCharm
  | storeAnswer _ => .protocol

/-- The message of a value fault, where it has one. -/
def ValueFault.message? : ValueFault → Option String
  | integer (.malformed base shown) =>
    some ("invalid literal for int() with base " ++ toString base ++ ": " ++ shown)
  | integer (.tooLong n) =>
    some ("Exceeds the limit (4300 digits) for integer string conversion: value has " ++ toString n
      ++ " digits; use sys.set_int_max_str_digits() to increase the limit")
  | tooLongToWrite =>
    some ("Exceeds the limit (4300 digits) for integer string conversion; "
      ++ "use sys.set_int_max_str_digits() to increase the limit")
  | real shown => some ("could not convert string to float: " ++ shown)
  | notMapping what => some (what ++ " is not a mapping")
  | unknownUrl url => some ("unknown url type: " ++ quoted url)
  | undecodable | other => none

/-- What the state lacks or holds too much of, in words. -/
def StateFault.message : StateFault → String
  | noCache => "charm cache directory path is empty"
  | noHome => "Could not determine home directory."
  | resultCount n => "expected 1 result, got " ++ toString n

/-- The words about an answer that is no success: the number of its status, as written, and the
reason given with it. -/
def statusWords (code reason : String) : String :=
  "invalid response code " ++ code ++ " (" ++ reason ++ ")"

/-- The message about an answer that is no success. -/
def statusMessage (code reason : String) : String :=
  "cannot access the charm store: " ++ statusWords code reason

namespace Fault

/-- What a message says about the fault that it wraps. -/
def detail : Fault → String
  | system f => f.describe
  | notArchive => "File is not a zip file"
  | value (.integer (.malformed base shown)) =>
    ((ValueFault.integer (.malformed base shown)).message?).getD unspelled
  | value (.notMapping what) => ((ValueFault.notMapping what).message?).getD unspelled
  | _ => unspelled

/-- The message of a fault, where it has one. -/
def message? : Fault → Option String
  | identity f => some f.message
  | relation shown => some ("invalid relation syntax " ++ shown)
  | placement directive => some ("invalid placement syntax " ++ quoted directive)
  | missing m => some m.message
  | noRepository path => some ("no repository found at " ++ quoted path)
  | revisionConflict revision url =>
    some ("store returned charm with wrong revision " ++ revision ++ " for " ++ quoted url)
  | digestMismatch path => some ("bad SHA256 of " ++ quoted path)
  | unreached reason => some reason
  | network words =>
    some ("cannot access the charm store, are you connected to the internet? error details: "
      ++ words)
  | answer f => some f.message
  | status code reason _ => some (statusMessage (integerText code) reason)
  | charm f => some f.message
  | bundle f => some f.message
  | refused r => some r.message
  | unreadable what cause => some (what.message ++ ": " ++ cause.detail)
  | reported _ message => some message
  | system f => some f.describe
  | notArchive => some "File is not a zip file"
  | noTree path => some ("cannot read repository found at " ++ quoted path)
  | copy failures =>
    let one (f : String × String × String) : String :=
      "(" ++ ", ".intercalate ([f.1, f.2.1, f.2.2].map quoted) ++ ")"
    some ("[" ++ ", ".intercalate (failures.map one) ++ "]")
  | value f => f.message?
  | state f => some f.message
  | document | unsuitable | unsupported | overflow | unfit | unknownKey | outOfRange
  | tooDeep => none

/-- The message of a fault, or the words that stand for another reader's. -/
def message (f : Fault) : String :=
  f.message?.getD unspelled

/-- The kind of a fault of this library. -/
def kind? : Fault → Option Kind
  | identity _ => some .malformedIdentity
  | relation _ => some .malformedRelation
  | placement _ => some .malformedPlacement
  | missing _ => some .packageNotFound
  | noRepository _ => some .repositoryNotFound
  | revisionConflict .. => some .revisionConflict
  | digestMismatch _ => some .digestMismatch
  | unreached _ | network _ => some .connectivity
  | answer _ => some .protocol
  | status .. => some .api
  | charm _ => some .invalidCharm
  | bundle _ => some .invalidBundle
  | refused _ => some .error
  | unreadable what _ => some what.kind
  | reported kind _ => some kind
  | _ => none

/-- Whether a fault is one of this library's own. -/
def isOwn (f : Fault) : Bool :=
  f.kind?.isSome

/-- Whether a fault is a failure of the operating system. -/
def isSystem : Fault → Bool
  | system _ | noTree _ | copy _ => true
  | _ => false

/-- Whether a fault is about a value: out of range, of the wrong form, or not an identity,
endpoint or directive. -/
def isValue (f : Fault) : Bool :=
  match f with
  | value _ => true
  | _ => (f.kind?.map Kind.isValueFault).getD false

/-- Whether a fault says that something could not be read as a charm. -/
def isInvalidCharm (f : Fault) : Bool :=
  f.kind? == some .invalidCharm

end Fault

/-- The summary of several problems: the first one and the number of others. -/
def problemSummary : List String → String
  | [] => "no verification errors!"
  | [m] => m
  | m :: rest => m ++ " (and " ++ toString rest.length ++ " more errors)"

end CharmDepot
