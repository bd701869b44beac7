/-
Settings of a client of the charm store, and the environment variables that they are taken from.

A setting that counts as false is as good as absent, except the authentication attributes, which are
taken as they are, and the test mode, which is on as soon as its variable is there.
-/
import CharmDepot.FileTree.FilePath
import CharmDepot.Value.Convert

namespace CharmDepot

/-- Where the store is unless a setting says otherwise. -/
def standardStoreUrl : String := "https://store.juju.ubuntu.com"

/-- How many seconds a request may take unless a setting says otherwise. -/
def standardTimeout : Float := 30.0

/-- The settings of a client. -/
structure StoreSettings where
  cacheDir : Option FilePath := none
  storeUrl : String := standardStoreUrl
  testMode : Bool := false
  authAttrs : Value := .text ""
  timeout : Float := standardTimeout

/-- A text without the slashes at its end. -/
def withoutFinalSlashes (s : String) : String :=
  String.ofList (Text.dropFinal '/' s.toList)

/-- The address that a value gives; slashes at its end do not count. -/
def addressOf : Value → Outcome String
  | .text s => .ok (withoutFinalSlashes s)
  | .bytes _ => .error .unsuitable
  | _ => .error .unsupported

/-- The directory that a value gives; what counts as false gives none. -/
def directoryOf (v : Value) : Outcome (Option FilePath) :=
  if v.truthy then
    match v with
    | .text s => .ok (some (.parse s))
    | _ => .error .unsuitable
  else .ok none

namespace StoreSettings

/-- The directory in which charms are kept. -/
def readCacheDir (home : FilePath) (v : Value) : Outcome (Option FilePath) := do
  match ← directoryOf v with
  | some p => (p.expandHome home).map some
  | none => pure none

/-- The address of the store. -/
def readStoreUrl (v : Value) : Outcome String :=
  addressOf (v.orElse (.text standardStoreUrl))

/-- The number of seconds that a request may take. -/
def readTimeout (v : Value) : Outcome Float :=
  if v.truthy then v.real else .ok standardTimeout

/-- The settings in an environment; `home` is the home directory. -/
def ofEnvironment (home : FilePath) (environment : List (String × Value)) :
    Outcome StoreSettings := do
  let setting (name : String) : Value := (environment.lookup name).getD .null
  let cacheDir ← readCacheDir home (setting "CHARMREPO_CACHE_DIR")
  let storeUrl ← readStoreUrl (setting "CHARMREPO_STORE_URL")
  let timeout ← readTimeout (setting "CHARMREPO_TIMEOUT")
  pure {
    cacheDir
    storeUrl
    testMode := (environment.lookup "CHARMREPO_TEST_MODE").isSome
    authAttrs := (environment.lookup "CHARMREPO_AUTH_ATTRS").getD (.text "")
    timeout }

/-- Whether two lists of settings are the same. -/
def same (a b : StoreSettings) : Bool :=
  a.cacheDir == b.cacheDir && a.storeUrl == b.storeUrl && a.testMode == b.testMode
    && a.authAttrs.same b.authAttrs && a.timeout == b.timeout

end StoreSettings

end CharmDepot
