/-
A client of the charm store: the address of the store and how requests are made. The client itself
holds no charms; those that it downloads are in its cache directory.
-/
import CharmDepot.Store.Settings

namespace CharmDepot

/-- A client of the charm store. -/
structure Store where
  baseUrl : String
  /-- Where downloaded charms are kept. -/
  cacheDir : Option FilePath
  /-- Whether a page can be shown to the user, so as to log in. -/
  interactive : Bool
  authAttrs : Value
  /-- Whether the store is asked to leave downloads out of its statistics. -/
  testMode : Value
  timeout : Value

namespace Store

/-- A client with the given address and cache directory. -/
def make (url cacheDir timeout : Value) : Outcome Store := do
  let baseUrl ← addressOf url
  let cacheDir ← directoryOf cacheDir
  pure {
    baseUrl
    cacheDir
    interactive := false
    authAttrs := .text ""
    testMode := .bool false
    timeout }

/-- The client of the given settings. -/
def ofConfig (c : StoreSettings) : Store where
  baseUrl := withoutFinalSlashes c.storeUrl
  cacheDir := c.cacheDir
  interactive := false
  authAttrs := c.authAttrs
  testMode := .bool c.testMode
  timeout := .float c.timeout

end Store

end CharmDepot
