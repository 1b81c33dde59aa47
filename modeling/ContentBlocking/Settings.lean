import ContentBlocking.Persist

/-!
# Settings

What the user has chosen, and the counts of blocked requests shown with it.
Settings are read once, and written on every change. The value in memory holds
even when the file cannot be written.

* `Settings` — the value and its JSON form.
* `SettingsStore` — the value together with its file.
-/

namespace ContentBlocking

/-- The settings. -/
structure Settings where
  isEnabled : Bool := true
  totalBlockedRequests : UInt64 := 0
  blockedRequestsThisSession : UInt64 := 0
  whitelistedDomains : List String := []
  deriving Repr, DecidableEq

namespace Settings

/-- The settings as a record. -/
def toJson (s : Settings) : Json :=
  .obj [("isEnabled", .bool s.isEnabled),
    ("totalBlockedRequests", .nat s.totalBlockedRequests.toNat),
    ("blockedRequestsThisSession", .nat s.blockedRequestsThisSession.toNat),
    ("whitelistedDomains", .arr (s.whitelistedDomains.map .str))]

/-- The settings that a record holds; every member has a default. -/
def ofJson? (j : Json) : Option Settings := do
  let fields ← j.fields? ["isEnabled", "totalBlockedRequests", "blockedRequestsThisSession",
    "whitelistedDomains"]
  some {
    isEnabled := ← fields.getD? "isEnabled" Json.bool? true
    totalBlockedRequests := ← fields.getD? "totalBlockedRequests" Json.word? 0
    blockedRequestsThisSession := ← fields.getD? "blockedRequestsThisSession" Json.word? 0
    whitelistedDomains := ← fields.getD? "whitelistedDomains" (Json.list? Json.str?) [] }

end Settings

/-- The settings together with their file. -/
structure SettingsStore where
  path : String
  settings : Settings
  deriving Repr, DecidableEq

namespace SettingsStore

/-- Writes the settings to their file. -/
def save (s : SettingsStore) (d : Disk) : Disk × Except Failure Unit :=
  d.writeJson s.path s.settings.toJson

/-- Reads the settings. If there is no file, defaults are used and written; if
    the file cannot be used, defaults are used and the file stays. -/
def ofDisk (d : Disk) (path : String) : SettingsStore × Disk :=
  match d.readJson path Settings.ofJson? with
  | .ok (some settings) => (⟨path, settings⟩, d)
  | .ok none =>
    let store : SettingsStore := ⟨path, {}⟩
    (store, (store.save d).1)
  | .error _ => (⟨path, {}⟩, d)

/-- Changes the settings and writes them. -/
def update (s : SettingsStore) (d : Disk) (change : Settings → Settings) :
    SettingsStore × Disk × Except Failure Unit :=
  let s := { s with settings := change s.settings }
  (s, s.save d)

/-- Changes the settings; a file that cannot be written is let be. -/
def change (s : SettingsStore) (d : Disk) (change : Settings → Settings) : SettingsStore × Disk :=
  let (s, d, _) := s.update d change
  (s, d)

end SettingsStore

end ContentBlocking
