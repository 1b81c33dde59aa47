import ContentBlocking.Failure
import ContentBlocking.Fingerprint
import ContentBlocking.Json.Basic
import ContentBlocking.Text.Cut
import ContentBlocking.Url.Parser

/-!
# Filter lists

A filter list is downloaded from a URL. Some lists are built in; others the
user adds, and those are identified by the fingerprint of their URL.

* `FilterList` — a list and its JSON form.
* `FilterList.builtIn` — the built-in lists.
* `FilterList.normalUrl` — the URL of a list in its normal form.
-/

namespace ContentBlocking

/-- A source of rules. -/
structure FilterList where
  id : String
  name : String
  url : String
  isBuiltIn : Bool
  isEnabled : Bool
  /-- The time of the last download, in seconds. -/
  lastUpdated : Option UInt64 := none
  deriving Repr, DecidableEq

namespace FilterList

/-- The list as a record. -/
def toJson (l : FilterList) : Json :=
  .obj [("id", .str l.id), ("name", .str l.name), ("sourceURL", .str l.url),
    ("isBuiltIn", .bool l.isBuiltIn), ("isEnabled", .bool l.isEnabled),
    ("lastUpdated", match l.lastUpdated with
      | some time => .nat time.toNat
      | none => .null)]

/-- The list that a record holds. -/
def ofJson? (j : Json) : Option FilterList := do
  let fields ← j.fields? ["id", "name", "sourceURL", "isBuiltIn", "isEnabled", "lastUpdated"]
  some {
    id := ← fields.get? "id" Json.str?
    name := ← fields.get? "name" Json.str?
    url := ← fields.get? "sourceURL" Json.str?
    isBuiltIn := ← fields.get? "isBuiltIn" Json.bool?
    isEnabled := ← fields.get? "isEnabled" Json.bool?
    lastUpdated := ← fields.getD? "lastUpdated" (Json.orNull? Json.word?) none }

/-- The built-in lists. -/
def builtIn : List FilterList :=
  [⟨"easylist", "EasyList", "https://easylist.to/easylist/easylist.txt", true, true, none⟩,
   ⟨"easyprivacy", "EasyPrivacy", "https://easylist.to/easylist/easyprivacy.txt", true, true,
     none⟩,
   ⟨"peter-lowe", "Peter Lowe's Ad and tracking server list",
     "https://pgl.yoyo.org/adservers/serverlist.php?hostformat=adblockplus&showintro=0" ++
       "&mimetype=plaintext", true, false, none⟩,
   ⟨"fanboy-annoyance", "Fanboy's Annoyance List",
     "https://secure.fanboy.co.nz/fanboy-annoyance.txt", true, false, none⟩]

/-- The URL of a list, which is one of the web. -/
def webUrl? (urls : UrlReader) (input : String) : Option UrlFacts :=
  (urls.read? (String.ofList (Text.trim input.toList))).filter (·.isOfWeb)

/-- The URL of a list in its normal form. -/
def normalUrl (urls : UrlReader) (input : String) : Except Failure String :=
  match webUrl? urls input with
  | some url => .ok url.text
  | none => .error (.invalidFilterListUrl input)

/-- The identifier of the list that the user adds with this URL. -/
def customId (url : String) : String := "custom-" ++ Fingerprint.hex url

/-- The list that the user adds with a name and a URL in its normal form. A
    list without a name is called by its URL. -/
def custom (name url : String) : FilterList :=
  let name := String.ofList (Text.trim name.toList)
  { id := customId url
    name := if name.isEmpty then url else name
    url := url
    isBuiltIn := false
    isEnabled := true }

end FilterList

end ContentBlocking
