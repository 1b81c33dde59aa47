/-!
# JSON values

The values that artifacts and the persisted files hold. Numbers are natural
numbers, as everything the library counts is; a number written in any other
way is kept as its text. A string literal whose escapes leave a surrogate
without its partner denotes no text: it can be skipped, but not used, and so
can an object with such a key. Both are `illFormed`.

* `Json` — a value.
* `Json.Fields` — the members of a record, by name or by position.
-/

namespace ContentBlocking

/-- A JSON value. -/
inductive Json where
  | null
  | bool (b : Bool)
  | nat (n : Nat)
  /-- A number that is not written as a natural number. -/
  | number (text : String)
  | str (s : String)
  | arr (items : List Json)
  | obj (fields : List (String × Json))
  /-- A value that denotes nothing and may only be skipped. -/
  | illFormed
  deriving Repr, BEq

namespace Json

/-- The text of a string value. -/
def str? : Json → Option String
  | .str s => some s
  | _ => none

/-- A truth value. -/
def bool? : Json → Option Bool
  | .bool b => some b
  | _ => none

/-- A counter: a natural number of 64 bits. -/
def count? : Json → Option Nat
  | .nat n => if n < UInt64.size then some n else none
  | _ => none

/-- A counter as a word of 64 bits. -/
def word? (j : Json) : Option UInt64 := j.count?.map Nat.toUInt64

/-- The items of an array, each read by `item?`. -/
def list? {α : Type} (item? : Json → Option α) : Json → Option (List α)
  | .arr items => items.mapM item?
  | _ => none

/-- A value that may be `null`. -/
def orNull? {α : Type} (value? : Json → Option α) : Json → Option (Option α)
  | .null => some none
  | j => (value? j).map some

/-- The members of an object, each read by `value?`. -/
def map? {α : Type} (value? : Json → Option α) : Json → Option (List (String × α))
  | .obj fields => fields.mapM fun (key, j) => (value? j).map (key, ·)
  | _ => none

/-! ### Records

A record is written as an object or as the array of its members in their
order. Members with unknown names are skipped; a known name must not occur
twice, and there must not be more items than members. -/

/-- The values that were given for the members of a record, by its names. -/
abbrev Fields := List (String × Option Json)

/-- The only value of `key` in the object: nothing if there is none, and a
    failure if there are several. -/
def member? (fields : List (String × Json)) (key : String) : Option (Option Json) :=
  match fields.filter fun (k, _) => k == key with
  | [] => some none
  | [(_, j)] => some (some j)
  | _ => none

/-- The members of the record with the given names. -/
def fields? (names : List String) : Json → Option Fields
  | .obj fields => names.mapM fun name => (member? fields name).map (name, ·)
  | .arr items =>
    if items.length ≤ names.length then
      some (names.zip (items.map some ++ List.replicate (names.length - items.length) none))
    else none
  | _ => none

namespace Fields

/-- A member that must be given. -/
def get? {α : Type} (fields : Fields) (name : String) (value? : Json → Option α) : Option α :=
  match fields.lookup name with
  | some (some j) => value? j
  | _ => none

/-- A member with a default. -/
def getD? {α : Type} (fields : Fields) (name : String) (value? : Json → Option α)
    (default : α) : Option α :=
  match fields.lookup name with
  | some (some j) => value? j
  | _ => some default

end Fields

end Json

end ContentBlocking
