/-!
# Resource types

What a request asks for. A rule applies to a set of types, in which the empty
set stands for all of them.

* `ResourceTypes` — a set of types.
* `ResourceTypes.covers` — a rule with these types applies to a request.
-/

namespace ContentBlocking

/-- The type of a requested resource. -/
inductive ResourceType where
  | document
  | image
  | styleSheet
  | script
  | font
  | raw
  | svgDocument
  | media
  | popup
  deriving Repr, DecidableEq

namespace ResourceType

/-- All types in their canonical order. -/
def all : List ResourceType :=
  [.document, .image, .styleSheet, .script, .font, .raw, .svgDocument, .media, .popup]

/-- The place of a type in the canonical order. -/
def index : ResourceType → Fin 9
  | .document => 0
  | .image => 1
  | .styleSheet => 2
  | .script => 3
  | .font => 4
  | .raw => 5
  | .svgDocument => 6
  | .media => 7
  | .popup => 8

/-- The name of a type in artifacts. -/
def name : ResourceType → String
  | .document => "document"
  | .image => "image"
  | .styleSheet => "style-sheet"
  | .script => "script"
  | .font => "font"
  | .raw => "raw"
  | .svgDocument => "svg-document"
  | .media => "media"
  | .popup => "popup"

/-- The type with the given name in artifacts. -/
def ofName? (name : String) : Option ResourceType := all.find? fun t => t.name == name

/-- The type that a modifier of a filter line names. -/
def ofModifier? : String → Option ResourceType
  | "script" => some .script
  | "image" => some .image
  | "stylesheet" => some .styleSheet
  | "document" => some .document
  | _ => none

theorem ofName?_name (t : ResourceType) : ofName? t.name = some t := by cases t <;> decide

end ResourceType

/-- A set of resource types, with a bit for each. -/
structure ResourceTypes where
  mask : BitVec 9
  deriving Repr, DecidableEq

namespace ResourceTypes

/-- No type. -/
def empty : ResourceTypes := ⟨0⟩

instance : EmptyCollection ResourceTypes := ⟨empty⟩

/-- The type belongs to the set. -/
def contains (s : ResourceTypes) (t : ResourceType) : Bool := s.mask.getLsb t.index

/-- The set of one type. -/
def singleton (t : ResourceType) : ResourceTypes := ⟨1#9 <<< t.index.val⟩

/-- The types of both sets. -/
def union (s t : ResourceTypes) : ResourceTypes := ⟨s.mask ||| t.mask⟩

/-- The set with one more type. -/
def insert (s : ResourceTypes) (t : ResourceType) : ResourceTypes := s.union (singleton t)

/-- The set of the given types. -/
def ofList (ts : List ResourceType) : ResourceTypes := ts.foldl insert ∅

/-- The types of the set in their canonical order. -/
def toList (s : ResourceTypes) : List ResourceType := ResourceType.all.filter s.contains

/-- The set has no types. -/
def isEmpty (s : ResourceTypes) : Bool := s.mask == 0

/-- The sets have a type in common. -/
def meets (s t : ResourceTypes) : Bool := s.mask &&& t.mask != 0

/-- A rule for these types applies to a request of the given types: it is for
    all types, or for one of them. -/
def covers (s request : ResourceTypes) : Bool := s.isEmpty || s.meets request

end ResourceTypes

end ContentBlocking
