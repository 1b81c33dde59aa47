import ContentBlocking.Text.Cut

/-!
# File paths

A path is text with slashes between the names of nested directories. Repeated
slashes count as one, and slashes and dots alone at the end do not count.

* `Path.join` — the path of something inside a directory.
* `Path.parent` — the directory that something stands in.
* `Path.stem`, `Path.withExtension` — the last name without and with another
  extension.
-/

namespace ContentBlocking.Path

open Text

/-- The path without slashes and lone dots at its end; the path of the root is
    one slash. The text is given backwards. -/
def trimBackwards : List Char → List Char
  | '/' :: rest => if rest.isEmpty then ['/'] else trimBackwards rest
  | '.' :: '/' :: rest => if rest.isEmpty then ['/'] else trimBackwards rest
  | path => path

/-- The path without slashes and lone dots at its end. -/
def trimEnd (path : List Char) : List Char := (trimBackwards path.reverse).reverse

/-- The directory part of a path, with its slash, and the last name. -/
def split (path : List Char) : List Char × List Char :=
  match cutLast? '/' (trimEnd path) with
  | some (directory, name) => (directory ++ ['/'], name)
  | none => ([], trimEnd path)

/-- The path of `name` inside a directory; no directory is the working one. A
    name that begins with a slash is a path by itself. -/
def join (directory name : String) : String :=
  if directory.isEmpty ∨ name.toList.head? = some '/' then name
  else if directory.toList.getLast? = some '/' then directory ++ name
  else directory ++ "/" ++ name

/-- The directory that a path stands in. -/
def parent (path : String) : String :=
  let (directory, _) := split path.toList
  String.ofList (trimEnd directory)

/-- The name without its extension, which follows the last dot if there is
    anything in front of that. -/
def stemOf (name : List Char) : List Char :=
  match cutLast? '.' name with
  | some (c :: stem, _) => if name = ['.', '.'] then name else c :: stem
  | _ => name

/-- The last name of a path without its extension; none if the path ends in
    no name. -/
def stem? (path : String) : Option String :=
  let (_, name) := split path.toList
  if name.isEmpty ∨ name = ['.', '.'] ∨ name = ['.'] then none
  else some (String.ofList (stemOf name))

/-- The path with another extension of its last name. -/
def withExtension (path extension : String) : String :=
  let (directory, name) := split path.toList
  if name.isEmpty ∨ name = ['.', '.'] ∨ name = ['.'] then path
  else String.ofList (directory ++ stemOf name ++ '.' :: extension.toList)

/-- The names of a path one after the other. A slash at the end counts as a
    dot, which stands for the directory itself, and a slash in front as the
    name of the root. -/
def names (path : String) : List String :=
  let pieces := splitOn '/' path.toList
  let inner := (pieces.filter (· ≠ [])).map String.ofList
  if path.isEmpty then []
  else (if pieces.head? = some [] then ["/"] else []) ++ inner ++
    (if pieces.getLast? = some [] then ["."] else [])

end ContentBlocking.Path
