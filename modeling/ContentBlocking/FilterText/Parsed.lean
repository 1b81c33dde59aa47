import ContentBlocking.FilterText.Line

/-!
# Filter lists

The rules of a filter list, up to a ceiling: when it is reached, the lines
that are left are not looked at.

* `FilterText.parse` — the rules of a list and the count of its lines.
-/

namespace ContentBlocking.FilterText

open Text

/-- What was found in a filter list. -/
structure Parsed where
  rules : List Rule := []
  /-- The lines that were looked at. -/
  lines : Nat := 0
  /-- The lines that gave no rule, comments and blank lines apart. -/
  rejected : Nat := 0
  /-- The ceiling was reached before the last line. -/
  truncated : Bool := false
  deriving Repr, DecidableEq

/-- What is found in some lines when there is room for so many rules. -/
def parseLines (excluded : List String) : (room : Nat) → List (List Char) → Parsed
  | _, [] => {}
  -- It does not matter whether the lines that are left say anything.
  | 0, _ :: _ => { truncated := true }
  | room + 1, line :: rest =>
    if isSilent (trim line) then
      let found := parseLines excluded (room + 1) rest
      { found with lines := found.lines + 1 }
    else match ruleOfLine? excluded line with
      | some rule =>
        let found := parseLines excluded room rest
        { found with rules := rule :: found.rules, lines := found.lines + 1 }
      | none =>
        let found := parseLines excluded (room + 1) rest
        { found with lines := found.lines + 1, rejected := found.rejected + 1 }

/-- The ceiling for a list when none is given. -/
def defaultMaxRules : Nat := 10000

/-- What is found in the text of a filter list, with at most `max` rules. -/
def parse (excluded : List String) (max : Nat) (text : String) : Parsed :=
  parseLines excluded max (lines text.toList)

end ContentBlocking.FilterText
