import ContentBlocking.FilterText.Parsed
import Mathlib.Data.List.Basic

/-!
# Filter lists with a ceiling

A filter list is read line by line until the ceiling is reached, and then the lines that are
left are not looked at. So a line is looked at if and only if fewer rules than the ceiling are
in front of it, and everything that is found is found in the lines that were looked at. The
rules are the first ones of those that would be found without a ceiling.

* `FilterText.rulesOfLines`: the rules of lines without a ceiling;
* `parseLines_cons`: what one more line in front adds to what is found;
* `Parsed.IsOf`, `isOf_parseLines`: which lines are looked at, and what is found in them;
* `parse_cuts_short`: what a ceiling changes.
-/

namespace ContentBlocking.FilterText

open Text

variable {excluded : List String} {room max : Nat} {line : List Char} {all : List (List Char)}
  {p : Parsed}

/-- The rules of lines, however many there are. -/
def rulesOfLines (excluded : List String) (all : List (List Char)) : List Rule :=
  all.filterMap (ruleOfLine? excluded)

/-- The line is blank or a comment, apart from outer white space. -/
def saysNothing (line : List Char) : Bool := isSilent (trim line)

/-- The line says something, but gives no rule. -/
def isRejected (excluded : List String) (line : List Char) : Bool :=
  !saysNothing line && (ruleOfLine? excluded line).isNone

theorem rulesOfLines_cons (excluded : List String) (line : List Char) (all : List (List Char)) :
    rulesOfLines excluded (line :: all) =
      (ruleOfLine? excluded line).toList ++ rulesOfLines excluded all := by
  rw [rulesOfLines, List.filterMap_cons, ← rulesOfLines]
  cases ruleOfLine? excluded line <;> rfl

theorem rulesOfLines_append (excluded : List String) (front back : List (List Char)) :
    rulesOfLines excluded (front ++ back) =
      rulesOfLines excluded front ++ rulesOfLines excluded back :=
  List.filterMap_append

theorem ruleOfLine?_of_saysNothing (h : saysNothing line = true) :
    ruleOfLine? excluded line = none := by
  rw [ruleOfLine?]
  exact if_pos h

/-- A line gives a rule, or is rejected, or says nothing, and is only one of these. -/
theorem length_toList_add_isRejected (excluded : List String) (line : List Char) :
    (ruleOfLine? excluded line).toList.length + (if isRejected excluded line then 1 else 0) +
      (if saysNothing line then 1 else 0) = 1 := by
  rw [isRejected]
  cases hsilent : saysNothing line with
  | true => rw [ruleOfLine?_of_saysNothing hsilent]; rfl
  | false => cases ruleOfLine? excluded line <;> rfl

/-! ### One line -/

/-- A line for which there is room adds what it is to what is found behind it, for which the
    rule that it gives leaves less room. -/
theorem parseLines_cons (excluded : List String) (room : Nat) (line : List Char)
    (all : List (List Char)) :
    parseLines excluded (room + 1) (line :: all) =
      let rule := (ruleOfLine? excluded line).toList
      let found := parseLines excluded (room + 1 - rule.length) all
      { rules := rule ++ found.rules
        lines := found.lines + 1
        rejected := found.rejected + if isRejected excluded line then 1 else 0
        truncated := found.truncated } := by
  rw [parseLines, isRejected, ← saysNothing]
  cases hsilent : saysNothing line with
  | true => rw [ruleOfLine?_of_saysNothing hsilent]; rfl
  | false => cases ruleOfLine? excluded line <;> rfl

/-! ### All lines -/

/-- This is what is found in lines with a ceiling: a line is looked at if fewer rules are in
    front of it, and what is found is found in the lines that are looked at. -/
structure Parsed.IsOf (p : Parsed) (excluded : List String) (max : Nat)
    (all : List (List Char)) : Prop where
  lines_le : p.lines ≤ all.length
  looksAt : ∀ k < all.length, k < p.lines ↔ (rulesOfLines excluded (all.take k)).length < max
  rules : p.rules = rulesOfLines excluded (all.take p.lines)
  rejected : p.rejected = (all.take p.lines).countP (isRejected excluded)
  truncated : p.truncated = true ↔ p.lines < all.length

/-- What is found in some lines, by induction on the lines: one line in front is looked at, and
    behind it there is room for the rules that it leaves. -/
theorem isOf_parseLines (excluded : List String) (max : Nat) (all : List (List Char)) :
    (parseLines excluded max all).IsOf excluded max all := by
  induction all generalizing max with
  | nil => cases max <;> exact ⟨Nat.le_refl _, nofun, rfl, rfl, by simp [parseLines]⟩
  | cons line all ih =>
    cases max with
    | zero => exact ⟨Nat.zero_le _, fun k _ => by simp [parseLines], rfl, rfl, by simp [parseLines]⟩
    | succ room =>
      have hone := length_toList_add_isRejected excluded line
      rw [parseLines_cons]
      obtain ⟨hle, hlooksAt, hrules, hrejected, htruncated⟩ :=
        ih (room + 1 - (ruleOfLine? excluded line).toList.length)
      refine ⟨Nat.succ_le_succ hle, fun k hk => ?_, ?_, ?_, ?_⟩
      · cases k with
        | zero => simp [rulesOfLines]
        | succ k =>
          rw [List.take_succ_cons, rulesOfLines_cons, List.length_append, Nat.add_lt_add_iff_right,
            hlooksAt k (Nat.lt_of_succ_lt_succ hk)]
          omega
      · rw [List.take_succ_cons, rulesOfLines_cons, ← hrules]
      · rw [List.take_succ_cons, List.countP_cons, ← hrejected]
      · rw [htruncated, List.length_cons, Nat.add_lt_add_iff_right]

namespace Parsed.IsOf

variable (h : p.IsOf excluded max all)

include h

/-- All rules are in what was looked at, or what was not. -/
theorem rules_append :
    p.rules ++ rulesOfLines excluded (all.drop p.lines) = rulesOfLines excluded all := by
  rw [h.rules, ← rulesOfLines_append, List.take_append_drop]

/-- The lines that were looked at gave a rule, were rejected or said nothing. -/
theorem add_countP_saysNothing :
    p.rules.length + p.rejected + (all.take p.lines).countP saysNothing = p.lines := by
  have hlength : (all.take p.lines).length = p.lines := List.length_take_of_le h.lines_le
  rw [h.rules, h.rejected]
  generalize all.take p.lines = seen at hlength
  rw [← hlength]
  clear h hlength
  induction seen with
  | nil => rfl
  | cons line seen ih =>
    have hone := length_toList_add_isRejected excluded line
    rw [rulesOfLines_cons, List.length_append, List.countP_cons, List.countP_cons, List.length_cons]
    omega

/-- If a line was looked at last, the ceiling had not been reached in front of it. -/
theorem exists_last (hlines : 0 < p.lines) : ∃ before line, all.take p.lines = before ++ [line] ∧
    (rulesOfLines excluded before).length < max := by
  obtain ⟨k, hk⟩ : ∃ k, p.lines = k + 1 := ⟨_, (Nat.succ_pred_eq_of_pos hlines).symm⟩
  have hlt : k < all.length := by
    have hle := h.lines_le
    omega
  refine ⟨all.take k, all[k], by rw [hk, List.take_succ_eq_append_getElem hlt], ?_⟩
  exact (h.looksAt k hlt).1 (by omega)

theorem length_rules_le : p.rules.length ≤ max := by
  rw [h.rules]
  rcases Nat.eq_zero_or_pos p.lines with hzero | hpos
  · rw [hzero]
    exact Nat.zero_le _
  · obtain ⟨before, line, htake, hbefore⟩ := h.exists_last hpos
    have hone := length_toList_add_isRejected excluded line
    rw [htake, rulesOfLines_append, rulesOfLines_cons, List.length_append, List.length_append]
    simp only [rulesOfLines, List.filterMap_nil, List.length_nil] at hbefore ⊢
    omega

/-- A list is truncated only at its ceiling. -/
theorem length_rules_eq (htruncated : p.truncated = true) : p.rules.length = max := by
  have hlt := h.truncated.1 htruncated
  have hfull := mt (h.looksAt _ hlt).2 (Nat.lt_irrefl _)
  have hle := h.length_rules_le
  rw [← h.rules] at hfull
  omega

theorem lines_eq (htruncated : p.truncated = false) : p.lines = all.length :=
  Nat.le_antisymm h.lines_le
    (Nat.not_lt.1 fun hlt => by simp [h.truncated.2 hlt] at htruncated)

theorem rules_eq_take : p.rules = (rulesOfLines excluded all).take max := by
  rw [← h.rules_append]
  cases htruncated : p.truncated with
  | true =>
    rw [← h.length_rules_eq htruncated, List.take_left]
  | false =>
    rw [h.lines_eq htruncated, List.drop_length, rulesOfLines, List.filterMap_nil, List.append_nil,
      List.take_of_length_le h.length_rules_le]

/-- A list that was truncated, but not at once, was truncated behind the line that gave the
    last rule. -/
theorem exists_last_rule (htruncated : p.truncated = true) (hmax : 0 < max) :
    ∃ before line rule, all.take p.lines = before ++ [line] ∧
      ruleOfLine? excluded line = some rule ∧ p.rules = rulesOfLines excluded before ++ [rule] ∧
      p.rules.length = max := by
  have hfull := h.length_rules_eq htruncated
  have hpos : 0 < p.lines := Nat.pos_of_ne_zero fun hzero => by
    rw [h.rules, hzero] at hfull
    exact Nat.ne_of_lt hmax hfull
  obtain ⟨before, line, htake, hbefore⟩ := h.exists_last hpos
  have hrules : p.rules = rulesOfLines excluded before ++ (ruleOfLine? excluded line).toList := by
    rw [h.rules, htake, rulesOfLines_append, rulesOfLines_cons]
    exact congrArg _ (List.append_nil _)
  cases hrule : ruleOfLine? excluded line with
  | none =>
    -- Then the ceiling would have been reached in front of it.
    rw [hrule] at hrules
    rw [hrules, List.length_append] at hfull
    exact absurd hfull (Nat.ne_of_lt (by simpa using hbefore))
  | some rule =>
    rw [hrule] at hrules
    exact ⟨before, line, rule, htake, hrule, hrules, hfull⟩

end Parsed.IsOf

/-! ### The text of a list -/

/-- A ceiling cuts a list short and changes nothing else: the rules are the first ones of those
    that are found without a ceiling, as with one that is no less than the number of lines. A
    line is looked at if fewer rules than the ceiling are in front of it. The list is truncated
    if a line is left, and then the line that was looked at last gave the last rule for which
    there was room, if there was room for any. Every line that was looked at gave a rule, was
    rejected, or was blank or a comment. -/
theorem parse_cuts_short (excluded : List String) (max : Nat) (text : String) :
    let all := lines text.toList
    let p := parse excluded max text
    p.rules = (rulesOfLines excluded all).take max ∧
    (∀ unreached, all.length ≤ unreached →
      (parse excluded unreached text).rules = rulesOfLines excluded all ∧
        (parse excluded unreached text).truncated = false) ∧
    p.lines ≤ all.length ∧
    (∀ k < all.length, k < p.lines ↔ (rulesOfLines excluded (all.take k)).length < max) ∧
    (p.truncated = true ↔ p.lines < all.length) ∧
    (p.truncated = false → p.lines = all.length) ∧
    (p.truncated = true → 0 < max → ∃ before line rule, all.take p.lines = before ++ [line] ∧
      ruleOfLine? excluded line = some rule ∧ p.rules = rulesOfLines excluded before ++ [rule] ∧
      p.rules.length = max) ∧
    p.rejected = (all.take p.lines).countP (isRejected excluded) ∧
    p.rules.length + p.rejected + (all.take p.lines).countP saysNothing = p.lines := by
  intro all p
  have h : p.IsOf excluded max all := isOf_parseLines excluded max all
  refine ⟨h.rules_eq_take, fun unreached hle => ?_, h.lines_le, h.looksAt, h.truncated, h.lines_eq,
    h.exists_last_rule, h.rejected, h.add_countP_saysNothing⟩
  have h' : (parse excluded unreached text).IsOf excluded unreached all :=
    isOf_parseLines excluded unreached all
  have hshort : (rulesOfLines excluded all).length ≤ unreached :=
    Nat.le_trans (List.length_filterMap_le _ _) hle
  have hrules := h'.rules_eq_take
  rw [List.take_of_length_le hshort] at hrules
  refine ⟨hrules, Bool.eq_false_iff.2 fun htruncated => ?_⟩
  -- Even the line that is left would have to give a rule.
  have hfull := h'.length_rules_eq htruncated
  have hlt := h'.truncated.1 htruncated
  have hcount := h'.add_countP_saysNothing
  omega

/-- The second rule is the last one for which there is room, and the comment and the line behind
    it are left. -/
theorem parse_cuts_short_comments :
    let text := "! Title\n||a.com/\n\n@@||b.com/\r\n||b.com/\n! end\n||c.com/\n"
    let all := lines text.toList
    let p := parse [] 2 text
    p.truncated = true ∧ p.lines = 5 ∧ all.length = 7 ∧ p.rejected = 1 ∧ ∃ before line rule,
      all.take p.lines = before ++ [line] ∧ ruleOfLine? [] line = some rule ∧
        p.rules = rulesOfLines [] before ++ [rule] ∧ p.rules.length = 2 := by
  intro text all p
  have hp : p.truncated = true ∧ p.lines = 5 ∧ all.length = 7 ∧ p.rejected = 1 := by decide +kernel
  obtain ⟨htruncated, hlines, hall, hrejected⟩ := hp
  obtain ⟨-, -, -, -, -, -, hlast, -⟩ := parse_cuts_short [] 2 text
  exact ⟨htruncated, hlines, hall, hrejected, hlast htruncated (by decide)⟩

end ContentBlocking.FilterText
