import ContentBlocking.Regex.Basic
import Mathlib.Data.List.Basic

/-!
# What a search finds

A search over a text says that an expression occurs in it if and only if the text holds a
piece that the expression describes. The pieces of an expression that begin with a
character are described by its derivatives, with what stands around them unchanged, and the
empty piece is told by `nullable`. So the search, which goes through the text once, knows
at every position whether a piece that has begun ends there.

* `nullable_iff_matches`, `exists_mem_steps_iff`: the empty piece, and pieces that begin
  with a character;
* `Begins`: the text begins with a piece that the expression describes;
* `search_iff_occurs`: a search decides whether an expression occurs;
* `occurs_iff`, `begins_seqAll_cons_iff`: an expression that occurs begins somewhere, and a
  sequence begins with its parts one after the other;
* `matches_optional_iff`, `matches_some_chars_iff`: what may be left out, and characters of a
  class.
-/

namespace ContentBlocking.Regex

variable {r s : Regex} {before after : Option Char} {c : Char} {w text : List Char}

/-! ### Pieces by the form of the expression -/

theorem matches_empty_iff : Matches .empty before w after ↔ w = [] := by
  constructor
  · intro h
    cases h
    rfl
  · rintro rfl
    exact .empty

theorem matches_chars_iff {k : CharClass} :
    Matches (.chars k) before w after ↔ ∃ c, k.mem c = true ∧ w = [c] := by
  constructor
  · intro h
    cases h with
    | chars hc => exact ⟨_, hc, rfl⟩
  · rintro ⟨c, hc, rfl⟩
    exact .chars hc

theorem matches_anchor_iff {a : Anchor} :
    Matches (.anchor a) before w after ↔ a.holds before after = true ∧ w = [] := by
  constructor
  · intro h
    cases h with
    | anchor ha => exact ⟨ha, rfl⟩
  · rintro ⟨ha, rfl⟩
    exact .anchor ha

theorem matches_seq_iff : Matches (.seq r s) before w after ↔
    ∃ u v, w = u ++ v ∧ Matches r before u (v.head?.or after) ∧
      Matches s (u.getLast?.or before) v after := by
  constructor
  · intro h
    cases h with
    | seq hr hs => exact ⟨_, _, rfl, hr, hs⟩
  · rintro ⟨u, v, rfl, hr, hs⟩
    exact .seq hr hs

theorem matches_alt_iff : Matches (.alt r s) before w after ↔
    Matches r before w after ∨ Matches s before w after := by
  constructor
  · intro h
    cases h with
    | left h => exact .inl h
    | right h => exact .inr h
  · exact fun h => h.elim .left .right

/-- A piece of a repetition that is not empty begins with one of the repeated expression
    that is not empty. -/
theorem matches_star_cons_iff : Matches (.star r) before (c :: w) after ↔
    ∃ u v, w = u ++ v ∧ Matches r before (c :: u) (v.head?.or after) ∧
      Matches (.star r) ((c :: u).getLast?.or before) v after := by
  constructor
  · intro h
    generalize hstar : Regex.star r = t, hpiece : c :: w = piece at h
    induction h with
    | empty => cases hstar
    | chars => cases hstar
    | anchor => cases hstar
    | seq => cases hstar
    | left => cases hstar
    | right => cases hstar
    | starNil => cases hpiece
    | @starCons r' before u v after hr hrest _ ih =>
      obtain rfl := Regex.star.inj hstar
      cases u with
      | nil => exact ih rfl hpiece
      | cons d u =>
        obtain ⟨rfl, rfl⟩ := List.cons.inj hpiece
        exact ⟨u, v, rfl, hr, hrest⟩
  · rintro ⟨u, v, rfl, hr, hrest⟩
    exact .starCons hr hrest

theorem matches_followedBy_iff :
    Matches (r.followedBy s) before w after ↔ Matches (.seq r s) before w after := by
  rw [followedBy]
  split
  · next h =>
    subst h
    rw [matches_seq_iff]
    constructor
    · exact fun h => ⟨[], w, rfl, .empty, h⟩
    · rintro ⟨u, v, rfl, hu, hv⟩
      obtain rfl := matches_empty_iff.1 hu
      exact hv
  · exact Iff.rfl

/-! ### Repetitions -/

/-- An expression that may be left out. -/
theorem matches_optional_iff : Matches (r.repeated 0 (some 1)) before w after ↔
    w = [] ∨ Matches r before w after := by
  have hopt : r.repeated 0 (some 1) = .alt (.seq r .empty) .empty := rfl
  rw [hopt, matches_alt_iff, matches_seq_iff, matches_empty_iff, or_comm]
  refine or_congr_right ⟨?_, fun hw => ⟨w, [], by simp, hw, .empty⟩⟩
  rintro ⟨u, v, rfl, hu, hv⟩
  obtain rfl := matches_empty_iff.1 hv
  simpa using hu

theorem matches_star_chars_iff {k : CharClass} :
    Matches (.star (.chars k)) before w after ↔ ∀ c ∈ w, k.mem c = true := by
  induction w generalizing before with
  | nil => exact iff_of_true .starNil nofun
  | cons c w ih =>
    rw [matches_star_cons_iff, List.forall_mem_cons]
    constructor
    · rintro ⟨u, v, rfl, hfirst, hrest⟩
      obtain ⟨d, hd, hu⟩ := matches_chars_iff.1 hfirst
      obtain ⟨rfl, rfl⟩ := List.cons.inj hu
      exact ⟨hd, ih.1 hrest⟩
    · exact fun ⟨hc, hw⟩ => ⟨[], w, rfl, .chars hc, ih.2 hw⟩

/-- One or more characters of a class. -/
theorem matches_some_chars_iff {k : CharClass} :
    Matches ((Regex.chars k).repeated 1 none) before w after ↔
      w ≠ [] ∧ ∀ c ∈ w, k.mem c = true := by
  have hsome : (Regex.chars k).repeated 1 none = .seq (.chars k) (.star (.chars k)) := rfl
  rw [hsome, matches_seq_iff]
  simp only [matches_chars_iff, matches_star_chars_iff]
  constructor
  · rintro ⟨_, v, rfl, ⟨c, hc, rfl⟩, hv⟩
    exact ⟨List.cons_ne_nil c v, List.forall_mem_cons.2 ⟨hc, hv⟩⟩
  · rintro ⟨hne, hw⟩
    obtain ⟨c, v, rfl⟩ := List.exists_cons_of_ne_nil hne
    obtain ⟨hc, hv⟩ := List.forall_mem_cons.1 hw
    exact ⟨[c], v, rfl, ⟨c, hc, rfl⟩, hv⟩

/-! ### Derivatives -/

/-- The empty piece is described if the expression is nullable there. -/
theorem nullable_iff_matches :
    r.nullable before after = true ↔ Matches r before [] after := by
  induction r with
  | empty => exact iff_of_true rfl .empty
  | chars k => simp [nullable, matches_chars_iff]
  | anchor a => simp [nullable, matches_anchor_iff]
  | seq r s ihr ihs =>
    rw [nullable, Bool.and_eq_true, ihr, ihs, matches_seq_iff]
    constructor
    · exact fun ⟨hr, hs⟩ => ⟨[], [], rfl, hr, hs⟩
    · rintro ⟨u, v, huv, hr, hs⟩
      obtain ⟨rfl, rfl⟩ := List.append_eq_nil_iff.1 huv.symm
      exact ⟨hr, hs⟩
  | alt r s ihr ihs => rw [nullable, Bool.or_eq_true, ihr, ihs, matches_alt_iff]
  | star r => exact iff_of_true rfl .starNil

theorem getLast?_cons_or (c : Char) (u : List Char) (before : Option Char) :
    (c :: u).getLast?.or before = u.getLast?.or (some c) := by
  cases u with
  | nil => rfl
  | cons d u => simp [List.getLast?_cons]

theorem exists_mem_map_followedBy_iff {ds : List Regex} :
    (∃ d ∈ ds.map (·.followedBy s), Matches d before w after) ↔
      ∃ u v, w = u ++ v ∧ (∃ d ∈ ds, Matches d before u (v.head?.or after)) ∧
        Matches s (u.getLast?.or before) v after := by
  constructor
  · rintro ⟨d, hd, h⟩
    obtain ⟨d, hmem, rfl⟩ := List.mem_map.1 hd
    obtain ⟨u, v, hw, hu, hv⟩ := matches_seq_iff.1 (matches_followedBy_iff.1 h)
    exact ⟨u, v, hw, ⟨d, hmem, hu⟩, hv⟩
  · rintro ⟨u, v, hw, ⟨d, hmem, hu⟩, hv⟩
    exact ⟨_, List.mem_map_of_mem hmem,
      matches_followedBy_iff.2 (matches_seq_iff.2 ⟨u, v, hw, hu, hv⟩)⟩

/-- The pieces that begin with a character are those of the derivatives after it. -/
theorem exists_mem_steps_iff :
    (∃ d ∈ r.steps before c, Matches d (some c) w after) ↔ Matches r before (c :: w) after := by
  induction r generalizing w after with
  | empty => simp [steps, matches_empty_iff]
  | chars k =>
    rw [steps, matches_chars_iff]
    by_cases h : k.mem c = true <;> simp [h, matches_empty_iff]
  | anchor a => simp [steps, matches_anchor_iff]
  | seq r s ihr ihs =>
    have hnull : (∃ d ∈ if r.nullable before (some c) then s.steps before c else [],
        Matches d (some c) w after) ↔
        Matches r before [] (some c) ∧ Matches s before (c :: w) after := by
      rw [← nullable_iff_matches, ← ihs]
      split <;> simp [*]
    simp only [steps, List.mem_append, or_and_right, exists_or, exists_mem_map_followedBy_iff, ihr,
      hnull]
    rw [matches_seq_iff]
    -- The first character belongs to the first expression, or that describes nothing here.
    constructor
    · rintro (⟨u, v, rfl, hu, hv⟩ | ⟨hu, hv⟩)
      · exact ⟨c :: u, v, rfl, hu, (getLast?_cons_or c u before).symm ▸ hv⟩
      · exact ⟨[], c :: w, rfl, hu, hv⟩
    · rintro ⟨u, v, hw, hu, hv⟩
      cases u with
      | nil =>
        obtain rfl := hw
        exact .inr ⟨hu, hv⟩
      | cons d u =>
        obtain ⟨rfl, rfl⟩ := List.cons.inj hw
        exact .inl ⟨u, v, rfl, hu, getLast?_cons_or c u before ▸ hv⟩
  | alt r s ihr ihs =>
    simp only [steps, List.mem_append, or_and_right, exists_or, ihr, ihs, matches_alt_iff]
  | star r ih =>
    simp only [steps, exists_mem_map_followedBy_iff, ih, matches_star_cons_iff, getLast?_cons_or]

/-! ### Pieces at the beginning of a text -/

/-- The text begins with a piece that the expression describes, behind the character
    `before`. -/
def Begins (r : Regex) (before : Option Char) (text : List Char) : Prop :=
  ∃ w rest, text = w ++ rest ∧ Matches r before w rest.head?

theorem begins_nil_iff : r.Begins before [] ↔ r.nullable before none = true := by
  rw [nullable_iff_matches]
  constructor
  · rintro ⟨w, rest, h, hw⟩
    obtain ⟨rfl, rfl⟩ := List.append_eq_nil_iff.1 h.symm
    exact hw
  · exact fun h => ⟨[], [], rfl, h⟩

theorem begins_cons_iff : r.Begins before (c :: text) ↔
    r.nullable before (some c) = true ∨ ∃ d ∈ r.steps before c, d.Begins (some c) text := by
  rw [nullable_iff_matches]
  constructor
  · rintro ⟨w, rest, h, hw⟩
    cases w with
    | nil =>
      obtain rfl := h
      exact .inl hw
    | cons d w =>
      obtain ⟨rfl, rfl⟩ := List.cons.inj h
      obtain ⟨d, hd, hw⟩ := exists_mem_steps_iff.2 hw
      exact .inr ⟨d, hd, w, rest, rfl, hw⟩
  · rintro (h | ⟨d, hd, w, rest, rfl, hw⟩)
    · exact ⟨[], c :: text, rfl, h⟩
    · exact ⟨c :: w, rest, rfl, exists_mem_steps_iff.1 ⟨d, hd, hw⟩⟩

/-! ### Pieces anywhere in a text -/

/-- The expression occurs in a text that stands behind the character `before`. -/
def OccursAfter (r : Regex) (before : Option Char) (text : List Char) : Prop :=
  ∃ p rest, text = p ++ rest ∧ r.Begins (p.getLast?.or before) rest

theorem occursAfter_nil_iff : r.OccursAfter before [] ↔ r.Begins before [] := by
  constructor
  · rintro ⟨p, rest, h, hrest⟩
    obtain ⟨rfl, rfl⟩ := List.append_eq_nil_iff.1 h.symm
    exact hrest
  · exact fun h => ⟨[], [], rfl, h⟩

theorem occursAfter_cons_iff : r.OccursAfter before (c :: text) ↔
    r.Begins before (c :: text) ∨ r.OccursAfter (some c) text := by
  constructor
  · rintro ⟨p, rest, h, hrest⟩
    cases p with
    | nil =>
      obtain rfl := h
      exact .inl hrest
    | cons d p =>
      obtain ⟨rfl, rfl⟩ := List.cons.inj h
      exact .inr ⟨p, rest, rfl, getLast?_cons_or c p before ▸ hrest⟩
  · rintro (h | ⟨p, rest, rfl, hrest⟩)
    · exact ⟨[], c :: text, rfl, h⟩
    · exact ⟨c :: p, rest, rfl, (getLast?_cons_or c p before).symm ▸ hrest⟩

theorem occurs_iff : r.Occurs text ↔ ∃ p rest, text = p ++ rest ∧ r.Begins p.getLast? rest := by
  constructor
  · rintro ⟨p, w, rest, rfl, hw⟩
    exact ⟨p, w ++ rest, List.append_assoc _ _ _, w, rest, rfl, hw⟩
  · rintro ⟨p, _, rfl, w, rest, rfl, hw⟩
    exact ⟨p, w, rest, (List.append_assoc _ _ _).symm, hw⟩

/-! ### The search -/

theorem exists_mem_insert_iff {ds : List Regex} {P : Regex → Prop} :
    (∃ d ∈ ds.insert r, P d) ↔ P r ∨ ∃ d ∈ ds, P d := by
  simp [List.mem_insert_iff, or_and_right, exists_or]

/-- A search finds what goes on with one of the pieces that have begun, or begins later. -/
theorem searchFrom_eq_true_iff (r : Regex) (begun : List Regex) (before : Option Char)
    (text : List Char) : r.searchFrom begun before text = true ↔
      (∃ d ∈ begun, d.Begins before text) ∨ r.OccursAfter before text := by
  induction text generalizing begun before with
  | nil =>
    rw [searchFrom, List.any_eq_true, exists_mem_insert_iff, occursAfter_nil_iff, or_comm]
    simp only [begins_nil_iff]
  | cons c text ih =>
    -- The derivatives of what has begun have begun one character later.
    have hsteps : (∃ d ∈ (((begun.insert r).flatMap (steps before c)).eraseDups),
        d.Begins (some c) text) ↔
        ∃ d ∈ begun.insert r, ∃ d' ∈ d.steps before c, d'.Begins (some c) text := by
      simp only [List.mem_eraseDups, List.mem_flatMap]
      constructor
      · rintro ⟨d', ⟨d, hd, hd'⟩, hbegins⟩
        exact ⟨d, hd, d', hd', hbegins⟩
      · rintro ⟨d, hd, d', hd', hbegins⟩
        exact ⟨d', ⟨d, hd, hd'⟩, hbegins⟩
    have hall : (∃ d ∈ begun.insert r, d.Begins before (c :: text)) ↔
        (∃ d ∈ begun.insert r, d.nullable before (some c) = true) ∨
          ∃ d ∈ begun.insert r, ∃ d' ∈ d.steps before c, d'.Begins (some c) text := by
      simp only [begins_cons_iff, and_or_left, exists_or]
    rw [searchFrom, Bool.or_eq_true, List.any_eq_true, ih, hsteps, ← or_assoc, ← hall,
      exists_mem_insert_iff, occursAfter_cons_iff, or_comm (a := r.Begins _ _), or_assoc]

/-- A search over a text tells whether the expression occurs in it. -/
theorem search_iff_occurs (r : Regex) (text : List Char) :
    r.search text = true ↔ r.Occurs text := by
  rw [search, searchFrom_eq_true_iff, occurs_iff]
  simp [OccursAfter]

/-! ### Sequences -/

theorem begins_seq_iff : (Regex.seq r s).Begins before text ↔
    ∃ u rest, text = u ++ rest ∧ Matches r before u rest.head? ∧
      s.Begins (u.getLast?.or before) rest := by
  constructor
  · rintro ⟨w, rest, rfl, hw⟩
    obtain ⟨u, v, rfl, hu, hv⟩ := matches_seq_iff.1 hw
    refine ⟨u, v ++ rest, List.append_assoc _ _ _, ?_, v, rest, rfl, hv⟩
    rwa [List.head?_append]
  · rintro ⟨u, _, rfl, hu, v, rest, rfl, hv⟩
    rw [List.head?_append] at hu
    exact ⟨u ++ v, rest, (List.append_assoc _ _ _).symm, matches_seq_iff.2 ⟨u, v, rfl, hu, hv⟩⟩

theorem begins_empty (before : Option Char) (text : List Char) : Regex.empty.Begins before text :=
  ⟨[], text, rfl, .empty⟩

/-- A sequence begins with its first part, and behind that with the others. -/
theorem begins_seqAll_cons_iff {rs : List Regex} : (seqAll (r :: rs)).Begins before text ↔
    ∃ u rest, text = u ++ rest ∧ Matches r before u rest.head? ∧
      (seqAll rs).Begins (u.getLast?.or before) rest := by
  cases rs with
  | nil =>
    constructor
    · rintro ⟨u, rest, rfl, hu⟩
      exact ⟨u, rest, rfl, hu, begins_empty _ _⟩
    · rintro ⟨u, rest, rfl, hu, -⟩
      exact ⟨u, rest, rfl, hu⟩
  | cons s rs => exact begins_seq_iff

/-- A sequence that may begin with some expression. -/
theorem begins_optional_cons_iff {rs : List Regex} :
    (seqAll (r.repeated 0 (some 1) :: rs)).Begins before text ↔ (seqAll rs).Begins before text ∨
      ∃ u rest, text = u ++ rest ∧ Matches r before u rest.head? ∧
        (seqAll rs).Begins (u.getLast?.or before) rest := by
  rw [begins_seqAll_cons_iff]
  simp only [matches_optional_iff]
  constructor
  · rintro ⟨u, rest, rfl, rfl | hu, hrest⟩
    · exact .inl hrest
    · exact .inr ⟨u, rest, rfl, hu, hrest⟩
  · rintro (h | ⟨u, rest, rfl, hu, hrest⟩)
    · exact ⟨[], text, rfl, .inl rfl, h⟩
    · exact ⟨u, rest, rfl, .inr hu, hrest⟩

/-- What is anchored at the start is found there. -/
theorem occurs_textStart_iff {rs : List Regex} :
    (seqAll (.anchor .textStart :: rs)).Occurs text ↔ (seqAll rs).Begins none text := by
  rw [occurs_iff]
  simp only [begins_seqAll_cons_iff, matches_anchor_iff, Anchor.holds, Option.isNone_iff_eq_none,
    List.getLast?_eq_none_iff]
  constructor
  · rintro ⟨_, _, rfl, _, rest, rfl, ⟨rfl, rfl⟩, hrest⟩
    exact hrest
  · exact fun h => ⟨[], text, rfl, [], text, rfl, ⟨rfl, rfl⟩, h⟩

end ContentBlocking.Regex
