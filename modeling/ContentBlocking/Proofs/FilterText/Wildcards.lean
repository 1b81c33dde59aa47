import ContentBlocking.Proofs.Compile.Collection
import ContentBlocking.Proofs.Regex.Search
import ContentBlocking.Proofs.ResourceTypes
import ContentBlocking.Proofs.Text.Cut

/-!
# What network lines block

A network line is a text with wildcards, which may have anchors at its ends and modifiers
behind a dollar sign. The wildcards cut the text into segments, and the rule of the line
blocks the URLs in which the segments occur one after the other, without regard to case.
The rule is a regular expression that is searched for; what the line says is told here
without regular expressions, and that both are the same holds as long as the URL has no
line feed, at which a wildcard ends.

* `FilterText.Layout.IsOf`: the parts of a line;
* `FilterText.InOrder`: the segments occur one after the other;
* `FilterText.occurs_urlItems_iff`: what the expression of a line finds;
* `FilterText.blocks_iff_fits`: what the rule of a line blocks.
-/

namespace ContentBlocking

open Text Text.CaseFolding

/-! ### Line feeds -/

namespace Text.CaseFolding

/-- Runs that lead above a code point fold nothing to it that is not there before. -/
theorem foldCode_eq_of_le {bound : Nat} {runs : List Run} {n : Nat}
    (h : ∀ r ∈ runs, (bound : Int) < r.first + r.shift) (hn : foldCode runs n ≤ bound) :
    foldCode runs n = n := by
  induction runs with
  | nil => rfl
  | cons r runs ih =>
    obtain ⟨hr, hruns⟩ := List.forall_mem_cons.1 h
    rw [foldCode] at hn ⊢
    split
    · rfl
    · next hfirst =>
      rw [if_neg hfirst] at hn
      split
      · next hcovers =>
        rw [if_pos hcovers, Run.image] at hn
        omega
      · next hcovers =>
        rw [if_neg hcovers] at hn
        exact ih hruns hn

/-- A line feed has no other case variants. -/
theorem eq_lineFeed_of_fold_eq {c : Char} (h : fold c = fold '\n') : c = '\n' := by
  have hcode : foldCode table c.toNat = 10 := by
    have hchar : Char.ofNat (foldCode table c.toNat) = '\n' := h.trans (by decide +kernel)
    by_cases hvalid : (foldCode table c.toNat).isValidChar
    · have hsame : Char.ofNat (foldCode table c.toNat) = Char.ofNatAux _ hvalid := dif_pos hvalid
      exact congrArg Char.toNat (hsame.symm.trans hchar)
    · have hnone : Char.ofNat (foldCode table c.toNat) = Char.ofNat 0 := dif_neg hvalid
      exact absurd (hnone.symm.trans hchar) (by decide)
  have hruns : ∀ r ∈ table, ((10 : Nat) : Int) < r.first + r.shift := by decide +kernel
  have hsame := foldCode_eq_of_le hruns hcode.le
  rw [hcode] at hsame
  rw [← Char.ofNat_toNat c, ← hsame]

end Text.CaseFolding

namespace FilterText

/-! ### The parts of a line -/

/-- What an anchoring looks like in front of a pattern. -/
def Anchoring.sign : Anchoring → List Char
  | .none => []
  | .left => ['|']
  | .hostname => ['|', '|']

/-- What stands behind the sign of the anchoring. -/
def Anchored.rest (a : Anchored) : List Char := a.literal ++ if a.right then ['|'] else []

/-- The pattern has these parts. A bar belongs to the anchors if it can. -/
structure Anchored.IsOf (a : Anchored) (pattern : List Char) : Prop where
  text : pattern = a.anchoring.sign ++ a.rest
  front : a.anchoring ≠ .hostname → a.rest.head? ≠ some '|'
  back : a.right = false → a.literal.getLast? ≠ some '|'

/-- What a network line says. -/
structure Layout where
  anchoring : Anchoring
  /-- The texts between the wildcards. -/
  segments : List (List Char)
  /-- The end of the pattern is anchored. -/
  right : Bool
  modifiers : List (List Char)

/-- The line has these parts: modifiers stand behind its last dollar sign, if it has one,
    and what is before that is a pattern with white space around it. -/
def Layout.IsOf (p : Layout) (line : List Char) : Prop :=
  ∃ pattern literal,
    (('$' ∉ line ∧ pattern = line ∧ p.modifiers = []) ∨
      ∃ text, line = pattern ++ '$' :: text ∧ '$' ∉ text ∧ IsSplit ',' text p.modifiers) ∧
    Anchored.IsOf ⟨literal, p.anchoring, p.right⟩ (trim pattern) ∧
    IsSplit '*' literal p.segments

/-- The type that a modifier names, if it is known. -/
def modifierType? (name : List Char) : Option ResourceType :=
  ResourceType.ofModifier? (String.ofList (lowerAscii (trim name)))

/-- The line is about requests of these types: they have a type that a modifier names, or
    no modifier names one. -/
def Layout.Admits (p : Layout) (types : ResourceTypes) : Prop :=
  (∀ name ∈ p.modifiers, modifierType? name = none) ∨
    ∃ name ∈ p.modifiers, ∃ t, modifierType? name = some t ∧ types.contains t = true

/-- The texts are the same up to the case of their characters. -/
def SameUpToCase (s t : List Char) : Prop := s.map fold = t.map fold

instance (s t : List Char) : Decidable (SameUpToCase s t) := inferInstanceAs (Decidable (_ = _))

/-- The segments occur in the text one after the other and do not overlap; `left` and
    `right` say that the first one is at its beginning and the last one at its end. -/
def InOrder (left right : Bool) : List (List Char) → List Char → Prop
  | [], text => right = true → text = []
  | segment :: segments, text =>
    ∃ gap piece rest, text = gap ++ piece ++ rest ∧ (left = true → gap = []) ∧
      SameUpToCase segment piece ∧ InOrder false right segments rest

/-- The line is about requests with this URL. -/
def Layout.Fits (p : Layout) (url : List Char) : Prop :=
  InOrder (decide (p.anchoring = .left)) p.right p.segments url

theorem dropLast?_eq_some_iff {c : Char} {s t : List Char} :
    dropLast? c s = some t ↔ s = t ++ [c] := by
  rw [dropLast?]
  constructor
  · intro h
    split at h
    · next hlast =>
      obtain rfl := Option.some.inj h
      exact (List.dropLast_append_getLast? c hlast).symm
    · cases h
  · rintro rfl
    simp

theorem dropLast?_eq_none_iff {c : Char} {s : List Char} :
    dropLast? c s = none ↔ s.getLast? ≠ some c := by
  simp [dropLast?]

/-- The parts behind the sign of the anchoring. -/
def Anchored.ofRest (anchoring : Anchoring) (rest : List Char) : Anchored :=
  match dropLast? '|' rest with
  | some literal => ⟨literal, anchoring, true⟩
  | none => ⟨rest, anchoring, false⟩

theorem Anchored.ofPattern_sign {anchoring : Anchoring} {rest : List Char}
    (hfront : anchoring ≠ .hostname → rest.head? ≠ some '|') :
    ofPattern (anchoring.sign ++ rest) = ofRest anchoring rest := by
  cases anchoring with
  | hostname => rfl
  | left =>
    have hfront := hfront nofun
    cases rest with
    | nil => rfl
    | cons c rest =>
      have hc : c ≠ '|' := fun h => hfront (congrArg some h)
      simp [ofPattern, Anchoring.sign, hc]
      rfl
  | none =>
    have hfront := hfront nofun
    cases rest with
    | nil => rfl
    | cons c rest =>
      have hc : c ≠ '|' := fun h => hfront (congrArg some h)
      simp [ofPattern, Anchoring.sign, hc]
      rfl

theorem Anchoring.exists_sign (pattern : List Char) : ∃ anchoring rest,
    pattern = sign anchoring ++ rest ∧ (anchoring ≠ .hostname → rest.head? ≠ some '|') := by
  by_cases hleft : ∃ rest, pattern = '|' :: rest
  · obtain ⟨rest, rfl⟩ := hleft
    by_cases hhost : ∃ more, rest = '|' :: more
    · obtain ⟨more, rfl⟩ := hhost
      exact ⟨.hostname, more, rfl, fun h => absurd rfl h⟩
    · exact ⟨.left, rest, rfl, fun _ h => hhost (List.head?_eq_some_iff.1 h)⟩
  · exact ⟨.none, pattern, rfl, fun _ h => hleft (List.head?_eq_some_iff.1 h)⟩

theorem Anchored.ofRest_rest {a : Anchored}
    (hback : a.right = false → a.literal.getLast? ≠ some '|') :
    ofRest a.anchoring a.rest = a := by
  obtain ⟨literal, anchoring, right⟩ := a
  cases right with
  | true =>
    have hlast : dropLast? '|' (literal ++ ['|']) = some literal := dropLast?_eq_some_iff.2 rfl
    simp [ofRest, rest, hlast]
  | false =>
    have hlast : dropLast? '|' literal = none := dropLast?_eq_none_iff.2 (hback rfl)
    simp [ofRest, rest, hlast]

/-- A pattern has the parts that are taken off it, and no others. -/
theorem Anchored.isOf_iff {a : Anchored} {pattern : List Char} :
    a.IsOf pattern ↔ ofPattern pattern = a := by
  constructor
  · rintro ⟨rfl, hfront, hback⟩
    rw [ofPattern_sign hfront, ofRest_rest hback]
  · rintro rfl
    obtain ⟨anchoring, rest, rfl, hfront⟩ := Anchoring.exists_sign pattern
    rw [ofPattern_sign hfront, ofRest]
    split
    · next literal h =>
      obtain rfl := dropLast?_eq_some_iff.1 h
      exact ⟨rfl, hfront, nofun⟩
    · next h =>
      have hrest : Anchored.rest ⟨rest, anchoring, false⟩ = rest := List.append_nil rest
      exact ⟨by rw [hrest], by rwa [hrest], fun _ => dropLast?_eq_none_iff.1 h⟩

theorem Layout.exists_isOf (line : List Char) : ∃ p : Layout, p.IsOf line := by
  cases hcut : cutLast? '$' line with
  | none =>
    have hanchored := Anchored.isOf_iff.2 (rfl : Anchored.ofPattern (trim line) = _)
    exact ⟨⟨_, _, _, []⟩, line, _, .inl ⟨cutLast?_eq_none_iff.1 hcut, rfl, rfl⟩, hanchored,
      isSplit_iff.2 rfl⟩
  | some parts =>
    obtain ⟨pattern, text⟩ := parts
    obtain ⟨hline, hlast⟩ := cutLast?_eq_some_iff.1 hcut
    have hanchored := Anchored.isOf_iff.2 (rfl : Anchored.ofPattern (trim pattern) = _)
    exact ⟨⟨_, _, _, _⟩, pattern, _, .inr ⟨text, hline, hlast, isSplit_iff.2 rfl⟩, hanchored,
      isSplit_iff.2 rfl⟩

variable {line : List Char} {p : Layout} {r : Rule}

/-- The rule of a line in terms of its parts. -/
theorem Layout.IsOf.rule_eq (h : p.IsOf line) (hr : networkRule? [] line = some r) :
    ∃ literal, p.segments = splitOn '*' literal ∧
      r = ⟨{ urlPattern := urlPattern literal p.anchoring p.right
             resourceTypes := ResourceTypes.ofList (p.modifiers.filterMap modifierType?) },
        .block⟩ := by
  obtain ⟨pattern, literal, hmodifiers, hanchored, hsegments⟩ := h
  refine ⟨literal, isSplit_iff.1 hsegments, ?_⟩
  obtain ⟨text, hsplit, htypes⟩ : ∃ text, splitModifiers line = (pattern, text) ∧
      modifierTypes text = ResourceTypes.ofList (p.modifiers.filterMap modifierType?) := by
    rcases hmodifiers with ⟨hnone, rfl, hempty⟩ | ⟨text, rfl, hlast, hpieces⟩
    · refine ⟨[], by rw [splitModifiers, cutLast?_eq_none_iff.2 hnone], ?_⟩
      rw [hempty]
      decide
    · refine ⟨text, by rw [splitModifiers, cutLast?_eq_some_iff.2 ⟨rfl, hlast⟩], ?_⟩
      rw [isSplit_iff.1 hpieces]
      rfl
  simp only [networkRule?, hsplit, Anchored.isOf_iff.1 hanchored, htypes] at hr
  split at hr
  · cases hr
  · exact (Option.some.inj hr).symm

/-- A line that gives a blocking rule is a network line. -/
theorem networkRule?_of_block {excluded : List String} (h : ruleOfLine? excluded line = some r)
    (hblock : r.action = .block) : networkRule? excluded (trim line) = some r := by
  rw [ruleOfLine?] at h
  split at h
  · cases h
  · rw [ruleOfTrimmed?] at h
    split at h
    · cases h
    · split at h
      · rw [cosmeticRule?] at h
        split at h
        · cases h
        · obtain rfl := Option.some.inj h
          cases hblock
      · split at h
        · cases h
        · exact h

/-- A rule for the types that the modifiers name applies to the requests that the line
    admits. -/
theorem Layout.covers_iff_admits (types : ResourceTypes) :
    (ResourceTypes.ofList (p.modifiers.filterMap modifierType?)).covers types = true ↔
      p.Admits types := by
  rw [ResourceTypes.covers_ofList_iff, Admits, List.filterMap_eq_nil_iff]
  refine or_congr Iff.rfl ⟨?_, ?_⟩
  · rintro ⟨t, ht, hcontains⟩
    obtain ⟨name, hname, hnames⟩ := List.mem_filterMap.1 ht
    exact ⟨name, hname, t, hnames, hcontains⟩
  · rintro ⟨name, hname, t, hnames, hcontains⟩
    exact ⟨t, List.mem_filterMap.2 ⟨name, hname, hnames⟩, hcontains⟩

/-! ### What the expression finds -/

section Expressions

open Regex

variable {rs : List Regex} {before after : Option Char} {text : List Char} {right : Bool}

theorem mem_anyButLineFeed_of_ne {c : Char} (h : c ≠ '\n') :
    CharClass.anyButLineFeed.mem c = true := by
  rw [CharClass.mem_anyButLineFeed, bne_iff_ne]
  exact mt eq_lineFeed_of_fold_eq h

theorem matches_anything {w : List Char} (h : '\n' ∉ w) :
    Matches Regex.anything before w after := by
  induction w generalizing before with
  | nil => exact .starNil
  | cons c w ih =>
    rw [List.mem_cons, not_or] at h
    exact .starCons (.chars (mem_anyButLineFeed_of_ne (Ne.symm h.1))) (ih h.2)

/-- Within a line a wildcard can go anywhere. -/
theorem begins_anything_iff (hline : '\n' ∉ text) :
    (seqAll (Regex.anything :: rs)).Begins before text ↔
      ∃ gap rest, text = gap ++ rest ∧ (seqAll rs).Begins (gap.getLast?.or before) rest := by
  rw [begins_seqAll_cons_iff]
  constructor
  · rintro ⟨gap, rest, htext, -, hrest⟩
    exact ⟨gap, rest, htext, hrest⟩
  · rintro ⟨gap, rest, rfl, hrest⟩
    have hgap : '\n' ∉ gap := fun hmem => hline (List.mem_append_left _ hmem)
    exact ⟨gap, rest, rfl, matches_anything hgap, hrest⟩

theorem matches_lit_iff {c : Char} {w : List Char} :
    Matches (lit c) before w after ↔ ∃ d, w = [d] ∧ fold c = fold d := by
  rw [lit, matches_chars_iff]
  refine exists_congr fun d => ?_
  rw [CharClass.mem, beq_iff_eq, eq_comm, and_comm]

/-- A text that stands for itself is read in any case. -/
theorem begins_lits_iff {s : List Char} : (seqAll (s.map lit ++ rs)).Begins before text ↔
    ∃ piece rest, text = piece ++ rest ∧ SameUpToCase s piece ∧
      (seqAll rs).Begins (piece.getLast?.or before) rest := by
  induction s generalizing before text with
  | nil =>
    constructor
    · exact fun h => ⟨[], text, rfl, rfl, h⟩
    · rintro ⟨piece, rest, rfl, hpiece, hrest⟩
      obtain rfl : piece = [] := by simpa [SameUpToCase, eq_comm] using hpiece
      exact hrest
  | cons c s ih =>
    rw [List.map_cons, List.cons_append, begins_seqAll_cons_iff]
    simp only [matches_lit_iff, ih]
    constructor
    · rintro ⟨_, _, rfl, ⟨d, rfl, hd⟩, piece, rest, rfl, hpiece, hrest⟩
      refine ⟨d :: piece, rest, rfl, congrArg₂ List.cons hd hpiece, ?_⟩
      rwa [getLast?_cons_or]
    · rintro ⟨piece, rest, rfl, hpiece, hrest⟩
      cases piece with
      | nil => cases hpiece
      | cons d piece =>
        obtain ⟨hd, hpiece⟩ := List.cons.inj hpiece
        rw [getLast?_cons_or] at hrest
        exact ⟨[d], piece ++ rest, rfl, ⟨d, rfl, hd⟩, piece, rest, rfl, hpiece, hrest⟩

/-- The end of an expression, which may be anchored. -/
theorem begins_end_iff :
    (seqAll [if right then .anchor .textEnd else Regex.anything]).Begins before text ↔
      (right = true → text = []) := by
  rw [begins_seqAll_cons_iff]
  cases right with
  | true =>
    simp only [if_true, matches_anchor_iff, Anchor.holds, Option.isNone_iff_eq_none,
      List.head?_eq_none_iff, forall_const]
    constructor
    · rintro ⟨u, rest, rfl, ⟨rfl, rfl⟩, -⟩
      rfl
    · rintro rfl
      exact ⟨[], [], rfl, ⟨rfl, rfl⟩, begins_empty _ _⟩
  | false => exact iff_of_true ⟨[], text, rfl, .starNil, begins_empty _ _⟩ (by simp)

theorem inOrder_left_iff {segment : List Char} {segments : List (List Char)} :
    InOrder true right (segment :: segments) text ↔ ∃ piece rest, text = piece ++ rest ∧
      SameUpToCase segment piece ∧ InOrder false right segments rest := by
  rw [InOrder]
  constructor
  · rintro ⟨gap, piece, rest, rfl, hgap, hpiece, hrest⟩
    exact ⟨piece, rest, by rw [hgap rfl, List.nil_append], hpiece, hrest⟩
  · rintro ⟨piece, rest, rfl, hpiece, hrest⟩
    exact ⟨[], piece, rest, rfl, fun _ => rfl, hpiece, hrest⟩

/-- Without an anchor there may be Regex.anything before the first segment. -/
theorem inOrder_free_iff {segments : List (List Char)} (hne : segments ≠ []) :
    InOrder false right segments text ↔
      ∃ gap rest, text = gap ++ rest ∧ InOrder true right segments rest := by
  obtain ⟨segment, segments, rfl⟩ := List.exists_cons_of_ne_nil hne
  simp only [inOrder_left_iff]
  rw [InOrder]
  constructor
  · rintro ⟨gap, piece, rest, rfl, -, hpiece, hrest⟩
    exact ⟨gap, piece ++ rest, List.append_assoc _ _ _, piece, rest, rfl, hpiece, hrest⟩
  · rintro ⟨gap, _, rfl, piece, rest, rfl, hpiece, hrest⟩
    exact ⟨gap, piece, rest, (List.append_assoc _ _ _).symm, nofun, hpiece, hrest⟩

/-- What is between the ends of an expression finds the segments in their order. -/
theorem begins_segments_iff {segments : List (List Char)} (hne : segments ≠ [])
    (hline : '\n' ∉ text) :
    (seqAll ([Regex.anything].intercalate (segments.map (·.map lit)) ++
      [if right then .anchor .textEnd else Regex.anything])).Begins before text ↔
      InOrder true right segments text := by
  induction segments generalizing before text with
  | nil => exact absurd rfl hne
  | cons segment segments ih =>
    rw [inOrder_left_iff]
    cases segments with
    | nil =>
      have hjoin : [Regex.anything].intercalate ([segment].map (·.map lit)) = segment.map lit := by
        simp [List.intercalate]
      rw [hjoin, begins_lits_iff]
      simp only [begins_end_iff, InOrder]
    | cons next segments =>
      have hjoin : [Regex.anything].intercalate ((segment :: next :: segments).map (·.map lit)) =
          segment.map lit ++ Regex.anything ::
            [Regex.anything].intercalate ((next :: segments).map (·.map lit)) := by
        simp [List.intercalate]
      rw [hjoin, List.append_assoc, List.cons_append, begins_lits_iff]
      refine exists_congr fun piece => exists_congr fun rest => and_congr_right fun htext =>
        and_congr_right fun _ => ?_
      have hrest : '\n' ∉ rest := fun hmem => hline (htext ▸ List.mem_append_right _ hmem)
      rw [begins_anything_iff hrest, inOrder_free_iff (List.cons_ne_nil _ _)]
      -- Behind the wildcard the next segment begins.
      refine exists_congr fun gap => exists_congr fun rest' => and_congr_right fun hgap => ?_
      exact ih (List.cons_ne_nil _ _) fun hmem => hrest (hgap ▸ List.mem_append_right _ hmem)

/-- The expression of a wildcard pattern occurs in the URLs that have the segments in
    their order, within the anchors. -/
theorem occurs_urlItems_iff {literal : List Char} {anchoring : Anchoring}
    (hline : '\n' ∉ text) : (seqAll (urlItems literal anchoring right)).Occurs text ↔
      InOrder (decide (anchoring = .left)) right (splitOn '*' literal) text := by
  have hne := splitOn_ne_nil '*' literal
  have hparts {p rest : List Char} (htext : text = p ++ rest) : '\n' ∉ rest := fun hmem =>
    hline (htext ▸ List.mem_append_right _ hmem)
  rw [urlItems, List.append_assoc, List.singleton_append]
  by_cases hleft : anchoring = .left
  · rw [if_pos hleft, decide_eq_true hleft, occurs_textStart_iff]
    exact begins_segments_iff hne hline
  · rw [if_neg hleft, decide_eq_false hleft, inOrder_free_iff hne, occurs_iff]
    constructor
    · rintro ⟨p, rest, htext, hbegins⟩
      obtain ⟨gap, rest', rfl, hrest⟩ := (begins_anything_iff (hparts htext)).1 hbegins
      rw [← List.append_assoc] at htext
      exact ⟨p ++ gap, rest', htext, (begins_segments_iff hne (hparts htext)).1 hrest⟩
    · rintro ⟨gap, rest, htext, horder⟩
      refine ⟨gap, rest, htext, (begins_anything_iff (hparts htext)).2 ⟨[], rest, rfl, ?_⟩⟩
      exact (begins_segments_iff hne (hparts htext)).2 horder

end Expressions

/-! ### What the rule blocks -/

/-- The matcher of a blocking rule blocks what the rule applies to. -/
theorem decision_eq_block_iff {c : CompiledRule} (h : c.rule.action = .block) (q : Request) :
    (Matcher.verdict ⟨[c]⟩ q).decision = .block ↔ c.applies q = true := by
  rw [Matcher.verdict, Matcher.verdictFrom, Matcher.verdictFrom, h]
  split
  · next happlies => exact iff_of_true rfl happlies
  · next hnot => exact iff_of_false (by decide) hnot

/-- Whatever the types and the wildcard pattern of a blocking rule are, it applies to the
    requests of these types in whose URLs the segments of the pattern are in order. -/
theorem applies_urlPattern_iff {literal : List Char} {anchoring : Anchoring} {right : Bool}
    {types : ResourceTypes} {q : Request} (hline : '\n' ∉ q.url.toList) :
    (CompiledRule.ofRule ⟨{ urlPattern := urlPattern literal anchoring right
                            resourceTypes := types }, .block⟩).applies q = true ↔
      types.covers q.types = true ∧
        InOrder (decide (anchoring = .left)) right (splitOn '*' literal) q.url.toList := by
  rw [← occurs_urlItems_iff hline, ← finds_iff_occurs,
    CompiledRule.applies_ofRule (parse?_urlPattern _ _ _), Bool.and_eq_true]
  simp [Trigger.admits]

/-- A line that gives a blocking rule has the parts of a network line, and whatever its
    parts are, the matcher of that rule blocks a request, as long as its URL has no line
    feed, if and only if the modifiers admit its types and its URL has the segments between
    the wildcards one after the other, at its ends if they are anchored there. -/
theorem blocks_iff_fits {line : List Char} {r : Rule} (h : ruleOfLine? [] line = some r)
    (hblock : r.action = .block) :
    (∃ p : Layout, p.IsOf (trim line)) ∧ ∀ p : Layout, p.IsOf (trim line) →
      ∃ m, Matcher.ofRules [r] = .ok m ∧ ∀ q : Request, '\n' ∉ q.url.toList →
        ((m.verdict q).decision = .block ↔ p.Admits q.types ∧ p.Fits q.url.toList) := by
  refine ⟨Layout.exists_isOf _, fun p hp => ?_⟩
  obtain ⟨literal, hsegments, rfl⟩ := hp.rule_eq (networkRule?_of_block h hblock)
  refine ⟨_, Matcher.ofRules_eq_ok (List.forall_mem_singleton.2 (isGood_of_ruleOfLine? h).compiles),
    fun q hline => ?_⟩
  rw [List.map_singleton, decision_eq_block_iff hblock, applies_urlPattern_iff hline,
    Layout.covers_iff_admits, Layout.Fits, hsegments]

/-- A script at a URL that is spelled in other letters than the line. -/
theorem blocks_iff_fits_anchored :
    let line := " |https://*.ADS.net/*.js|$Script,third-party ".toList
    let q : Request := ⟨"https://cdn.ads.net/lib/pixel.js", "shop.org", .ofList [.script]⟩
    ∃ r m, ruleOfLine? [] line = some r ∧ r.action = .block ∧ Matcher.ofRules [r] = .ok m ∧
      '\n' ∉ q.url.toList ∧ (m.verdict q).decision = .block := by
  intro line q
  have hrule : (ruleOfLine? [] line).map (·.action) = some .block := by decide +kernel
  obtain ⟨r, hr, hblock⟩ := Option.map_eq_some_iff.1 hrule
  have hline : '\n' ∉ q.url.toList := by decide +kernel
  let p : Layout := ⟨.left, ["https://".toList, ".ADS.net/".toList, ".js".toList], true,
    ["Script".toList, "third-party".toList]⟩
  have hp : p.IsOf (trim line) := by
    refine ⟨"|https://*.ADS.net/*.js|".toList, "https://*.ADS.net/*.js".toList,
      .inr ⟨"Script,third-party".toList, by decide +kernel, by decide +kernel,
        isSplit_iff.2 (by decide +kernel)⟩,
      Anchored.isOf_iff.2 (by decide +kernel), isSplit_iff.2 (by decide +kernel)⟩
  have hadmits : p.Admits q.types :=
    .inr ⟨"Script".toList, List.mem_cons_self, .script, by decide +kernel, by decide +kernel⟩
  have hfits : p.Fits q.url.toList :=
    ⟨[], "https://".toList, "cdn.ads.net/lib/pixel.js".toList, by decide +kernel, fun _ => rfl,
      by decide +kernel, "cdn".toList, ".ads.net/".toList, "lib/pixel.js".toList, by decide +kernel,
      nofun, by decide +kernel, "lib/pixel".toList, ".js".toList, [], by decide +kernel, nofun,
      by decide +kernel, fun _ => rfl⟩
  obtain ⟨-, hall⟩ := blocks_iff_fits hr hblock
  obtain ⟨m, hm, hverdict⟩ := hall p hp
  exact ⟨r, m, hr, hblock, hm, hline, (hverdict q hline).2 ⟨hadmits, hfits⟩⟩

end FilterText

end ContentBlocking
