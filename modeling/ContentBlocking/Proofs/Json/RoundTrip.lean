import ContentBlocking.Proofs.Json.Literals
import Mathlib.Data.List.TakeWhile

/-!
# Values read back

A value can be written in several ways, which differ in the white space between
its parts. `Written` says what a text for a value looks like, without looking at
the reader or at a writer; the reader finds in every such text the value that
was written.

* `Written`: the texts for a value;
* `readable_of_written`: the reader finds the value, by induction on the text;
* `parse?_of_written`: so does the reader of whole texts;
* `parse?_compact`, `parse?_indented`: in particular, both forms are read back.
-/

namespace ContentBlocking.Json

open Text

/-- White space alone. -/
def IsWhite (w : List Char) : Prop := ∀ c ∈ w, isSpace c = true

/-- What a text is written for: a value, the items of an array, or the members
    of an object. -/
inductive Part
  | value (j : Json)
  | items (js : List Json)
  | members (ms : List (String × Json))

/-- The text stands for the part. -/
inductive Written : Part → List Char → Prop
  | null : Written (.value .null) ['n', 'u', 'l', 'l']
  | trueText : Written (.value (.bool true)) ['t', 'r', 'u', 'e']
  | falseText : Written (.value (.bool false)) ['f', 'a', 'l', 's', 'e']
  | nat {n : Nat} : Written (.value (.nat n)) (digits n)
  | str {s : String} : Written (.value (.str s)) (quoted s)
  | noItems {w : List Char} : IsWhite w → Written (.value (.arr [])) ('[' :: w ++ [']'])
  | arr {js : List Json} {w t w' : List Char} : IsWhite w → Written (.items js) t → IsWhite w' →
      Written (.value (.arr js)) ('[' :: w ++ t ++ w' ++ [']'])
  | noMembers {w : List Char} : IsWhite w → Written (.value (.obj [])) ('\x7b' :: w ++ ['\x7d'])
  | obj {ms : List (String × Json)} {w t w' : List Char} : IsWhite w → Written (.members ms) t →
      IsWhite w' → Written (.value (.obj ms)) ('\x7b' :: w ++ t ++ w' ++ ['\x7d'])
  | item {j : Json} {t : List Char} : Written (.value j) t → Written (.items [j]) t
  | items {j : Json} {js : List Json} {t w w' t' : List Char} : Written (.value j) t → IsWhite w →
      IsWhite w' → Written (.items js) t' → Written (.items (j :: js)) (t ++ w ++ ',' :: w' ++ t')
  | member {k : String} {j : Json} {w w' t : List Char} : IsWhite w → IsWhite w' →
      Written (.value j) t → Written (.members [(k, j)]) (quoted k ++ w ++ ':' :: w' ++ t)
  | members {k : String} {j : Json} {ms : List (String × Json)} {w w' t v v' t' : List Char} :
      IsWhite w → IsWhite w' → Written (.value j) t → IsWhite v → IsWhite v' →
      Written (.members ms) t' →
      Written (.members ((k, j) :: ms))
        (quoted k ++ w ++ ':' :: w' ++ t ++ v ++ ',' :: v' ++ t')

/-! ### White space -/

theorem isWhite_nil : IsWhite [] := fun _ h => absurd h List.not_mem_nil

/-- The text begins with a character of a value or a member: it is neither
    white space nor a closing bracket. -/
def Begins (t : List Char) : Prop :=
  ∃ c s, t = c :: s ∧ isSpace c = false ∧ c ≠ ']' ∧ c ≠ '\x7d'

theorem Begins.append {t : List Char} (h : Begins t) (s : List Char) : Begins (t ++ s) := by
  obtain ⟨c, t, rfl, hc⟩ := h
  exact ⟨c, t ++ s, rfl, hc⟩

theorem begins_quoted (s : String) : Begins (quoted s) :=
  ⟨'"', _, rfl, by decide, by decide, by decide⟩

theorem Written.begins {p : Part} {t : List Char} (h : Written p t) : Begins t := by
  induction h with
  | null | trueText | falseText | noItems _ | arr _ _ _ | noMembers _ | obj _ _ _ =>
    exact ⟨_, _, rfl, by decide, by decide, by decide⟩
  | nat =>
    next n =>
    obtain ⟨d, ds, hd⟩ := exists_digits_eq_cons n
    have hdigit : d.isDigit = true := isDigit_of_mem_digits (hd ▸ List.mem_cons_self)
    refine ⟨d, ds, hd, ?_, ?_, ?_⟩
    · -- A digit is no white space, and no bracket.
      by_contra hs
      simp only [isSpace, Bool.not_eq_false, Bool.or_eq_true, beq_iff_eq] at hs
      rcases hs with ((rfl | rfl) | rfl) | rfl <;> exact absurd hdigit (by decide)
    all_goals
      rintro rfl
      exact absurd hdigit (by decide)
  | str => exact begins_quoted _
  | item _ ih => exact ih
  | items _ _ _ _ ih _ => exact ((ih.append _).append _).append _
  | member _ _ _ _ => exact (((begins_quoted _).append _).append _).append _
  | members =>
    exact ((((((begins_quoted _).append _).append _).append _).append _).append _).append _

theorem skipSpace_append {w t : List Char} (hw : IsWhite w) : skipSpace (w ++ t) = skipSpace t :=
  List.dropWhile_append_of_pos hw

theorem skipSpace_append_cons {w rest : List Char} {c : Char} (hw : IsWhite w)
    (hc : isSpace c = false) : skipSpace (w ++ c :: rest) = c :: rest := by
  rw [skipSpace_append hw]
  simp [skipSpace, hc]

theorem skipSpace_of_begins {t : List Char} (h : Begins t) : skipSpace t = t := by
  obtain ⟨c, t, rfl, hc, -⟩ := h
  simp [skipSpace, hc]

/-- White space in front of what begins with another character ends a number. -/
theorem endsNumber_append {w : List Char} {c : Char} {rest : List Char} (hw : IsWhite w)
    (hc : c = ',' ∨ c = ']' ∨ c = '\x7d') : EndsNumber (w ++ c :: rest) := by
  intro d hd
  have hd : isSpace d = true ∨ d = ',' ∨ d = ']' ∨ d = '\x7d' := by
    cases w with
    | nil =>
      obtain rfl : c = d := by simpa using hd
      exact .inr hc
    | cons a w =>
      obtain rfl : a = d := by simpa using hd
      exact .inl (hw a List.mem_cons_self)
  simp only [isSpace, Bool.or_eq_true, beq_iff_eq] at hd
  rcases hd with (((rfl | rfl) | rfl) | rfl) | rfl | rfl | rfl <;> decide

/-! ### Reading -/

/-- The reader finds the part in the text, whatever follows, if it is given
    enough fuel. -/
def Readable : Part → List Char → Prop
  | .value j, t => ∀ fuel rest, 2 * t.length ≤ fuel + 1 → EndsNumber rest →
      readValue? fuel (t ++ rest) = some (j, rest)
  | .items js, t => ∀ fuel w rest, 2 * t.length ≤ fuel → IsWhite w →
      readItems? fuel (t ++ w ++ ']' :: rest) = some (js, rest)
  | .members ms, t => ∀ fuel w rest, 2 * t.length ≤ fuel → IsWhite w →
      readMembers? fuel (t ++ w ++ '\x7d' :: rest) = some (ms.map (Prod.map some id), rest)

theorem readValue?_digits (n fuel : Nat) {rest : List Char} (hr : EndsNumber rest) :
    readValue? (fuel + 1) (digits n ++ rest) = some (.nat n, rest) := by
  have hnumber := readNumber?_digits n hr
  obtain ⟨d, ds, hd⟩ := exists_digits_eq_cons n
  have hdigit : d.isDigit = true := isDigit_of_mem_digits (hd ▸ List.mem_cons_self)
  rw [hd, List.cons_append] at hnumber ⊢
  rw [readValue?]
  · exact hnumber
  all_goals
    intro s h
    exact absurd ((List.cons.inj h).1 ▸ hdigit) (by decide)

/-- Items in brackets are an array. -/
theorem readValue?_items {fuel : Nat} {js : List Json} {w t w' rest : List Char} (hw : IsWhite w)
    (ht : Begins t) (h : readItems? fuel (t ++ w' ++ ']' :: rest) = some (js, rest)) :
    readValue? (fuel + 1) ('[' :: w ++ t ++ w' ++ [']'] ++ rest) = some (.arr js, rest) := by
  have hshape : '[' :: w ++ t ++ w' ++ [']'] ++ rest = '[' :: (w ++ (t ++ w' ++ ']' :: rest)) := by
    simp
  have hbegins := (ht.append w').append (']' :: rest)
  rw [hshape, readValue?, skipSpace_append hw, skipSpace_of_begins hbegins]
  -- What begins an item does not close the array, so the reader goes on to the items.
  obtain ⟨c, s, hs, -, hc, -⟩ := hbegins
  rw [hs] at h ⊢
  split
  · next hcons => exact absurd (List.cons.inj hcons).1 hc
  · rw [h, Option.map_some]

/-- The object of members whose names are well-formed. -/
theorem ofMembers_map (ms : List (String × Json)) :
    ofMembers (ms.map (Prod.map some id)) = .obj ms := by
  have h (f : Option String × Json → Option (String × Json))
      (hf : ∀ key value, f (some key, value) = some (key, value)) :
      (ms.map (Prod.map some id)).mapM f = some ms := by
    rw [List.mapM_map]
    induction ms with
    | nil => rfl
    | cons m ms ih =>
      rw [List.mapM_cons, ih, Function.comp_apply, Prod.map, hf]
      rfl
  rw [ofMembers, h _ fun _ _ => rfl]

/-- Members in braces are an object. -/
theorem readValue?_members {fuel : Nat} {ms : List (String × Json)} {w t w' rest : List Char}
    (hw : IsWhite w) (ht : Begins t)
    (h : readMembers? fuel (t ++ w' ++ '\x7d' :: rest) = some (ms.map (Prod.map some id), rest)) :
    readValue? (fuel + 1) ('\x7b' :: w ++ t ++ w' ++ ['\x7d'] ++ rest) = some (.obj ms, rest) := by
  have hshape : '\x7b' :: w ++ t ++ w' ++ ['\x7d'] ++ rest =
      '\x7b' :: (w ++ (t ++ w' ++ '\x7d' :: rest)) := by simp
  have hbegins := (ht.append w').append ('\x7d' :: rest)
  rw [hshape, readValue?, skipSpace_append hw, skipSpace_of_begins hbegins]
  -- And what begins a member does not close the object.
  obtain ⟨c, s, hs, -, -, hc⟩ := hbegins
  rw [hs] at h ⊢
  split
  · next hcons => exact absurd (List.cons.inj hcons).1 hc
  · simp only [h, Option.map_some, ofMembers_map]

/-- The last item stands before the closing bracket. -/
theorem readItems?_last {fuel : Nat} {j : Json} {t w rest : List Char} (hw : IsWhite w)
    (h : readValue? fuel (t ++ (w ++ ']' :: rest)) = some (j, w ++ ']' :: rest)) :
    readItems? (fuel + 1) (t ++ (w ++ ']' :: rest)) = some ([j], rest) := by
  simp only [readItems?, h, skipSpace_append_cons hw (by decide : isSpace ']' = false)]

/-- Any other item stands before a comma. -/
theorem readItems?_cons {fuel : Nat} {j : Json} {js : List Json} {t w w' s rest : List Char}
    (hw : IsWhite w) (hw' : IsWhite w') (hs : Begins s)
    (h : readValue? fuel (t ++ (w ++ ',' :: (w' ++ s))) = some (j, w ++ ',' :: (w' ++ s)))
    (hrest : readItems? fuel s = some (js, rest)) :
    readItems? (fuel + 1) (t ++ (w ++ ',' :: (w' ++ s))) = some (j :: js, rest) := by
  simp only [readItems?, h, skipSpace_append_cons hw (by decide : isSpace ',' = false),
    skipSpace_append hw', skipSpace_of_begins hs, hrest, Option.map_some]

/-- The text of a member, up to its value. -/
theorem quoted_append_colon (k : String) (w w' s : List Char) :
    quoted k ++ w ++ ':' :: w' ++ s =
      '"' :: (k.toList.flatMap escapeChar ++ '"' :: (w ++ ':' :: (w' ++ s))) := by
  simp [quoted]

/-- The last member stands before the closing brace. -/
theorem readMembers?_last {fuel : Nat} {j : Json} {w w' t v rest : List Char} (k : String)
    (hw : IsWhite w) (hw' : IsWhite w') (ht : Begins t) (hv : IsWhite v)
    (h : readValue? fuel (t ++ (v ++ '\x7d' :: rest)) = some (j, v ++ '\x7d' :: rest)) :
    readMembers? (fuel + 1) (quoted k ++ w ++ ':' :: w' ++ (t ++ (v ++ '\x7d' :: rest))) =
      some ([(some k, j)], rest) := by
  simp only [quoted_append_colon, readMembers?, readString?_quoted,
    skipSpace_append_cons hw (by decide : isSpace ':' = false), skipSpace_append hw',
    skipSpace_of_begins (ht.append _), h,
    skipSpace_append_cons hv (by decide : isSpace '\x7d' = false)]

/-- Any other member stands before a comma. -/
theorem readMembers?_cons {fuel : Nat} {j : Json} {ms : List (Option String × Json)}
    {w w' t v v' s rest : List Char} (k : String) (hw : IsWhite w) (hw' : IsWhite w')
    (ht : Begins t) (hv : IsWhite v) (hv' : IsWhite v') (hs : Begins s)
    (h : readValue? fuel (t ++ (v ++ ',' :: (v' ++ s))) = some (j, v ++ ',' :: (v' ++ s)))
    (hrest : readMembers? fuel s = some (ms, rest)) :
    readMembers? (fuel + 1) (quoted k ++ w ++ ':' :: w' ++ (t ++ (v ++ ',' :: (v' ++ s)))) =
      some ((some k, j) :: ms, rest) := by
  simp only [quoted_append_colon, readMembers?, readString?_quoted,
    skipSpace_append_cons hw (by decide : isSpace ':' = false), skipSpace_append hw',
    skipSpace_of_begins (ht.append _), h,
    skipSpace_append_cons hv (by decide : isSpace ',' = false), skipSpace_append hv',
    skipSpace_of_begins hs, hrest, Option.map_some]

/-- Every text for a part is readable. By induction on the text: a call of the
    reader for a part has at least twice the length of the text as fuel, so that
    one call fewer is enough for each text inside. -/
theorem readable_of_written {p : Part} {t : List Char} (h : Written p t) : Readable p t := by
  induction h with
  | null | trueText | falseText =>
    intro fuel rest hfuel _
    obtain ⟨fuel, rfl⟩ : ∃ k, fuel = k + 1 := ⟨fuel - 1, by simp at hfuel; omega⟩
    simp [readValue?]
  | nat =>
    next n =>
    intro fuel rest hfuel hr
    obtain ⟨d, ds, hd⟩ := exists_digits_eq_cons n
    obtain ⟨fuel, rfl⟩ : ∃ k, fuel = k + 1 := ⟨fuel - 1, by simp [hd] at hfuel; omega⟩
    exact readValue?_digits n fuel hr
  | str =>
    intro fuel rest hfuel _
    obtain ⟨fuel, rfl⟩ : ∃ k, fuel = k + 1 := ⟨fuel - 1, by simp [quoted] at hfuel; omega⟩
    simp [quoted, readValue?, readString?_quoted]
  | noItems hw =>
    intro fuel rest hfuel _
    obtain ⟨fuel, rfl⟩ : ∃ k, fuel = k + 1 := ⟨fuel - 1, by simp at hfuel; omega⟩
    simp [readValue?, skipSpace_append_cons hw (by decide : isSpace ']' = false)]
  | arr hw ht hw' ih =>
    intro fuel rest hfuel _
    simp only [List.length_append, List.length_cons, List.length_nil] at hfuel
    obtain ⟨fuel, rfl⟩ : ∃ k, fuel = k + 1 := ⟨fuel - 1, by omega⟩
    exact readValue?_items hw ht.begins (ih fuel _ rest (by omega) hw')
  | noMembers hw =>
    intro fuel rest hfuel _
    obtain ⟨fuel, rfl⟩ : ∃ k, fuel = k + 1 := ⟨fuel - 1, by simp at hfuel; omega⟩
    simp [readValue?, skipSpace_append_cons hw (by decide : isSpace '\x7d' = false)]
  | obj hw ht hw' ih =>
    intro fuel rest hfuel _
    simp only [List.length_append, List.length_cons, List.length_nil] at hfuel
    obtain ⟨fuel, rfl⟩ : ∃ k, fuel = k + 1 := ⟨fuel - 1, by omega⟩
    exact readValue?_members hw ht.begins (ih fuel _ rest (by omega) hw')
  | item ht ih =>
    intro fuel w rest hfuel hw
    obtain ⟨c, s, rfl, -⟩ := ht.begins
    simp only [List.length_cons] at hfuel ih
    obtain ⟨fuel, rfl⟩ : ∃ k, fuel = k + 1 := ⟨fuel - 1, by omega⟩
    rw [List.append_assoc]
    -- The bracket after the item ends it, even if it is a number.
    exact readItems?_last hw (ih fuel _ (by omega) (endsNumber_append hw (.inr (.inl rfl))))
  | items ht hw hw' hts ih ihs =>
    intro fuel v rest hfuel hv
    simp only [List.length_append, List.length_cons] at hfuel
    obtain ⟨fuel, rfl⟩ : ∃ k, fuel = k + 1 := ⟨fuel - 1, by omega⟩
    -- Here it is the comma that ends the item.
    have h := readItems?_cons hw hw' ((hts.begins.append _).append _)
      (ih fuel _ (by omega) (endsNumber_append hw (.inl rfl))) (ihs fuel v rest (by omega) hv)
    simpa using h
  | member hw hw' ht ih =>
    next k _ _ _ _ =>
    intro fuel v rest hfuel hv
    simp only [List.length_append, List.length_cons] at hfuel
    obtain ⟨fuel, rfl⟩ : ∃ k, fuel = k + 1 := ⟨fuel - 1, by omega⟩
    have h := readMembers?_last k hw hw' ht.begins hv
      (ih fuel (v ++ '\x7d' :: rest) (by omega) (endsNumber_append hv (.inr (.inr rfl))))
    simpa using h
  | members hw hw' ht hv hv' hts ih ihs =>
    next k _ _ _ _ _ _ _ _ =>
    intro fuel u rest hfuel hu
    simp only [List.length_append, List.length_cons] at hfuel
    obtain ⟨fuel, rfl⟩ : ∃ k, fuel = k + 1 := ⟨fuel - 1, by omega⟩
    have h := readMembers?_cons k hw hw' ht.begins hv hv' ((hts.begins.append _).append _)
      (ih fuel _ (by omega) (endsNumber_append hv (.inl rfl))) (ihs fuel u rest (by omega) hu)
    simpa using h

/-- The reader of whole texts finds the value of every text for it. -/
theorem parse?_of_written {j : Json} {t w w' : List Char} (h : Written (.value j) t)
    (hw : IsWhite w) (hw' : IsWhite w') : parse? (String.ofList (w ++ t ++ w')) = some j := by
  -- White space at the end of the text does not go on with a number.
  have hends : EndsNumber w' := by
    intro c hc
    have hspace : isSpace c = true := hw' c (List.mem_of_mem_head? hc)
    simp only [isSpace, Bool.or_eq_true, beq_iff_eq] at hspace
    rcases hspace with ((rfl | rfl) | rfl) | rfl <;> decide
  have hread : readValue? (2 * (w ++ t ++ w').length + 1) (t ++ w') = some (j, w') :=
    readable_of_written h _ w' (by simp only [List.length_append]; omega) hends
  have hempty : skipSpace w' = [] := by rw [skipSpace, List.dropWhile_eq_nil_iff.2 hw']
  rw [parse?, String.toList_ofList, parseChars?, List.append_assoc w, skipSpace_append hw,
    skipSpace_of_begins (h.begins.append _), ← List.append_assoc, hread]
  simp [hempty]

/-! ### The written forms -/

/-- Every part of the value denotes something, and every number in it is a
    natural one: it is a value that the library writes. -/
inductive IsPlain : Json → Prop
  | null : IsPlain .null
  | bool {b : Bool} : IsPlain (.bool b)
  | nat {n : Nat} : IsPlain (.nat n)
  | str {s : String} : IsPlain (.str s)
  | arr {js : List Json} : (∀ j ∈ js, IsPlain j) → IsPlain (.arr js)
  | obj {ms : List (String × Json)} : (∀ m ∈ ms, IsPlain m.2) → IsPlain (.obj ms)

theorem written_compactItems {j : Json} {js : List Json}
    (h : ∀ i ∈ j :: js, Written (.value i) (compactChars i)) :
    Written (.items (j :: js)) (compactItems (j :: js)) := by
  induction js generalizing j with
  | nil => exact .item (h j List.mem_cons_self)
  | cons i js ih =>
    have hrest := ih fun k hk => h k (List.mem_cons_of_mem _ hk)
    simpa [compactItems] using
      Written.items (h j List.mem_cons_self) isWhite_nil isWhite_nil hrest

theorem written_compactFields {m : String × Json} {ms : List (String × Json)}
    (h : ∀ i ∈ m :: ms, Written (.value i.2) (compactChars i.2)) :
    Written (.members (m :: ms)) (compactFields (m :: ms)) := by
  induction ms generalizing m with
  | nil =>
    simpa [compactFields] using
      Written.member (k := m.1) isWhite_nil isWhite_nil (h m List.mem_cons_self)
  | cons i ms ih =>
    have hrest := ih fun k hk => h k (List.mem_cons_of_mem _ hk)
    simpa [compactFields] using Written.members (k := m.1) isWhite_nil isWhite_nil
      (h m List.mem_cons_self) isWhite_nil isWhite_nil hrest

theorem written_compactChars {j : Json} (h : j.IsPlain) : Written (.value j) (compactChars j) := by
  induction h with
  | null => exact .null
  | @bool b =>
    cases b with
    | true => exact .trueText
    | false => exact .falseText
  | nat => exact .nat
  | str => exact .str
  | @arr js _ ih =>
    cases js with
    | nil => exact .noItems isWhite_nil
    | cons j js =>
      -- The compact form is the one in which all white space is empty.
      simpa [compactChars] using Written.arr isWhite_nil (written_compactItems ih) isWhite_nil
  | @obj ms _ ih =>
    cases ms with
    | nil => exact .noMembers isWhite_nil
    | cons m ms =>
      simpa [compactChars] using Written.obj isWhite_nil (written_compactFields ih) isWhite_nil

theorem parse?_compact {j : Json} (h : j.IsPlain) : parse? j.compact = some j := by
  simpa [compact] using parse?_of_written (written_compactChars h) isWhite_nil isWhite_nil

theorem isWhite_newLine (level : Nat) : IsWhite (newLine level) := by
  intro c hc
  simp only [newLine, List.mem_cons, List.mem_replicate] at hc
  rcases hc with rfl | ⟨-, rfl⟩ <;> rfl

theorem isWhite_blank : IsWhite [' '] := by
  intro c hc
  obtain rfl := List.mem_singleton.1 hc
  rfl

/-- The items are written with a new line in front of them. -/
theorem written_indentedItems {level : Nat} {j : Json} {js : List Json}
    (h : ∀ i ∈ j :: js, Written (.value i) (indentedChars level i)) :
    ∃ t, indentedItems level (j :: js) = newLine level ++ t ∧ Written (.items (j :: js)) t := by
  induction js generalizing j with
  | nil => exact ⟨_, rfl, .item (h j List.mem_cons_self)⟩
  | cons i js ih =>
    obtain ⟨t, heq, hrest⟩ := ih fun k hk => h k (List.mem_cons_of_mem _ hk)
    refine ⟨_, ?_, .items (h j List.mem_cons_self) isWhite_nil (isWhite_newLine level) hrest⟩
    simp [indentedItems, ← heq]

theorem written_indentedFields {level : Nat} {m : String × Json} {ms : List (String × Json)}
    (h : ∀ i ∈ m :: ms, Written (.value i.2) (indentedChars level i.2)) :
    ∃ t, indentedFields level (m :: ms) = newLine level ++ t ∧ Written (.members (m :: ms)) t := by
  induction ms generalizing m with
  | nil =>
    refine ⟨_, ?_, .member (k := m.1) isWhite_nil isWhite_blank (h m List.mem_cons_self)⟩
    simp [indentedFields]
  | cons i ms ih =>
    obtain ⟨t, heq, hrest⟩ := ih fun k hk => h k (List.mem_cons_of_mem _ hk)
    refine ⟨_, ?_, .members (k := m.1) isWhite_nil isWhite_blank (h m List.mem_cons_self)
      isWhite_nil (isWhite_newLine level) hrest⟩
    simp [indentedFields, ← heq]

theorem written_indentedChars {j : Json} (h : j.IsPlain) (level : Nat) :
    Written (.value j) (indentedChars level j) := by
  induction h generalizing level with
  | null => exact .null
  | @bool b =>
    cases b with
    | true => exact .trueText
    | false => exact .falseText
  | nat => exact .nat
  | str => exact .str
  | @arr js _ ih =>
    cases js with
    | nil => exact .noItems isWhite_nil
    | cons j js =>
      obtain ⟨t, heq, ht⟩ := written_indentedItems fun i hi => ih i hi (level + 1)
      have h := Written.arr (isWhite_newLine (level + 1)) ht (isWhite_newLine level)
      simpa [indentedChars, heq] using h
  | @obj ms _ ih =>
    cases ms with
    | nil => exact .noMembers isWhite_nil
    | cons m ms =>
      obtain ⟨t, heq, ht⟩ := written_indentedFields fun i hi => ih i hi (level + 1)
      have h := Written.obj (isWhite_newLine (level + 1)) ht (isWhite_newLine level)
      simpa [indentedChars, heq] using h

theorem parse?_indented {j : Json} (h : j.IsPlain) : parse? j.indented = some j := by
  simpa [indented] using parse?_of_written (written_indentedChars h 0) isWhite_nil isWhite_nil

end ContentBlocking.Json
