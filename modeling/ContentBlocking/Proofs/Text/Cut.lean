import ContentBlocking.Text.Cut
import Mathlib.Data.List.DropRight

/-!
# Where text is cut

What the cuts give when it is known where the separator stands, when a text occurs in
another, and what is left of a text that was trimmed.

* `cutLast?_eq_some_iff`: a text is cut at its last separator;
* `IsSplit`, `isSplit_iff`: the pieces of a text that is cut at all separators;
* `occursIn_iff`, `cut?_eq_some_iff`: a text occurs in another, which is cut where it does first;
* `IsTrimmed`: a text that was trimmed.
-/

namespace ContentBlocking.Text

variable {sep : Char} {s t : List Char}

/-! ### One separator -/

theorem splitOn_ne_nil (sep : Char) (s : List Char) : splitOn sep s ≠ [] := by
  cases s with
  | nil => exact List.cons_ne_nil _ _
  | cons c s =>
    rw [splitOn]
    split
    · exact List.cons_ne_nil _ _
    · split <;> exact List.cons_ne_nil _ _

theorem splitOn_of_not_mem (h : sep ∉ s) : splitOn sep s = [s] := by
  induction s with
  | nil => rfl
  | cons c s ih =>
    have hc : c ≠ sep := (List.ne_of_not_mem_cons h).symm
    rw [splitOn, if_neg hc, ih (List.not_mem_of_not_mem_cons h)]

theorem splitOn_append_cons (sep : Char) (s t : List Char) :
    splitOn sep (s ++ sep :: t) = splitOn sep s ++ splitOn sep t := by
  induction s with
  | nil => exact if_pos rfl
  | cons c s ih =>
    rw [List.cons_append, splitOn, splitOn, ih]
    split
    · rfl
    · cases hs : splitOn sep s with
      | nil => exact absurd hs (splitOn_ne_nil sep s)
      | cons piece rest => rfl

theorem cutLast?_of_not_mem (h : sep ∉ s) : cutLast? sep s = none := by
  induction s with
  | nil => rfl
  | cons c s ih =>
    have hc : c ≠ sep := (List.ne_of_not_mem_cons h).symm
    rw [cutLast?, ih (List.not_mem_of_not_mem_cons h)]
    exact if_neg hc

theorem cutLast?_append_cons (s : List Char) (h : sep ∉ t) :
    cutLast? sep (s ++ sep :: t) = some (s, t) := by
  induction s with
  | nil =>
    rw [List.nil_append, cutLast?, cutLast?_of_not_mem h]
    exact if_pos rfl
  | cons c s ih => rw [List.cons_append, cutLast?, ih]

theorem not_mem_of_cutLast?_eq_none (h : cutLast? sep s = none) : sep ∉ s := by
  intro hmem
  obtain ⟨before, after, rfl⟩ := List.append_of_mem hmem
  induction before with
  | nil =>
    rw [List.nil_append, cutLast?] at h
    split at h
    · cases h
    · rw [if_pos rfl] at h
      cases h
  | cons c before ih =>
    rw [List.cons_append, cutLast?] at h
    split at h
    · cases h
    · next hrest => exact ih hrest (List.mem_append_right _ List.mem_cons_self)

theorem not_mem_of_cutLast? {before after : List Char} (h : cutLast? sep s = some (before, after)) :
    sep ∉ after := by
  induction s generalizing before with
  | nil => cases h
  | cons c s ih =>
    rw [cutLast?] at h
    split at h
    · next hrest =>
      obtain ⟨-, rfl⟩ := Prod.mk.inj (Option.some.inj h)
      exact ih hrest
    · next hnone =>
      split at h
      · obtain ⟨-, rfl⟩ := Prod.mk.inj (Option.some.inj h)
        exact not_mem_of_cutLast?_eq_none hnone
      · cases h

theorem cutLast?_eq_none_iff : cutLast? sep s = none ↔ sep ∉ s :=
  ⟨not_mem_of_cutLast?_eq_none, cutLast?_of_not_mem⟩

theorem cutLast?_eq_some_iff {before after : List Char} :
    cutLast? sep s = some (before, after) ↔ s = before ++ sep :: after ∧ sep ∉ after := by
  constructor
  · exact fun h => ⟨(cutLast?_append h).symm, not_mem_of_cutLast? h⟩
  · rintro ⟨rfl, h⟩
    exact cutLast?_append_cons before h

/-! ### All separators -/

/-- The pieces are those of the text between the occurrences of the separator. -/
structure IsSplit (sep : Char) (s : List Char) (pieces : List (List Char)) : Prop where
  ne_nil : pieces ≠ []
  joined : joinWith [sep] pieces = s
  not_mem : ∀ piece ∈ pieces, sep ∉ piece

theorem not_mem_of_mem_splitOn {piece : List Char} (h : piece ∈ splitOn sep s) : sep ∉ piece := by
  induction s generalizing piece with
  | nil =>
    rw [List.mem_singleton.1 h]
    exact List.not_mem_nil
  | cons c s ih =>
    rw [splitOn] at h
    split at h
    · rcases List.mem_cons.1 h with rfl | h
      · exact List.not_mem_nil
      · exact ih h
    · next hc =>
      cases hs : splitOn sep s with
      | nil => exact absurd hs (splitOn_ne_nil sep s)
      | cons first rest =>
        rw [hs] at h ih
        rcases List.mem_cons.1 h with rfl | h
        · rw [List.mem_cons, not_or]
          exact ⟨Ne.symm hc, ih List.mem_cons_self⟩
        · exact ih (List.mem_cons_of_mem _ h)

/-- A text has only one list of such pieces. -/
theorem isSplit_iff {pieces : List (List Char)} :
    IsSplit sep s pieces ↔ pieces = splitOn sep s := by
  constructor
  · rintro ⟨hne, rfl, hpieces⟩
    induction pieces with
    | nil => exact absurd rfl hne
    | cons piece pieces ih =>
      obtain ⟨hpiece, hpieces⟩ := List.forall_mem_cons.1 hpieces
      cases pieces with
      | nil => exact (splitOn_of_not_mem hpiece).symm
      | cons next pieces =>
        have hrest := ih (List.cons_ne_nil _ _) hpieces
        have hjoin : joinWith [sep] (piece :: next :: pieces) =
            piece ++ sep :: joinWith [sep] (next :: pieces) := by
          simp only [joinWith, List.append_assoc, List.singleton_append]
        rw [hjoin, splitOn_append_cons, splitOn_of_not_mem hpiece, ← hrest, List.singleton_append]
  · rintro rfl
    exact ⟨splitOn_ne_nil sep s, joinWith_splitOn sep s, fun _ => not_mem_of_mem_splitOn⟩

/-! ### Texts in texts -/

theorem occursIn_iff {sub s : List Char} : occursIn sub s = true ↔ sub <:+: s := by
  constructor
  · intro h
    obtain ⟨⟨before, after⟩, hcut⟩ := Option.isSome_iff_exists.1 h
    exact ⟨before, after, cut?_append hcut⟩
  · rintro ⟨before, after, rfl⟩
    rw [occursIn]
    induction before with
    | nil =>
      have hlead : dropLead? sub (sub ++ after) = some after := dropLead?_eq_some_iff.2 rfl
      rw [List.nil_append]
      cases happ : sub ++ after with
      | nil => simp [(List.append_eq_nil_iff.1 happ).1, cut?]
      | cons c s => rw [cut?, ← happ, hlead, Option.isSome_some]
    | cons c before ih =>
      -- An occurrence further on counts if there is none at the start.
      rw [List.append_assoc] at ih
      rw [List.append_assoc, List.cons_append, cut?]
      split
      · rfl
      · rw [Option.isSome_map]
        exact ih

/-- A text that begins in front of another one begins no later than that ends, so it does not
    matter what follows. -/
theorem prefix_append_dropLast_iff {sub before after : List Char} (hne : before ≠ []) :
    sub <+: before ++ sub.dropLast ↔ sub <+: before ++ sub ++ after := by
  have hshort : before ++ sub.dropLast <+: before ++ sub ++ after := by
    rw [List.append_assoc]
    exact (List.prefix_append_right_inj before).2
      ((List.dropLast_prefix sub).trans (List.prefix_append sub after))
  refine ⟨fun h => h.trans hshort, fun h => List.prefix_of_prefix_length_le h hshort ?_⟩
  have hpos := List.length_pos_iff.2 hne
  rw [List.length_append, List.length_dropLast]
  omega

/-- A text is cut where another one occurs in it first. -/
theorem cut?_eq_some_iff {sub before after : List Char} (hne : sub ≠ []) :
    cut? sub s = some (before, after) ↔
      s = before ++ sub ++ after ∧ ¬sub <:+: before ++ sub.dropLast := by
  constructor
  · intro h
    refine ⟨(cut?_append h).symm, fun hinfix => ?_⟩
    induction s generalizing before with
    | nil =>
      rw [cut?, if_neg (by simpa using hne)] at h
      cases h
    | cons c s ih =>
      have hsplit := cut?_append h
      rw [cut?] at h
      split at h
      · obtain ⟨rfl, -⟩ := Prod.mk.inj (Option.some.inj h)
        have hlength := hinfix.length_le
        rw [List.nil_append, List.length_dropLast] at hlength
        have hpos := List.length_pos_iff.2 hne
        omega
      · next hlead =>
        obtain ⟨⟨b, a⟩, hcut, hpair⟩ := Option.map_eq_some_iff.1 h
        obtain ⟨rfl, rfl⟩ := Prod.mk.inj hpair
        rcases List.infix_cons_iff.1 hinfix with hstart | hrest
        · -- It would have been found at the start.
          obtain ⟨rest, hrest⟩ := (prefix_append_dropLast_iff (List.cons_ne_nil c b)).1 hstart
          rw [dropLead?_eq_some_iff.2 (hsplit.symm.trans hrest.symm)] at hlead
          cases hlead
        · exact ih hcut hrest
  · rintro ⟨rfl, hnot⟩
    induction before with
    | nil =>
      have hlead : dropLead? sub (sub ++ after) = some after := dropLead?_eq_some_iff.2 rfl
      rw [List.nil_append]
      cases happ : sub ++ after with
      | nil => exact absurd (List.append_eq_nil_iff.1 happ).1 hne
      | cons c s => rw [cut?, ← happ, hlead]
    | cons c before ih =>
      have hlead : dropLead? sub (c :: (before ++ sub ++ after)) = none := by
        rw [Option.eq_none_iff_forall_not_mem]
        intro rest hrest
        have hstart := (prefix_append_dropLast_iff (List.cons_ne_nil c before)).2
          ⟨rest, (dropLead?_eq_some_iff.1 hrest).symm⟩
        exact hnot hstart.isInfix
      have hrest : ¬sub <:+: before ++ sub.dropLast := fun h =>
        hnot (h.trans (List.suffix_cons c _).isInfix)
      rw [List.cons_append, List.cons_append, cut?, hlead, ih hrest]
      rfl

/-- What does not have the first character of the separator is not cut. -/
theorem cut?_append_of_not_mem {sub : List Char} (h : sep ∉ s) :
    cut? (sep :: sub) (s ++ t) =
      (cut? (sep :: sub) t).map fun (before, after) => (s ++ before, after) := by
  induction s with
  | nil => exact Option.map_id'.symm
  | cons c s ih =>
    have hc : sep ≠ c := List.ne_of_not_mem_cons h
    rw [List.cons_append, cut?, dropLead?, if_neg hc, ih (List.not_mem_of_not_mem_cons h)]
    cases cut? (sep :: sub) t <;> rfl

/-! ### Outer characters -/

/-- The text neither begins nor ends with a character that has the property `p`. -/
structure IsTrimmed (p : Char → Bool) (s : List Char) : Prop where
  head : ∀ c ∈ s.head?, p c = false
  getLast : ∀ c ∈ s.getLast?, p c = false

variable {p : Char → Bool}

theorem isTrimmed_of_forall_mem (h : ∀ c ∈ s, p c = false) : IsTrimmed p s where
  head c hc := h c (List.mem_of_mem_head? hc)
  getLast c hc := h c (List.mem_of_mem_getLast? hc)

theorem trimBy_of_head? (h : ∀ c ∈ s.head?, p c = false) : trimBy p s = trimEndBy p s := by
  rw [trimBy]
  cases s with
  | nil => rfl
  | cons c s =>
    rw [List.dropWhile_cons_of_neg]
    simpa using h c rfl

theorem IsTrimmed.trimBy_eq (h : IsTrimmed p s) : trimBy p s = s := by
  rw [trimBy_of_head? h.head]
  refine List.rdropWhile_eq_self_iff.2 fun hs => ?_
  simpa using h.getLast _ (List.getLast?_eq_some_getLast hs)

theorem isTrimmed_trimBy (p : Char → Bool) (s : List Char) : IsTrimmed p (trimBy p s) where
  head c hc := by
    obtain ⟨rest, hrest⟩ : trimBy p s <+: s.dropWhile p := List.rdropWhile_prefix _ _
    have hhead := List.head?_dropWhile_not p s
    cases htrim : trimBy p s with
    | nil =>
      rw [htrim] at hc
      cases hc
    | cons d t =>
      rw [htrim] at hc hrest
      obtain rfl := Option.some.inj hc
      rw [← hrest] at hhead
      exact hhead
  getLast c hc := by
    have hne : trimBy p s ≠ [] := fun h => by
      rw [h] at hc
      cases hc
    rw [List.getLast?_eq_some_getLast hne] at hc
    obtain rfl := Option.some.inj hc
    exact Bool.eq_false_iff.2 (List.rdropWhile_last_not p (s.dropWhile p) hne)

theorem trimEndBy_append (h : trimEndBy p t ≠ []) : trimEndBy p (s ++ t) = s ++ trimEndBy p t := by
  have hne : (t.reverse.dropWhile p).isEmpty = false := by
    simpa [trimEndBy] using h
  rw [trimEndBy, List.reverse_append, List.dropWhile_append, hne, trimEndBy]
  simp

theorem trimEndBy_append_of_getLast? (h : ∀ c ∈ s.getLast?, p c = false) :
    trimEndBy p (s ++ t) = s ++ trimEndBy p t := by
  by_cases hne : trimEndBy p t = []
  · have hall : ∀ c ∈ t, p c = true := List.rdropWhile_eq_nil_iff.1 hne
    have hs : trimEndBy p s = s := List.rdropWhile_eq_self_iff.2 fun hs => by
      simpa using h _ (List.getLast?_eq_some_getLast hs)
    rw [hne, List.append_nil, trimEndBy, List.reverse_append,
      List.dropWhile_append_of_pos fun c hc => hall c (List.mem_reverse.1 hc), ← trimEndBy, hs]
  · exact trimEndBy_append hne

theorem trimBy_dropWhile (p : Char → Bool) (s : List Char) :
    trimBy p (s.dropWhile p) = trimBy p s := by
  rw [trimBy, trimBy, List.dropWhile_idempotent]

/-- It does not matter that the end was trimmed before. -/
theorem trimBy_trimEndBy (p : Char → Bool) (s : List Char) :
    trimBy p (trimEndBy p s) = trimBy p s := by
  obtain ⟨front, hfront⟩ : s.takeWhile p <+: s := List.takeWhile_prefix p
  cases hrest : s.dropWhile p with
  | nil =>
    -- Then nothing is left of either.
    have hall : ∀ c ∈ s, p c = true := List.dropWhile_eq_nil_iff.1 hrest
    have hnil : trimEndBy p s = [] := List.rdropWhile_eq_nil_iff.2 hall
    rw [trimBy, trimBy, hrest, hnil, List.dropWhile_nil]
  | cons c rest =>
    have hc : p c = false := by
      have hhead := List.head?_dropWhile_not p s
      rw [hrest] at hhead
      exact hhead
    have hne : trimEndBy p (c :: rest) ≠ [] := fun hnil => by
      simpa [hc] using List.rdropWhile_eq_nil_iff.1 hnil c List.mem_cons_self
    have hsplit : s = s.takeWhile p ++ c :: rest := by
      rw [← hrest, List.takeWhile_append_dropWhile]
    have htrimmed := isTrimmed_trimBy p s
    rw [trimBy, hrest] at htrimmed
    rw [trimBy, trimBy, hrest, hsplit, trimEndBy_append hne,
      List.dropWhile_append_of_pos fun d hd => List.mem_takeWhile_imp hd, ← trimBy,
      htrimmed.trimBy_eq]

/-- A text is trimmed on both sides of a piece that no character is trimmed off. -/
theorem trimBy_append_append {before piece after : List Char} (hne : piece ≠ [])
    (hpiece : ∀ c ∈ piece, p c = false) :
    trimBy p (before ++ piece ++ after) = before.dropWhile p ++ piece ++ trimEndBy p after := by
  obtain ⟨c, rest, rfl⟩ := List.exists_cons_of_ne_nil hne
  have hfront : (before ++ (c :: rest) ++ after).dropWhile p =
      before.dropWhile p ++ (c :: rest) ++ after := by
    rw [List.append_assoc, List.dropWhile_append]
    have hc : p c = false := hpiece c List.mem_cons_self
    split
    · next hnil =>
      rw [List.isEmpty_iff.1 hnil, List.nil_append, List.cons_append,
        List.dropWhile_cons_of_neg (by simp [hc])]
    · rw [List.append_assoc]
  rw [trimBy, hfront]
  refine trimEndBy_append_of_getLast? fun d hd => hpiece d ?_
  rw [List.getLast?_append_of_ne_nil _ hne] at hd
  exact List.mem_of_mem_getLast? hd

theorem upTo_eq_self (h : ∀ c ∈ s, p c = false) : upTo p s = s :=
  List.takeWhile_eq_self_iff.2 fun c hc => by rw [h c hc, Bool.not_false]

theorem upTo_append (hs : ∀ c ∈ s, p c = false) (ht : ∀ c ∈ t.head?, p c = true) :
    upTo p (s ++ t) = s := by
  have hstop : t.takeWhile (fun c => !p c) = [] := by
    cases t with
    | nil => rfl
    | cons c t => exact List.takeWhile_cons_of_neg (by simp [ht c rfl])
  rw [upTo, List.takeWhile_append_of_pos fun c hc => by rw [hs c hc, Bool.not_false], hstop,
    List.append_nil]

/-- A text that ends within its first part ends there. -/
theorem upTo_append_of_exists (h : ∃ c ∈ s, p c = true) : upTo p (s ++ t) = upTo p s := by
  have hshort : (s.takeWhile fun c => !p c).length ≠ s.length := fun hlength => by
    obtain ⟨c, hc, hp⟩ := h
    have hall := List.takeWhile_eq_self_iff.1
      ((List.takeWhile_prefix fun c => !p c).eq_of_length hlength) c hc
    simp [hp] at hall
  rw [upTo, List.takeWhile_append, if_neg hshort, upTo]

/-- What is in front of the first occurrence of a character. -/
theorem cut?_singleton (sep : Char) (s : List Char) :
    (cut? [sep] s).map Prod.fst = if sep ∈ s then some (upTo (· == sep) s) else none := by
  induction s with
  | nil => rfl
  | cons c s ih =>
    rw [cut?, dropLead?]
    by_cases hc : sep = c
    · subst hc
      simp [dropLead?, upTo]
    · have hcons : ((cut? [sep] s).map fun (before, after) => (c :: before, after)).map Prod.fst =
          ((cut? [sep] s).map Prod.fst).map (c :: ·) := by
        rw [Option.map_map, Option.map_map]
        rfl
      have hup : upTo (· == sep) (c :: s) = c :: upTo (· == sep) s :=
        List.takeWhile_cons_of_pos (by simpa using Ne.symm hc)
      rw [if_neg hc, hcons, ih, hup]
      by_cases hs : sep ∈ s <;> simp [hs, hc]

end ContentBlocking.Text
