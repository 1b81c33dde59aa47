import ContentBlocking.Json.Reader
import ContentBlocking.Json.Writer

/-!
# Literals read back

A string or a number is written in one way, and the reader finds in it exactly
what was written, whatever text follows. For a number, the text that follows
must not go on with it.

* `readString?_quoted`: a string literal is read back as its text;
* `readNumber?_digits`: the digits of a number are read back as the number.
-/

namespace ContentBlocking.Json

open Text

/-! ### Strings -/

theorem hexDigit_spec :
    ∀ n < 16, isHexDigit (hexDigit n) = true ∧ hexValue (hexDigit n) = n := by decide

/-- The code unit that the escape of a control character denotes. -/
theorem unit?_hexDigit {n : Nat} (h : n < 256) :
    unit? '0' '0' (hexDigit (n / 16)) (hexDigit (n % 16)) = some n := by
  obtain ⟨h₁, v₁⟩ := hexDigit_spec (n / 16) (by omega)
  obtain ⟨h₂, v₂⟩ := hexDigit_spec (n % 16) (by omega)
  have h₀ : isHexDigit '0' = true ∧ hexValue '0' = 0 := by decide
  simp only [unit?, List.all_cons, List.all_nil, h₀, h₁, h₂, Bool.and_self, if_true, ofDigits,
    List.foldl_cons, List.foldl_nil, v₁, v₂]
  congr 1
  omega

theorem readUnits?_escape {e : Char} {u : Nat} (he : e ≠ 'u') (hu : simpleEscape? e = some u)
    (s : List Char) :
    readUnits? ('\\' :: e :: s) = (readUnits? s).map fun (us, rest) => (u :: us, rest) := by
  rw [readUnits?.eq_4, hu]
  · cases readUnits? s <;> rfl
  · intro _ _ _ _ _ h
    exact absurd h he

theorem readUnits?_char {c : Char} (hc : 0x20 ≤ c.toNat) (hq : c ≠ '"') (hb : c ≠ '\\')
    (s : List Char) :
    readUnits? (c :: s) = (readUnits? s).map fun (us, rest) => (c.toNat :: us, rest) := by
  rw [readUnits?.eq_5 _ _ hq]
  · -- The other equations of the reader are for a quote and for escapes.
    simp [Nat.not_lt.2 hc, hb]
  · intro _ _ _ _ _ h
    exact absurd h hb
  · intro _ _ h
    exact absurd h hb

/-- A character is read back from the way it is written inside a literal. -/
theorem readUnits?_escapeChar (c : Char) (s : List Char) :
    readUnits? (escapeChar c ++ s) =
      (readUnits? s).map fun (us, rest) => (c.toNat :: us, rest) := by
  unfold escapeChar
  split
  -- The last case is the only one in which no short escape is written.
  case h_8 hq hb _ _ _ _ _ =>
    split
    · next h =>
      simp only [List.cons_append, List.nil_append, readUnits?.eq_3,
        unit?_hexDigit (Nat.lt_trans h (by decide))]
      cases readUnits? s <;> rfl
    · next h => exact readUnits?_char (Nat.not_lt.1 h) hq hb s
  all_goals exact readUnits?_escape (by decide) rfl s

theorem readUnits?_flatMap_escapeChar (s rest : List Char) :
    readUnits? (s.flatMap escapeChar ++ '"' :: rest) = some (s.map Char.toNat, rest) := by
  induction s with
  | nil => rw [List.flatMap_nil, List.nil_append, readUnits?.eq_2, List.map_nil]
  | cons c s ih =>
    rw [List.flatMap_cons, List.append_assoc, readUnits?_escapeChar, ih, Option.map_some,
      List.map_cons]

/-- Characters are no surrogates, so none of them are paired up. -/
theorem pairUp?_map_toNat (s : List Char) : pairUp? (s.map Char.toNat) = some s := by
  induction s with
  | nil => rfl
  | cons c s ih =>
    have hc : isHighSurrogate c.toNat = false ∧ isLowSurrogate c.toNat = false := by
      -- A character is a scalar value, so it is below or above the surrogates.
      have := c.valid
      simp only [UInt32.isValidChar, Nat.isValidChar] at this
      simp only [isHighSurrogate, isLowSurrogate, Bool.and_eq_false_iff, decide_eq_false_iff_not]
      change c.toNat < _ ∨ _ < c.toNat ∧ c.toNat < _ at this
      omega
    rw [List.map_cons, pairUp?.eq_def]
    simp [hc, ih]

theorem readString?_quoted (s : String) (rest : List Char) :
    readString? (s.toList.flatMap escapeChar ++ '"' :: rest) = some (some s, rest) := by
  simp only [readString?, readUnits?_flatMap_escapeChar, Option.map_some, pairUp?_map_toNat,
    String.ofList_toList]

/-! ### Numbers -/

/-- The text does not go on with a number. -/
def EndsNumber (rest : List Char) : Prop :=
  ∀ c ∈ rest.head?, c.isDigit = false ∧ c ≠ '.' ∧ c ≠ 'e' ∧ c ≠ 'E'

theorem exists_digits_eq_cons (n : Nat) : ∃ d ds, digits n = d :: ds :=
  List.exists_cons_of_ne_nil Nat.toDigits_ne_nil

theorem isDigit_of_mem_digits {n : Nat} {c : Char} (hc : c ∈ digits n) : c.isDigit = true :=
  Nat.isDigit_of_mem_toDigits (by decide) (by decide) hc

theorem ofDigits_digits (n : Nat) : ofDigits 10 (digits n) = n := by
  -- The library says the same of its own fold over the digits.
  have h : ∀ (ds : List Char), (∀ c ∈ ds, c.isDigit = true) → ∀ m,
      ds.foldl (fun n c => n * 10 + hexValue c) m = Nat.ofDigitChars 10 ds m := by
    intro ds
    induction ds with
    | nil => intro _ m; rfl
    | cons c ds ih =>
      intro hds m
      rw [List.foldl_cons, ih fun d hd => hds d (List.mem_cons_of_mem _ hd), Nat.ofDigitChars_cons]
      simp [hexValue, hds c List.mem_cons_self, Nat.mul_comm]
  rw [ofDigits, h _ fun c hc => isDigit_of_mem_digits hc, digits, Nat.ofDigitChars_ten_toDigits]

/-- Only zero is written with a leading zero. -/
theorem eq_zero_of_digits {n : Nat} {ds : List Char} (h : digits n = '0' :: ds) : n = 0 := by
  induction n using Nat.strongRecOn generalizing ds with
  | ind n ih =>
    rcases Nat.lt_or_ge n 10 with hn | hn
    · have hzero : ∀ n < 10, Nat.digitChar n = '0' → n = 0 := by decide
      rw [digits, Nat.toDigits_of_lt_base hn] at h
      exact hzero n hn (List.cons.inj h).1
    · -- The first digit of a longer number is the first of its tenth.
      obtain ⟨d, ds', hd⟩ := exists_digits_eq_cons (n / 10)
      rw [digits, Nat.toDigits_of_base_le (by decide) hn, ← digits, hd, List.cons_append] at h
      have := ih (n / 10) (by omega) (by rw [hd, (List.cons.inj h).1])
      omega

theorem spanDigits_append {ds rest : List Char} (hds : ∀ c ∈ ds, c.isDigit = true)
    (hr : EndsNumber rest) : spanDigits (ds ++ rest) = (ds, rest) := by
  have h : rest.takeWhile Char.isDigit = [] ∧ rest.dropWhile Char.isDigit = rest := by
    cases rest with
    | nil => exact ⟨rfl, rfl⟩
    | cons c rest => simp [(hr c rfl).1]
  rw [spanDigits, List.takeWhile_append_of_pos hds, List.dropWhile_append_of_pos hds, h.1, h.2,
    List.append_nil]

theorem readWhole?_digits (n : Nat) {rest : List Char} (hr : EndsNumber rest) :
    readWhole? (digits n ++ rest) = some (digits n, rest) := by
  obtain ⟨d, ds, hd⟩ := exists_digits_eq_cons n
  rw [readWhole?.eq_def]
  split
  · next s h =>
    rw [hd, List.cons_append] at h
    obtain ⟨rfl, rfl⟩ := List.cons.inj h
    -- The reader takes a leading zero alone, but then it is all that was written.
    obtain rfl : n = 0 := eq_zero_of_digits hd
    obtain rfl : [] = ds := (List.cons.inj hd).2
    cases rest with
    | nil => rfl
    | cons c rest => simp [(hr c rfl).1, digits]
  · rw [spanDigits_append (fun c hc => isDigit_of_mem_digits hc) hr]
    split
    · next h => exact absurd (Prod.mk.inj h).1 (by rw [hd]; exact List.cons_ne_nil d ds)
    · next h => rw [← (Prod.mk.inj h).1, ← (Prod.mk.inj h).2]

theorem readNumber?_digits (n : Nat) {rest : List Char} (hr : EndsNumber rest) :
    readNumber? (digits n ++ rest) = some (.nat n, rest) := by
  have hfraction : readFraction? rest = some ([], rest) := by
    rw [readFraction?.eq_def]
    split
    · exact absurd rfl (hr '.' rfl).2.1
    · rfl
  have hexponent : readExponent? rest = some ([], rest) := by
    rw [readExponent?.eq_def]
    split
    · next e rest =>
      obtain ⟨-, -, he, hE⟩ := hr e rfl
      simp [he, hE]
    · rfl
  have hwhole := readWhole?_digits n hr
  obtain ⟨d, ds, hd⟩ := exists_digits_eq_cons n
  -- No sign is written, so the reader finds none.
  have hsign : d ≠ '-' := by
    rintro rfl
    exact absurd (isDigit_of_mem_digits (hd ▸ List.mem_cons_self : '-' ∈ digits n)) (by decide)
  rw [hd, List.cons_append] at hwhole ⊢
  rw [readNumber?.eq_def]
  split
  next sign s h =>
  split at h
  · next h' => exact absurd (List.cons.inj h').1 hsign
  obtain ⟨rfl, rfl⟩ := Prod.mk.inj h
  simp [hwhole, hfraction, hexponent, ← hd, ofDigits_digits]

end ContentBlocking.Json
