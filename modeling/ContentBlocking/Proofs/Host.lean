import ContentBlocking.Host
import ContentBlocking.Proofs.Text.Cut

/-!
# Normal forms of hosts

The normal form of a host has none but small letters, digits, hyphens and single inner
dots. A normal form is brought to a normal form once more by the loss of a leading
`www.`, if it still has one.

* `Host.IsDomain`: what a normal form looks like;
* `isDomain_of_domainChars?`: normal forms look like that;
* `IsDomain.domainChars?_eq`: the normal form of a normal form.
-/

namespace ContentBlocking.Host

open Text

/-- What a host loses at its start. -/
def www : List Char := ['w', 'w', 'w', '.']

/-- The text is in the normal form of hosts, but may begin with `www.` still. -/
structure IsDomain (domain : List Char) : Prop where
  chars : ∀ c ∈ domain, isDomainChar c = true ∧ c.toLower = c
  ne_nil : domain ≠ []
  outer : IsTrimmed (· == '.') domain
  single : ¬['.', '.'] <:+: domain

/-! ### Characters of domains -/

theorem toNat_lt_of_isDomainChar {c : Char} (h : isDomainChar c = true) : c.toNat < 128 := by
  have hcases : (((c.isUpper = true ∨ c.isLower = true) ∨ c.isDigit = true) ∨ c = '.') ∨
      c = '-' := by
    rw [isDomainChar, Bool.or_eq_true, Bool.or_eq_true, beq_iff_eq, beq_iff_eq] at h
    refine h.imp_left fun h => h.imp_left fun h => ?_
    exact ((Bool.or_eq_true _ _).mp h).imp_left (Bool.or_eq_true _ _).mp
  rcases hcases with (((h | h) | h) | rfl) | rfl
  · have hle : c.toNat ≤ 90 := UInt32.le_iff_toNat_le.1 (of_decide_eq_true h).2
    omega
  · obtain ⟨-, h⟩ := (Bool.and_eq_true _ _).mp h
    have hle : c.toNat ≤ 122 := UInt32.le_iff_toNat_le.1 (of_decide_eq_true h)
    omega
  · obtain ⟨-, h⟩ := (Bool.and_eq_true _ _).mp h
    have hle : c.toNat ≤ 57 := UInt32.le_iff_toNat_le.1 (of_decide_eq_true h)
    omega
  · decide
  · decide

/-- The characters of domains are few enough to be looked at one by one. -/
theorem forall_isDomainChar {P : Char → Prop}
    (h : ∀ n < 128, isDomainChar (Char.ofNat n) = true → P (Char.ofNat n)) {c : Char}
    (hc : isDomainChar c = true) : P c := by
  have hone := h c.toNat (toNat_lt_of_isDomainChar hc)
  rw [Char.ofNat_toNat] at hone
  exact hone hc

theorem isDomainChar_toLower {c : Char} (h : isDomainChar c = true) :
    isDomainChar c.toLower = true ∧ c.toLower.toLower = c.toLower ∧
      (c.toLower == '.') = (c == '.') :=
  forall_isDomainChar (P := fun c => isDomainChar c.toLower = true ∧
    c.toLower.toLower = c.toLower ∧ (c.toLower == '.') = (c == '.')) (by decide +kernel) h

/-- Only letters have a small form of their own. -/
theorem toLower_of_not_isDomainChar {c : Char} (h : isDomainChar c ≠ true) : c.toLower = c := by
  have hupper : c.isUpper ≠ true := fun hupper => h <| by
    show (c.isUpper || c.isLower || c.isDigit || c == '.' || c == '-') = true
    rw [hupper]
    rfl
  exact dif_neg fun hrange => hupper (decide_eq_true hrange)

theorem lowerAscii_lowerAscii (s : List Char) : lowerAscii (lowerAscii s) = lowerAscii s := by
  rw [lowerAscii, lowerAscii, List.map_map]
  refine List.map_congr_left fun c _ => ?_
  by_cases h : isDomainChar c = true
  · exact (isDomainChar_toLower h).2.1
  · exact congrArg Char.toLower (toLower_of_not_isDomainChar h)

/-- What becomes a sign in small letters is that sign. -/
theorem eq_of_toLower_eq {c d : Char} (hd : isDomainChar d ≠ true) (h : c.toLower = d) : c = d := by
  by_cases hc : isDomainChar c = true
  · exact absurd (h ▸ (isDomainChar_toLower hc).1) hd
  · rw [← h, toLower_of_not_isDomainChar hc]

theorem eq_of_lowerAscii_eq {s t : List Char} (ht : ∀ c ∈ t, isDomainChar c ≠ true)
    (h : lowerAscii s = t) : s = t := by
  subst h
  refine (List.map_id' s).symm.trans (List.map_congr_left fun c hc => ?_)
  exact eq_of_toLower_eq (ht _ (List.mem_map_of_mem hc)) rfl

theorem eq_dot_of_toLower_eq {c : Char} (h : c.toLower = '.') : c = '.' := by
  by_cases hc : isDomainChar c = true
  · exact eq_of_beq ((isDomainChar_toLower hc).2.2.symm.trans (beq_iff_eq.2 h))
  · rw [← h, toLower_of_not_isDomainChar hc]

theorem isDomainChar_of_toLower {c : Char} (h : isDomainChar c.toLower = true) :
    isDomainChar c = true := by
  by_contra hc
  rw [toLower_of_not_isDomainChar hc] at h
  exact hc h

theorem isBlank_of_isDomainChar {c : Char} (h : isDomainChar c = true) : isBlank c = false :=
  forall_isDomainChar (P := fun c => isBlank c = false) (by decide +kernel) h

/-- No character of a domain ends the user information or the host of a URL. -/
theorem delimits_nothing_of_isDomainChar {c : Char} (h : isDomainChar c = true) :
    c ≠ '@' ∧ c ≠ '[' ∧ c ≠ ':' ∧ endsAuthority c = false :=
  forall_isDomainChar (P := fun c => c ≠ '@' ∧ c ≠ '[' ∧ c ≠ ':' ∧ endsAuthority c = false)
    (by decide +kernel) h

/-! ### Normal forms -/

theorem isTrimmed_lowerAscii {s : List Char} (hs : ∀ c ∈ s, isDomainChar c = true)
    (h : IsTrimmed (· == '.') s) : IsTrimmed (· == '.') (lowerAscii s) where
  head c hc := by
    rw [lowerAscii, List.head?_map] at hc
    obtain ⟨d, hd, rfl⟩ := Option.map_eq_some_iff.1 hc
    rw [(isDomainChar_toLower (hs d (List.mem_of_mem_head? hd))).2.2]
    exact h.head d hd
  getLast c hc := by
    rw [lowerAscii, List.getLast?_map] at hc
    obtain ⟨d, hd, rfl⟩ := Option.map_eq_some_iff.1 hc
    rw [(isDomainChar_toLower (hs d (List.mem_of_mem_getLast? hd))).2.2]
    exact h.getLast d hd

theorem suffix_dropLead? (lead s : List Char) : (dropLead? lead s).getD s <:+ s := by
  cases h : dropLead? lead s with
  | none => exact List.suffix_refl s
  | some rest => exact ⟨lead, (dropLead?_eq_some_iff.1 h).symm⟩

theorem getLast?_of_suffix {s t : List Char} (h : t <:+ s) (ht : t ≠ []) :
    t.getLast? = s.getLast? := by
  obtain ⟨before, rfl⟩ := h
  exact (List.getLast?_append_of_ne_nil before ht).symm

theorem isDomain_of_domainChars? {host domain : List Char} (h : domainChars? host = some domain) :
    IsDomain domain := by
  rw [domainChars?] at h
  dsimp only at h
  have htrimmed := isTrimmed_trimBy (· == '.') (trim host)
  generalize trimBy (· == '.') (trim host) = trimmed at h htrimmed
  split at h
  · next hall =>
    have hchars := List.all_eq_true.1 hall
    have hsuffix := suffix_dropLead? ['w', 'w', 'w', '.'] (lowerAscii trimmed)
    generalize (dropLead? ['w', 'w', 'w', '.'] (lowerAscii trimmed)).getD (lowerAscii trimmed) =
      found at h hsuffix
    split at h
    · cases h
    · next hgood =>
      obtain rfl := Option.some.inj h
      simp only [Bool.or_eq_true, not_or, beq_iff_eq, List.isEmpty_iff] at hgood
      obtain ⟨⟨hne, hhead⟩, hsingle⟩ := hgood
      refine ⟨fun c hc => ?_, hne, ⟨fun c hc => ?_, fun c hc => ?_⟩, fun hdots => ?_⟩
      · obtain ⟨d, hd, rfl⟩ := List.mem_map.1 (hsuffix.mem hc)
        have hlower := isDomainChar_toLower (hchars d hd)
        exact ⟨hlower.1, hlower.2.1⟩
      · rw [beq_eq_false_iff_ne]
        rintro rfl
        exact hhead hc
      · rw [getLast?_of_suffix hsuffix hne] at hc
        exact (isTrimmed_lowerAscii hchars htrimmed).getLast c hc
      · exact hsingle (occursIn_iff.2 hdots)
  · cases h

theorem IsDomain.trim_eq {domain : List Char} (h : IsDomain domain) : trim domain = domain :=
  (isTrimmed_of_forall_mem fun c hc => isBlank_of_isDomainChar (h.chars c hc).1).trimBy_eq

theorem IsDomain.lowerAscii_eq {domain : List Char} (h : IsDomain domain) :
    lowerAscii domain = domain :=
  (List.map_congr_left fun c hc => (h.chars c hc).2).trans (List.map_id' domain)

/-- The normal form of what is in normal form lacks a leading `www.` that it still had. -/
theorem IsDomain.domainChars?_eq {domain : List Char} (h : IsDomain domain) :
    domainChars? domain = some ((dropLead? www domain).getD domain) := by
  have hall : domain.all isDomainChar = true := List.all_eq_true.2 fun c hc => (h.chars c hc).1
  rw [domainChars?, h.trim_eq, h.outer.trimBy_eq, h.lowerAscii_eq, if_pos hall, ← www]
  have hgood {rest : List Char} (hsuffix : rest <:+ domain) (hne : rest ≠ [])
      (hhead : rest.head? ≠ some '.') :
      (rest.isEmpty || rest.head? == some '.' || occursIn ['.', '.'] rest) = false := by
    have hsingle : occursIn ['.', '.'] rest ≠ true := fun hdots =>
      h.single ((occursIn_iff.1 hdots).trans hsuffix.isInfix)
    simp [hne, hhead, hsingle]
  dsimp only
  cases hwww : dropLead? www domain with
  | none =>
    have hhead : domain.head? ≠ some '.' := fun hdot => nomatch h.outer.head '.' hdot
    rw [Option.getD_none, hgood (List.suffix_refl _) h.ne_nil hhead]
    rfl
  | some rest =>
    obtain rfl := dropLead?_eq_some_iff.1 hwww
    have hne : rest ≠ [] := by
      rintro rfl
      exact nomatch h.outer.getLast '.' rfl
    -- There would be two dots in a row.
    have hhead : rest.head? ≠ some '.' := fun hdot => by
      obtain ⟨more, rfl⟩ := List.head?_eq_some_iff.1 hdot
      exact h.single ⟨['w', 'w', 'w'], more, rfl⟩
    rw [Option.getD_some, hgood (List.suffix_append _ _) hne hhead]
    rfl

end ContentBlocking.Host
