import ContentBlocking.Proofs.Compile.ExcludedDomains
import ContentBlocking.Proofs.Compile.WhitelistedPages

/-!
# What cosmetic lines hide

A cosmetic line hides the elements that its selector describes, and its domain list says on
which pages. The rule of the line has the domains in small letters, sorted by whether they are
negated, and has no list where it would be empty. What the list says is told here entry by
entry. Every entry means one host, which is compared with the host of the page without regard
to the case of letters and to dots behind it; entries with a star in front are left out, since
the rule takes them for whole domains.

* `FilterText.listEntries`: the entries of a domain list;
* `FilterText.IsShownOn`: the pages that a domain list means;
* `admits_iff_isShownOn`: the rule is for these pages;
* `hides_iff_isShownOn`: what the rule of a cosmetic line does.
-/

namespace ContentBlocking

open Text

namespace FilterText

variable {excluded : List String} {line domains selector entry name : List Char} {host : String}
  {r : Rule}

/-! ### What a domain list says -/

/-- The entries of a domain list: what stands between its commas, without outer white space. -/
def listEntries (domains : List Char) : List (List Char) :=
  (splitOn ',' (trim domains)).map trim

/-- The name in an entry, which may have a tilde in front. -/
def entryName : List Char → List Char
  | '~' :: name => name
  | name => name

/-- The host is the one that is named, apart from dots behind it and the case of letters. -/
def IsNamed (host : String) (name : List Char) : Prop :=
  eqIgnoringCase (trimEndBy (· == '.') host.toList) name = true

/-- The host is named by an entry, and not by an entry with a tilde. If no entry without a tilde
    names a host, or the list is a star, all hosts count as named. -/
def IsShownOn (domains : List Char) (host : String) : Prop :=
  (trim domains = [] ∨ trim domains = ['*'] ∨
    (∀ entry ∈ listEntries domains, entry ≠ [] → entry.head? = some '~') ∨
    ∃ entry ∈ listEntries domains, entry ≠ [] ∧ entry.head? ≠ some '~' ∧ IsNamed host entry) ∧
  ∀ entry ∈ listEntries domains, entry.head? = some '~' → ¬IsNamed host (entryName entry)

instance : DecidablePred (IsNamed host) := fun _ => inferInstanceAs (Decidable (_ = true))

instance : DecidablePred (IsShownOn domains) := fun _ => inferInstanceAs (Decidable (_ ∧ _))

/-- No entry has a star in front of its name, unless the list is nothing but a star. -/
def HasNoStars (domains : List Char) : Prop :=
  trim domains = ['*'] ∨ ∀ entry ∈ listEntries domains, (entryName entry).head? ≠ some '*'

/-! ### The domain lists of a rule -/

/-- The entries that name the hosts for which the rule is. -/
def listed (domains : List Char) : List (List Char) :=
  (listEntries domains).filter fun entry => !entry.isEmpty && entry.head? != some '~'

/-- The names of the hosts for which it is not. -/
def negated (domains : List Char) : List (List Char) :=
  ((listEntries domains).filter fun entry => entry.head? == some '~').map entryName

theorem entryName_of_head?_ne (h : entry.head? ≠ some '~') : entryName entry = entry := by
  cases entry with
  | nil => rfl
  | cons c rest =>
    rw [entryName]
    rintro name ⟨rfl, -⟩
    exact h rfl

theorem mem_listed_iff :
    entry ∈ listed domains ↔ entry ∈ listEntries domains ∧ entry ≠ [] ∧ entry.head? ≠ some '~' := by
  simp [listed]

theorem listed_eq_nil_iff : listed domains = [] ↔
    ∀ entry ∈ listEntries domains, entry ≠ [] → entry.head? = some '~' := by
  rw [List.eq_nil_iff_forall_not_mem]
  refine forall_congr' fun entry => ?_
  rw [mem_listed_iff]
  tauto

theorem filterMap_listed (entries : List (List Char)) :
    ((entries.filter fun entry => !entry.isEmpty).filterMap fun entry =>
        if entry.head? == some '~' then none else some (lowerAscii entry)) =
      (entries.filter fun entry => !entry.isEmpty && entry.head? != some '~').map lowerAscii := by
  induction entries with
  | nil => rfl
  | cons entry entries ih =>
    cases entry with
    | nil => simpa using ih
    | cons c entry => by_cases hc : c = '~' <;> simp [hc] <;> simpa using ih

theorem filterMap_negated (entries : List (List Char)) :
    ((entries.filter fun entry => !entry.isEmpty).filterMap fun entry =>
        if entry.head? == some '~' then some (lowerAscii entry.tail) else none) =
      ((entries.filter fun entry => entry.head? == some '~').map entryName).map lowerAscii := by
  induction entries with
  | nil => rfl
  | cons entry entries ih =>
    cases entry with
    | nil => simpa using ih
    | cons c entry => by_cases hc : c = '~' <;> simp [hc, entryName] <;> simpa using ih

/-- The entries of a rule are those of the list in small letters. -/
theorem domainEntries_eq (hstar : trim domains ≠ ['*']) :
    domainEntries domains =
      ((listed domains).map lowerAscii, (negated domains).map lowerAscii) := by
  rw [domainEntries]
  dsimp only
  split
  · next hall =>
    have hempty : trim domains = [] := by simpa [hstar] using hall
    rw [listed, negated, listEntries, hempty]
    decide
  · rw [filterMap_listed, filterMap_negated]
    rfl

theorem domainEntries_of_star (hstar : trim domains = ['*']) :
    domainEntries domains = ([], []) := by
  rw [domainEntries, hstar]
  rfl

theorem all_any_nonEmpty_iff (fits : String → Bool) (names : List (List Char)) :
    (nonEmpty names).all (fun ds => ds.any fits) = true ↔
      names = [] ∨ ∃ name ∈ names, fits (String.ofList name) = true := by
  cases names <;> simp [nonEmpty]

theorem all_not_any_nonEmpty_iff (fits : String → Bool) (names : List (List Char)) :
    (nonEmpty names).all (fun ds => !ds.any fits) = true ↔
      ∀ name ∈ names, ¬fits (String.ofList name) = true := by
  cases names <;> simp [nonEmpty]

/-! ### The pages for which a rule is -/

/-- An entry without a star means the host that it names. -/
theorem fits_lowerAscii_iff (hstar : name.head? ≠ some '*') :
    Host.fits host (String.ofList (lowerAscii name)) = true ↔ IsNamed host name := by
  have hentry : ∀ domain, lowerAscii name ≠ '*' :: domain := fun domain hname => by
    obtain ⟨c, rest, rfl, hc, -⟩ := List.map_eq_cons_iff.1 hname
    obtain rfl := Host.eq_of_toLower_eq (by decide) hc
    exact hstar rfl
  rw [Host.fits, String.toList_ofList, Host.fitsChars, IsNamed, eqIgnoringCase, eqIgnoringCase,
    Host.lowerAscii_lowerAscii]
  exact hentry

/-- The trigger of a cosmetic line with this domain list. -/
def hidingTrigger (domains : List Char) : Trigger where
  urlPattern := ".*"
  ifDomains := nonEmpty (domainEntries domains).1
  unlessDomains := nonEmpty (domainEntries domains).2

/-- The rule of a cosmetic line is for the pages that its domain list means. -/
theorem admits_iff_isShownOn (hstars : HasNoStars domains) (q : Request) :
    (hidingTrigger domains).admits q = true ↔ IsShownOn domains q.pageHost := by
  have hcovers : (∅ : ResourceTypes).covers q.types = true := rfl
  rw [Trigger.admits, hidingTrigger, hcovers, Bool.true_and, Bool.and_eq_true, all_any_nonEmpty_iff,
    all_not_any_nonEmpty_iff, IsShownOn]
  by_cases hstar : trim domains = ['*']
  · have hlist : listEntries domains = [['*']] := by
      rw [listEntries, hstar]
      decide
    rw [domainEntries_of_star hstar, hlist]
    exact iff_of_true ⟨.inl rfl, by simp⟩ ⟨.inr (.inl hstar), by simp⟩
  · have hnames : ∀ entry ∈ listEntries domains, (entryName entry).head? ≠ some '*' :=
      hstars.resolve_left hstar
    rw [domainEntries_eq hstar, List.forall_mem_map, List.map_eq_nil_iff, listed_eq_nil_iff]
    simp only [List.mem_map, exists_exists_and_eq_and]
    refine and_congr ?_ ?_
    · constructor
      · rintro (hnone | ⟨entry, hentry, hfits⟩)
        · exact .inr (.inr (.inl hnone))
        · obtain ⟨hmem, hne, hhead⟩ := mem_listed_iff.1 hentry
          have hname := entryName_of_head?_ne hhead ▸ hnames entry hmem
          exact .inr (.inr (.inr ⟨entry, hmem, hne, hhead, (fits_lowerAscii_iff hname).1 hfits⟩))
      · rintro (hempty | hstar' | hnone | ⟨entry, hmem, hne, hhead, hnamed⟩)
        · refine .inl fun entry hmem hne => absurd ?_ hne
          rw [listEntries, hempty] at hmem
          exact List.mem_singleton.1 hmem
        · exact absurd hstar' hstar
        · exact .inl hnone
        · have hname := entryName_of_head?_ne hhead ▸ hnames entry hmem
          exact .inr ⟨entry, mem_listed_iff.2 ⟨hmem, hne, hhead⟩,
            (fits_lowerAscii_iff hname).2 hnamed⟩
    · simp only [negated, List.forall_mem_map, List.mem_filter, beq_iff_eq, and_imp]
      refine forall₃_congr fun entry hentry _ => not_congr ?_
      exact fits_lowerAscii_iff (hnames entry hentry)

/-! ### Lines -/

/-- The line is cosmetic, with this domain list in front of its first `##` and this selector
    behind it. -/
structure IsCosmetic (line domains selector : List Char) : Prop where
  text : line = domains ++ ['#', '#'] ++ selector
  first : ¬['#', '#'] <:+: domains ++ ['#']

theorem infix_trim (line : List Char) : trim line <:+: line :=
  (List.rdropWhile_prefix _ _).isInfix.trans (List.dropWhile_suffix _).isInfix

/-- A line that gives a hiding rule is cosmetic. -/
theorem exists_isCosmetic {shown : String} (h : ruleOfLine? excluded line = some r)
    (hhides : r.action = .hide shown) : ∃ domains selector, IsCosmetic line domains selector := by
  have hoccurs : ['#', '#'] <:+: trim line := by
    rw [ruleOfLine?] at h
    split at h
    · cases h
    · rw [ruleOfTrimmed?] at h
      split at h
      · cases h
      · split at h
        · next hcut => exact ⟨_, _, cut?_append hcut⟩
        · split at h
          · cases h
          · exact absurd (hhides.symm.trans (action_of_networkRule? h)) (by simp)
  have hcuts := occursIn_iff.2 (hoccurs.trans (infix_trim line))
  obtain ⟨⟨domains, selector⟩, hcut⟩ := Option.isSome_iff_exists.1 hcuts
  obtain ⟨htext, hfirst⟩ := (cut?_eq_some_iff (List.cons_ne_nil _ _)).1 hcut
  exact ⟨domains, selector, htext, hfirst⟩

/-- The white space at the ends of a line is also at the outer ends of its parts. -/
theorem IsCosmetic.cut?_trim (h : IsCosmetic line domains selector) :
    cut? ['#', '#'] (trim line) =
      some (domains.dropWhile isBlank, trimEndBy isBlank selector) := by
  refine (cut?_eq_some_iff (List.cons_ne_nil _ _)).2 ⟨?_, fun hoccurs => h.first ?_⟩
  · rw [h.text]
    exact trimBy_append_append (List.cons_ne_nil _ _) fun c hc =>
      Bool.eq_false_iff.2 (List.any_eq_false.1 (by decide) c hc)
  · obtain ⟨before, hbefore⟩ := List.dropWhile_suffix (l := domains) isBlank
    rw [← hbefore, List.append_assoc]
    exact hoccurs.trans (List.suffix_append _ _).isInfix

/-- The rule of a cosmetic line. -/
theorem IsCosmetic.rule_eq (hparts : IsCosmetic line domains selector)
    (h : ruleOfLine? excluded line = some r) :
    r = ⟨hidingTrigger domains, .hide (String.ofList (trim selector))⟩ := by
  have hdomains : domainEntries (domains.dropWhile isBlank) = domainEntries domains := by
    rw [domainEntries, domainEntries, trim, trim, trimBy_dropWhile]
  have hselector : trim (trimEndBy isBlank selector) = trim selector := trimBy_trimEndBy _ _
  rw [ruleOfLine?] at h
  split at h
  · cases h
  · rw [ruleOfTrimmed?, hparts.cut?_trim] at h
    split at h
    · cases h
    · dsimp only at h
      rw [cosmeticRule?, hdomains, hselector] at h
      dsimp only at h
      split at h
      · cases h
      · exact (Option.some.inj h).symm

/-! ### What the rule does -/

/-- A line that gives a hiding rule is cosmetic, and whatever its parts are, the matcher of that
    rule blocks nothing and hides on a page what the selector describes if the domain list means
    the page, and else nothing. Here the list has no entries with a star in front. -/
theorem hides_iff_isShownOn {shown : String} (h : ruleOfLine? excluded line = some r)
    (hhides : r.action = .hide shown) :
    (∃ domains selector, IsCosmetic line domains selector) ∧
    ∀ domains selector, IsCosmetic line domains selector → HasNoStars domains →
      ∃ m, Matcher.ofRules [r] = .ok m ∧ ∀ q : Request,
        (m.verdict q).decision = .allow ∧ (m.verdict q).https = false ∧
        ((m.verdict q).hidden = [String.ofList (trim selector)] ↔
          IsShownOn domains q.pageHost) ∧
        (¬IsShownOn domains q.pageHost → (m.verdict q).hidden = []) := by
  refine ⟨exists_isCosmetic h hhides, fun domains selector hparts hstars => ?_⟩
  obtain rfl := hparts.rule_eq h
  refine ⟨_, Matcher.ofRules_eq_ok (List.forall_mem_singleton.2 (isGood_of_ruleOfLine? h).compiles),
    fun q => ?_⟩
  have happlies : (CompiledRule.ofRule ⟨hidingTrigger domains,
      .hide (String.ofList (trim selector))⟩).applies q = true ↔ IsShownOn domains q.pageHost := by
    have hfinds : finds Regex.anything q.url = true := Regex.search_of_nullable rfl
    rw [CompiledRule.applies_ofRule compile?_anything, hfinds, Bool.and_true]
    exact admits_iff_isShownOn hstars q
  rw [List.map_singleton, Matcher.verdict, Matcher.verdictFrom, Matcher.verdictFrom]
  split
  · next hshown => exact ⟨rfl, rfl, iff_of_true rfl (happlies.1 hshown), fun hnot =>
      absurd (happlies.1 hshown) hnot⟩
  · next hnot => exact ⟨rfl, rfl, iff_of_false (List.cons_ne_nil _ _).symm (mt happlies.2 hnot),
      fun _ => rfl⟩

/-- A page whose host is spelled in other letters than in the list, and a subdomain of it, which
    the list does not mean. -/
theorem hides_iff_isShownOn_spelled :
    let line := " Shop.ORG, news.example ,~old.shop.org,~ x ##  .ad#top ".toList
    let page (host : String) : Request := ⟨"https://shop.org/", host, .ofList [.document]⟩
    ∃ r m, ruleOfLine? [] line = some r ∧ r.action = .hide ".ad#top" ∧
      Matcher.ofRules [r] = .ok m ∧
      (m.verdict (page "shop.Org.")).hidden = [".ad#top"] ∧
      (m.verdict (page "www.shop.org")).hidden = [] := by
  intro line page
  have hrule : (ruleOfLine? [] line).map (·.action) = some (.hide ".ad#top") := by decide +kernel
  obtain ⟨r, hr, hhides⟩ := Option.map_eq_some_iff.1 hrule
  let domains := " Shop.ORG, news.example ,~old.shop.org,~ x ".toList
  let selector := "  .ad#top ".toList
  have hparts : IsCosmetic line domains selector := ⟨by decide +kernel, by decide +kernel⟩
  have hentries : listEntries domains = ["Shop.ORG".toList, "news.example".toList,
      "~old.shop.org".toList, "~ x".toList] := by
    decide +kernel
  have hstars : HasNoStars domains := .inr (by rw [hentries]; decide +kernel)
  obtain ⟨-, hall⟩ := hides_iff_isShownOn hr hhides
  obtain ⟨m, hm, hverdict⟩ := hall domains selector hparts hstars
  have hselector : String.ofList (trim selector) = ".ad#top" := by decide +kernel
  rw [hselector] at hverdict
  obtain ⟨-, -, hshown, -⟩ := hverdict (page "shop.Org.")
  obtain ⟨-, -, -, hnot⟩ := hverdict (page "www.shop.org")
  exact ⟨r, m, hr, hhides, hm, hshown.2 (by decide +kernel), hnot (by decide +kernel)⟩

end FilterText

end ContentBlocking
