import ContentBlocking.Proofs.Host
import ContentBlocking.Statistics
import ContentBlocking.Whitelist

/-!
# Hosts and the domains above them

A domain stands at the end of a host after whole labels. The normal form of a host may lose
the dots around it and a leading `www.`, and what is compared with a domain may lose the dots
behind it and a leading `www.`. What one of them loses and the other keeps are whole labels,
in which no domain in normal form begins. So both end in the same domains.

* `Host.EndsIn`: a text ends in a domain after whole labels;
* `isWithinChars_iff_endsIn`: hosts are compared with domains in this way;
* `endsIn_withoutWww_iff`, `endsIn_dots_iff`: what may be lost in front of a domain;
* `isWithinChars_iff`: a host belongs to the domains in which its normal form ends;
* `isWithinChars_of_endsIn`: this holds too if the domain is no normal form of itself;
* `hosts_sorted_alike`: the whitelist, the entries of rules and the statistics sort hosts by
  their normal forms.
-/

namespace ContentBlocking

open Text

namespace Host

variable {host domain s t : List Char}

/-! ### Whole labels -/

/-- What precedes a domain is nothing, or ends in a dot. -/
def EndsLabel (before : List Char) : Prop := ∀ c ∈ before.getLast?, c = '.'

theorem EndsLabel.append (hs : EndsLabel s) (ht : EndsLabel t) : EndsLabel (s ++ t) := by
  intro c hc
  rw [List.getLast?_append] at hc
  cases hlast : t.getLast? with
  | none =>
    rw [hlast] at hc
    exact hs c hc
  | some d =>
    rw [hlast] at hc
    exact ht c (hlast.trans hc)

theorem EndsLabel.of_append (h : EndsLabel (s ++ t)) : EndsLabel t := by
  intro c hc
  refine h c ?_
  rw [List.getLast?_append, hc]
  rfl

theorem endsLabel_www : EndsLabel www := by simp [EndsLabel, www]

theorem EndsLabel.lowerAscii (h : EndsLabel s) : EndsLabel (lowerAscii s) := by
  intro c hc
  rw [Text.lowerAscii, List.getLast?_map] at hc
  obtain ⟨d, hd, rfl⟩ := Option.map_eq_some_iff.1 hc
  rw [h d hd]
  rfl

theorem endsLabel_of_lowerAscii (h : EndsLabel (lowerAscii s)) : EndsLabel s := by
  intro c hc
  refine eq_dot_of_toLower_eq (h _ ?_)
  rw [lowerAscii, List.getLast?_map, hc]
  rfl

/-- The text ends in the domain, and what precedes that are whole labels. -/
def EndsIn (s domain : List Char) : Prop := ∃ before, s = before ++ domain ∧ EndsLabel before

/-- A text that ends in a domain is the domain, or has a dot in front of it. -/
theorem endsIn_iff : EndsIn s domain ↔ s = domain ∨ ∃ labels, s = labels ++ '.' :: domain := by
  constructor
  · rintro ⟨before, rfl, hbefore⟩
    rcases before.eq_nil_or_concat with rfl | ⟨labels, c, rfl⟩
    · exact .inl rfl
    · obtain rfl := hbefore c (by simp)
      exact .inr ⟨labels, by simp⟩
  · rintro (rfl | ⟨labels, rfl⟩)
    · exact ⟨[], rfl, nofun⟩
    · exact ⟨labels ++ ['.'], by simp, fun c hc => by simpa using hc.symm⟩

theorem EndsIn.append (hs : EndsLabel s) (h : EndsIn t domain) : EndsIn (s ++ t) domain := by
  obtain ⟨before, rfl, hbefore⟩ := h
  exact ⟨s ++ before, (List.append_assoc _ _ _).symm, hs.append hbefore⟩

/-- Whole labels may be lost in front of a domain that begins in none of them. -/
theorem endsIn_append_iff (hs : EndsLabel s)
    (hnot : ∀ before rest, s = before ++ rest → EndsLabel before → rest <+: domain → rest = []) :
    EndsIn (s ++ t) domain ↔ EndsIn t domain := by
  refine ⟨fun ⟨before, hsplit, hbefore⟩ => ?_, EndsIn.append hs⟩
  rcases List.append_eq_append_iff.1 hsplit with ⟨more, rfl, rfl⟩ | ⟨rest, rfl, rfl⟩
  · exact ⟨more, rfl, hbefore.of_append⟩
  · obtain rfl := hnot before rest rfl hbefore (List.prefix_append rest t)
    exact ⟨[], rfl, nofun⟩

/-! ### Hosts that end in a domain -/

theorem dropWww_eq (s : List Char) : dropWww s = if www <+: lowerAscii s then s.drop 4 else s := by
  have hiff : eqIgnoringCase (s.take 4) ['w', 'w', 'w', '.'] = true ↔ www <+: lowerAscii s := by
    rw [List.prefix_iff_eq_take, eqIgnoringCase, lowerAscii, List.map_take, beq_iff_eq, eq_comm]
    rfl
  rw [dropWww]
  exact if_congr hiff rfl rfl

/-- A host belongs to a domain if it ends in the domain after whole labels, apart from the
    dots behind it and a leading `www.`. -/
theorem isWithinChars_iff_endsIn : isWithinChars host domain = true ↔
    EndsIn (lowerAscii (dropWww (trimEndBy (· == '.') host))) (lowerAscii domain) := by
  rw [isWithinChars]
  generalize dropWww (trimEndBy (· == '.') host) = s
  rw [Bool.and_eq_true, Bool.and_eq_true, decide_eq_true_iff, eqIgnoringCase, beq_iff_eq]
  constructor
  · rintro ⟨⟨hlength, heq⟩, hlabel⟩
    refine ⟨lowerAscii (s.take (s.length - domain.length)), ?_, EndsLabel.lowerAscii ?_⟩
    · rw [← heq, lowerAscii, lowerAscii, lowerAscii, ← List.map_append, List.take_append_drop]
    · rintro c hc
      rw [Bool.or_eq_true, beq_iff_eq, beq_iff_eq, hc] at hlabel
      rcases hlabel with hzero | hdot
      · rw [hzero] at hc
        cases hc
      · exact Option.some.inj hdot
  · rintro ⟨before, hsplit, hbefore⟩
    obtain ⟨labels, after, rfl, rfl, hafter⟩ := List.map_eq_append_iff.1 hsplit
    have hlength : after.length = domain.length := by
      simpa [lowerAscii] using congrArg List.length hafter
    have hstart : (labels ++ after).length - domain.length = labels.length := by
      rw [List.length_append, hlength, Nat.add_sub_cancel]
    have hlabels : EndsLabel labels := endsLabel_of_lowerAscii hbefore
    rw [hstart, List.drop_left, List.take_left]
    refine ⟨⟨by simp [hlength], hafter⟩, ?_⟩
    cases hlast : labels.getLast? with
    | none => simp [List.getLast?_eq_none_iff.1 hlast]
    | some c => simp [hlabels c hlast]

/-! ### What may be lost in front of a domain -/

/-- The text without a leading `www.`. -/
def withoutWww (s : List Char) : List Char := (dropLead? www s).getD s

theorem exists_append_withoutWww (s : List Char) :
    ∃ lost, EndsLabel lost ∧ s = lost ++ withoutWww s := by
  rw [withoutWww]
  cases hlead : dropLead? www s with
  | none => exact ⟨[], nofun, rfl⟩
  | some rest => exact ⟨www, endsLabel_www, dropLead?_eq_some_iff.1 hlead⟩

theorem lowerAscii_dropWww (s : List Char) :
    lowerAscii (dropWww s) = withoutWww (lowerAscii s) := by
  rw [dropWww_eq, withoutWww]
  split
  · next hwww =>
    obtain ⟨rest, hrest⟩ := hwww
    rw [dropLead?_eq_some_iff.2 hrest.symm, lowerAscii, List.map_drop, ← lowerAscii, ← hrest]
    rfl
  · next hno =>
    have hnone : dropLead? www (lowerAscii s) = none := by
      rw [Option.eq_none_iff_forall_not_mem]
      exact fun rest hrest => hno ⟨rest, (dropLead?_eq_some_iff.1 hrest).symm⟩
    rw [hnone]
    rfl

theorem endsIn_withoutWww_iff (hwww : ¬www <+: domain) :
    EndsIn (withoutWww s) domain ↔ EndsIn s domain := by
  rw [withoutWww]
  cases hlead : dropLead? www s with
  | none => exact Iff.rfl
  | some rest =>
    rw [dropLead?_eq_some_iff.1 hlead, Option.getD_some]
    refine (endsIn_append_iff endsLabel_www fun before more hsplit hbefore hmore => ?_).symm
    rcases before.eq_nil_or_concat with rfl | ⟨labels, c, rfl⟩
    · exact absurd (hsplit ▸ hmore) hwww
    · -- No label ends within `www`.
      obtain rfl := hbefore c (by simp)
      by_contra hne
      have hdot : '.' ∈ www.dropLast := by
        rw [hsplit, List.dropLast_append_of_ne_nil hne]
        simp
      exact absurd hdot (by decide)

theorem endsIn_dots_iff {dots : List Char} (hdots : ∀ c ∈ dots, c = '.')
    (hhead : domain.head? ≠ some '.') : EndsIn (dots ++ s) domain ↔ EndsIn s domain := by
  refine endsIn_append_iff (fun c hc => hdots c (List.mem_of_mem_getLast? hc))
    fun before rest hsplit _ hrest => ?_
  cases rest with
  | nil => rfl
  | cons c rest =>
    obtain rfl := hdots c (hsplit ▸ List.mem_append_right before List.mem_cons_self)
    obtain ⟨more, rfl⟩ := hrest
    exact absurd rfl hhead

/-! ### Hosts and their normal forms -/

theorem eq_of_domainChars? (h : domainChars? host = some domain) :
    trimBy (· == '.') (trim host) ≠ [] ∧
      domain = withoutWww (lowerAscii (trimBy (· == '.') (trim host))) := by
  rw [domainChars?] at h
  dsimp only at h
  generalize trimBy (· == '.') (trim host) = trimmed at h ⊢
  split at h
  · split at h
    · cases h
    · next hgood =>
      obtain rfl := Option.some.inj h
      refine ⟨fun hnil => ?_, rfl⟩
      subst hnil
      exact hgood rfl
  · cases h

/-- A host without strange characters loses the dots behind it and a leading `www.`, and its
    normal form lacks the dots in front of it besides. -/
theorem exists_dots_of_domainChars? (hplain : ∀ c ∈ host, isDomainChar c = true)
    (h : domainChars? host = some domain) : ∃ dots lower, (∀ c ∈ dots, c = '.') ∧
      domain = withoutWww lower ∧
      lowerAscii (dropWww (trimEndBy (· == '.') host)) = withoutWww (dots ++ lower) := by
  have htrim : trim host = host :=
    (isTrimmed_of_forall_mem fun c hc => isBlank_of_isDomainChar (hplain c hc)).trimBy_eq
  obtain ⟨hne, hdomain⟩ := eq_of_domainChars? h
  rw [htrim] at hne hdomain
  have hdots : ∀ c ∈ host.takeWhile (· == '.'), c = '.' := by
    intro c hc
    have hdot := List.mem_takeWhile_imp hc
    exact eq_of_beq hdot
  have hlower : lowerAscii (host.takeWhile (· == '.')) = host.takeWhile (· == '.') :=
    (List.map_congr_left fun c hc => by rw [hdots c hc]; rfl).trans (List.map_id' _)
  have hsplit : trimEndBy (· == '.') host =
      host.takeWhile (· == '.') ++ trimBy (· == '.') host := by
    rw [trimBy, ← trimEndBy_append hne, List.takeWhile_append_dropWhile]
  refine ⟨_, _, hdots, hdomain, ?_⟩
  rw [lowerAscii_dropWww, hsplit]
  refine congrArg withoutWww ?_
  rw [lowerAscii, List.map_append, ← lowerAscii, ← lowerAscii, hlower]

/-- A host without strange characters belongs to the domains in which its normal form
    ends. -/
theorem isWithinChars_of_endsIn (hplain : ∀ c ∈ host, isDomainChar c = true)
    (h : domainChars? host = some s) (hends : EndsIn s (lowerAscii domain)) :
    isWithinChars host domain = true := by
  obtain ⟨dots, lower, hdots, rfl, hhost⟩ := exists_dots_of_domainChars? hplain h
  rw [isWithinChars_iff_endsIn, hhost]
  cases dots with
  | nil => exact hends
  | cons c dots =>
    -- What begins with a dot does not begin with `www.`.
    obtain rfl := hdots c List.mem_cons_self
    have hsame : withoutWww ('.' :: dots ++ lower) = '.' :: dots ++ lower := rfl
    obtain ⟨lost, hlost, hlower⟩ := exists_append_withoutWww lower
    rw [hsame, hlower]
    exact .append (fun c hc => hdots c (List.mem_of_mem_getLast? hc)) (.append hlost hends)

/-- The text is the normal form of itself. -/
def IsNormal (domain : List Char) : Prop := domainChars? domain = some domain

instance : DecidablePred IsNormal := fun _ => inferInstanceAs (Decidable (_ = _))

theorem IsNormal.isDomain (h : IsNormal domain) : IsDomain domain := isDomain_of_domainChars? h

theorem IsNormal.not_www (h : IsNormal domain) : ¬www <+: domain := by
  rintro ⟨rest, rfl⟩
  have hsame := h.symm.trans h.isDomain.domainChars?_eq
  rw [dropLead?_eq_some_iff.2 rfl] at hsame
  have hlength := congrArg List.length (Option.some.inj hsame)
  rw [List.length_append] at hlength
  exact absurd hlength (by simp [www])

/-- A host without strange characters belongs to the domains in normal form in which its own
    normal form ends, and to no others. -/
theorem isWithinChars_iff (hplain : ∀ c ∈ host, isDomainChar c = true)
    (h : domainChars? host = some s) (hdomain : IsNormal domain) :
    isWithinChars host domain = true ↔ EndsIn s domain := by
  obtain ⟨dots, lower, hdots, rfl, hhost⟩ := exists_dots_of_domainChars? hplain h
  have hhead : domain.head? ≠ some '.' := fun hdot => nomatch hdomain.isDomain.outer.head '.' hdot
  rw [isWithinChars_iff_endsIn, hhost, hdomain.isDomain.lowerAscii_eq,
    endsIn_withoutWww_iff hdomain.not_www, endsIn_dots_iff hdots hhead,
    endsIn_withoutWww_iff hdomain.not_www]

/-! ### The sorting of hosts -/

variable {h n d : String}

/-- The first domain is the second one, or ends in it after a dot. -/
def IsUnder (n d : String) : Prop := n = d ∨ ∃ labels, n = labels ++ "." ++ d

theorem isUnder_iff_endsIn : IsUnder n d ↔ EndsIn n.toList d.toList := by
  rw [IsUnder, endsIn_iff, String.toList_inj]
  refine or_congr_right ⟨?_, ?_⟩
  · rintro ⟨labels, rfl⟩
    exact ⟨labels.toList, by simp⟩
  · rintro ⟨labels, hn⟩
    refine ⟨String.ofList labels, String.toList_inj.1 ?_⟩
    simp [hn]

theorem domainChars?_of_domain? (hn : domain? h = some n) :
    domainChars? h.toList = some n.toList := by
  obtain ⟨chars, hchars, rfl⟩ := Option.map_eq_some_iff.1 hn
  rw [hchars, String.toList_ofList]

theorem isWithin_iff_isUnder (hplain : ∀ c ∈ h.toList, isDomainChar c = true)
    (hn : domain? h = some n) (hd : domain? d = some d) :
    isWithin h d = true ↔ IsUnder n d := by
  rw [isWithin, isUnder_iff_endsIn]
  exact isWithinChars_iff hplain (domainChars?_of_domain? hn) (domainChars?_of_domain? hd)

theorem fits_star (host domain : String) : fits host ("*" ++ domain) = isWithin host domain := by
  rw [fits, String.toList_append]
  rfl

end Host

/-- A host of letters, digits, dots and hyphens that has a normal form belongs to a domain in
    normal form if and only if the normal form of the host is that domain or ends in it after a
    dot. In this way it is sorted by an entry for the domain and its subdomains and by every
    whitelist of domains in normal form, which covers its URLs then, and a blocked request to
    such a URL is counted for that normal form, in every build. -/
theorem hosts_sorted_alike {h n : String} (hplain : ∀ c ∈ h.toList, Host.isDomainChar c = true)
    (hn : Host.domain? h = some n) :
    (∀ d, Host.domain? d = some d →
      (Host.isWithin h d = true ↔ Host.IsUnder n d) ∧
      (Host.fits h ("*" ++ d) = true ↔ Host.IsUnder n d)) ∧
    (∀ w : Whitelist, (∀ d ∈ w.domains, Host.domain? d = some d) →
      (w.coversHost h = true ↔ ∃ d ∈ w.domains, Host.IsUnder n d)) ∧
    ∀ url, Host.ofUrl? url = some h → (∀ w : Whitelist, w.coversUrl url = w.coversHost h) ∧
      ∀ counts : Table String UInt64,
        let count := (counts.get? n).getD 0
        (StatisticsTracker.countDomain .wrapping counts url).run = counts.set n (count + 1) ∧
          StatisticsTracker.countDomain .checked counts url =
            if count.toNat + 1 < UInt64.size then some (counts.set n (count + 1)) else none := by
  refine ⟨fun d hd => ?_, fun w hw => ?_, fun url hurl => ⟨fun w => ?_, fun counts => ?_⟩⟩
  · rw [Host.fits_star]
    exact ⟨Host.isWithin_iff_isUnder hplain hn hd, Host.isWithin_iff_isUnder hplain hn hd⟩
  · rw [Whitelist.coversHost, List.any_eq_true]
    exact exists_congr fun d => and_congr_right fun hd =>
      Host.isWithin_iff_isUnder hplain hn (hw d hd)
  · rw [Whitelist.coversUrl, hurl, Option.any_some]
  · have hdomain : Host.domainOfUrl? url = some n := by
      rw [Host.domainOfUrl?, hurl, Option.bind_some, hn]
    intro count
    rw [StatisticsTracker.countDomain, StatisticsTracker.countDomain, hdomain]
    refine ⟨rfl, ?_⟩
    show (if count.toNat + 1 < UInt64.size then some (count + 1) else none).bind
      (fun next => some (counts.set n next)) = _
    split <;> rfl

/-- The host has dots in front, which only its normal form lacks, and `www` twice. -/
theorem hosts_sorted_alike_www :
    let h := ".WWW.www.Example.com."
    let w : Whitelist := ⟨["com.example", "example.com"]⟩
    let url := "https://me@" ++ h ++ ":8443/pixel.gif"
    (∀ c ∈ h.toList, Host.isDomainChar c = true) ∧
      Host.domain? h = some "www.example.com" ∧ Host.domain? "example.com" = some "example.com" ∧
      Host.isWithin h "example.com" = true ∧ w.coversUrl url = true ∧
      (StatisticsTracker.countDomain .wrapping [("www.example.com", 2)] url).run =
        [("www.example.com", 3)] ∧
      StatisticsTracker.countDomain .checked [("www.example.com", 2)] url =
        some [("www.example.com", 3)] := by
  intro h w url
  have hplain : ∀ c ∈ h.toList, Host.isDomainChar c = true :=
    List.all_eq_true.1 (by decide +kernel)
  have hn : Host.domain? h = some "www.example.com" := by decide +kernel
  have hd : Host.domain? "example.com" = some "example.com" := by decide +kernel
  have hunder : Host.IsUnder "www.example.com" "example.com" := .inr ⟨"www", by decide +kernel⟩
  obtain ⟨hdomains, hwhitelist, hcounts⟩ := hosts_sorted_alike hplain hn
  have hw : ∀ d ∈ w.domains, Host.domain? d = some d := by decide +kernel
  obtain ⟨hcovers, hcounted⟩ := hcounts url (by decide +kernel)
  exact ⟨hplain, hn, hd, (hdomains _ hd).1.2 hunder,
    (hcovers w).trans ((hwhitelist w hw).2 ⟨"example.com", by decide +kernel, hunder⟩),
    (hcounted _).1.trans (by decide +kernel), (hcounted _).2.trans (by decide +kernel)⟩

end ContentBlocking
