import ContentBlocking.Proofs.Subdomains
import ContentBlocking.Proofs.Whitelist

/-!
# URLs on the whitelist

A URL that is put on the whitelist names a domain, and that domain is an entry once more.
What comes on the whitelist is the domain that it names as an entry, if it names one. The
URL is covered by that if its host, as it is read from the URL later, belongs to it.

* `Whitelist.coversUrl_iff`: which URLs are covered;
* `Whitelist.ReadsBack`, `readsBack_iff`: URLs that are covered by what comes on the
  whitelist for them.
-/

namespace ContentBlocking

open Text

namespace Whitelist

variable {w w' : Whitelist} {url d e : String}

/-! ### URLs that are covered -/

theorem coversUrl_iff : w.coversUrl url = true ↔
    ∃ host, Host.ofUrl? url = some host ∧ ∃ d ∈ w.domains, Host.isWithin host d = true := by
  rw [coversUrl]
  cases Host.ofUrl? url with
  | none => simp
  | some host => simp [coversHost]

/-- What is covered stays so as long as no domain goes. -/
theorem coversUrl_mono (h : w.domains ⊆ w'.domains) (hw : w.coversUrl url = true) :
    w'.coversUrl url = true := by
  obtain ⟨host, hhost, d, hd, hwithin⟩ := coversUrl_iff.1 hw
  exact coversUrl_iff.2 ⟨host, hhost, d, h hd, hwithin⟩

/-- The URL names a domain, and that names a domain to which the host of the URL
    belongs. -/
def ReadsBack (url : String) : Prop :=
  ∃ host d e, Host.ofUrl? url = some host ∧ domainOf url = .ok d ∧ domainOf d = .ok e ∧
    Host.isWithin host e = true

/-- There is no white space around the URL, and no strange character in its host. -/
structure IsPlain (url : String) : Prop where
  trimmed : IsTrimmed isBlank url.toList
  host : ∃ host, Host.ofUrlChars? url.toList = some host ∧ ∀ c ∈ host, Host.isDomainChar c = true

/-- The domain is a single label after `www.`. -/
def IsWwwLabel (d : String) : Prop := ∃ label, d.toList = Host.www ++ label ∧ '.' ∉ label

theorem toList_eq_of_domainOf (h : IsListed d) (he : domainOf d = .ok e) :
    d.toList = e.toList ∨ d.toList = Host.www ++ e.toList := by
  by_cases hwww : HasWww d
  · exact .inr (toList_of_domainOf h hwww he)
  · rw [domainOf_of_isListed h hwww] at he
    exact .inl (congrArg String.toList (Except.ok.inj he))

/-- A domain ends in the one that it names. -/
theorem endsIn_of_domainOf (h : IsListed d) (he : domainOf d = .ok e) :
    Host.EndsIn d.toList (lowerAscii e.toList) := by
  rw [(isListed_of_domainOf he).isDomain.lowerAscii_eq]
  rcases toList_eq_of_domainOf h he with hsame | hsame
  · exact ⟨[], hsame, nofun⟩
  · exact ⟨Host.www, hsame, Host.endsLabel_www⟩

/-- A domain names one, unless it is a single label after `www.`. -/
theorem exists_domainOf_iff (h : IsListed d) : (∃ e, domainOf d = .ok e) ↔ ¬IsWwwLabel d := by
  constructor
  · rintro ⟨e, he⟩ ⟨label, hd, hdot⟩
    have hsame := toList_of_domainOf h ⟨label, hd.symm⟩ he
    rw [hd] at hsame
    rw [List.append_cancel_left hsame] at hdot
    exact hdot (isListed_of_domainOf he).dot
  · intro hlabel
    by_cases hwww : HasWww d
    · obtain ⟨rest, hrest⟩ := hwww
      have hdot : '.' ∈ rest := by
        by_contra hno
        exact hlabel ⟨rest, hrest.symm, hno⟩
      have hchars : domainChars? d.toList = some rest := by
        rw [domainChars?_of_isListed h, dropLead?_eq_some_iff.2 hrest.symm, Option.getD_some]
        exact if_pos (List.contains_iff_mem.2 hdot)
      refine ⟨String.ofList rest, ?_⟩
      rw [domainOf, hchars]
    · exact ⟨d, domainOf_of_isListed h hwww⟩

/-- The host of a URL without outer white space is the one that it names as an entry. -/
theorem hostChars?_of_ofUrlChars? {url host : List Char} (h : IsTrimmed isBlank url)
    (hhost : Host.ofUrlChars? url = some host) : hostChars? url = some host := by
  have htrim : trim url = url := h.trimBy_eq
  have hscheme : occursIn [':', '/', '/'] url = true := by
    obtain ⟨authority, hauthority, -⟩ := Option.bind_eq_some_iff.1 hhost
    obtain ⟨parts, hcut, -⟩ := Option.map_eq_some_iff.1 hauthority
    rw [occursIn, hcut, Option.isSome_some]
  rw [hostChars?, htrim, if_pos hscheme, hhost]

/-- A URL is covered by what comes on the whitelist for it, unless its domain is a single
    label after `www.`. -/
theorem readsBack_iff (hplain : IsPlain url) (hd : domainOf url = .ok d) :
    ReadsBack url ↔ ¬IsWwwLabel d := by
  have hlisted := isListed_of_domainOf hd
  rw [← exists_domainOf_iff hlisted]
  constructor
  · rintro ⟨host, d', e, -, hd', he, -⟩
    obtain rfl := Except.ok.inj (hd.symm.trans hd')
    exact ⟨e, he⟩
  · rintro ⟨e, he⟩
    obtain ⟨host, hhost, hchars⟩ := hplain.host
    have hdomain := domainChars?_of_domainOf hd
    rw [domainChars?, hostChars?_of_ofUrlChars? hplain.trimmed hhost, Option.bind_some] at hdomain
    have hwithin := Host.isWithinChars_of_endsIn hchars (Option.filter_eq_some_iff.1 hdomain).1
      (endsIn_of_domainOf hlisted he)
    refine ⟨String.ofList host, d, e, ?_, hd, he, ?_⟩
    · rw [Host.ofUrl?, hhost, Option.map_some]
    · rw [Host.isWithin, String.toList_ofList]
      exact hwithin

end Whitelist

end ContentBlocking
