import ContentBlocking.Proofs.Authorities
import ContentBlocking.Proofs.Subdomains
import ContentBlocking.Proofs.Whitelist

/-!
# Entries with more than a host

The user names a domain by a host, which may stand behind a scheme and may be followed by a
port and by a path, a query or a fragment. If a `://` is in the entry, it is read as a URL
whose host stands behind the first one. So it does not matter what follows the host of an
entry with a scheme. An entry without a scheme may have a `://` behind its host, and then that
is not the host that it names.

* `Host.IsPort`: the port that may follow a host;
* `Whitelist.hostChars?_of_cut`, `hostChars?_of_cut_eq_none`: the two ways to read an entry;
* `domainOf_host_iff`: when an entry names the domain of the host that it begins with;
* `not_forall_domainOf_host`: an entry that names the host of another URL in its query.
-/

namespace ContentBlocking

open Text

/-! ### What follows a host -/

namespace Host

variable {host port : List Char} {c : Char}

/-- The text is a port behind its colon, or nothing. -/
def IsPort (port : List Char) : Prop :=
  port = [] ∨ ∃ digits, port = ':' :: digits ∧ ∀ c ∈ digits, c.isDigit = true

theorem isDomainChar_of_isDigit (h : c.isDigit = true) : isDomainChar c = true := by
  simp [isDomainChar, isAlphanumeric, Char.isAlphanum, h]

theorem IsPort.head?_eq (h : IsPort port) : ∀ c ∈ port.head?, c = ':' := by
  rcases h with rfl | ⟨digits, rfl, -⟩
  · simp
  · exact fun c hc => (Option.some.inj hc).symm

/-- A port stays within its authority, and ends no user information. -/
theorem IsPort.of_mem (h : IsPort port) (hc : c ∈ port) :
    c ≠ '@' ∧ endsAuthority c = false ∧ isBlank c = false := by
  rcases h with rfl | ⟨digits, rfl, hdigits⟩
  · cases hc
  · rcases List.mem_cons.1 hc with rfl | hc
    · decide
    · have hplain := isDomainChar_of_isDigit (hdigits c hc)
      obtain ⟨hat, -, -, hends⟩ := delimits_nothing_of_isDomainChar hplain
      exact ⟨hat, hends, isBlank_of_isDomainChar hplain⟩

/-- The host of an authority without user information ends in front of the port. -/
theorem ofAuthority?_append (hne : host ≠ []) (hplain : ∀ c ∈ host, isDomainChar c = true)
    (hport : IsPort port) : ofAuthority? (host ++ port) = some host := by
  have hat : '@' ∉ host ++ port := fun hmem => by
    rcases List.mem_append.1 hmem with hc | hc
    · exact (delimits_nothing_of_isDomainChar (hplain _ hc)).1 rfl
    · exact (hport.of_mem hc).1 rfl
  have hhost : upTo (· == ':') (host ++ port) = host :=
    upTo_append (fun c hc => beq_false_of_ne (delimits_nothing_of_isDomainChar (hplain c hc)).2.2.1)
      fun c hc => beq_iff_eq.2 (hport.head?_eq c hc)
  obtain ⟨c, rest, rfl⟩ := List.exists_cons_of_ne_nil hne
  have hbracket : c ≠ '[' := (delimits_nothing_of_isDomainChar (hplain c List.mem_cons_self)).2.1
  rw [ofAuthority?, cutLast?_of_not_mem hat]
  rw [List.cons_append] at hhost
  simp [hbracket, hhost]

end Host

namespace Whitelist

variable {entry host port tail before after : List Char} {p : Char → Bool}

/-! ### The host of an entry -/

/-- If a `://` is in an entry, only what is behind the first one counts. -/
theorem hostChars?_of_cut (hhead : ∀ c ∈ entry.head?, isBlank c = false)
    (hcut : cut? [':', '/', '/'] entry = some (before, after)) :
    hostChars? entry =
      Host.ofAuthority? (upTo Host.endsAuthority (trimEndBy isBlank after)) := by
  have htrim : cut? [':', '/', '/'] (trim entry) = some (before, trimEndBy isBlank after) := by
    obtain ⟨rfl, hfirst⟩ := (cut?_eq_some_iff (List.cons_ne_nil _ _)).1 hcut
    refine (cut?_eq_some_iff (List.cons_ne_nil _ _)).2 ⟨?_, hfirst⟩
    rw [trim, trimBy_of_head? hhead]
    refine trimEndBy_append_of_getLast? fun c hc => ?_
    obtain rfl : c = '/' := by simpa using hc.symm
    decide
  have hscheme : occursIn [':', '/', '/'] (trim entry) = true := by
    rw [occursIn, htrim, Option.isSome_some]
  rw [hostChars?, if_pos hscheme, Host.ofUrlChars?, Host.authority?, htrim, Option.map_some,
    Option.bind_some]

/-- If none is, the host ends in front of a port or a tail. -/
theorem hostChars?_of_cut_eq_none (hhead : ∀ c ∈ entry.head?, isBlank c = false)
    (hcut : cut? [':', '/', '/'] entry = none) :
    hostChars? entry = some (upTo endsHost (trimEndBy isBlank entry)) := by
  have htrim : trim entry = trimEndBy isBlank entry := trimBy_of_head? hhead
  have hscheme : occursIn [':', '/', '/'] (trim entry) ≠ true := fun hoccurs => by
    rw [htrim] at hoccurs
    have hinfix : [':', '/', '/'] <:+: entry :=
      (occursIn_iff.1 hoccurs).trans (List.rdropWhile_prefix _ _).isInfix
    have hfound := occursIn_iff.2 hinfix
    rw [occursIn, hcut] at hfound
    cases hfound
  rw [hostChars?, if_neg hscheme, htrim]

/-- What ends a host is found even if nothing but white space follows it. -/
theorem upTo_trimEndBy_append (hhost : ∀ c ∈ host, p c = false ∧ isBlank c = false)
    (htail : ∀ c ∈ tail.head?, p c = true) :
    upTo p (trimEndBy isBlank (host ++ tail)) = host := by
  rw [trimEndBy_append_of_getLast? fun c hc => (hhost c (List.mem_of_mem_getLast? hc)).2]
  refine upTo_append (fun c hc => (hhost c hc).1) fun c hc => htail c ?_
  obtain ⟨rest, hrest⟩ : trimEndBy isBlank tail <+: tail := List.rdropWhile_prefix _ _
  rw [← hrest, List.head?_append, hc]
  rfl

section

variable (hne : host ≠ []) (hplain : ∀ c ∈ host, Host.isDomainChar c = true)

include hne hplain

theorem isBlank_of_mem_head?_append {rest : List Char} :
    ∀ c ∈ (host ++ rest).head?, isBlank c = false := by
  obtain ⟨d, more, rfl⟩ := List.exists_cons_of_ne_nil hne
  intro c hc
  obtain rfl : d = c := Option.some.inj hc
  exact Host.isBlank_of_isDomainChar (hplain d List.mem_cons_self)

/-- Behind a scheme the host is found whatever follows it. -/
theorem hostChars?_of_scheme {scheme : List Char} (hport : Host.IsPort port)
    (htail : Host.IsTail tail) (hscheme : ∀ c ∈ scheme, c ≠ ':' ∧ isBlank c = false) :
    hostChars? (scheme ++ ':' :: '/' :: '/' :: (host ++ port ++ tail)) = some host := by
  have hcut : cut? [':', '/', '/'] (scheme ++ ':' :: '/' :: '/' :: (host ++ port ++ tail)) =
      some (scheme, host ++ port ++ tail) := by
    have hcolon : ':' ∉ scheme := fun hmem => (hscheme _ hmem).1 rfl
    rw [cut?_append_of_not_mem hcolon]
    exact congrArg (fun s => some (s, host ++ port ++ tail)) (List.append_nil scheme)
  have hhead : ∀ c ∈ (scheme ++ ':' :: '/' :: '/' :: (host ++ port ++ tail)).head?,
      isBlank c = false := by
    cases scheme with
    | nil => exact fun c hc => Option.some.inj hc ▸ by decide
    | cons d scheme => exact fun c hc => Option.some.inj hc ▸ (hscheme d List.mem_cons_self).2
  have hauthority : ∀ c ∈ host ++ port, Host.endsAuthority c = false ∧ isBlank c = false := by
    intro c hc
    rcases List.mem_append.1 hc with hc | hc
    · exact ⟨(Host.delimits_nothing_of_isDomainChar (hplain c hc)).2.2.2,
        Host.isBlank_of_isDomainChar (hplain c hc)⟩
    · exact (hport.of_mem hc).2
  rw [hostChars?_of_cut hhead hcut, upTo_trimEndBy_append hauthority htail,
    Host.ofAuthority?_append hne hplain hport]

/-- Without a scheme it is found if no `://` follows it. -/
theorem hostChars?_append_of_cut_eq_none (hport : Host.IsPort port) (htail : Host.IsTail tail)
    (hcut : cut? [':', '/', '/'] (port ++ tail) = none) :
    hostChars? (host ++ (port ++ tail)) = some host := by
  have hcolon : ':' ∉ host := fun hmem =>
    (Host.delimits_nothing_of_isDomainChar (hplain _ hmem)).2.2.1 rfl
  have hnone : cut? [':', '/', '/'] (host ++ (port ++ tail)) = none := by
    rw [cut?_append_of_not_mem hcolon, hcut, Option.map_none]
  have hends : ∀ c ∈ (port ++ tail).head?, endsHost c = true := by
    intro c hc
    rw [List.head?_append] at hc
    rcases Option.or_eq_some_iff.1 hc with hc | ⟨-, hc⟩
    · rw [hport.head?_eq c hc]
      rfl
    · rw [endsHost, htail c hc, Bool.true_or]
  rw [hostChars?_of_cut_eq_none (isBlank_of_mem_head?_append hne hplain) hnone,
    upTo_trimEndBy_append (fun c hc => ?_) hends]
  exact ⟨endsHost_of_isDomainChar (hplain c hc), Host.isBlank_of_isDomainChar (hplain c hc)⟩

/-- If a `://` follows it, the host behind that is found instead. -/
theorem hostChars?_append_of_cut {rest : List Char}
    (hcut : cut? [':', '/', '/'] rest = some (before, after)) :
    hostChars? (host ++ rest) = hostChars? (':' :: '/' :: '/' :: after) := by
  have hcolon : ':' ∉ host := fun hmem =>
    (Host.delimits_nothing_of_isDomainChar (hplain _ hmem)).2.2.1 rfl
  have hsome : cut? [':', '/', '/'] (host ++ rest) = some (host ++ before, after) := by
    rw [cut?_append_of_not_mem hcolon, hcut, Option.map_some]
  have hlead : cut? [':', '/', '/'] (':' :: '/' :: '/' :: after) = some ([], after) := rfl
  have hhead : ∀ c ∈ (':' :: '/' :: '/' :: after).head?, isBlank c = false :=
    fun c hc => Option.some.inj hc ▸ by decide
  rw [hostChars?_of_cut (isBlank_of_mem_head?_append hne hplain) hsome,
    hostChars?_of_cut hhead hlead]

end

/-! ### The domain of an entry -/

variable {h d port tail scheme : String}

theorem domainOf_eq_ok_iff {entry : String} :
    domainOf entry = .ok d ↔ domainChars? entry.toList = some d.toList := by
  refine ⟨domainChars?_of_domainOf, fun hchars => ?_⟩
  rw [domainOf, hchars]
  dsimp only
  rw [String.ofList_toList]

/-- An entry names the domain of its host. -/
theorem domainOf_of_hostChars? {entry : String} (hentry : hostChars? entry.toList = some h.toList)
    (hd : Host.domain? h = some d) (hdot : '.' ∈ d.toList) : domainOf entry = .ok d := by
  rw [domainOf_eq_ok_iff, domainChars?, hentry, Option.bind_some, Host.domainChars?_of_domain? hd]
  exact if_pos (List.contains_iff_mem.2 hdot)

/-- A host of letters, digits, dots and hyphens, whose normal form is a domain with a dot, may
    be followed by a port and by a path, a query or a fragment. Behind a scheme, in which there
    are no colons and no white space, it names the domain whatever follows. Without a scheme it
    does so if and only if no `://` follows, or what is behind the first one names the same
    domain as a URL. -/
theorem domainOf_host_iff (hplain : ∀ c ∈ h.toList, Host.isDomainChar c = true)
    (hd : Host.domain? h = some d) (hdot : '.' ∈ d.toList) (hport : Host.IsPort port.toList)
    (htail : Host.IsTail tail.toList)
    (hscheme : ∀ c ∈ scheme.toList, c ≠ ':' ∧ isBlank c = false) :
    domainOf (scheme ++ "://" ++ h ++ port ++ tail) = .ok d ∧
      (domainOf (h ++ port ++ tail) = .ok d ↔
        ∀ before after, cut? "://".toList (port ++ tail).toList = some (before, after) →
          domainOf ("://" ++ String.ofList after) = .ok d) := by
  have hne : h.toList ≠ [] := fun hnil => by
    have hchars := Host.domainChars?_of_domain? hd
    rw [hnil] at hchars
    exact (Host.eq_of_domainChars? hchars).1 rfl
  constructor
  · refine domainOf_of_hostChars? ?_ hd hdot
    have hentry := hostChars?_of_scheme hne hplain hport htail hscheme
    simpa using hentry
  · have hentry : (h ++ port ++ tail).toList = h.toList ++ (port.toList ++ tail.toList) := by simp
    rw [String.toList_append (s := port)]
    cases hcut : cut? "://".toList (port.toList ++ tail.toList) with
    | none =>
      refine iff_of_true (domainOf_of_hostChars? ?_ hd hdot) nofun
      rw [hentry]
      exact hostChars?_append_of_cut_eq_none hne hplain hport htail hcut
    | some parts =>
      obtain ⟨before, after⟩ := parts
      have hsame : domainChars? (h ++ port ++ tail).toList =
          domainChars? ("://" ++ String.ofList after).toList := by
        rw [domainChars?, domainChars?, hentry, hostChars?_append_of_cut hne hplain hcut]
        simp
      rw [domainOf_eq_ok_iff, hsame, ← domainOf_eq_ok_iff]
      constructor
      · rintro hok before' after' hparts
        obtain ⟨-, rfl⟩ := Prod.mk.inj (Option.some.inj hparts)
        exact hok
      · exact fun hall => hall before after rfl

/-- The query has another URL in it, which happens to be on the same domain. -/
theorem domainOf_host_iff_sameDomain :
    let h := "WWW.Shop.Example.com."
    let port := ":8443"
    let tail := "/login?next=https://www.shop.example.com/cart "
    (∀ c ∈ h.toList, Host.isDomainChar c = true) ∧ Host.domain? h = some "shop.example.com" ∧
      Host.IsPort port.toList ∧ Host.IsTail tail.toList ∧
      domainOf ("https" ++ "://" ++ h ++ port ++ tail) = .ok "shop.example.com" ∧
      domainOf (h ++ port ++ tail) = .ok "shop.example.com" := by
  intro h port tail
  have hplain : ∀ c ∈ h.toList, Host.isDomainChar c = true :=
    List.all_eq_true.1 (by decide +kernel)
  have hd : Host.domain? h = some "shop.example.com" := by decide +kernel
  have hport : Host.IsPort port.toList :=
    .inr ⟨"8443".toList, by decide +kernel, List.all_eq_true.1 (by decide +kernel)⟩
  have htail : Host.IsTail tail.toList := by decide +kernel
  have hletters : ∀ c ∈ "https".toList, Host.isDomainChar c = true :=
    List.all_eq_true.1 (by decide +kernel)
  have hscheme : ∀ c ∈ "https".toList, c ≠ ':' ∧ isBlank c = false := fun c hc =>
    ⟨(Host.delimits_nothing_of_isDomainChar (hletters c hc)).2.2.1,
      Host.isBlank_of_isDomainChar (hletters c hc)⟩
  obtain ⟨hurl, hbare⟩ := domainOf_host_iff hplain hd (by decide +kernel) hport htail hscheme
  refine ⟨hplain, hd, hport, htail, hurl, hbare.2 fun before after hcut => ?_⟩
  have hafter : cut? "://".toList (port ++ tail).toList =
      some (":8443/login?next=https".toList, "www.shop.example.com/cart ".toList) := by
    decide +kernel
  obtain ⟨-, rfl⟩ := Prod.mk.inj (Option.some.inj (hcut.symm.trans hafter))
  decide +kernel

/-- An entry without a scheme names another domain than that of its host if there is a URL in
    its query. -/
theorem not_forall_domainOf_host : ¬∀ h d port tail scheme : String,
    (∀ c ∈ h.toList, Host.isDomainChar c = true) → Host.domain? h = some d → '.' ∈ d.toList →
      Host.IsPort port.toList → Host.IsTail tail.toList →
      (∀ c ∈ scheme.toList, c.isAlpha = true) →
        domainOf (h ++ port ++ tail) = .ok d ∧
          domainOf (scheme ++ "://" ++ h ++ port ++ tail) = .ok d := by
  intro hall
  have hnamed := (hall "example.com" "example.com" "" "/?from=https://other.org/" "https"
    (List.all_eq_true.1 (by decide +kernel)) (by decide +kernel) (by decide +kernel) (.inl rfl)
    (by decide +kernel) (List.all_eq_true.1 (by decide +kernel))).1
  have hother : domainOf ("example.com" ++ "" ++ "/?from=https://other.org/") =
      .ok "other.org" := by
    decide +kernel
  exact absurd (hother.symm.trans hnamed) (by decide +kernel)

end Whitelist

end ContentBlocking
