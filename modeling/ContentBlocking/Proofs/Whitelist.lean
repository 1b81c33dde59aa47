import ContentBlocking.Proofs.Ascending
import ContentBlocking.Proofs.Disk.Values
import ContentBlocking.Proofs.Host
import ContentBlocking.Proofs.Service.Steps
import Mathlib.Data.List.MinMax
import Mathlib.Data.String.Basic

/-!
# The whitelist over restarts

What is on the whitelist is named by entries, and the domains on it are entries once
more: those of the file when the service starts, and those that the user removes. Such an
entry names the domain that it is, unless that begins with `www.` still.

* `Whitelist.IsListed`, `isListed_of_domainOf`: the domains that entries name;
* `domainOf_of_isListed`: a domain names itself if it does not begin with `www.`;
* `Whitelist.IsGood`, `isGood_changed`: whitelists after any changes;
* `kept_iff`: when a whitelist outlives a restart, and its domains can be removed.
-/

namespace ContentBlocking

namespace Whitelist

open Text

/-! ### Domains as entries -/

/-- The text may be a domain on the whitelist. -/
structure IsListed (domain : String) : Prop where
  isDomain : Host.IsDomain domain.toList
  dot : '.' ∈ domain.toList

/-- The domain begins with `www.` still. -/
def HasWww (domain : String) : Prop := Host.www <+: domain.toList

instance : DecidablePred HasWww := fun _ => inferInstanceAs (Decidable (_ <+: _))

variable {entry domain d e : String} {w : Whitelist}

theorem domainChars?_of_domainOf (h : domainOf entry = .ok domain) :
    domainChars? entry.toList = some domain.toList := by
  rw [domainOf] at h
  split at h
  · next chars hchars =>
    obtain rfl := Except.ok.inj h
    rw [hchars, String.toList_ofList]
  · cases h

/-- Entries name domains in normal form. -/
theorem isListed_of_domainOf (h : domainOf entry = .ok domain) : IsListed domain := by
  obtain ⟨hfound, hdot⟩ := Option.filter_eq_some_iff.1 (domainChars?_of_domainOf h)
  obtain ⟨host, -, hhost⟩ := Option.bind_eq_some_iff.1 hfound
  exact ⟨Host.isDomain_of_domainChars? hhost, List.contains_iff_mem.1 hdot⟩

/-- No character of a domain ends a host. -/
theorem endsHost_of_isDomainChar {c : Char} (h : Host.isDomainChar c = true) :
    endsHost c = false :=
  Host.forall_isDomainChar (P := fun c => endsHost c = false) (by decide +kernel) h

theorem hostChars?_of_isDomain {chars : List Char} (h : Host.IsDomain chars) :
    hostChars? chars = some chars := by
  have hends (c : Char) (hc : c ∈ chars) : endsHost c = false :=
    endsHost_of_isDomainChar (h.chars c hc).1
  have hscheme : occursIn [':', '/', '/'] chars ≠ true := fun hmem => by
    have hcolon := (occursIn_iff.1 hmem).subset List.mem_cons_self
    exact nomatch hends ':' hcolon
  rw [hostChars?, h.trim_eq, if_neg hscheme, upTo_eq_self hends]

theorem domainChars?_of_isListed (h : IsListed d) : domainChars? d.toList =
    (some ((dropLead? Host.www d.toList).getD d.toList)).filter fun chars =>
      chars.contains '.' := by
  rw [domainChars?, hostChars?_of_isDomain h.isDomain, Option.bind_some, h.isDomain.domainChars?_eq]

/-- A domain names itself if it does not begin with `www.`. -/
theorem domainOf_of_isListed (h : IsListed d) (hwww : ¬HasWww d) : domainOf d = .ok d := by
  have hnone : dropLead? Host.www d.toList = none := by
    rw [Option.eq_none_iff_forall_not_mem]
    intro rest hrest
    exact hwww ⟨rest, (dropLead?_eq_some_iff.1 hrest).symm⟩
  have hchars : domainChars? d.toList = some d.toList := by
    rw [domainChars?_of_isListed h, hnone]
    exact if_pos (List.contains_iff_mem.2 h.dot)
  rw [domainOf, hchars]
  dsimp only
  rw [String.ofList_toList]

/-- A domain that begins with `www.` names another one, if any. -/
theorem toList_of_domainOf (h : IsListed d) (hwww : HasWww d) (he : domainOf d = .ok e) :
    d.toList = Host.www ++ e.toList := by
  obtain ⟨rest, hrest⟩ := hwww
  have hfound := domainChars?_of_domainOf he
  rw [domainChars?_of_isListed h, dropLead?_eq_some_iff.2 hrest.symm, Option.getD_some] at hfound
  obtain ⟨hsome, -⟩ := Option.filter_eq_some_iff.1 hfound
  rw [← hrest, Option.some.inj hsome]

theorem domainOf_ne_of_hasWww (h : IsListed d) (hwww : HasWww d) : domainOf d ≠ .ok d :=
  fun heq => by
  have hlength := congrArg List.length (toList_of_domainOf h hwww heq)
  rw [List.length_append] at hlength
  exact absurd hlength (by simp [Host.www])

/-! ### Changes -/

/-- A change that the user asks for. -/
inductive Change where
  | add (entry : String)
  | remove (entry : String)

/-- The whitelist after a change, which may be refused. -/
def change (w : Whitelist) : Change → Whitelist
  | .add entry => (w.add entry).1
  | .remove entry => (w.remove entry).1

/-- The whitelist after some changes, which was empty at first. -/
def changed (changes : List Change) : Whitelist := changes.foldl change {}

/-- The domains are in ascending order and in their normal form. -/
structure IsGood (w : Whitelist) : Prop where
  sorted : w.domains.Pairwise (· < ·)
  listed : ∀ d ∈ w.domains, IsListed d

theorem IsGood.change (h : w.IsGood) (c : Change) : (w.change c).IsGood := by
  cases c with
  | add entry =>
    rw [Whitelist.change]
    rcases w.add_cases entry with
      ⟨domain, hdomain, -, hadd⟩ | ⟨domain, -, -, hadd⟩ | ⟨e, -, hadd⟩ <;> rw [hadd]
    · refine ⟨pairwise_insertAscending h.sorted domain, fun d hd => ?_⟩
      rcases mem_insert.1 hd with rfl | hd
      · exact isListed_of_domainOf hdomain
      · exact h.listed d hd
    · exact h
    · exact h
  | remove entry =>
    rw [Whitelist.change]
    rcases w.remove_cases entry with
      ⟨domain, -, -, hremove⟩ | ⟨domain, -, -, hremove⟩ | ⟨e, -, hremove⟩ <;> rw [hremove]
    · exact ⟨h.sorted.filter _, fun d hd => h.listed d (mem_erase.1 hd).1⟩
    · exact h
    · exact h

theorem isGood_changed (changes : List Change) : (changed changes).IsGood := by
  have hempty : IsGood {} := ⟨.nil, nofun⟩
  rw [changed]
  generalize ({} : Whitelist) = w at hempty
  induction changes generalizing w with
  | nil => exact hempty
  | cons c changes ih => exact ih _ (hempty.change c)

/-! ### Restarts -/

theorem mem_ofEntries {entries : List String} :
    d ∈ (ofEntries entries).domains ↔ ∃ entry ∈ entries, domainOf entry = .ok d := by
  have hone (entry : String) : (domainOf entry).toOption = some d ↔ domainOf entry = .ok d := by
    cases domainOf entry <;> simp [Except.toOption]
  rw [ofEntries, mem_ascending, List.mem_filterMap]
  exact exists_congr fun entry => and_congr_right fun _ => hone entry

/-- Domains that do not begin with `www.` are the only ones that are read back as they
    are. -/
theorem IsGood.ofEntries_eq_iff (h : w.IsGood) :
    ofEntries w.domains = w ↔ ∀ d ∈ w.domains, ¬HasWww d := by
  constructor
  · intro heq
    have hback (d : String) (hd : d ∈ w.domains) : ∃ d' ∈ w.domains, domainOf d' = .ok d := by
      rw [← heq] at hd
      exact mem_ofEntries.1 hd
    intro d hd hwww
    have hmem : d ∈ w.domains.filter (HasWww ·) := List.mem_filter.2 ⟨hd, decide_eq_true hwww⟩
    cases hlongest : (w.domains.filter (HasWww ·)).argmax String.length with
    | none =>
      rw [List.argmax_eq_none] at hlongest
      rw [hlongest] at hmem
      cases hmem
    | some m =>
      -- The longest domain that begins with `www.` would come from a longer one.
      obtain ⟨hm, hmwww⟩ := List.mem_filter.1 (List.argmax_mem hlongest)
      obtain ⟨d', hd', heq⟩ := hback m hm
      have hwww' : HasWww d' := by
        by_contra hno
        rw [domainOf_of_isListed (h.listed d' hd') hno] at heq
        obtain rfl := Except.ok.inj heq
        exact hno (of_decide_eq_true hmwww)
      have hlonger := toList_of_domainOf (h.listed d' hd') hwww' heq
      have hle := List.le_of_mem_argmax
        (List.mem_filter.2 ⟨hd', decide_eq_true hwww'⟩) hlongest
      rw [← String.length_toList, ← String.length_toList, hlonger, List.length_append] at hle
      exact absurd hle (by simp [Host.www])
  · intro hall
    have hsame : w.domains.filterMap (fun d => (domainOf d).toOption) = w.domains := by
      refine (List.filterMap_congr fun d hd => ?_).trans List.filterMap_some
      rw [domainOf_of_isListed (h.listed d hd) (hall d hd)]
      rfl
    rw [ofEntries, hsame, (ascending_eq_iff h.sorted).2 fun _ => Iff.rfl]

/-- A domain that is on the whitelist can be removed if it does not begin with `www.`. -/
theorem IsGood.remove_eq_iff (h : w.IsGood) (hd : d ∈ w.domains) :
    w.remove d = (w.erase d, .ok true) ↔ ¬HasWww d := by
  constructor
  · intro heq hwww
    rcases w.remove_cases d with ⟨e, he, -, hremove⟩ | ⟨e, -, -, hremove⟩ | ⟨e, -, hremove⟩
    · -- The other domain is gone, and this one is not.
      have hne : d ≠ e := fun hsame => by
        subst hsame
        exact domainOf_ne_of_hasWww (h.listed d hd) hwww he
      have hkept : d ∈ (w.erase e).domains := mem_erase.2 ⟨hd, hne⟩
      rw [(Prod.mk.inj (hremove.symm.trans heq)).1] at hkept
      exact (mem_erase.1 hkept).2 rfl
    · cases (Prod.mk.inj (hremove.symm.trans heq)).2
    · cases (Prod.mk.inj (hremove.symm.trans heq)).2
  · intro hwww
    rw [remove, domainOf_of_isListed (h.listed d hd) hwww]
    exact if_pos (List.contains_iff_mem.2 hd)

/-- The whitelist of the next start is that of the entries that were written. -/
theorem start_whitelist {store store' : SettingsStore} {disk disk' : Disk}
    (hwritten : store.update disk ({ · with whitelistedDomains := w.domains }) =
      (store', disk', .ok ())) {config : Config} (hpath : config.settingsPath = store.path)
    {engine : Engine} {shell : Shell} {urls : UrlReader} {first : SessionId} {s : Service}
    (hstart : Service.start config ⟨disk', engine, shell, urls⟩ first = .ok s) :
    s.whitelist = ofEntries w.domains := by
  rw [SettingsStore.update] at hwritten
  obtain ⟨rfl, hsaved⟩ := Prod.mk.inj hwritten
  have hread := SettingsStore.ofDisk_save hsaved
  rw [Service.start] at hstart
  obtain ⟨config', hvalid, hservice⟩ := exists_of_bind_eq_ok hstart
  obtain rfl := Service.eq_of_validate hvalid
  have hentries : s.whitelist = ofEntries
      (SettingsStore.ofDisk disk' config'.settingsPath).1.settings.whitelistedDomains := by
    obtain rfl := Except.ok.inj hservice
    rfl
  dsimp only at hread
  rw [hentries, hpath, hread]

/-- A whitelist outlives a restart as long as none of its domains begins with `www.`
    still, and those that do not can be removed. -/
theorem kept_iff (changes : List Change) :
    (∀ (store store' : SettingsStore) (disk disk' : Disk),
      store.update disk ({ · with whitelistedDomains := (changed changes).domains }) =
        (store', disk', .ok ()) →
      ∀ (config : Config) (engine : Engine) (shell : Shell) (urls : UrlReader) (first : SessionId)
        (s : Service), config.settingsPath = store.path →
        Service.start config ⟨disk', engine, shell, urls⟩ first = .ok s →
        s.whitelist = ofEntries (changed changes).domains) ∧
    (ofEntries (changed changes).domains = changed changes ↔
      ∀ d ∈ (changed changes).domains, ¬HasWww d) ∧
    ∀ d ∈ (changed changes).domains,
      (changed changes).remove d = ((changed changes).erase d, .ok true) ↔ ¬HasWww d :=
  ⟨fun _ _ _ _ hwritten _ _ _ _ _ _ hpath => start_whitelist hwritten hpath,
    (isGood_changed changes).ofEntries_eq_iff, fun _ => (isGood_changed changes).remove_eq_iff⟩

/-- Two domains are added, and one of them is removed. -/
def plainChanges : List Change :=
  [.add "https://www.example.com/a", .add "Shop.Example.org:8443", .remove "www.example.com"]

theorem written_plainChanges :
    ((SettingsStore.mk (Config.settingsPath {}) {}).update {}
      ({ · with whitelistedDomains := (changed plainChanges).domains })).2.2.toBool = true := by
  decide +kernel

theorem kept_plainChanges : ∃ (disk : Disk) (s : Service),
    Service.start {} { disk := disk } .nil = .ok s ∧ s.whitelist = changed plainChanges ∧
      (changed plainChanges).domains = ["shop.example.org"] ∧
      (changed plainChanges).remove "shop.example.org" =
        ((changed plainChanges).erase "shop.example.org", .ok true) := by
  obtain ⟨hreload, hkept, hremovable⟩ := kept_iff plainChanges
  have hdomains : (changed plainChanges).domains = ["shop.example.org"] := by decide +kernel
  have hwww : ∀ d ∈ (changed plainChanges).domains, ¬HasWww d := by
    rw [hdomains]
    decide
  have hmem : "shop.example.org" ∈ (changed plainChanges).domains := by
    rw [hdomains]
    exact List.mem_singleton_self _
  have hwritten := written_plainChanges
  rcases hupdate : (SettingsStore.mk (Config.settingsPath {}) {}).update {}
    ({ · with whitelistedDomains := (changed plainChanges).domains }) with ⟨store, disk, _ | _⟩
  · rw [hupdate] at hwritten
    cases hwritten
  · obtain ⟨s, hstart⟩ :=
      Service.exists_start (show Config.validate {} = .ok {} from rfl) { disk := disk } .nil
    have hwhitelist := hreload _ _ _ _ hupdate {} {} {} Url.reader .nil s rfl hstart
    exact ⟨disk, s, hstart, hwhitelist.trans (hkept.2 hwww), hdomains,
      (hremovable _ hmem).2 (hwww _ hmem)⟩

/-- The loss of one `www.` may leave another, which is lost when the file is read, and
    which keeps the domain from being removed. -/
theorem not_forall_kept : ¬∀ changes, ofEntries (changed changes).domains = changed changes ∧
    ∀ d ∈ (changed changes).domains,
      (changed changes).remove d = ((changed changes).erase d, .ok true) := by
  intro hall
  obtain ⟨hkept, -⟩ := hall [.add "www.www.example.com"]
  exact absurd hkept (by decide +kernel)

end Whitelist

end ContentBlocking
