import ContentBlocking.Host
import ContentBlocking.Proofs.Text.Cut

/-!
# Hosts in URLs

The authority of a URL stands behind the first `://` and ends in front of a path, a query or
a fragment. In it stand the user information, up to the last `@`, then the host, and then the
port behind a colon. The signs that divide these parts may stand in other parts too: an `@` in
the user information, a colon in a host in brackets, and any of them in what follows the
authority. The host is found all the same, since of each sign only that occurrence counts which
divides the parts.

* `Host.withoutUser`, `ofAuthority?_eq`: the host of an authority in two steps;
* `Host.ofUrlChars?_scheme`: only what is behind the first `://` counts;
* `Host.UrlParts`, `UrlParts.IsWellFormed`: the parts of a URL, and what may stand in each;
* `UrlParts.host_of_text`: the host of a URL with such parts is found.
-/

namespace ContentBlocking.Host

open Text

/-! ### Authorities -/

section

variable {front name user : List Char}

/-- What stands behind the user information. -/
def withoutUser (authority : List Char) : List Char :=
  match cutLast? '@' authority with
  | some (_, after) => after
  | none => authority

theorem withoutUser_append (hname : '@' ∉ name) :
    withoutUser (front ++ name) = withoutUser front ++ name := by
  rw [withoutUser, withoutUser]
  cases hcut : cutLast? '@' front with
  | none =>
    have hnone : '@' ∉ front ++ name := fun hmem =>
      (List.mem_append.1 hmem).elim (cutLast?_eq_none_iff.1 hcut) hname
    rw [cutLast?_of_not_mem hnone]
  | some parts =>
    obtain ⟨user, after⟩ := parts
    obtain ⟨rfl, hafter⟩ := cutLast?_eq_some_iff.1 hcut
    have hnone : '@' ∉ after ++ name := fun hmem =>
      (List.mem_append.1 hmem).elim hafter hname
    rw [List.append_assoc, List.cons_append, cutLast?_append_cons user hnone]

/-- The user information may have more of the signs that end it. -/
theorem withoutUser_user (user : List Char) : withoutUser (user ++ ['@']) = [] := by
  rw [withoutUser, cutLast?_append_cons user List.not_mem_nil]

/-- What stands behind the user information begins with the host, which a colon ends, or a
    closing bracket if it begins with an opening one. -/
theorem ofAuthority?_eq (authority : List Char) :
    ofAuthority? authority =
      (if (withoutUser authority).head? = some '[' then
        if ']' ∈ withoutUser authority then some (upTo (· == ']') (withoutUser authority) ++ [']'])
        else none
      else some (upTo (· == ':') (withoutUser authority))).filter fun host => !host.isEmpty := by
  unfold ofAuthority?
  extract_lets hostPort host
  have huser : withoutUser authority = hostPort := rfl
  rw [huser]
  refine congrArg (Option.filter _) ?_
  clear_value hostPort
  by_cases hopen : hostPort.head? = some '['
  · obtain ⟨rest, rfl⟩ := List.head?_eq_some_iff.1 hopen
    have hclose := cut?_singleton ']' ('[' :: rest)
    rw [if_pos hopen]
    simp only [host]
    generalize cut? [']'] ('[' :: rest) = parts at hclose ⊢
    by_cases hmem : ']' ∈ '[' :: rest
    · rw [if_pos hmem] at hclose ⊢
      obtain ⟨⟨inner, after⟩, rfl, rfl⟩ := Option.map_eq_some_iff.1 hclose
      rfl
    · rw [if_neg hmem] at hclose ⊢
      obtain rfl := Option.map_eq_none_iff.1 hclose
      rfl
  · rw [if_neg hopen]
    simp only [host]
    split
    · exact absurd rfl hopen
    · rfl

end

/-! ### What stands around an authority -/

section

variable {scheme rest : List Char}

/-- The text is a path, a query or a fragment with whatever follows that, or nothing. -/
def IsTail (tail : List Char) : Prop := ∀ c ∈ tail.head?, endsAuthority c = true

instance : DecidablePred IsTail
  | [] => .isTrue nofun
  | c :: _ => decidable_of_iff (endsAuthority c = true) (by simp [IsTail])

/-- No `://` begins in a scheme and ends behind it, where another one stands. -/
theorem infix_of_infix_append (h : [':', '/', '/'] <:+: scheme ++ [':', '/']) :
    [':', '/', '/'] <:+: scheme := by
  have hback : ['/', '/', ':'] <:+: '/' :: ':' :: scheme.reverse := by
    simpa using List.reverse_infix.2 h
  -- Backwards it would begin with a slash and a colon.
  rcases List.infix_cons_iff.1 hback with hstart | hback
  · simp at hstart
  · rcases List.infix_cons_iff.1 hback with hstart | hback
    · simp at hstart
    · exact List.reverse_infix.1 (by simpa using hback)

/-- Only what is behind the first `://` counts. -/
theorem ofUrlChars?_scheme (hscheme : ¬[':', '/', '/'] <:+: scheme) :
    ofUrlChars? (scheme ++ "://".toList ++ rest) = ofAuthority? (upTo endsAuthority rest) := by
  have hcut : cut? [':', '/', '/'] (scheme ++ "://".toList ++ rest) = some (scheme, rest) :=
    (cut?_eq_some_iff (List.cons_ne_nil _ _)).2 ⟨rfl, mt infix_of_infix_append hscheme⟩
  rw [ofUrlChars?, authority?, hcut]
  rfl

theorem not_infix_of_not_mem (hcolon : ':' ∉ scheme) : ¬[':', '/', '/'] <:+: scheme :=
  fun hfound => hcolon (hfound.subset List.mem_cons_self)

end

/-! ### Well-formed URLs -/

/-- None of the signs is in the text. -/
def Lacks (text signs : String) : Prop := ∀ c ∈ text.toList, c ∉ signs.toList

instance (text signs : String) : Decidable (Lacks text signs) :=
  decidable_of_iff (text.toList.all (!signs.toList.contains ·) = true) (by simp [Lacks])

section

variable {text signs : String}

theorem Lacks.not_mem {c : Char} (h : Lacks text signs) (hc : c ∈ signs.toList) :
    c ∉ text.toList := fun hmem => h c hmem hc

theorem Lacks.endsAuthority_eq (h : Lacks text signs) (hends : "/?#".toList ⊆ signs.toList) :
    ∀ c ∈ text.toList, endsAuthority c = false := by
  intro c hc
  have hnot : c ∉ "/?#".toList := fun hmem => h c hc (hends hmem)
  simpa [endsAuthority, and_assoc] using hnot

end

/-- A URL in the parts that stand one after the other. -/
structure UrlParts where
  scheme : String
  /-- What stands in front of an `@`. -/
  user : Option String
  host : String
  /-- What stands behind a colon. -/
  port : Option String
  tail : String

namespace UrlParts

/-- The user information with the sign that ends it. -/
def userText (u : UrlParts) : String :=
  match u.user with
  | some user => user ++ "@"
  | none => ""

/-- The port with its colon. -/
def portText (u : UrlParts) : String :=
  match u.port with
  | some port => ":" ++ port
  | none => ""

/-- The URL in one piece. -/
def text (u : UrlParts) : String :=
  u.scheme ++ "://" ++ u.userText ++ u.host ++ u.portText ++ u.tail

/-- The host is a name, or stands in brackets. -/
def IsHost (host : String) : Prop :=
  host ≠ "" ∧ Lacks host "/?#@:[" ∨ ∃ inner, host = "[" ++ inner ++ "]" ∧ Lacks inner "/?#@]"

/-- The `://` behind the scheme is the first one, the authority goes as far as the tail, the
    last `@` in it ends the user information, and a name ends in front of the port. -/
structure IsWellFormed (u : UrlParts) : Prop where
  scheme : ¬[':', '/', '/'] <:+: u.scheme.toList
  user : ∀ user ∈ u.user, Lacks user "/?#"
  host : IsHost u.host
  port : ∀ port ∈ u.port, Lacks port "/?#@"
  tail : IsTail u.tail.toList

variable {u : UrlParts} {host : String}

theorem IsHost.lacks (h : IsHost host) : Lacks host "/?#@" := by
  intro c hc
  rcases h with ⟨-, hname⟩ | ⟨inner, rfl, hinner⟩
  · exact fun hmem => hname c hc (List.Sublist.subset (by decide) hmem)
  · simp only [String.toList_append, List.mem_append] at hc
    rcases hc with (hopen | hc) | hclose
    · exact List.mem_singleton.1 hopen ▸ by decide
    · exact fun hmem => hinner c hc (List.Sublist.subset (by decide) hmem)
    · exact List.mem_singleton.1 hclose ▸ by decide

theorem IsWellFormed.lacks_portText (h : u.IsWellFormed) : Lacks u.portText "/?#@" := by
  rw [portText]
  split
  · next port hport =>
    intro c hc
    rw [String.toList_append] at hc
    rcases List.mem_append.1 hc with hcolon | hc
    · exact List.mem_singleton.1 hcolon ▸ by decide
    · exact h.port port hport c hc
  · decide

theorem head?_portText (u : UrlParts) : ∀ c ∈ u.portText.toList.head?, c = ':' := by
  rw [portText]
  split
  · simp
  · simp

theorem IsWellFormed.endsAuthority_userText (h : u.IsWellFormed) :
    ∀ c ∈ u.userText.toList, endsAuthority c = false := by
  rw [userText]
  split
  · next user huser =>
    intro c hc
    rw [String.toList_append] at hc
    rcases List.mem_append.1 hc with hc | hat
    · exact (h.user user huser).endsAuthority_eq (List.Subset.refl _) c hc
    · exact List.mem_singleton.1 hat ▸ by decide
  · simp

/-- What stands behind the user information of the authority are the host and the port. -/
theorem IsWellFormed.withoutUser_eq (h : u.IsWellFormed) :
    withoutUser (u.userText.toList ++ (u.host.toList ++ u.portText.toList)) =
      u.host.toList ++ u.portText.toList := by
  have hat : '@' ∉ u.host.toList ++ u.portText.toList := fun hmem =>
    (List.mem_append.1 hmem).elim (h.host.lacks.not_mem (by decide))
      (h.lacks_portText.not_mem (by decide))
  have huser : withoutUser u.userText.toList = [] := by
    rw [userText]
    split
    · next user _ =>
      rw [String.toList_append]
      exact withoutUser_user user.toList
    · rfl
  rw [withoutUser_append hat, huser, List.nil_append]

/-- A host is found in front of its port, if what stands behind the user information of an
    authority begins with it. -/
theorem IsHost.ofAuthority?_eq {authority port : List Char} (h : IsHost host)
    (hport : ∀ c ∈ port.head?, c = ':') (huser : withoutUser authority = host.toList ++ port) :
    ofAuthority? authority = some host.toList := by
  rw [Host.ofAuthority?_eq, huser]
  rcases h with ⟨hne, hname⟩ | ⟨inner, rfl, hinner⟩
  · obtain ⟨c, rest, hhost⟩ := List.exists_cons_of_ne_nil (mt String.toList_eq_nil_iff.1 hne)
    have hopen : (host.toList ++ port).head? ≠ some '[' := by
      rw [hhost]
      rintro hhead
      obtain rfl := Option.some.inj hhead
      exact hname.not_mem (by decide) (hhost ▸ List.mem_cons_self)
    have hcolon : ∀ c ∈ host.toList, (c == ':') = false := fun c hc =>
      beq_false_of_ne fun heq => hname.not_mem (by decide) (heq ▸ hc)
    rw [if_neg hopen, upTo_append hcolon fun c hc => beq_iff_eq.2 (hport c hc), hhost]
    rfl
  · have hbrackets : ("[" ++ inner ++ "]").toList ++ port =
        ('[' :: inner.toList) ++ ']' :: port := by
      simp
    have hclose : ∀ c ∈ '[' :: inner.toList, (c == ']') = false := by
      refine List.forall_mem_cons.2 ⟨by decide, fun c hc => beq_false_of_ne fun heq => ?_⟩
      exact hinner.not_mem (by decide) (heq ▸ hc)
    have hopen : ('[' :: inner.toList ++ ']' :: port).head? = some '[' := rfl
    rw [hbrackets, if_pos hopen, if_pos (by simp), upTo_append hclose (by simp)]
    simp

/-- The host of a URL is found, whatever else is in the URL, as long as no part has the signs
    that end it. -/
theorem host_of_text (h : u.IsWellFormed) : ofUrl? u.text = some u.host := by
  have htext : u.text.toList = u.scheme.toList ++ "://".toList ++
      (u.userText.toList ++ (u.host.toList ++ u.portText.toList) ++ u.tail.toList) := by
    simp [text]
  have hauthority : ∀ c ∈ u.userText.toList ++ (u.host.toList ++ u.portText.toList),
      endsAuthority c = false := by
    intro c hc
    rcases List.mem_append.1 hc with hc | hc
    · exact h.endsAuthority_userText c hc
    · rcases List.mem_append.1 hc with hc | hc
      · exact h.host.lacks.endsAuthority_eq (by decide) c hc
      · exact h.lacks_portText.endsAuthority_eq (by decide) c hc
  have hhost : ofUrlChars? u.text.toList = some u.host.toList := by
    rw [htext, ofUrlChars?_scheme h.scheme, upTo_append hauthority h.tail]
    exact h.host.ofAuthority?_eq u.head?_portText h.withoutUser_eq
  rw [ofUrl?, hhost, Option.map_some, String.ofList_toList]

/-- The schemes and the tails have parts of other URLs in them, and the user information and the
    ports have signs that would end a host. -/
theorem host_of_text_misleading :
    let named : UrlParts := ⟨"view:/", some "me:p@ss[", "a]b.test", some "8[0]", "?x://y@z:1"⟩
    let numerical : UrlParts := ⟨"", some "", "[::[1]", some "]:", "#@]://c"⟩
    named.IsWellFormed ∧ numerical.IsWellFormed ∧
      ofUrl? "view:/://me:p@ss[@a]b.test:8[0]?x://y@z:1" = some "a]b.test" ∧
      ofUrl? "://@[::[1]:]:#@]://c" = some "[::[1]" := by
  intro named numerical
  have hnamed : named.IsWellFormed :=
    { scheme := by decide +kernel
      user := by decide +kernel
      host := .inl ⟨by decide, by decide +kernel⟩
      port := by decide +kernel
      tail := by decide +kernel }
  have hnumerical : numerical.IsWellFormed :=
    { scheme := by decide +kernel
      user := by decide +kernel
      host := .inr ⟨"::[1", by decide +kernel, by decide +kernel⟩
      port := by decide +kernel
      tail := by decide +kernel }
  have hnamedText : named.text = "view:/://me:p@ss[@a]b.test:8[0]?x://y@z:1" := by decide +kernel
  have hnumericalText : numerical.text = "://@[::[1]:]:#@]://c" := by decide +kernel
  exact ⟨hnamed, hnumerical, hnamedText ▸ host_of_text hnamed,
    hnumericalText ▸ host_of_text hnumerical⟩

end UrlParts

end ContentBlocking.Host
