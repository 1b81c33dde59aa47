import ContentBlocking.Proofs.Artifact.Commits
import ContentBlocking.Proofs.Artifact.PayloadRoundTrip
import ContentBlocking.Proofs.Logs
import Mathlib.Data.List.DropRight

/-!
# The last good compile

Compiles under many identifiers, good ones and bad ones, and attachments to surfaces come in any
order. What the engine was asked and what its compiles gave is a log, and the log alone tells
what the engine serves: under an identifier the payload of the last compile that was good, and
on a surface the payloads of whatever was attached since everything was detached, each as it is
by then.

* `Engine.Call`, `Engine.log`: what is asked, and what compiles give;
* `Engine.lastGood`: the payload of the last good compile in a log;
* `Engine.attachedBy`, `Engine.Fails`: what calls leave attached, and which compiles they make
  fail;
* `Engine.check_eq_ok_iff`, `Engine.Compiles`: what makes a payload good, and what a compile does;
* `Engine.Serves`: the engine serves what a log says;
* `Engine.serves_last_good`: it does after any calls, and a compile that fails changes nothing.
-/

namespace ContentBlocking

namespace Engine

/-! ### Calls and answers -/

/-- What the engine is asked to do. -/
inductive Call where
  | compile (identifier payload : String)
  | fail (identifier : String)
  | clearFailures
  | attach (identifier : String) (s : Surface)
  | detachAll (s : Surface)
  deriving DecidableEq

variable {P : Type} [PatternLanguage P]

/-- The engine after a call, and what that gives if it is a compile. -/
def call (e : Engine P) : Call → Engine P × Option (Except EngineError Artifact)
  | .compile identifier payload =>
    ((e.compile identifier payload).1, some (e.compile identifier payload).2)
  | .fail identifier => (e.fail identifier, none)
  | .clearFailures => (e.clearFailures, none)
  | .attach identifier s => (e.attach identifier s, none)
  | .detachAll s => (e.detachAll s, none)

/-- A call with what it gives. -/
structure Entry where
  call : Call
  given : Option (Except EngineError Artifact)

/-- The engine after a call, and the entry of it. -/
def enter (e : Engine P) (c : Call) : Engine P × Entry := ((e.call c).1, ⟨c, (e.call c).2⟩)

/-- The engine after some calls. -/
def after (e : Engine P) (calls : List Call) : Engine P := afterCalls enter e calls

/-- The entries of some calls. -/
def log (e : Engine P) (calls : List Call) : List Entry := logOf enter e calls

/-! ### What a log says -/

/-- The payload of a compile of the identifier, if it was good. -/
def Entry.good? (identifier : String) : Entry → Option String
  | ⟨.compile identifier' payload, some (.ok _)⟩ =>
    if identifier' = identifier then some payload else none
  | _ => none

/-- The payload of the last good compile of an identifier. -/
def lastGood (entries : List Entry) (identifier : String) : Option String :=
  (entries.filterMap (Entry.good? identifier)).getLast?

/-- Compiles of the identifier fail: they were made to, and not let succeed again since. -/
def Fails (calls : List Call) (identifier : String) : Prop :=
  .fail identifier ∈ calls.rtakeWhile (· ≠ .clearFailures)

/-- The identifier that a call attaches to a surface. -/
def Call.attaches? (s : Surface) : Call → Option String
  | .attach identifier s' => if s' = s then some identifier else none
  | _ => none

/-- The identifiers that were attached to a surface since everything was detached from it. -/
def attachedBy (calls : List Call) (s : Surface) : List String :=
  (calls.rtakeWhile (· ≠ .detachAll s)).filterMap (Call.attaches? s)

/-- What the rules of a payload say of a request, if the payload has rules and their patterns are
    well-formed. -/
def verdictOf? (P : Type) [PatternLanguage P] (q : Request) (payload : String) : Option Verdict :=
  (Payload.decode payload).toOption.bind fun rules =>
    (Matcher.ofRules rules : Except Nat (Matcher P)).toOption.map (·.verdict q)

variable {e : Engine P} {limit : Option Nat} {calls : List Call} {entries : List Entry}
  {identifier payload : String}

theorem verdictOf?_eq (q : Request) {rules : List Rule} {matcher : Matcher P}
    (hdecode : Payload.decode payload = .ok rules)
    (hmatcher : Matcher.ofRules rules = .ok matcher) :
    verdictOf? P q payload = some (matcher.verdict q) := by
  rw [verdictOf?, hdecode, Except.toOption, Option.bind_some, hmatcher]
  rfl

theorem lastGood_concat (entry : Entry) : lastGood (entries ++ [entry]) identifier =
    (entry.good? identifier).or (lastGood entries identifier) := by
  rw [lastGood, List.filterMap_append, List.getLast?_append]
  refine congrArg (Option.or · _) ?_
  cases h : entry.good? identifier <;> simp [h]

theorem good?_eq_some_iff {entry : Entry} : entry.good? identifier = some payload ↔
    ∃ a, entry = ⟨.compile identifier payload, some (.ok a)⟩ := by
  constructor
  · intro h
    unfold Entry.good? at h
    split at h
    · next identifier' payload' a =>
      split at h
      · next hsame =>
        obtain rfl := Option.some.inj h
        exact ⟨a, by rw [hsame]⟩
      · cases h
    · cases h
  · rintro ⟨a, rfl⟩
    exact if_pos rfl

theorem isSome_lastGood_iff : (lastGood entries identifier).isSome = true ↔
    ∃ payload a, ⟨.compile identifier payload, some (.ok a)⟩ ∈ entries := by
  constructor
  · intro h
    obtain ⟨payload, hlast⟩ := Option.isSome_iff_exists.1 h
    obtain ⟨entry, hmem, hgood⟩ := List.mem_filterMap.1 (List.mem_of_getLast? hlast)
    obtain ⟨a, rfl⟩ := good?_eq_some_iff.1 hgood
    exact ⟨payload, a, hmem⟩
  · rintro ⟨payload, a, hmem⟩
    have hgood : payload ∈ entries.filterMap (Entry.good? identifier) :=
      List.mem_filterMap.2 ⟨_, hmem, good?_eq_some_iff.2 ⟨a, rfl⟩⟩
    exact List.getLast?_isSome.2 (List.ne_nil_of_mem hgood)

theorem fails_concat (c : Call) : Fails (calls ++ [c]) identifier ↔
    c ≠ .clearFailures ∧ (c = .fail identifier ∨ Fails calls identifier) := by
  rw [Fails, List.rtakeWhile_concat]
  split
  · next h =>
    rw [List.mem_append, List.mem_singleton, or_comm, eq_comm, Fails]
    exact (and_iff_right (of_decide_eq_true h)).symm
  · next h =>
    refine iff_of_false List.not_mem_nil fun hc => h ?_
    exact decide_eq_true hc.1

theorem attachedBy_concat (c : Call) (s : Surface) : attachedBy (calls ++ [c]) s =
    if c = .detachAll s then [] else attachedBy calls s ++ (c.attaches? s).toList := by
  rw [attachedBy, List.rtakeWhile_concat]
  by_cases hc : c = .detachAll s
  · rw [if_neg (by simp [hc]), if_pos hc]
    rfl
  · rw [if_pos (by simp [hc]), if_neg hc, List.filterMap_append]
    refine congrArg _ ?_
    cases h : c.attaches? s <;> simp [h]

/-! ### Compiles -/

/-- A payload is good if it has rules, not too many, and their patterns are well-formed. -/
theorem check_eq_ok_iff {compiled : Compiled P} :
    check limit identifier payload = .ok compiled ↔
      ∃ rules, ∃ matcher : Matcher P, Payload.decode payload = .ok rules ∧
        (∀ n ∈ limit, rules.length ≤ n) ∧ Matcher.ofRules rules = .ok matcher ∧
        compiled = ⟨⟨identifier, rules.length, Fingerprint.hex payload⟩, matcher⟩ := by
  have hlimit (rules : List Rule) : limit.filter (· < rules.length) = none ↔
      ∀ n ∈ limit, rules.length ≤ n := by
    simp [Option.filter_eq_none_iff]
  constructor
  · intro h
    rw [check] at h
    split at h
    · cases h
    · next rules hdecode =>
      split at h
      · cases h
      · next hfew =>
        split at h
        · cases h
        · next matcher hmatcher =>
          exact ⟨rules, matcher, hdecode, (hlimit rules).1 hfew, hmatcher, (Except.ok.inj h).symm⟩
  · rintro ⟨rules, matcher, hdecode, hfew, hmatcher, rfl⟩
    simp only [check, hdecode, (hlimit rules).2 hfew, hmatcher]

/-- A compile is counted. If it is not made to fail and its payload is good the payload is
    stored, and else nothing is. -/
inductive Compiles (e : Engine P) (identifier payload : String) :
    Engine P × Except EngineError Artifact → Prop
  | forced (failing : identifier ∈ e.failing) : Compiles e identifier payload
      ({ e with calls := e.calls + 1 }, .error (.unavailable identifier))
  | rejected (r : Rejection)
      (check : (check e.ruleLimit identifier payload : Except _ (Compiled P)) = .error r) :
      Compiles e identifier payload ({ e with calls := e.calls + 1 }, .error (.rejected r))
  | good (compiled : Compiled P) (failing : identifier ∉ e.failing)
      (check : check e.ruleLimit identifier payload = .ok compiled) :
      Compiles e identifier payload
        ({ e with calls := e.calls + 1, stored := e.stored.set identifier compiled },
          .ok compiled.artifact)

theorem compiles (e : Engine P) (identifier payload : String) :
    e.Compiles identifier payload (e.compile identifier payload) := by
  rw [compile]
  split
  · next hfailing => exact .forced (List.contains_iff_mem.1 hfailing)
  · next hfailing =>
    split
    · next r hcheck => exact .rejected r hcheck
    · next compiled hcheck =>
      exact .good compiled (fun h => hfailing (List.contains_iff_mem.2 h)) hcheck

/-- What makes a compile good. -/
theorem compile_eq_ok_iff {a : Artifact} : (e.compile identifier payload).2 = .ok a ↔
    identifier ∉ e.failing ∧ ∃ rules, ∃ matcher : Matcher P, Payload.decode payload = .ok rules ∧
      (∀ n ∈ e.ruleLimit, rules.length ≤ n) ∧ Matcher.ofRules rules = .ok matcher ∧
      a = ⟨identifier, rules.length, Fingerprint.hex payload⟩ := by
  have hchecked : (∃ compiled : Compiled P, check e.ruleLimit identifier payload = .ok compiled ∧
        a = compiled.artifact) ↔
      ∃ rules, ∃ matcher : Matcher P, Payload.decode payload = .ok rules ∧
        (∀ n ∈ e.ruleLimit, rules.length ≤ n) ∧ Matcher.ofRules rules = .ok matcher ∧
        a = ⟨identifier, rules.length, Fingerprint.hex payload⟩ := by
    constructor
    · rintro ⟨compiled, hcheck, rfl⟩
      obtain ⟨rules, matcher, hdecode, hfew, hmatcher, rfl⟩ := check_eq_ok_iff.1 hcheck
      exact ⟨rules, matcher, hdecode, hfew, hmatcher, rfl⟩
    · rintro ⟨rules, matcher, hdecode, hfew, hmatcher, rfl⟩
      exact ⟨_, check_eq_ok_iff.2 ⟨rules, matcher, hdecode, hfew, hmatcher, rfl⟩, rfl⟩
  rw [← hchecked]
  have hcompiles := e.compiles identifier payload
  generalize e.compile identifier payload = result at hcompiles
  cases hcompiles with
  | forced failing => simp [failing]
  | rejected r hcheck => simp [hcheck]
  | good compiled failing hcheck => simp [failing, hcheck, eq_comm]

/-- A compile that fails is counted, and that is all. -/
theorem compile_fst_of_error {error : EngineError}
    (h : (e.compile identifier payload).2 = .error error) :
    (e.compile identifier payload).1 = { e with calls := e.calls + 1 } := by
  have hcompiles := e.compiles identifier payload
  generalize e.compile identifier payload = result at hcompiles h
  cases hcompiles with
  | forced | rejected => rfl
  | good => cases h

/-! ### Calls -/

/-- A compile leaves everything but the stored payloads alone. -/
theorem exists_call_compile (e : Engine P) (identifier payload : String) :
    ∃ stored, (e.call (.compile identifier payload)).1 =
      { e with calls := e.calls + 1, stored := stored } := by
  have hcompiles := e.compiles identifier payload
  rw [call]
  generalize e.compile identifier payload = result at hcompiles ⊢
  cases hcompiles with
  | forced | rejected => exact ⟨e.stored, rfl⟩
  | good compiled => exact ⟨_, rfl⟩

theorem ruleLimit_call (e : Engine P) (c : Call) : (e.call c).1.ruleLimit = e.ruleLimit := by
  cases c with
  | compile identifier payload =>
    obtain ⟨stored, hcall⟩ := e.exists_call_compile identifier payload
    rw [hcall]
  | fail | clearFailures | attach | detachAll => rfl

theorem mem_failing_call (e : Engine P) (c : Call) (identifier : String) :
    identifier ∈ (e.call c).1.failing ↔
      c ≠ .clearFailures ∧ (c = .fail identifier ∨ identifier ∈ e.failing) := by
  cases c with
  | compile identifier' payload =>
    obtain ⟨stored, hcall⟩ := e.exists_call_compile identifier' payload
    simp [hcall]
  | fail identifier' => simp [call, fail, eq_comm]
  | clearFailures => simp [call, clearFailures]
  | attach identifier' s => simp [call, attach]
  | detachAll s => simp [call, detachAll]

theorem attached_call (e : Engine P) (c : Call) (s : Surface) :
    (e.call c).1.attached s =
      if c = .detachAll s then [] else e.attached s ++ (c.attaches? s).toList := by
  cases c with
  | compile identifier payload =>
    obtain ⟨stored, hcall⟩ := e.exists_call_compile identifier payload
    simp [hcall, attached, Call.attaches?]
  | fail identifier => simp [call, fail, attached, Call.attaches?]
  | clearFailures => simp [call, clearFailures, attached, Call.attaches?]
  | attach identifier s' =>
    rw [call, attached_attach]
    by_cases hs : s = s'
    · simp [hs, Call.attaches?]
    · simp [hs, Ne.symm hs, Call.attaches?]
  | detachAll s' =>
    rw [call, attached_detachAll]
    by_cases hs : s = s'
    · simp [hs]
    · simp [hs, Ne.symm hs, Call.attaches?]

/-- What is stored is what the last good compile left. -/
theorem stored_call (e : Engine P) (c : Call) (identifier : String) :
    ((e.call c).1.stored.get? identifier).map .ok =
      ((Entry.good? identifier ⟨c, (e.call c).2⟩).map (check e.ruleLimit identifier)).or
        ((e.stored.get? identifier).map .ok) := by
  cases c with
  | fail | clearFailures | attach | detachAll => rfl
  | compile identifier' payload =>
    have hcompiles := e.compiles identifier' payload
    rw [call]
    generalize e.compile identifier' payload = result at hcompiles ⊢
    cases hcompiles with
    | forced | rejected => rfl
    | good compiled failing hcheck =>
      rw [Table.get?_set, Entry.good?]
      by_cases hsame : identifier = identifier'
      · subst hsame
        simp [hcheck]
      · simp [hsame, Ne.symm hsame]

/-! ### What the engine serves -/

/-- The engine serves what a log says: what compiles fail, under every identifier the payload of
    the last good compile, and what was attached to the surfaces. -/
structure Serves (limit : Option Nat) (calls : List Call) (entries : List Entry) (e : Engine P) :
    Prop where
  ruleLimit : e.ruleLimit = limit
  failing : ∀ identifier, identifier ∈ e.failing ↔ Fails calls identifier
  stored : ∀ identifier, (e.stored.get? identifier).map .ok =
    (lastGood entries identifier).map (check limit identifier)
  attached : ∀ s, e.attached s = attachedBy calls s

namespace Serves

theorem empty (limit : Option Nat) : Serves limit [] [] ({ ruleLimit := limit } : Engine P) where
  ruleLimit := rfl
  failing _ := iff_of_false List.not_mem_nil List.not_mem_nil
  stored _ := rfl
  attached _ := rfl

theorem call (h : Serves limit calls entries e) (c : Call) :
    Serves limit (calls ++ [c]) (entries ++ [⟨c, (e.call c).2⟩]) (e.call c).1 where
  ruleLimit := (e.ruleLimit_call c).trans h.ruleLimit
  failing identifier := by rw [mem_failing_call, fails_concat, h.failing]
  stored identifier := by
    rw [stored_call, lastGood_concat, h.stored, h.ruleLimit]
    cases Entry.good? identifier ⟨c, (e.call c).2⟩ <;> rfl
  attached s := by rw [attached_call, attachedBy_concat, h.attached]

/-- The engine serves what its log says, after any calls. -/
theorem after (limit : Option Nat) (calls : List Call) :
    Serves limit calls (log ({ ruleLimit := limit } : Engine P) calls)
      (Engine.after ({ ruleLimit := limit } : Engine P) calls) :=
  log_induction (P := Serves limit) (empty limit) (fun _ _ _ c h => h.call c) calls

/-! ### What follows from the log -/

theorem isSome_lookup (h : Serves limit calls entries e) :
    (e.lookup identifier).isSome = (lastGood entries identifier).isSome := by
  have hstored := congrArg Option.isSome (h.stored identifier)
  simpa [lookup] using hstored

/-- The last good payload has rules, and these are what is stored. -/
theorem exists_of_lastGood (h : Serves limit calls entries e)
    (hgood : lastGood entries identifier = some payload) :
    ∃ rules, ∃ matcher : Matcher P, Payload.decode payload = .ok rules ∧
      Matcher.ofRules rules = .ok matcher ∧ e.stored.get? identifier =
        some ⟨⟨identifier, rules.length, Fingerprint.hex payload⟩, matcher⟩ := by
  have hstored := h.stored identifier
  rw [hgood, Option.map_some, Option.map_eq_some_iff] at hstored
  obtain ⟨compiled, hget, hcheck⟩ := hstored
  obtain ⟨rules, matcher, hdecode, -, hmatcher, rfl⟩ := check_eq_ok_iff.1 hcheck.symm
  exact ⟨rules, matcher, hdecode, hmatcher, hget⟩

/-- What is stored says of a request what the last good payload says. -/
theorem verdict_eq (h : Serves limit calls entries e) (q : Request) (identifier : String) :
    (e.stored.get? identifier).map (·.matcher.verdict q) =
      (lastGood entries identifier).bind (verdictOf? P q) := by
  cases hgood : lastGood entries identifier with
  | none =>
    have hstored := h.stored identifier
    rw [hgood, Option.map_none, Option.map_eq_none_iff] at hstored
    rw [hstored]
    rfl
  | some payload =>
    obtain ⟨rules, matcher, hdecode, hmatcher, hget⟩ := h.exists_of_lastGood hgood
    rw [hget, Option.bind_some, verdictOf?_eq q hdecode hmatcher]
    rfl

theorem evaluate_eq (h : Serves limit calls entries e) (s : Surface) (q : Request) :
    e.evaluate s q = (((attachedBy calls s).filterMap (lastGood entries)).filterMap
      (verdictOf? P q)).foldl combine {} := by
  rw [evaluate, List.map_filterMap, List.filterMap_filterMap, h.attached]
  refine congrArg (List.foldl combine {} ·) (List.filterMap_congr fun identifier _ => ?_)
  exact h.verdict_eq q identifier

end Serves

/-- Whatever is asked of the engine, and whatever its language of patterns is, it serves the
    last good compile of every identifier. It holds something under an identifier if and only if
    a compile of it was good, and then that is what the last good compile was given: its rules
    are counted, and they are put to every request on the surfaces that the identifier is
    attached to, as often as it is. A compile is good if and only if it is not made to fail and
    its payload has rules, not too many, with well-formed patterns; one that is not good leaves
    everything as it was, apart from the count of compiles. -/
theorem serves_last_good (limit : Option Nat) (calls : List Call) :
    let e := after ({ ruleLimit := limit } : Engine P) calls
    let entries := log ({ ruleLimit := limit } : Engine P) calls
    (∀ identifier, (e.lookup identifier).isSome = true ↔
      ∃ payload a, ⟨.compile identifier payload, some (.ok a)⟩ ∈ entries) ∧
    (∀ identifier payload, lastGood entries identifier = some payload →
      ∃ rules, ∃ matcher : Matcher P, Payload.decode payload = .ok rules ∧
        Matcher.ofRules rules = .ok matcher ∧
        e.lookup identifier = some ⟨identifier, rules.length, Fingerprint.hex payload⟩ ∧
        ∀ q, verdictOf? P q payload = some (matcher.verdict q)) ∧
    (∀ s, e.attached s = attachedBy calls s ∧
      ∀ q, e.evaluate s q = (((attachedBy calls s).filterMap (lastGood entries)).filterMap
        (verdictOf? P q)).foldl combine {}) ∧
    ∀ identifier payload,
      (∀ a, (e.compile identifier payload).2 = .ok a ↔
        ¬Fails calls identifier ∧ ∃ rules, ∃ matcher : Matcher P,
          Payload.decode payload = .ok rules ∧ (∀ n ∈ limit, rules.length ≤ n) ∧
          Matcher.ofRules rules = .ok matcher ∧
          a = ⟨identifier, rules.length, Fingerprint.hex payload⟩) ∧
      ∀ error, (e.compile identifier payload).2 = .error error →
        let e' := (e.compile identifier payload).1
        e' = { e with calls := e.calls + 1 } ∧
        (∀ identifier', e'.lookup identifier' = e.lookup identifier') ∧
        ∀ s, e'.attached s = e.attached s ∧ ∀ q, e'.evaluate s q = e.evaluate s q := by
  intro e entries
  have hserves : Serves limit calls entries e := Serves.after limit calls
  refine ⟨fun identifier => ?_, fun identifier payload hgood => ?_, fun s => ?_,
    fun identifier payload => ⟨fun a => ?_, fun error herror => ?_⟩⟩
  · rw [hserves.isSome_lookup, isSome_lastGood_iff]
  · obtain ⟨rules, matcher, hdecode, hmatcher, hget⟩ := hserves.exists_of_lastGood hgood
    refine ⟨rules, matcher, hdecode, hmatcher, ?_, fun q => verdictOf?_eq q hdecode hmatcher⟩
    rw [lookup, hget]
    rfl
  · exact ⟨hserves.attached s, hserves.evaluate_eq s⟩
  · rw [compile_eq_ok_iff, hserves.failing, hserves.ruleLimit]
  · intro e'
    have hsame : e' = { e with calls := e.calls + 1 } := compile_fst_of_error herror
    rw [hsame]
    exact ⟨rfl, fun _ => rfl, fun _ => ⟨rfl, fun _ => rfl⟩⟩

/-- A payload that blocks what has `ads` in its URL. -/
def adsPayload : String := Payload.encode [⟨{ urlPattern := "ads" }, .block⟩]

/-- It is compiled and attached to a surface. Of the compiles that follow one is made to fail, and
    the payload of the other is cut off. -/
def failingCalls : List Call :=
  [.compile "list" adsPayload, .attach "none" 1, .attach "list" 1, .fail "list",
    .compile "list" "[]", .clearFailures, .compile "list" "["]

theorem lastGood_failingCalls :
    lastGood (log { ruleLimit := some 1 } failingCalls) "list" = some adsPayload ∧
      attachedBy failingCalls 1 = ["none", "list"] ∧
      lastGood (log { ruleLimit := some 1 } failingCalls) "none" = none := by
  decide +kernel

/-- The payload is still there, and it blocks. A pattern that is not well-formed changes nothing
    either. -/
theorem serves_last_good_failing :
    let e := after { ruleLimit := some 1 } failingCalls
    let bad := Payload.encode [⟨{ urlPattern := "(" }, .block⟩]
    let q : Request := ⟨"https://ads.net/", "a.org", ∅⟩
    e.lookup "list" = some ⟨"list", 1, Fingerprint.hex adsPayload⟩ ∧
      (e.evaluate 1 q).decision = .block ∧
      (e.compile "list" bad).2 = .error (.rejected (.invalidPattern 0)) ∧
      ((e.compile "list" bad).1.evaluate 1 q).decision = .block := by
  intro e bad q
  obtain ⟨-, hgood, hsurfaces, hcompile⟩ := serves_last_good (some 1) failingCalls
  obtain ⟨hlast, hattached, hnone⟩ := lastGood_failingCalls
  have hdecode : Payload.decode adsPayload = .ok [⟨{ urlPattern := "ads" }, .block⟩] :=
    Payload.decode_encode (by simp)
  obtain ⟨rules, matcher, hrules, -, hlookup, -⟩ := hgood "list" adsPayload hlast
  obtain rfl := Except.ok.inj (hdecode.symm.trans hrules)
  have hblocks : (e.evaluate 1 q).decision = .block := by
    rw [(hsurfaces 1).2 q, hattached]
    simp only [List.filterMap_cons, hlast, hnone]
    decide +kernel
  have herror : (e.compile "list" bad).2 = .error (.rejected (.invalidPattern 0)) := by
    decide +kernel
  refine ⟨hlookup, hblocks, herror, ?_⟩
  rw [(((hcompile "list" bad).2 _ herror).2.2 1).2 q]
  exact hblocks

end Engine

end ContentBlocking
