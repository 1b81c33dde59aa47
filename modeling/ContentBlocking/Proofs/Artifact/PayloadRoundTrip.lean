import ContentBlocking.Artifact.Payload
import ContentBlocking.Proofs.Except
import ContentBlocking.Proofs.Json.Records

/-!
# Payloads read back

The payload of a collection of rules is one text of a JSON value, in which every
member that says nothing is missing. The engine reads the same rules back from
it, as long as every rule has a pattern.

* `rawRule?_ofRule`: a rule is read back as it stands, member by member;
* `rule_rawOfRule`: and what stands there means the rule;
* `decode_encode_eq`: so the rules of a payload are the ones it was made of, unless one
  of them has no pattern;
* `payload_round_trip`: what follows for the payloads of two collections, and for texts
  that come from elsewhere.
-/

namespace ContentBlocking

/-! ### Sets of types -/

namespace ResourceTypes

theorem ofList_toList (types : ResourceTypes) : ofList types.toList = types := by
  obtain ⟨mask⟩ := types
  -- There are few enough sets to go through all of them.
  revert mask
  decide +kernel

theorem eq_empty_of_isEmpty {types : ResourceTypes} (h : types.isEmpty = true) : types = ∅ := by
  obtain ⟨mask⟩ := types
  exact congrArg ResourceTypes.mk (beq_iff_eq.1 h)

end ResourceTypes

namespace Payload

/-! ### A rule as it stands -/

/-- The names of the types of a trigger, unless it is for all types. -/
def typeNames? (types : ResourceTypes) : Option (List String) :=
  if types.isEmpty then none else some (types.toList.map (·.name))

/-- The selector of an action that has one. -/
def selector? : Action → Option String
  | .hide selector => some selector
  | _ => none

/-- The rule as it stands in its payload. -/
def rawOfRule (r : Rule) : RawRule where
  urlPattern := r.trigger.urlPattern
  resourceTypes := typeNames? r.trigger.resourceTypes
  ifDomains := r.trigger.ifDomains
  unlessDomains := r.trigger.unlessDomains
  kind := actionName r.action
  selector := selector? r.action

theorem strings?_ofStrings (ss : List String) : strings? (ofStrings ss) = some (some ss) := by
  have h : (Json.list? Json.str? (ofStrings ss)).map some = some (some ss) := by
    rw [ofStrings, Json.list?_strings, Option.map_some]
  exact h

/-- The members of the trigger of a rule. -/
def triggerFields (t : Trigger) : Json.Fields :=
  [("url-filter", some (.str t.urlPattern)),
    ("resource-type", (typeNames? t.resourceTypes).map ofStrings),
    ("if-domain", t.ifDomains.map ofStrings),
    ("unless-domain", t.unlessDomains.map ofStrings)]

/-- The members of the action of a rule. -/
def actionFields (a : Action) : Json.Fields :=
  [("type", some (.str (actionName a))), ("selector", (selector? a).map .str)]

theorem fields?_ofTrigger (t : Trigger) :
    (ofTrigger t).fields? ["url-filter", "resource-type", "if-domain", "unless-domain"] =
      some (triggerFields t) := by
  obtain ⟨pattern, types, ifs, unlesses⟩ := t
  -- Each of the three may be missing, and the others still have to be found.
  cases ht : types.isEmpty <;> cases ifs <;> cases unlesses <;>
    simp [ofTrigger, triggerFields, typeNames?, ht, Json.fields?, Json.member?]

theorem fields?_ofAction (a : Action) :
    (ofAction a).fields? ["type", "selector"] = some (actionFields a) := by
  cases a <;> simp [ofAction, actionFields, selector?, Json.fields?, Json.member?]

theorem fields?_ofRule (r : Rule) : (ofRule r).fields? ["trigger", "action"] =
    some [("trigger", some (ofTrigger r.trigger)), ("action", some (ofAction r.action))] := by
  simp [ofRule, Json.fields?, Json.member?]

theorem rawRule?_ofRule (r : Rule) : rawRule? (ofRule r) = some (rawOfRule r) := by
  have hpattern : (triggerFields r.trigger).get? "url-filter" Json.str? =
      some r.trigger.urlPattern := Json.Fields.get?_of_lookup (j := .str _) rfl
  have htypes : (triggerFields r.trigger).getD? "resource-type" strings? none =
      some (typeNames? r.trigger.resourceTypes) :=
    Json.Fields.getD?_of_lookup rfl strings?_ofStrings
  have hif : (triggerFields r.trigger).getD? "if-domain" strings? none =
      some r.trigger.ifDomains := Json.Fields.getD?_of_lookup rfl strings?_ofStrings
  have hunless : (triggerFields r.trigger).getD? "unless-domain" strings? none =
      some r.trigger.unlessDomains := Json.Fields.getD?_of_lookup rfl strings?_ofStrings
  have hkind : (actionFields r.action).get? "type" Json.str? = some (actionName r.action) :=
    Json.Fields.get?_of_lookup (j := .str _) rfl
  have hselector : (actionFields r.action).getD? "selector" (Json.orNull? Json.str?) none =
      some (selector? r.action) := Json.Fields.getD?_of_lookup rfl fun _ => rfl
  simp only [rawRule?, fields?_ofRule, Option.bind_eq_bind, Option.bind_some]
  -- First the records are found, and then the members in each of them.
  rw [Json.Fields.get?_of_lookup rfl, fields?_ofTrigger, Option.bind_some,
    Json.Fields.get?_of_lookup rfl, fields?_ofAction]
  simp only [Option.bind_some, hpattern, htypes, hif, hunless, hkind, hselector]
  rfl

/-- The place of the first rule that has no pattern. -/
def firstWithoutPattern? (rules : List Rule) : Option Nat :=
  rules.findIdx? fun r => r.trigger.urlPattern.isEmpty

/-! ### What it means -/

theorem foldlM_names (ts : List ResourceType) (types : ResourceTypes) :
    (ts.map (·.name)).foldlM (fun types name =>
      match ResourceType.ofName? name with
      | some t => Except.ok (types.insert t)
      | none => .error (PayloadError.unknownResourceType name)) types =
      .ok (ts.foldl ResourceTypes.insert types) := by
  induction ts generalizing types with
  | nil => rfl
  | cons t ts ih =>
    rw [List.map_cons, List.foldlM_cons, ResourceType.ofName?_name]
    exact ih _

theorem resourceTypes_typeNames? (types : ResourceTypes) :
    resourceTypes ((typeNames? types).getD []) = .ok types := by
  cases h : types.isEmpty with
  -- A rule for all types names none of them.
  | true =>
    rw [typeNames?, h, if_pos rfl, ResourceTypes.eq_empty_of_isEmpty h]
    rfl
  | false =>
    have hfold := foldlM_names types.toList ∅
    rw [← ResourceTypes.ofList, ResourceTypes.ofList_toList] at hfold
    rw [typeNames?, h, if_neg Bool.false_ne_true, Option.getD_some]
    exact hfold

theorem action_actionName (a : Action) : action (actionName a) (selector? a) = .ok a := by
  cases a <;> rfl

theorem rule_rawOfRule {r : Rule} (index : Nat) (h : r.trigger.urlPattern ≠ "") :
    rule index (rawOfRule r) = .ok r := by
  have hempty : (rawOfRule r).urlPattern.isEmpty = false := by
    simpa [rawOfRule] using h
  have htypes : resourceTypes ((rawOfRule r).resourceTypes.getD []) = .ok r.trigger.resourceTypes :=
    resourceTypes_typeNames? _
  have haction : action (rawOfRule r).kind (rawOfRule r).selector = .ok r.action :=
    action_actionName _
  rw [rule, hempty, if_neg Bool.false_ne_true, htypes, haction]
  rfl

/-- Rules are read until one of them has no pattern. -/
theorem rulesFrom_rawOfRule (index : Nat) (rules : List Rule) :
    rulesFrom index (rules.map rawOfRule) = match firstWithoutPattern? rules with
      | none => .ok rules
      | some i => .error (.emptyPattern (index + i)) := by
  induction rules generalizing index with
  | nil => rfl
  | cons r rules ih =>
    rw [List.map_cons, rulesFrom, firstWithoutPattern?, List.findIdx?_cons]
    by_cases hr : r.trigger.urlPattern = ""
    · have hempty : (rawOfRule r).urlPattern.isEmpty = true := by simpa [rawOfRule] using hr
      rw [rule, hempty, if_pos rfl, if_pos (by simpa using hr)]
      rfl
    · rw [rule_rawOfRule index hr, ih (index + 1), if_neg (by simpa using hr),
        ← firstWithoutPattern?]
      cases firstWithoutPattern? rules with
      | none => rfl
      -- The place of the rule is counted from the first one.
      | some i => simp [bind, Except.bind, Nat.add_right_comm, Nat.add_assoc]

/-! ### The whole payload -/

theorem isPlain_ofStrings (ss : List String) : (ofStrings ss).IsPlain := Json.isPlain_strings ss

theorem isPlain_ofTrigger (t : Trigger) : (ofTrigger t).IsPlain := by
  refine .obj fun m hm => ?_
  simp only [List.mem_append, List.mem_singleton, Option.mem_toList, Option.map_eq_some_iff] at hm
  obtain ((rfl | hm) | ⟨ds, -, rfl⟩) | ⟨ds, -, rfl⟩ := hm
  · exact .str
  · split at hm
    · exact absurd hm List.not_mem_nil
    · rw [List.mem_singleton.1 hm]
      exact isPlain_ofStrings _
  · exact isPlain_ofStrings ds
  · exact isPlain_ofStrings ds

theorem isPlain_ofAction (a : Action) : (ofAction a).IsPlain := by
  refine .obj fun m hm => ?_
  cases a <;> simp only [List.mem_cons, List.not_mem_nil, or_false] at hm
  -- Only this action has a selector.
  case hide =>
    rcases hm with rfl | rfl <;> exact .str
  all_goals
    rw [hm]
    exact .str

theorem isPlain_ofRule (r : Rule) : (ofRule r).IsPlain := by
  refine .obj fun m hm => ?_
  simp only [List.mem_cons, List.not_mem_nil, or_false] at hm
  rcases hm with rfl | rfl
  · exact isPlain_ofTrigger _
  · exact isPlain_ofAction _

/-- The engine reads the rules of a collection back from its payload, unless one of them
    has no pattern. -/
theorem decode_encode_eq (rules : List Rule) :
    decode (encode rules) = match firstWithoutPattern? rules with
      | none => .ok rules
      | some i => .error (.emptyPattern i) := by
  have hplain : (Json.arr (rules.map ofRule)).IsPlain := by
    refine .arr fun j hj => ?_
    obtain ⟨r, -, rfl⟩ := List.mem_map.1 hj
    exact isPlain_ofRule r
  have hraw : (rules.map ofRule).mapM rawRule? = some (rules.map rawOfRule) := by
    rw [List.mapM_map]
    -- The induction is on the rules alone.
    clear hplain
    induction rules with
    | nil => rfl
    | cons r rules ih => rw [List.mapM_cons, ih, Function.comp_apply, rawRule?_ofRule]; rfl
  rw [decode, encode, Json.parse?_compact hplain, Option.bind_some, Json.list?, hraw]
  simpa using rulesFrom_rawOfRule 0 rules

theorem firstWithoutPattern?_eq_none {rules : List Rule}
    (h : ∀ r ∈ rules, r.trigger.urlPattern ≠ "") : firstWithoutPattern? rules = none := by
  simpa [firstWithoutPattern?] using h

theorem decode_encode {rules : List Rule} (h : ∀ r ∈ rules, r.trigger.urlPattern ≠ "") :
    decode (encode rules) = .ok rules := by
  rw [decode_encode_eq, firstWithoutPattern?_eq_none h]

/-! ### What is read from any text -/

theorem urlPattern_ne_empty_of_rule {index : Nat} {raw : RawRule} {r : Rule}
    (h : rule index raw = .ok r) : r.trigger.urlPattern ≠ "" := by
  rw [rule] at h
  split at h
  · cases h
  · next hpattern =>
    obtain ⟨types, -, h⟩ := exists_of_bind_eq_ok h
    obtain ⟨action, -, h⟩ := exists_of_bind_eq_ok h
    obtain rfl := Except.ok.inj h
    simpa using hpattern

theorem urlPattern_ne_empty_of_rulesFrom {index : Nat} {raw : List RawRule} {rules : List Rule}
    (h : rulesFrom index raw = .ok rules) : ∀ r ∈ rules, r.trigger.urlPattern ≠ "" := by
  induction raw generalizing index rules with
  | nil =>
    obtain rfl := Except.ok.inj h
    exact fun _ => nofun
  | cons x raw ih =>
    obtain ⟨r, hr, h⟩ := exists_of_bind_eq_ok h
    obtain ⟨rest, hrest, h⟩ := exists_of_bind_eq_ok h
    obtain rfl := Except.ok.inj h
    exact List.forall_mem_cons.2 ⟨urlPattern_ne_empty_of_rule hr, ih hrest⟩

/-- The rules of any payload have patterns, whoever has written it. -/
theorem urlPattern_ne_empty_of_decode {text : String} {rules : List Rule}
    (h : decode text = .ok rules) : ∀ r ∈ rules, r.trigger.urlPattern ≠ "" := by
  rw [decode] at h
  split at h
  · exact urlPattern_ne_empty_of_rulesFrom h
  · cases h

/-- A payload is read back as the collection it was made of, or is refused for the first
    rule that has no pattern. So collections of rules with patterns have different
    payloads, and what was read from any text is written in a form that does not change
    when it is read and written again. -/
theorem payload_round_trip :
    (∀ rules, decode (encode rules) = match firstWithoutPattern? rules with
      | none => .ok rules
      | some i => .error (.emptyPattern i)) ∧
    (∀ rules rules', (∀ r ∈ rules, r.trigger.urlPattern ≠ "") →
      (∀ r ∈ rules', r.trigger.urlPattern ≠ "") → encode rules = encode rules' →
        rules = rules') ∧
    ∀ text rules, decode text = .ok rules →
      (decode (encode rules)).map encode = .ok (encode rules) := by
  refine ⟨decode_encode_eq, fun rules rules' h h' heq => ?_, fun text rules h => ?_⟩
  · have hread := decode_encode h
    rw [heq, decode_encode h'] at hread
    exact (Except.ok.inj hread).symm
  · rw [decode_encode (urlPattern_ne_empty_of_decode h)]
    rfl

end Payload

end ContentBlocking
