import ContentBlocking.CommandLine.Artifacts
import ContentBlocking.CommandLine.Check
import ContentBlocking.Proofs.Artifact.PayloadRoundTrip
import ContentBlocking.Proofs.Except
import ContentBlocking.Proofs.Verdict
import Mathlib.Data.List.Basic

/-!
# Files that a request is put to

A request is put to several files of rules, and the verdicts of their matchers are taken
together. The engine knows a file by its name without the directory and the extension, so
of several files that are known by one name only the last one is asked, once for each of
them.

* `matcherAt?`: the matcher of the rules in a file;
* `CheckRequest.standIn`: the file that is asked in the place of another one;
* `CheckRequest.foldlM_attach`: what the engine holds after the files were read;
* `CheckRequest.report_eq_standIn`: what is said of the request, and that it is what the
  files say unless several with different rules are known by one name;
* `CheckRequest.not_forall_report`: two such files, of which one is not asked.
-/

namespace ContentBlocking

/-! ### Verdicts taken together -/

namespace Engine

variable (verdicts : List Verdict) (v : Verdict)

/-- What holds of two verdicts together if it holds of one of them, holds of several
    together if it holds of one of them. -/
theorem foldl_combine_iff {P : Verdict → Prop} (hP : ∀ v w, P (combine v w) ↔ P v ∨ P w) :
    P (verdicts.foldl combine v) ↔ P v ∨ ∃ w ∈ verdicts, P w := by
  induction verdicts generalizing v with
  | nil => simp
  | cons w verdicts ih => rw [List.foldl_cons, ih, hP, List.exists_mem_cons_iff, or_assoc]

theorem decision_foldl_combine : (verdicts.foldl combine v).decision = .block ↔
    v.decision = .block ∨ ∃ w ∈ verdicts, w.decision = .block := by
  refine foldl_combine_iff (P := (·.decision = .block)) verdicts v fun v w => ?_
  rw [combine]
  by_cases hw : w.decision = .block
  · simp [hw]
  · simp [hw]

theorem https_foldl_combine : (verdicts.foldl combine v).https = true ↔
    v.https = true ∨ ∃ w ∈ verdicts, w.https = true :=
  foldl_combine_iff (P := (·.https = true)) verdicts v fun v w => by
    rw [combine, Bool.or_eq_true]

theorem hidden_foldl_combine : (verdicts.foldl combine v).hidden =
    v.hidden ++ verdicts.flatMap (·.hidden) := by
  induction verdicts generalizing v with
  | nil => simp
  | cons w verdicts ih => rw [List.foldl_cons, ih, List.flatMap_cons, combine, List.append_assoc]

end Engine

namespace CommandLine

/-- The matcher of the rules in a file, if it can be read and is good. -/
def matcherAt? (d : Disk) (path : String) : Option Matcher := do
  let payload ← (d.read path).toOption
  let rules ← (verify payload).toOption
  (Matcher.ofRules rules).toOption

namespace CheckRequest

variable {q : CheckRequest} {d : Disk} {t : ResourceType} {e : Engine} {path : String}
  {paths : List String} {m : Matcher}

/-! ### Files and names -/

/-- The verdict of the rules in a file. -/
def fileVerdict (q : CheckRequest) (d : Disk) (t : ResourceType) (path : String) : Verdict :=
  ((matcherAt? d path).map (·.verdict ⟨q.url, q.pageHost, .ofList [t]⟩)).getD {}

/-- The verdict is what the files say together. -/
structure Reports (q : CheckRequest) (d : Disk) (t : ResourceType) (paths : List String)
    (v : Verdict) : Prop where
  blocks : v.decision = .block ↔ ∃ path ∈ paths, (q.fileVerdict d t path).decision = .block
  hidden : v.hidden = paths.flatMap fun path => (q.fileVerdict d t path).hidden
  https : v.https = true ↔ ∃ path ∈ paths, (q.fileVerdict d t path).https = true

theorem reports_foldl_combine (q : CheckRequest) (d : Disk) (t : ResourceType)
    (paths : List String) :
    q.Reports d t paths ((paths.map (q.fileVerdict d t)).foldl Engine.combine {}) where
  blocks := by simp [Engine.decision_foldl_combine]
  hidden := by simp [Engine.hidden_foldl_combine, List.flatMap_map]
  https := by simp [Engine.https_foldl_combine]

/-- The name by which the engine knows a file. -/
def identifierAt (path : String) : String := (Path.stem? path).getD ""

/-- The last of the files that is known by a name. -/
def lastAt? (paths : List String) (identifier : String) : Option String :=
  paths.reverse.find? (identifierAt · == identifier)

/-- The file that is asked in the place of another one. -/
def standIn (paths : List String) (path : String) : String :=
  (lastAt? paths (identifierAt path)).getD path

theorem lastAt?_cons (path : String) (paths : List String) (identifier : String) :
    lastAt? (path :: paths) identifier = (lastAt? paths identifier).or
      (if identifierAt path = identifier then some path else none) := by
  rw [lastAt?, List.reverse_cons, List.find?_append, List.find?_singleton]
  simp only [beq_iff_eq]
  rfl

theorem lastAt?_eq_standIn (h : path ∈ paths) :
    lastAt? paths (identifierAt path) = some (standIn paths path) := by
  have hsome : (lastAt? paths (identifierAt path)).isSome = true :=
    List.find?_isSome.2 ⟨path, List.mem_reverse.2 h, beq_self_eq_true _⟩
  obtain ⟨last, hlast⟩ := Option.isSome_iff_exists.1 hsome
  rw [standIn, hlast, Option.getD_some]

theorem standIn_mem (h : path ∈ paths) :
    standIn paths path ∈ paths ∧ identifierAt (standIn paths path) = identifierAt path := by
  have hlast := lastAt?_eq_standIn h
  rw [lastAt?] at hlast
  have hname := List.find?_some hlast
  exact ⟨List.mem_reverse.1 (List.mem_of_find?_eq_some hlast), by simpa using hname⟩

/-! ### What the engine holds -/

theorem of_matcherAt? (h : matcherAt? d path = some m) : ∃ payload, d.read path = .ok payload ∧
    ∃ rules, Payload.decode payload = .ok rules ∧ Matcher.ofRules rules = .ok m := by
  obtain ⟨payload, hpayload, h⟩ := Option.bind_eq_some_iff.1 h
  obtain ⟨rules, hrules, h⟩ := Option.bind_eq_some_iff.1 h
  have hverify := eq_ok_of_toOption_eq_some hrules
  rw [verify] at hverify
  refine ⟨payload, eq_ok_of_toOption_eq_some hpayload, rules, ?_,
    eq_ok_of_toOption_eq_some h⟩
  split at hverify
  · cases hverify
  · next hdecode =>
    split at hverify
    · cases hverify
    · rw [hdecode, Except.ok.inj hverify]

/-- The matcher of good rules that were written to a file. -/
theorem matcherAt?_eq_some {rules : List Rule} (hread : d.read path = .ok (Payload.encode rules))
    (hgood : ∀ r ∈ rules, r.IsGood) : matcherAt? d path = some ⟨rules.map .ofRule⟩ := by
  have hmatcher := Matcher.ofRules_eq_ok fun r hr => (hgood r hr).compiles
  have hverify : verify (Payload.encode rules) = .ok rules := by
    rw [verify, Payload.decode_encode fun r hr => (hgood r hr).nonempty]
    dsimp only
    rw [hmatcher]
  rw [matcherAt?, hread]
  simp only [Except.toOption, bind, Option.bind_some, hverify, hmatcher]

/-- The engine after the payload of a file was compiled and attached under its name, in the
    place of an earlier one. -/
def withFile (e : Engine) (path : String) (c : Compiled) : Engine :=
  Engine.attach
    { e with
      calls := e.calls + 1
      stored := e.stored.set (identifierAt path) c }
    (identifierAt path) surface

theorem attach_eq_withFile (hlimit : e.ruleLimit = none) (hfailing : e.failing = [])
    (h : matcherAt? d path = some m) :
    ∃ c : Compiled, c.matcher = m ∧ attach d e path = .ok (withFile e path c) := by
  obtain ⟨payload, hread, rules, hdecode, hm⟩ := of_matcherAt? h
  let c : Compiled := ⟨⟨identifierAt path, rules.length, Fingerprint.hex payload⟩, m⟩
  have hcheck : Engine.check none (identifierAt path) payload = .ok c := by
    rw [Engine.check, hdecode]
    dsimp only [Option.filter_none]
    rw [hm]
  have hcompile : e.compile (identifierAt path) payload =
      ({ e with
          calls := e.calls + 1
          stored := e.stored.set (identifierAt path) c }, .ok c.artifact) := by
    rw [Engine.compile, hfailing, hlimit]
    dsimp only
    rw [hcheck]
    rfl
  refine ⟨c, rfl, ?_⟩
  rw [attach, readText, hread, ← identifierAt]
  dsimp only [Except.mapError, bind, Except.bind]
  rw [hcompile]
  rfl

/-- What the engine holds and runs after files were attached. -/
structure Attached (d : Disk) (paths : List String) (e e' : Engine) : Prop where
  attached : e'.attached surface = e.attached surface ++ paths.map identifierAt
  held : ∀ identifier, (e'.stored.get? identifier).map (·.matcher) =
    ((lastAt? paths identifier).bind (matcherAt? d)).or
      ((e.stored.get? identifier).map (·.matcher))

theorem foldlM_attach (hlimit : e.ruleLimit = none) (hfailing : e.failing = [])
    (h : ∀ path ∈ paths, (matcherAt? d path).isSome = true) :
    ∃ e', paths.foldlM (attach d) e = .ok e' ∧ Attached d paths e e' := by
  induction paths generalizing e with
  | nil => exact ⟨e, rfl, by simp, fun identifier => rfl⟩
  | cons path paths ih =>
    obtain ⟨m, hm⟩ := Option.isSome_iff_exists.1 (h path List.mem_cons_self)
    obtain ⟨c, hc, hattach⟩ := attach_eq_withFile hlimit hfailing hm
    obtain ⟨e', hrest, hattached, hheld⟩ := ih (e := withFile e path c) hlimit hfailing
      fun path' h' => h path' (List.mem_cons_of_mem path h')
    refine ⟨e', ?_, ?_, fun identifier => ?_⟩
    · rw [List.foldlM_cons, hattach]
      exact hrest
    · rw [hattached, withFile, Engine.attached_attach, if_pos rfl, List.map_cons, List.append_assoc]
      rfl
    · -- What was compiled first stays if no later file is known by its name.
      rw [hheld, lastAt?_cons]
      rcases hfound : lastAt? paths identifier with _ | last
      · simp only [withFile, Engine.attach, Table.get?_set, Option.bind_none, Option.none_or]
        by_cases hname : identifierAt path = identifier
        · rw [if_pos hname.symm, if_pos hname, Option.map_some, hc, Option.bind_some, hm,
            Option.some_or]
        · rw [if_neg (Ne.symm hname), if_neg hname, Option.bind_none, Option.none_or]
      · have hmem := List.mem_reverse.1 (List.mem_of_find?_eq_some hfound)
        obtain ⟨m', hm'⟩ := Option.isSome_iff_exists.1 (h last (List.mem_cons_of_mem path hmem))
        simp only [Option.some_or, Option.bind_some, hm']

/-- The verdict of good files is that of the files that are asked in their places. -/
theorem evaluate_eq {e : Engine} (hvalid : ∀ path ∈ paths, (matcherAt? d path).isSome = true)
    (h : Attached d paths {} e) (q : CheckRequest) (t : ResourceType) :
    e.evaluate surface ⟨q.url, q.pageHost, .ofList [t]⟩ =
      ((paths.map (standIn paths)).map (q.fileVerdict d t)).foldl Engine.combine {} := by
  have hattached : e.attached surface = paths.map identifierAt := h.attached
  have hheld : ∀ path ∈ paths, ((e.stored.get? (identifierAt path)).map (·.matcher)).map
      (·.verdict ⟨q.url, q.pageHost, .ofList [t]⟩) =
        some (q.fileVerdict d t (standIn paths path)) := by
    intro path hpath
    obtain ⟨m, hm⟩ := Option.isSome_iff_exists.1 (hvalid _ (standIn_mem hpath).1)
    rw [h.held, lastAt?_eq_standIn hpath, fileVerdict, Option.bind_some, hm]
    rfl
  have hverdicts : ((e.attached surface).filterMap fun identifier =>
      e.stored.get? identifier).map (fun c => c.matcher.verdict ⟨q.url, q.pageHost, .ofList [t]⟩) =
        (paths.map (standIn paths)).map (q.fileVerdict d t) := by
    rw [hattached, List.filterMap_map, List.map_filterMap, List.map_map]
    refine (List.filterMap_congr fun path hpath => ?_).trans (congrFun List.filterMap_eq_map' paths)
    simpa using hheld path hpath
  rw [Engine.evaluate]
  exact congrArg (List.foldl Engine.combine {}) hverdicts

/-! ### What is said of a request -/

/-- Files that are known by one name have the same rules. -/
def IsUnambiguous (q : CheckRequest) (d : Disk) : Prop :=
  ∀ path ∈ q.inputs, ∀ path' ∈ q.inputs, identifierAt path = identifierAt path' →
    matcherAt? d path = matcherAt? d path'

/-- A request is put to good files. What is said of it is what the files say together, when of
    the files that are known by one name the last one is asked for each of them. Unless
    such files have different rules, it is what all the files say. -/
theorem report_eq_standIn (ht : ResourceType.ofName? q.typeName = some t)
    (hvalid : ∀ path ∈ q.inputs, (matcherAt? d path).isSome = true) :
    ∃ v, q.report d = .ofLines d (.ok (verdictLines q.url v)) ∧
      q.Reports d t (q.inputs.map (standIn q.inputs)) v ∧
      (q.IsUnambiguous d → q.Reports d t q.inputs v) := by
  obtain ⟨e, he, hattached⟩ := foldlM_attach (e := {}) rfl rfl hvalid
  refine ⟨e.evaluate surface ⟨q.url, q.pageHost, .ofList [t]⟩, ?_, ?_, fun hclear => ?_⟩
  · rw [report, verdict, ht]
    dsimp only
    rw [he]
    rfl
  · rw [evaluate_eq hvalid hattached]
    exact q.reports_foldl_combine d t _
  · have hsame : (q.inputs.map (standIn q.inputs)).map (q.fileVerdict d t) =
        q.inputs.map (q.fileVerdict d t) := by
      rw [List.map_map]
      refine List.map_congr_left fun path hpath => ?_
      obtain ⟨hmem, hname⟩ := standIn_mem hpath
      simp only [Function.comp_apply, fileVerdict, hclear _ hmem _ hpath hname]
    rw [evaluate_eq hvalid hattached, hsame]
    exact q.reports_foldl_combine d t _

def blockingRules : List Rule :=
  [⟨{ urlPattern := "ads" }, .block⟩, ⟨{ urlPattern := ".*" }, .hide ".x"⟩]

def hidingRules : List Rule := [⟨{ urlPattern := ".*" }, .hide ".y"⟩]

/-- Three files, of which two have one name. -/
def namesakes : Disk where
  entries := [(["x"], .directory),
    (["x", "shard_0.json"], .file (Payload.encode blockingRules)),
    (["x", "shard_1.json"], .file (Payload.encode hidingRules)),
    (["y"], .directory),
    (["y", "shard_0.json"], .file (Payload.encode hidingRules))]

theorem matcherAt?_namesakes :
    matcherAt? namesakes "x/shard_0.json" = some ⟨blockingRules.map .ofRule⟩ ∧
      matcherAt? namesakes "x/shard_1.json" = some ⟨hidingRules.map .ofRule⟩ ∧
      matcherAt? namesakes "y/shard_0.json" = some ⟨hidingRules.map .ofRule⟩ := by
  have hblocking : ∀ r ∈ blockingRules, r.IsGood := by decide +kernel
  have hhiding : ∀ r ∈ hidingRules, r.IsGood := by decide +kernel
  exact ⟨matcherAt?_eq_some (by decide +kernel) hblocking,
    matcherAt?_eq_some (by decide +kernel) hhiding, matcherAt?_eq_some (by decide +kernel) hhiding⟩

/-- Files of different names are all asked. -/
theorem report_eq_standIn_shards :
    let q : CheckRequest :=
      { inputs := ["x/shard_0.json", "x/shard_1.json"], url := "https://ads.net/pixel.gif" }
    ResourceType.ofName? q.typeName = some .script ∧
      (∀ path ∈ q.inputs, (matcherAt? namesakes path).isSome = true) ∧ q.IsUnambiguous namesakes ∧
      ∃ v, q.report namesakes = .ofLines namesakes (.ok (verdictLines q.url v)) ∧
        q.Reports namesakes .script q.inputs v := by
  intro q
  have ht : ResourceType.ofName? q.typeName = some .script := by decide +kernel
  have hvalid : ∀ path ∈ q.inputs, (matcherAt? namesakes path).isSome = true := by
    simp [q, matcherAt?_namesakes]
  have hclear : q.IsUnambiguous namesakes := by
    have hnames : ∀ path ∈ q.inputs, ∀ path' ∈ q.inputs,
        identifierAt path = identifierAt path' → path = path' := by decide +kernel
    intro path hpath path' hpath' hname
    rw [hnames path hpath path' hpath' hname]
  obtain ⟨v, hreport, -, hreports⟩ := report_eq_standIn ht hvalid
  exact ⟨ht, hvalid, hclear, v, hreport, hreports hclear⟩

/-- Of two files of one name in different directories only the second one is asked, so that
    what the first one blocks is let through. -/
theorem not_forall_report :
    ¬∀ (q : CheckRequest) (d : Disk) (t : ResourceType), ResourceType.ofName? q.typeName = some t →
      (∀ path ∈ q.inputs, (matcherAt? d path).isSome = true) →
      ∃ v, q.report d = .ofLines d (.ok (verdictLines q.url v)) ∧ q.Reports d t q.inputs v := by
  intro hall
  let q : CheckRequest :=
    { inputs := ["x/shard_0.json", "y/shard_0.json"], url := "https://ads.net/pixel.gif" }
  have hvalid : ∀ path ∈ q.inputs, (matcherAt? namesakes path).isSome = true := by
    simp [q, matcherAt?_namesakes]
  obtain ⟨v, hreport, hreports⟩ := hall q namesakes .script (by decide +kernel) hvalid
  have hblocks : (q.fileVerdict namesakes .script "x/shard_0.json").decision = .block := by
    rw [fileVerdict, matcherAt?_namesakes.1]
    decide +kernel
  have hblocked : v.decision = .block := hreports.blocks.2 ⟨_, List.mem_cons_self, hblocks⟩
  have hallowed : (q.report namesakes).lines.head? =
      some (.text "ALLOW https://ads.net/pixel.gif") := by decide +kernel
  rw [hreport, Report.ofLines, verdictLines, hblocked] at hallowed
  have hline := Line.text.inj (Option.some.inj hallowed)
  have hletter := congrArg (fun line => line.toList.head?) hline
  have hblock : (toString "BLOCK ").toList.head? = some 'B' := by decide
  simp only [String.toList_append, List.head?_append, hblock, Option.some_or] at hletter
  exact absurd hletter (by decide)

end CheckRequest

end CommandLine

end ContentBlocking
