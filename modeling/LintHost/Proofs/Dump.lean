/-
What is dumped is read again.

A check takes data in many spellings and gives a value, and the dump of that value spells all of it
out in one way.  `Reads` says that a check takes a dump for the value that was dumped, and there is
a lemma for each of the ways in which checks are put together: items of a list, values that may be
null, and fields of a mapping, which are looked up by name.  A field is dumped even where it has its
default, so no default is taken for it, and no end of a location is filled in.

Every value of a shape is read again, with one exception: the check of a number of jobs turns down
what is below one.  But then it does not give such a number either.  So dumping what a check gave,
and checking that, changes nothing, and whatever is made of a result can as well be made of its
dump.
-/
import LintHost.Config.Sections
import LintHost.Diagnostic.Validation
import LintHost.ExitStatus
import LintHost.Report.Format

namespace LintHost

/-! ### Data in the open -/

namespace Json

/-- The fields of an object are found by their names. -/
theorem lookupName_toEntries (name : String) (fields : List (String × Json)) :
    Value.lookupName name (toEntries fields) = (fields.lookup name).map toValue := by
  induction fields with
  | nil => rfl
  | cons f rest ih =>
    obtain ⟨k, j⟩ := f
    have hkey : Value.sameKey (.str k) (.str name) = (name == k) := Bool.beq_comm
    rw [Value.lookupName] at ih ⊢
    rw [toEntries, Value.lookup, hkey, List.lookup_cons, ih]
    cases name == k <;> rfl

end Json

namespace Check

variable {α : Type} {check : Value → Check α} {dump : α → Json}

/-- A check takes the dump of a value for that value. -/
def Reads (check : Value → Check α) (dump : α → Json) (a : α) : Prop :=
  check (dump a).toValue = .ok a

/-! ### Parts -/

theorem items_of_reads {as : List α} (h : ∀ a ∈ as, Reads check dump a) (i : Nat) :
    items check i (Json.toValues (as.map dump)) = .ok as := by
  induction as generalizing i with
  | nil => rfl
  | cons a rest ih =>
    have hrest := ih (fun b hb => h b (by simp [hb])) (i + 1)
    rw [List.map_cons, Json.toValues, items, h a (by simp), hrest]
    rfl

theorem Reads.list {as : List α} (h : ∀ a ∈ as, Reads check dump a) :
    Reads (list check) (fun as => .arr (as.map dump)) as := items_of_reads h 0

theorem Reads.tuple {as : List α} (h : ∀ a ∈ as, Reads check dump a) :
    Reads (tuple check) (fun as => .arr (as.map dump)) as := items_of_reads h 0

theorem Reads.nullable {o : Option α} (hnull : ∀ a, (dump a).toValue ≠ .null)
    (h : ∀ a ∈ o, Reads check dump a) :
    Reads (nullable check) (Json.ofOption dump) o := by
  cases o with
  | none => rfl
  | some a =>
    rw [Reads, Json.ofOption, Check.nullable]
    · rw [h a rfl]
      rfl
    · exact hnull a

theorem reads_str (s : String) : Reads str .str s := rfl

theorem reads_strings (ss : List String) : Reads strings (fun ss => .arr (ss.map .str)) ss :=
  .list fun s _ => reads_str s

/-! ### Fields -/

variable {name : String} {a : α} {fields : List (String × Json)}

theorem Reads.withDefault (h : Reads check dump a) (hfield : fields.lookup name = some (dump a))
    (default : α) : withDefault name default check (Json.toEntries fields) = .ok a := by
  rw [Check.withDefault, Json.lookupName_toEntries, hfield]
  show under (.field name) (check (dump a).toValue) = .ok a
  rw [h]
  rfl

theorem Reads.required (h : Reads check dump a) (hfield : fields.lookup name = some (dump a)) :
    required name check (Json.toEntries fields) = .ok a := by
  rw [Check.required, Json.lookupName_toEntries, hfield]
  show under (.field name) (check (dump a).toValue) = .ok a
  rw [h]
  rfl

end Check

open Check (Reads)

/-! ### Findings and results -/

/-- An end that is there is not filled in. -/
theorem Location.checkEnd_of_lookup {startName endName : String} {fields : List (String × Json)}
    {n : Int} (hfield : fields.lookup endName = some (.int n)) :
    Location.checkEnd startName endName (Json.toEntries fields) = .ok (some n) := by
  rw [Location.checkEnd, Location.rawEnd, Json.lookupName_toEntries, hfield]
  rfl

theorem Location.reads (l : Location) : Reads Location.check Location.toJson l := by
  have hfile : Reads (Check.nullable Check.str) (Json.ofOption .str) l.file :=
    .nullable (fun _ => Value.noConfusion) fun s _ => Check.reads_str s
  have hstart : Reads Check.int .int l.startLine := rfl
  have hcolumn : Reads Check.int .int l.startColumn := rfl
  show Location.checkFields (Json.toEntries _) = _
  rw [Location.checkFields, hfile.withDefault rfl, hstart.withDefault rfl,
    hcolumn.withDefault rfl, Location.checkEnd_of_lookup rfl, Location.checkEnd_of_lookup rfl]
  rfl

theorem reads_location? (o : Option Location) :
    Reads (Check.nullable Location.check) (Json.ofOption Location.toJson) o :=
  .nullable (fun _ => Value.noConfusion) fun l _ => l.reads

theorem Fix.reads (f : Fix) : Reads Fix.check Fix.toJson f := by
  show Fix.checkFields (Json.toEntries _) = _
  rw [Fix.checkFields, (Check.reads_str f.title).withDefault rfl,
    (Check.reads_str f.replacement).withDefault rfl, (reads_location? f.location).withDefault rfl]
  rfl

theorem Severity.reads (s : Severity) :
    Reads (fun v => .ok (Severity.coerce v)) (fun s => .str s.name) s :=
  congrArg Check.ok (Severity.ofName_name s)

theorem Diagnostic.reads (d : Diagnostic) : Reads Diagnostic.check Diagnostic.toJson d := by
  have hfixes : Reads (Check.tuple Fix.check) (fun fs => .arr (fs.map Fix.toJson)) d.fixes :=
    .tuple fun f _ => f.reads
  show Diagnostic.checkFields (Json.toEntries _) = _
  rw [Diagnostic.checkFields, (Check.reads_str d.ruleCode).required rfl,
    d.severity.reads.withDefault rfl, (Check.reads_str d.message).required rfl,
    (Check.reads_str d.origin).withDefault rfl, (reads_location? d.location).withDefault rfl,
    hfixes.withDefault rfl]
  rfl

theorem AnalysisResult.reads (r : AnalysisResult) :
    Reads AnalysisResult.check AnalysisResult.toJson r := by
  have hdiagnostics : Reads (Check.tuple Diagnostic.check)
      (fun ds => .arr (ds.map Diagnostic.toJson)) r.diagnostics := .tuple fun d _ => d.reads
  have herrors : Reads (Check.tuple Check.str) (fun es => .arr (es.map .str)) r.errors :=
    .tuple fun e _ => Check.reads_str e
  show AnalysisResult.checkFields (Json.toEntries _) = _
  rw [AnalysisResult.checkFields, hdiagnostics.withDefault rfl, herrors.withDefault rfl]
  rfl

/-! ### Sections of a configuration -/

theorem TargetsConfig.reads (c : TargetsConfig) :
    Reads (Check.model TargetsConfig.checkFields) TargetsConfig.toJson c := by
  have hrespect : Reads Check.bool .bool c.respectGitignore := rfl
  show TargetsConfig.checkFields (Json.toEntries _) = _
  rw [TargetsConfig.checkFields, (Check.reads_strings c.sourceExtensions).withDefault rfl,
    (Check.reads_strings c.projectSuffixes).withDefault rfl,
    (Check.reads_strings c.solutionSuffixes).withDefault rfl,
    (Check.reads_strings c.excludePatterns).withDefault rfl, hrespect.withDefault rfl]
  rfl

theorem OutputConfig.reads (c : OutputConfig) :
    Reads (Check.model OutputConfig.checkFields) OutputConfig.toJson c := by
  show OutputConfig.checkFields (Json.toEntries _) = _
  rw [OutputConfig.checkFields, (Check.reads_str c.format).withDefault rfl]
  rfl

/-- A number of jobs is read again exactly if it is one that a check gives. -/
theorem EngineConfig.reads_iff (c : EngineConfig) :
    Reads (Check.model EngineConfig.checkFields) EngineConfig.toJson c ↔ 1 ≤ c.jobs := by
  have hchecked : Check.model EngineConfig.checkFields c.toJson.toValue =
      EngineConfig.mk <$> Check.under (.field "jobs") (Check.positive (.int c.jobs)) := rfl
  rw [Reads, hchecked]
  show EngineConfig.mk <$> Check.under (.field "jobs")
    (if c.jobs < 1 then Check.fault .tooSmall else Check.ok c.jobs) = .ok c ↔ _
  by_cases hjobs : c.jobs < 1
  · rw [if_pos hjobs]
    constructor
    · intro h
      cases h
    · intro h
      omega
  · rw [if_neg hjobs]
    exact ⟨fun _ => Int.not_lt.mp hjobs, fun _ => rfl⟩

theorem jobs_of_checkFields {es : List (Value × Value)} {e : EngineConfig}
    (h : EngineConfig.checkFields es = .ok e) : 1 ≤ e.jobs := by
  unfold EngineConfig.checkFields Check.withDefault at h
  cases hlookup : Value.lookupName "jobs" es with
  | none =>
    rw [hlookup] at h
    obtain rfl : ⟨1⟩ = e := Check.ok.inj h
    exact Int.le_refl 1
  | some v =>
    rw [hlookup] at h
    unfold Check.positive at h
    cases hint : Check.int v with
    | bad problems =>
      simp only [hint] at h
      cases h
    | ok n =>
      simp only [hint] at h
      by_cases hn : n < 1
      · rw [if_pos hn] at h
        cases h
      · rw [if_neg hn] at h
        rw [← Check.ok.inj h]
        exact Int.not_lt.mp hn

/-! ### Checking what was given once more -/

/-- Checking the dump of what a check gives, gives it again; and what a check gives is what is
valid. -/
structure Check.Idempotent {α : Type} (check : Value → Check α) (dump : α → Json)
    (valid : α → Prop) : Prop where
  again : ∀ v a, check v = .ok a → check (dump a).toValue = .ok a
  image : ∀ a, (∃ v, check v = .ok a) ↔ valid a

theorem Check.Idempotent.of_reads {α : Type} {check : Value → Check α} {dump : α → Json}
    (h : ∀ a, Reads check dump a) : Check.Idempotent check dump fun _ => True :=
  ⟨fun _ a _ => h a, fun a => ⟨fun _ => trivial, fun _ => ⟨_, h a⟩⟩⟩

theorem EngineConfig.one_le_jobs_of_check {v : Value} {c : EngineConfig}
    (h : Check.model EngineConfig.checkFields v = .ok c) : 1 ≤ c.jobs := by
  rw [Check.model] at h
  split at h
  · exact jobs_of_checkFields h
  · cases h

theorem EngineConfig.idempotent : Check.Idempotent (Check.model EngineConfig.checkFields)
    EngineConfig.toJson fun c => 1 ≤ c.jobs :=
  ⟨fun _ c h => c.reads_iff.mpr (one_le_jobs_of_check h),
    fun c => ⟨fun ⟨_, h⟩ => one_le_jobs_of_check h, fun h => ⟨_, c.reads_iff.mpr h⟩⟩⟩

/-- **Checking is idempotent, for every shape.**  The dump of what the data is checked to be,
checked again, is the same; and so a result has the status and the reports that its dump has. -/
theorem checks_idempotent :
    Check.Idempotent Location.check Location.toJson (fun _ => True) ∧
    Check.Idempotent Fix.check Fix.toJson (fun _ => True) ∧
    Check.Idempotent Diagnostic.check Diagnostic.toJson (fun _ => True) ∧
    Check.Idempotent AnalysisResult.check AnalysisResult.toJson (fun _ => True) ∧
    Check.Idempotent (Check.model TargetsConfig.checkFields) TargetsConfig.toJson
      (fun _ => True) ∧
    Check.Idempotent (Check.model EngineConfig.checkFields) EngineConfig.toJson
      (fun c => 1 ≤ c.jobs) ∧
    Check.Idempotent (Check.model OutputConfig.checkFields) OutputConfig.toJson
      (fun _ => True) ∧
    ∀ v r, AnalysisResult.check v = .ok r →
      (AnalysisResult.check r.toJson.toValue).map ExitStatus.ofResult =
        (AnalysisResult.check v).map ExitStatus.ofResult ∧
      (∀ digits format verbose,
        (AnalysisResult.check r.toJson.toValue).map (Report.render digits format · verbose) =
          (AnalysisResult.check v).map (Report.render digits format · verbose)) ∧
      (AnalysisResult.check r.toJson.toValue).map Report.sarif =
        (AnalysisResult.check v).map Report.sarif := by
  refine ⟨.of_reads Location.reads, .of_reads Fix.reads, .of_reads Diagnostic.reads,
    .of_reads AnalysisResult.reads, .of_reads TargetsConfig.reads, EngineConfig.idempotent,
    .of_reads OutputConfig.reads, fun v r h => ?_⟩
  have hsame : AnalysisResult.check r.toJson.toValue = AnalysisResult.check v := by
    rw [h]
    exact r.reads
  rw [hsame]
  exact ⟨rfl, fun _ _ _ => rfl, rfl⟩

/-- A result whose numbers, severity and ends are all written in other spellings than their own. -/
theorem checks_idempotent_of_spellings :
    let r : AnalysisResult := ⟨[⟨"W1", .error, "m", "", some ⟨none, 3, 1, 3, 2⟩,
      [⟨"t", "", some ⟨none, 1, 4, 1, 4⟩⟩]⟩], ["e"]⟩
    let v : Value := (Json.obj [("diagnostics", .arr [.obj [("rule_code", .str "W1"),
      ("severity", .str " ERROR"), ("message", .str "m"),
      ("location", .obj [("start_line", .str "+03"), ("end_line", .null), ("end_column", .int 2)]),
      ("fixes", .arr [.obj [("title", .str "t"),
        ("location", .obj [("start_line", .bool true), ("start_column", .float (.ofInt 4))])]])]]),
      ("errors", .arr [.str "e"])]).toValue
    let jobs : Value := (Json.obj [("jobs", .str "2.0")]).toValue
    AnalysisResult.check v = .ok r ∧ AnalysisResult.check r.toJson.toValue = .ok r ∧
      (AnalysisResult.check r.toJson.toValue).map ExitStatus.ofResult =
        (AnalysisResult.check v).map ExitStatus.ofResult ∧
      Check.model EngineConfig.checkFields jobs = .ok ⟨2⟩ ∧
      Check.model EngineConfig.checkFields (EngineConfig.mk 2).toJson.toValue = .ok ⟨2⟩ := by
  intro r v jobs
  obtain ⟨-, -, -, hresult, -, hengine, -, hanswers⟩ := checks_idempotent
  have hr : AnalysisResult.check v = .ok r := by rfl
  have hjobs : Check.model EngineConfig.checkFields jobs = .ok ⟨2⟩ := by rfl
  exact ⟨hr, hresult.again v r hr, (hanswers v r hr).1, hjobs, hengine.again jobs ⟨2⟩ hjobs⟩

end LintHost
