import Readings.Proofs.CommandLine.Loading
import Readings.Proofs.Document.WholeText
import Readings.Proofs.Report.Views
import Readings.Proofs.Text.Lines

/-!
A check is all or nothing, and its exit code tells the truth. Whatever keeps the schema or a
document from being had, at whatever position, ends the run with code 2, without output and with no
file changed. Otherwise every document has its verdict, in order, and the code, the tally and both
forms of the report follow from the verdicts (`check_is_all_or_nothing`).
-/
namespace Readings.CommandLine

variable {tools : Tools (StateM σ)} {s : σ} {settings : CheckSettings}

/-- What a check needs is there: a schema, and these documents. -/
structure Loads (tools : Tools (StateM σ)) (s : σ) (settings : CheckSettings) (schema : Schema)
    (documents : List InputDocument) : Prop where
  schema : HoldsSchema (tools.host.view s) settings.schema schema
  documents : Provides tools s settings.input documents

theorem Loads.unique {schema other : Schema} {documents others : List InputDocument}
    (loads : Loads tools s settings schema documents)
    (again : Loads tools s settings other others) : schema = other ∧ documents = others :=
  ⟨loads.schema.unique again.schema, loads.documents.unique again.documents⟩

/-- What a check needs is not there. -/
inductive CheckFails (tools : Tools (StateM σ)) (s : σ) (settings : CheckSettings) : Prop where
  | schema (fails : SchemaFails (tools.host.view s) settings.schema)
  | inputs (fails : InputsFail tools s settings.input)

theorem CheckFails.not_loads {schema : Schema} (fails : CheckFails tools s settings) :
    ¬ Loads tools s settings schema documents := fun loads =>
  match fails with
  | .schema fails => fails.not_holds loads.schema
  | .inputs fails => fails.not_provides loads.documents

/-! ## Verdicts -/

/-- A verdict has the label of a document and the outcome of its cast. -/
def Judges (schema : Schema) (document : InputDocument) (verdict : Verdict) : Prop :=
  verdict.label = document.label ∧ schema.root.cast document.content = some verdict.outcome

theorem Judges.unique (judges : Judges schema document verdict)
    (again : Judges schema document other) : verdict = other := by
  obtain ⟨label, outcome⟩ := verdict
  obtain ⟨_, _⟩ := other
  obtain ⟨rfl, ran⟩ := judges
  obtain ⟨rfl, reran⟩ := again
  cases ran.symm.trans reran
  rfl

/-- A document passes when its cast succeeds. -/
def passes (schema : Schema) (document : InputDocument) : Bool :=
  (schema.root.cast document.content).any Outcome.isSuccess

/-- The root of a schema that a file holds answers every document. -/
theorem judge_answers {view : Files.View} (held : HoldsSchema view path schema)
    (documents : List InputDocument) :
    ∃ verdicts, judge schema documents = .ok verdicts ∧
      List.Forall₂ (Judges schema) documents verdicts := by
  obtain ⟨bytes, _, valid⟩ := held
  obtain ⟨document, _, compiled⟩ := ok_of_bind valid
  obtain ⟨group, bodies, ⟨raw, free, closes⟩, _⟩ := compile_closes compiled
  have each (document : InputDocument) : ∃ verdict, Judges schema document verdict := by
    obtain ⟨outcome, ran⟩ := close_type_total bodies free closes document.content
    exact ⟨⟨document.label, outcome⟩, rfl, ran _ (Nat.le_refl _)⟩
  obtain ⟨verdicts, judged⟩ :=
    related_of_each fun document (_ : document ∈ documents) => each document
  refine ⟨verdicts, map_ok_iff.mpr (judged.imp ?_), judged⟩
  intro document verdict ⟨label, ran⟩
  rw [ran, ← label]

theorem passed_eq (judged : List.Forall₂ (Judges schema) documents verdicts) :
    passed verdicts = documents.countP (passes schema) := by
  induction judged with
  | nil => rfl
  | cons first _ ih =>
    rw [passed] at ih ⊢
    simp only [List.countP_cons, ih, passes, first.2, Option.any_some]

theorem status_eq_success_iff (outcome : Outcome) :
    outcome.toJson.status? = some "success" ↔ outcome.issues = [] := by
  rw [Outcome.issues, Outcome.issues_at_eq_nil_iff]
  cases outcome with
  | success => exact iff_of_true rfl rfl
  | unbound symbol =>
    have status : (Outcome.unbound symbol).toJson.status? = some "unbound" := rfl
    simp [status, Outcome.isSuccess]
  | mismatch demand parts actual =>
    have status : (Outcome.mismatch demand parts actual).toJson.status? = some "failure" := rfl
    simp [status, Outcome.isSuccess]

/-! ## The run -/

/-- A run up to its verdicts. -/
def verdictsOf (tools : Tools (StateM σ)) (settings : CheckSettings) :
    ExceptT Failure (StateM σ) (List Verdict) := do
  let schema ← loadSchema tools settings.schema
  let documents ← loadDocuments tools settings.input
  judge schema documents

/-- A run from its verdicts on. -/
def conclude (tools : Tools (StateM σ)) (colour : Bool) (settings : CheckSettings)
    (verdicts : List Verdict) : ExceptT Failure (StateM σ) Answer := do
  let text := report settings.report colour verdicts
  let output ← match settings.out with
    | some path => do
      writeReport tools path text
      pure ""
    | none => pure text
  pure ⟨if passed verdicts = verdicts.length then 0 else 1, output, tally verdicts, none⟩

theorem check_eq (tools : Tools (StateM σ)) (colour : Bool) (settings : CheckSettings) :
    check tools colour settings = verdictsOf tools settings >>= conclude tools colour settings := by
  simp only [check, verdictsOf, bind_assoc]
  rfl

theorem verdicts_keep (steady : tools.Steady) (settings : CheckSettings) :
    Keeps tools.host s (verdictsOf tools settings)
      (fun verdicts _ => ∃ schema documents, Loads tools s settings schema documents ∧
        List.Forall₂ (Judges schema) documents verdicts)
      (CheckFails tools s settings) := by
  unfold verdictsOf
  refine ((schema_keeps steady settings.schema).explained .schema).bind
    fun schema _ _ ⟨same, held⟩ => ?_
  subst same
  refine ((documents_keep steady settings.input).explained .inputs).bind
    fun documents after _ loaded => ?_
  obtain ⟨verdicts, judges, judged⟩ := judge_answers held documents
  rw [judges]
  exact .lift ⟨schema, documents, ⟨held, loaded⟩, judged⟩

/-! ## Reports -/

/-- The lines on a verdict in a report for people. Where the cast succeeded there is one, with the
label and the number of candidates. Where it did not, the label is followed by the lines of the
drawing: those of each place that it shows, in tree order and behind four blanks. -/
inductive Verdict.IsBlock (colour : Bool) (verdict : Verdict) : String → Prop where
  | passed (fits : verdict.outcome = .success candidates) :
      IsBlock colour verdict
        ("✅ " ++ verdict.label ++ " (" ++ toString candidates.length ++ " candidates)\n")
  | failed (fails : verdict.outcome.isSuccess = false)
      (drawn : verdict.outcome.drawn.flatMap (Text.lines ∘ Place.line colour) = lines)
      (told : ∀ place ∈ verdict.outcome.drawn, place.Tells) :
      IsBlock colour verdict
        ("❌ " ++ Style.red.paint colour verdict.label ++ "\n" ++
          String.join (lines.map fun line => "    " ++ line ++ "\n"))

theorem Verdict.IsBlock.unique {verdict : Verdict} (block : verdict.IsBlock colour text)
    (again : verdict.IsBlock colour other) : text = other := by
  cases block with
  | passed fits =>
    cases again with
    | passed same =>
      cases fits.symm.trans same
      rfl
    | failed fails =>
      rw [fits] at fails
      cases fails
  | failed fails drawn =>
    cases again with
    | passed fits =>
      rw [fits] at fails
      cases fails
    | failed _ same =>
      cases drawn.symm.trans same
      rfl

theorem pretty_of_problem {verdict : Verdict} (fails : verdict.outcome.isSuccess = false)
    (colour : Bool) :
    verdict.pretty colour = "❌ " ++ Style.red.paint colour verdict.label ++ "\n" ++
      String.join ((Text.lines (verdict.outcome.render colour)).map fun line =>
        "    " ++ line ++ "\n") := by
  obtain ⟨label, outcome⟩ := verdict
  cases outcome with
  | success => cases fails
  | unbound | mismatch => rfl

/-- The lines of a drawing are those of the places that it shows. -/
theorem lines_render {outcome : Outcome} (regular : outcome.Regular) (colour : Bool) :
    Text.lines (outcome.render colour) =
      outcome.drawn.flatMap (Text.lines ∘ Place.line colour) := by
  rw [Outcome.render_eq regular, Text.lines_join, List.flatMap_map]
  · rfl
  · intro line listed
    obtain ⟨place, _, rfl⟩ := List.mem_map.mp listed
    exact ⟨_, rfl⟩

theorem block_of_regular {verdict : Verdict} (regular : verdict.outcome.Regular) (colour : Bool) :
    verdict.IsBlock colour (verdict.pretty colour) := by
  cases fits : verdict.outcome.isSuccess with
  | true =>
    obtain ⟨label, outcome⟩ := verdict
    cases outcome with
    | success => exact .passed rfl
    | unbound | mismatch => cases fits
  | false =>
    rw [pretty_of_problem fits, lines_render regular]
    exact .failed fits rfl fun place listed =>
      Place.tells_of_problem (Outcome.drawn_problem fits place listed)

/-- The entry of a verdict in a JSON report: its source, its result and its issues. The result is a
success exactly if there is no issue. -/
def Verdict.IsEntry (verdict : Verdict) (entry : Json) : Prop :=
  ∃ result issues, result = verdict.outcome.toJson ∧
    issues = verdict.outcome.issues.map Issue.toJson ∧
    entry = .object [("source", .string verdict.label), ("result", result),
      ("issues", .array issues)] ∧
    (result.status? = some "success" ↔ issues = [])

theorem Verdict.IsEntry.unique {verdict : Verdict} (shown : verdict.IsEntry entry)
    (again : verdict.IsEntry other) : entry = other := by
  obtain ⟨_, _, rfl, rfl, rfl, _⟩ := shown
  obtain ⟨_, _, rfl, rfl, rfl, _⟩ := again
  rfl

theorem is_entry (verdict : Verdict) : verdict.IsEntry verdict.toJson := by
  refine ⟨_, _, rfl, rfl, rfl, ?_⟩
  rw [status_eq_success_iff, List.map_eq_nil_iff]

/-- A report has a block of lines or an entry for each verdict, in order. -/
inductive Reports (colour : Bool) (verdicts : List Verdict) : ReportFormat → String → Prop where
  | pretty (each : List.Forall₂ (Verdict.IsBlock colour) verdicts blocks) :
      Reports colour verdicts .pretty (String.join blocks)
  | json (each : List.Forall₂ Verdict.IsEntry verdicts entries) :
      Reports colour verdicts .json (Json.array entries).pretty

theorem Reports.unique (reports : Reports colour verdicts format text)
    (again : Reports colour verdicts format other) : text = other := by
  have blocks : Relator.RightUnique (Verdict.IsBlock colour) := fun _ _ _ => Verdict.IsBlock.unique
  have entries : Relator.RightUnique Verdict.IsEntry := fun _ _ _ => Verdict.IsEntry.unique
  cases reports with
  | pretty each =>
    cases again with
    | pretty others => exact congrArg String.join (blocks.forall₂ each others)
  | json each =>
    cases again with
    | json others => rw [entries.forall₂ each others]

theorem report_reports {schema : Schema} (judged : List.Forall₂ (Judges schema) documents verdicts)
    (format : ReportFormat) (colour : Bool) :
    Reports colour verdicts format (report format colour verdicts) := by
  cases format with
  | pretty =>
    refine .pretty (List.forall₂_map_right_iff.mpr (List.forall₂_same.mpr fun verdict listed => ?_))
    obtain ⟨_, _, judges⟩ := partner_of_right judged listed
    exact block_of_regular (cast_regular judges.2) colour
  | json =>
    exact .json (List.forall₂_map_right_iff.mpr (List.forall₂_same.mpr fun verdict _ =>
      is_entry verdict))

/-! ## Answers -/

/-- A report is delivered from a state: as the output, or to a file. -/
inductive Delivers (tools : Tools (StateM σ)) (out : Option String) (text : String) (s : σ) :
    String → σ → Prop where
  | printed (nowhere : out = none) : Delivers tools out text s text s
  | written (somewhere : out = some path)
      (ran : (writeReport tools path text).run.run s = (.ok (), after)) :
      Delivers tools out text s "" after

/-- The answer to documents that were all checked: how many of them passed, and whether all did. -/
structure Answer.Tells (answer : Answer) (schema : Schema) (documents : List InputDocument) :
    Prop where
  notes : answer.notes = toString (documents.countP (passes schema)) ++ " of " ++
    toString documents.length ++ " documents passed\n"
  code : answer.code = if documents.countP (passes schema) = documents.length then 0 else 1

/-- What a run answers when it ends with a result. -/
def answerOf (colour : Bool) : Except Failure Answer → Answer
  | .ok answer => answer
  | .error failure => failed colour failure

theorem run_check (spelled : Command.ofArguments arguments = some (.check settings))
    (live : settings.noOp = false)
    (ran : (check tools colour settings).run.run s = (result, after)) :
    (runWith tools colour arguments).run s = (some (answerOf colour result), after) := by
  simp only [runWith, spelled, runCommand, live, Bool.false_eq_true, if_false, StateT.run_bind]
  rw [ran]
  cases result <;> rfl

theorem tells_of_judged {schema : Schema} (judged : List.Forall₂ (Judges schema) documents verdicts)
    (output : String) :
    Answer.Tells ⟨if passed verdicts = verdicts.length then 0 else 1, output, tally verdicts, none⟩
      schema documents := by
  constructor
  · simp only [tally, passed_eq judged, judged.length_eq]
  · simp only [passed_eq judged, judged.length_eq]

/-- The last thing that writing a report does is to write its text to the file. -/
theorem report_written (ran : (writeReport tools path text).run.run s = (.ok (), after)) :
    ∃ before, (tools.host.write path text).run before = (.ok (), after) := by
  unfold writeReport at ran
  extract_lets write at ran
  have holds {middle : σ} (ran : (write ()).run.run middle = (.ok (), after)) :
      ∃ before, (tools.host.write path text).run before = (.ok (), after) := by
    obtain ⟨_, _, wrote, ended⟩ := ok_of_lift ran fun _ => rfl
    cases ended
    exact ⟨middle, wrote⟩
  cases around : Files.parent? path with
  | none =>
    rw [around] at ran
    exact holds ran
  | some directory =>
    rw [around] at ran
    obtain ⟨_, _, _, onward⟩ := ok_of_lift ran fun _ => rfl
    exact holds onward

theorem conclude_delivers {schema : Schema}
    (judged : List.Forall₂ (Judges schema) documents verdicts)
    (delivers : Delivers tools settings.out (report settings.report colour verdicts) s
      output after) :
    ∃ answer : Answer, (conclude tools colour settings verdicts).run.run s = (.ok answer, after) ∧
      answer.output = output ∧ answer.Tells schema documents := by
  cases delivers with
  | printed nowhere =>
    refine ⟨_, ?_, rfl, tells_of_judged judged _⟩
    simp only [conclude, nowhere]
    rfl
  | written somewhere ran =>
    refine ⟨_, ?_, rfl, tells_of_judged judged _⟩
    simp only [conclude, somewhere]
    rw [run_bind ran]
    rfl

/-- A check either fails as a whole or judges every document. Where anything it needs cannot be had,
the code is 2, and there is no output and no changed file. Otherwise a report that is delivered has
a block or an entry for each document, in order; the notes count the documents and those that
passed, and the code is 0 if all did and else 1. -/
theorem check_is_all_or_nothing (steady : tools.Steady) (colour : Bool)
    (spelled : Command.ofArguments arguments = some (.check settings))
    (live : settings.noOp = false) (s : σ) :
    (CheckFails tools s settings → ∃ answer after,
      (runWith tools colour arguments).run s = (some answer, after) ∧ answer.code = 2 ∧
      answer.output = "" ∧ tools.host.view after = tools.host.view s) ∧
    (¬ CheckFails tools s settings → ∃ schema documents verdicts text loaded,
      Loads tools s settings schema documents ∧
      List.Forall₂ (Judges schema) documents verdicts ∧
      Reports colour verdicts settings.report text ∧
      tools.host.view loaded = tools.host.view s ∧
      ∀ output after, Delivers tools settings.out text loaded output after →
        (∀ path, settings.out = some path →
          ∃ before, (tools.host.write path text).run before = (.ok (), after)) ∧
        ∃ answer, (runWith tools colour arguments).run s = (some answer, after) ∧
          answer.output = output ∧ answer.Tells schema documents) := by
  obtain ⟨result, loaded, ran, same, settled⟩ := verdicts_keep (s := s) steady settings
  refine ⟨fun fails => ?_, fun fine => ?_⟩
  · cases result with
    | ok verdicts =>
      obtain ⟨schema, documents, loads, _⟩ := settled
      exact absurd loads fails.not_loads
    | error failure =>
      have ended : (check tools colour settings).run.run s = (.error failure, loaded) := by
        rw [check_eq, run_bind ran]
        rfl
      exact ⟨failed colour failure, loaded, run_check spelled live ended, rfl, rfl, same⟩
  · cases result with
    | error failure => exact absurd settled fine
    | ok verdicts =>
      obtain ⟨schema, documents, loads, judged⟩ := settled
      refine ⟨schema, documents, verdicts, _, loaded, loads, judged, report_reports judged _ _,
        same, fun output after delivers => ⟨fun path named => ?_, ?_⟩⟩
      · cases delivers with
        | printed nowhere =>
          rw [named] at nowhere
          cases nowhere
        | written somewhere wrote =>
          cases somewhere.symm.trans named
          exact report_written wrote
      · obtain ⟨answer, concluded, printed, tells⟩ := conclude_delivers judged delivers
        refine ⟨answer, ?_, printed, tells⟩
        have ended : (check tools colour settings).run.run s = (.ok answer, after) := by
          rw [check_eq, run_bind ran]
          exact concluded
        exact run_check spelled live ended

private theorem number_schema :
    Schema.ofBytes 0 (Text.Utf8.encode "\x7b\"root\": \"number\"\x7d") =
      .ok ⟨.primitive .number, []⟩ := by
  have read : Json.readBytes (Text.Utf8.encode "\x7b\"root\": \"number\"\x7d") =
      .ok (.object [("root", .string "number")]) := by decide +kernel
  exact Schema.of_bytes_of_data read rfl (compile_of_stages rfl rfl rfl rfl
    (Group.close_of_walk (Group.walk_of_children rfl [] .nil)))

/-- Without a pointer or a filter a source is its document. -/
private theorem plain_source_yields {evaluate : Evaluation} (text : String)
    (read : content = .ok bytes) (decoded : Text.Utf8.decode bytes = .ok text)
    (parsed : Json.parse text = .ok json) :
    SourceYields evaluate ⟨false, none, none, inputs⟩ ⟨path, content⟩ [⟨path, .ofJson json⟩] := by
  have piece : PieceYields evaluate ⟨false, none, none, inputs⟩ ⟨path, text⟩
      [⟨path, .ofJson json⟩] :=
    ⟨⟨path, json⟩, ⟨rfl, parsed⟩, json, [json], rfl, rfl, rfl⟩
  exact ⟨bytes, text, [_], read, decoded, .cons piece .nil, rfl⟩

/-- With a malformed source behind a good one the check fails. With a standard input that the schema
does not fit in its place, either form of the report is on both. -/
theorem malformed_source_fails_the_check :
    let number := Text.Utf8.encode "\x7b\"root\": \"number\"\x7d"
    let tree : Files.Tree := .ofFiles
      [("s", number), ("a", Text.Utf8.encode "1"), ("b", Text.Utf8.encode "]")]
    let start : Files.Surroundings := ⟨tree, Text.Utf8.encode "true"⟩
    let host := Files.Tree.host
    (∃ answer after,
      (run host false ["check", "-s", "s", "-i", "a", "b"]).run start = (some answer, after) ∧
      answer.code = 2 ∧ answer.output = "" ∧ host.view after = host.view start) ∧
    (∃ answer after,
      (run host false ["check", "-s", "s", "-i", "a", "-"]).run start = (some answer, after) ∧
      answer.output = "✅ a (1 candidates)\n❌ -\n    expected number got true\n" ∧
      answer.notes = "1 of 2 documents passed\n" ∧ answer.code = 1) ∧
    ∃ answer after,
      (run host false ["check", "-s", "s", "--report", "json", "-i", "a", "-"]).run start =
        (some answer, after) ∧
      answer.output = "\n".intercalate ["[", "  \x7b", "    \"source\": \"a\",",
        "    \"result\": \x7b", "      \"status\": \"success\",", "      \"values\": [",
        "        1", "      ]", "    \x7d,", "    \"issues\": []", "  \x7d,", "  \x7b",
        "    \"source\": \"-\",", "    \"result\": \x7b", "      \"status\": \"failure\",",
        "      \"expected\": \"number\",", "      \"actual\": true", "    \x7d,",
        "    \"issues\": [", "      \x7b", "        \"path\": \"$\",",
        "        \"expected\": \"number\",", "        \"actual\": true", "      \x7d", "    ]",
        "  \x7d", "]"] ∧
      answer.notes = "1 of 2 documents passed\n" ∧ answer.code = 1 := by
  intro number tree start host
  let tools := Tools.ofHost host
  have steady : tools.Steady := Tools.of_host_steady Files.Tree.host_steady
  have files (schema first second : List UInt8) :
      let tree : Files.Tree := .ofFiles [("s", schema), ("a", first), ("b", second)]
      tree.read "s" = .ok schema ∧ tree.read "a" = .ok first ∧ tree.read "b" = .ok second := by
    with_unfolding_all exact ⟨rfl, rfl, rfl⟩
  obtain ⟨schemaRead, aRead, bRead⟩ := files _ _ _
  constructor
  · have spelled : Command.ofArguments ["check", "-s", "s", "-i", "a", "b"] =
        some (.check ⟨⟨false, none, none, ["a", "b"]⟩, "s", .pretty, none, false⟩) := by
      decide +kernel
    have resolved : List.Forall₂ (Resolves tools start) ["a", "b"] [["a"], ["b"]] :=
      .cons (.path (by decide +kernel)) (.cons (.path (by decide +kernel)) .nil)
    have listed : ⟨"b", tree.read "b"⟩ ∈
        sources (tools.host.view start) (tools.host.left start) ["a", "b"] := by
      rw [sources_of_files (by decide +kernel)]
      exact .tail _ (.head _)
    have decoded : Text.Utf8.decode (Text.Utf8.encode "]") = .ok "]" := by decide +kernel
    have malformed : Json.parse "]" = .error "expected value at line 1 column 1" := by
      decide +kernel
    have fails : SourceFails tools.evaluate ⟨false, none, none, ["a", "b"]⟩ ⟨"b", tree.read "b"⟩ :=
      .piece bRead decoded (List.mem_singleton.mpr rfl) (.unparsed malformed)
    exact (check_is_all_or_nothing steady false spelled rfl start).1
      (.inputs (.source resolved listed fails))
  · let settings : InputSettings := ⟨false, none, none, ["a", "-"]⟩
    let verdicts : List Verdict := [⟨"a", .success [.ofJson (.integer 1)]⟩,
      ⟨"-", .mismatch (.primitive .number) [] (.bool true)⟩]
    have held : HoldsSchema (tools.host.view start) "s" ⟨.primitive .number, []⟩ :=
      ⟨number, schemaRead, number_schema⟩
    have listed : sources (tools.host.view start) (tools.host.left start) ["a", "-"] =
        [⟨"a", tree.read "a"⟩, ⟨"-", .ok (Text.Utf8.encode "true")⟩] := by
      have file : Files.isHyphen "a" = false := by decide +kernel
      have hyphen : Files.isHyphen "-" = true := by decide +kernel
      simp only [sources, sourceAt, leftBehind, file, hyphen]
      rfl
    have loads (format : ReportFormat) : Loads tools start ⟨settings, "s", format, none, false⟩
        ⟨.primitive .number, []⟩ [⟨"a", .ofJson (.integer 1)⟩, ⟨"-", .ofJson (.bool true)⟩] := by
      have resolved : List.Forall₂ (Resolves tools start) ["a", "-"] [["a"], ["-"]] :=
        .cons (.path (by decide +kernel)) (.cons (.path (by decide +kernel)) .nil)
      refine ⟨held, _, [[_], [_]], resolved, ?_, rfl⟩
      change List.Forall₂ _ (sources _ _ ["a", "-"]) _
      rw [listed]
      exact .cons (plain_source_yields "1" aRead (by decide +kernel) (by decide +kernel))
        (.cons (plain_source_yields "true" rfl (by decide +kernel) (by decide +kernel)) .nil)
    have expected : List.Forall₂ (Judges ⟨.primitive .number, []⟩)
        [⟨"a", .ofJson (.integer 1)⟩, ⟨"-", .ofJson (.bool true)⟩] verdicts :=
      .cons ⟨rfl, rfl⟩ (.cons ⟨rfl, rfl⟩ .nil)
    have reported (arguments : List String) (format : ReportFormat)
        (spelled : Command.ofArguments arguments =
          some (.check ⟨settings, "s", format, none, false⟩)) :
        ∃ answer after, (run host false arguments).run start = (some answer, after) ∧
          answer.output = report format false verdicts ∧
          answer.notes = "1 of 2 documents passed\n" ∧ answer.code = 1 := by
      obtain ⟨schema, documents, found, text, _, again, judged, reports, _, delivered⟩ :=
        (check_is_all_or_nothing steady false spelled rfl start).2 fun fails =>
          fails.not_loads (loads format)
      obtain ⟨rfl, rfl⟩ := (loads format).unique again
      have once : Relator.RightUnique (Judges ⟨.primitive .number, []⟩) :=
        fun _ _ _ => Judges.unique
      cases once.forall₂ expected judged
      obtain ⟨_, answer, ran, printed, tells⟩ := delivered text _ (.printed rfl)
      have same : text = report format false verdicts :=
        reports.unique (report_reports expected format false)
      have fitting : List.countP (passes ⟨.primitive .number, []⟩) _ = 1 :=
        (passed_eq expected).symm
      refine ⟨answer, _, ran, printed.trans same, tells.notes.trans ?_, tells.code.trans ?_⟩
      · rw [fitting]
        rfl
      · rw [fitting]
        rfl
    constructor
    · obtain ⟨answer, after, ran, printed, told⟩ :=
        reported ["check", "-s", "s", "-i", "a", "-"] .pretty (by decide +kernel)
      exact ⟨answer, after, ran, printed.trans (by decide +kernel), told⟩
    · obtain ⟨answer, after, ran, printed, told⟩ :=
        reported ["check", "-s", "s", "--report", "json", "-i", "a", "-"] .json (by decide +kernel)
      exact ⟨answer, after, ran, printed.trans (by decide +kernel), told⟩

end Readings.CommandLine
