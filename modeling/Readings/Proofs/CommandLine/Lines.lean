import Readings.Proofs.CommandLine.Loading
import Readings.Proofs.Text.Lines

/-!
A source of lines holds what separate sources hold. Texts without line ends of their own may be
joined into one source, a line each, with blank lines wherever one likes; or each may be a source by
itself. Either way loading succeeds if every text is one document and the pointer and the filter
have something for it, and then the values are the same (`lines_load_as_sources`). Only the labels
tell the two apart: the lines have their numbers, and blank lines count.
-/
namespace Readings.CommandLine

open Text (blank_strip_return isBlank linesFrom lines_feed lines_from_append lines_return_feed
  stripReturn strip_return_eq)

/-! ## Joined lines -/

/-- A text is made of lines: each is followed by a line feed, with a carriage return before it or
not; the last line may also end the text. -/
inductive MadeOf : List String → String → Prop where
  | nothing : MadeOf [] ""
  | last : MadeOf [line] line
  | feed (rest : MadeOf lines text) : MadeOf (line :: lines) (line ++ "\n" ++ text)
  | returnFeed (rest : MadeOf lines text) : MadeOf (line :: lines) (line ++ "\r\n" ++ text)

/-- The lines that are not blank, with their numbers. All lines are counted. -/
def numbered (first : Nat) (lines : List String) : List (String × Nat) :=
  (lines.zipIdx first).filter fun line => !isBlank line.1

theorem numbered_cons (first : Nat) (line : String) (lines : List String) :
    numbered first (line :: lines) =
      if isBlank line then numbered (first + 1) lines
      else (line, first) :: numbered (first + 1) lines := by
  cases blank : isBlank line <;> simp [numbered, List.zipIdx_cons, blank]

/-- The numbers aside, the lines that are not blank are left. -/
theorem texts_of_numbered (first : Nat) (lines : List String) :
    (numbered first lines).map Prod.fst = lines.filter fun line => !isBlank line := by
  induction lines generalizing first with
  | nil => rfl
  | cons line rest ih =>
    rw [numbered_cons]
    cases blank : isBlank line <;> simp [blank, ih]

/-- The lines that are not blank are read back with their numbers. -/
theorem numbered_lines (made : MadeOf lines joined) (unbroken : ∀ line ∈ lines, '\n' ∉ line.toList)
    (plain : ∀ line ∈ lines, isBlank line = false → '\r' ∉ line.toList) (first : Nat) :
    numbered first (Text.lines joined) = numbered first lines := by
  induction made generalizing first with
  | nothing => rfl
  | @last line =>
    have unbroken := unbroken line List.mem_cons_self
    have read := lines_from_append unbroken [] []
    rw [List.append_nil, List.append_nil] at read
    rw [Text.lines, read, linesFrom]
    split
    · next empty =>
      have empty : line = "" := by simpa using empty
      rw [numbered_cons, empty]
      rfl
    · simp
  | @feed lines text line _ ih =>
    have rest := ih (fun other listed => unbroken other (List.mem_cons_of_mem _ listed))
      (fun other listed => plain other (List.mem_cons_of_mem _ listed)) (first + 1)
    rw [lines_feed (unbroken line List.mem_cons_self), numbered_cons, numbered_cons, rest]
    cases blank : isBlank line with
    | true =>
      have still : isBlank (String.ofList (stripReturn line.toList.reverse).reverse) = true := by
        simpa [isBlank, blank_strip_return] using blank
      rw [still]
      rfl
    | false =>
      have whole : '\r' ∉ line.toList.reverse := by
        simpa using plain line List.mem_cons_self blank
      rw [strip_return_eq whole, List.reverse_reverse, String.ofList_toList, blank]
  | @returnFeed lines text line _ ih =>
    have rest := ih (fun other listed => unbroken other (List.mem_cons_of_mem _ listed))
      (fun other listed => plain other (List.mem_cons_of_mem _ listed)) (first + 1)
    rw [lines_return_feed (unbroken line List.mem_cons_self), numbered_cons, numbered_cons, rest]

/-! ## Values under labels -/

variable {evaluate : Evaluation} {settings : InputSettings}

/-- A text is one document, and these are the values that the pointer and then the filter select
from it: one for each output of the filter, in order. -/
def TextYields (evaluate : Evaluation) (settings : InputSettings) (text : String)
    (values : List Value) : Prop :=
  ∃ json part outputs, Json.parse text = .ok json ∧ settings.Points json part ∧
    settings.Filters evaluate part outputs ∧ values = outputs.map .ofJson

theorem TextYields.unique (yields : TextYields evaluate settings text values)
    (again : TextYields evaluate settings text others) : values = others := by
  obtain ⟨json, part, outputs, parsed, points, filters, rfl⟩ := yields
  obtain ⟨_, _, _, reparsed, led, filtered, rfl⟩ := again
  cases parsed.symm.trans reparsed
  cases points.unique led
  cases filters.unique filtered
  rfl

theorem piece_yields_iff :
    PieceYields evaluate settings piece documents ↔
      ∃ values, TextYields evaluate settings piece.content values ∧
        documents = labelled piece.label values := by
  constructor
  · rintro ⟨⟨_, json⟩, ⟨rfl, parsed⟩, part, outputs, points, filters, rfl⟩
    exact ⟨_, ⟨json, part, outputs, parsed, points, filters, rfl⟩, rfl⟩
  · rintro ⟨_, ⟨json, part, outputs, parsed, points, filters, rfl⟩, rfl⟩
    exact ⟨⟨piece.label, json⟩, ⟨rfl, parsed⟩, part, outputs, points, filters, rfl⟩

/-- Where each item yields the values of its text under its label, so do all of them. -/
theorem all_yield_iff {R : α → List InputDocument → Prop} {S : String → List Value → Prop}
    {label : α → String}
    (each : List.Forall₂ (fun item text => ∀ documents, R item documents ↔
      ∃ values, S text values ∧ documents = labelled (label item) values) items texts) :
    List.Forall₂ R items found ↔ ∃ values, List.Forall₂ S texts values ∧
      found = items.zipWith (fun item => labelled (label item)) values := by
  induction each generalizing found with
  | nil => simp
  | cons first _ ih =>
    simp only [List.forall₂_cons_left_iff, ih, first]
    constructor
    · rintro ⟨_, _, ⟨values, yields, rfl⟩, ⟨others, more, rfl⟩, rfl⟩
      exact ⟨values :: others, ⟨values, others, yields, more, rfl⟩, rfl⟩
    · rintro ⟨_, ⟨values, others, yields, more, rfl⟩, rfl⟩
      exact ⟨_, _, ⟨values, yields, rfl⟩, ⟨others, more, rfl⟩, rfl⟩

/-- The labels do not change the values. -/
theorem contents_of_labelled {label : α → String} {items : List α} {values : List (List Value)}
    (same : items.length = values.length) :
    (items.zipWith (fun item => labelled (label item)) values).flatten.map Labelled.content =
      values.flatten := by
  induction items generalizing values with
  | nil =>
    cases values with
    | nil => rfl
    | cons => cases same
  | cons item rest ih =>
    cases values with
    | nil => cases same
    | cons first others =>
      simp only [List.zipWith_cons_cons, List.flatten_cons, List.map_append, labelled_contents,
        ih (Nat.succ.inj same)]

/-! ## Texts held by sources -/

/-- A source can be read, and is this text. -/
def Source.Holds (source : Source) (text : String) : Prop :=
  ∃ bytes, source.content = .ok bytes ∧ Text.Utf8.decode bytes = .ok text

/-- The inputs stand for these paths, and the sources there hold these texts. -/
structure Holds (tools : Tools (StateM σ)) (s : σ) (inputs paths texts : List String) : Prop where
  resolved : ∃ found, List.Forall₂ (Resolves tools s) inputs found ∧ found.flatten = paths
  read : List.Forall₂ Source.Holds (sources (tools.host.view s) (tools.host.left s) paths) texts

theorem source_yields_iff {source : Source} (holds : source.Holds text) :
    SourceYields evaluate settings source documents ↔
      ∃ found, List.Forall₂ (PieceYields evaluate settings)
        (pieces settings.ndjson source.path text) found ∧ documents = found.flatten := by
  obtain ⟨bytes, read, decoded⟩ := holds
  constructor
  · rintro ⟨_, _, found, again, same, yields⟩
    cases read.symm.trans again
    cases decoded.symm.trans same
    exact ⟨found, yields⟩
  · rintro ⟨found, yields⟩
    exact ⟨bytes, text, found, read, decoded, yields⟩

theorem paths_of_sources (view : Files.View) (left : List UInt8) (paths : List String) :
    (sources view left paths).map Source.path = paths := by
  induction paths generalizing left with
  | nil => rfl
  | cons path rest ih =>
    rw [sources, List.map_cons, ih]
    rfl

variable {tools : Tools (StateM σ)} {s : σ}

theorem Holds.length_eq (holds : Holds tools s inputs paths texts) :
    paths.length = texts.length := by
  rw [← holds.read.length_eq]
  conv_lhs => rw [← paths_of_sources (tools.host.view s) (tools.host.left s) paths, List.length_map]

theorem load_held_iff (steady : tools.Steady) (settings : InputSettings)
    (holds : Holds tools s settings.inputs paths texts) :
    ((loadDocuments tools settings).run.run s).1 = .ok documents ↔
      ∃ found, List.Forall₂ (SourceYields tools.evaluate settings)
          (sources (tools.host.view s) (tools.host.left s) paths) found ∧
        documents = found.flatten := by
  obtain ⟨stands, resolved, rfl⟩ := holds.resolved
  rw [load_ok_iff steady]
  constructor
  · rintro ⟨_, found, again, yields⟩
    cases resolved_once resolved again
    exact ⟨found, yields⟩
  · rintro ⟨found, yields⟩
    exact ⟨stands, found, resolved, yields⟩

/-- A source that is one document yields the values of its text under its path. -/
theorem whole_source_yields_iff (whole : settings.ndjson = false) {source : Source}
    (holds : source.Holds text) :
    SourceYields evaluate settings source documents ↔
      ∃ values, TextYields evaluate settings text values ∧
        documents = labelled source.path values := by
  have single : pieces settings.ndjson source.path text = [⟨source.path, text⟩] := by
    rw [whole]
    rfl
  simp only [source_yields_iff holds, single, List.forall₂_cons_left_iff,
    List.forall₂_nil_left_iff, piece_yields_iff]
  constructor
  · rintro ⟨_, ⟨_, _, ⟨values, yields, rfl⟩, rfl, rfl⟩, rfl⟩
    exact ⟨values, yields, List.append_nil _⟩
  · rintro ⟨values, yields, rfl⟩
    exact ⟨_, ⟨_, _, ⟨values, yields, rfl⟩, rfl, rfl⟩, (List.append_nil _).symm⟩

/-- Sources that are one document each load the values of their texts under their paths. -/
theorem load_whole_iff (steady : tools.Steady) (settings : InputSettings)
    (whole : settings.ndjson = false)
    (holds : Holds tools s settings.inputs paths texts) :
    ((loadDocuments tools settings).run.run s).1 = .ok documents ↔
      ∃ values, List.Forall₂ (TextYields tools.evaluate settings) texts values ∧
        documents = (paths.zipWith labelled values).flatten := by
  have each : List.Forall₂ (fun source text => ∀ documents,
      SourceYields tools.evaluate settings source documents ↔
        ∃ values, TextYields tools.evaluate settings text values ∧
          documents = labelled source.path values)
      (sources (tools.host.view s) (tools.host.left s) paths) texts :=
    holds.read.imp fun _ _ held _ => whole_source_yields_iff whole held
  have named (values : List (List Value)) :
      (sources (tools.host.view s) (tools.host.left s) paths).zipWith
        (fun source => labelled source.path) values = paths.zipWith labelled values := by
    rw [← List.zipWith_map_left, paths_of_sources]
  rw [load_held_iff steady settings holds]
  simp only [all_yield_iff each, named]
  constructor
  · rintro ⟨_, ⟨values, yields, rfl⟩, rfl⟩
    exact ⟨values, yields, rfl⟩
  · rintro ⟨values, yields, rfl⟩
    exact ⟨_, ⟨values, yields, rfl⟩, rfl⟩

/-- A source of lines loads the values of those that are not blank, under their numbers. -/
theorem load_lines_iff (steady : tools.Steady) (settings : InputSettings)
    (apart : settings.ndjson = true)
    (holds : Holds tools s settings.inputs [path] [text]) :
    ((loadDocuments tools settings).run.run s).1 = .ok documents ↔
      ∃ values, List.Forall₂ (TextYields tools.evaluate settings)
          ((numbered 1 (Text.lines text)).map Prod.fst) values ∧
        documents = ((numbered 1 (Text.lines text)).zipWith
          (fun line => labelled (path ++ ":" ++ toString line.2)) values).flatten := by
  let piece (line : String × Nat) : Labelled String := ⟨path ++ ":" ++ toString line.2, line.1⟩
  have lined : pieces settings.ndjson path text = (numbered 1 (Text.lines text)).map piece := by
    rw [apart]
    rfl
  have held : (sourceAt (tools.host.view s) (tools.host.left s) path).Holds text :=
    (List.forall₂_cons.mp holds.read).1
  have each : List.Forall₂ (fun line content => ∀ documents,
      PieceYields tools.evaluate settings (piece line) documents ↔
        ∃ values, TextYields tools.evaluate settings content values ∧
          documents = labelled (path ++ ":" ++ toString line.2) values)
      (numbered 1 (Text.lines text)) ((numbered 1 (Text.lines text)).map Prod.fst) :=
    List.forall₂_map_right_iff.mpr (List.forall₂_same.mpr fun _ _ _ => piece_yields_iff)
  rw [load_held_iff steady settings holds]
  simp only [sources, List.forall₂_cons_left_iff, List.forall₂_nil_left_iff,
    source_yields_iff held]
  constructor
  · rintro ⟨_, ⟨_, _, ⟨found, pieced, rfl⟩, rfl, rfl⟩, rfl⟩
    rw [sourceAt, lined, List.forall₂_map_left_iff] at pieced
    obtain ⟨values, yields, rfl⟩ := (all_yield_iff each).mp pieced
    exact ⟨values, yields, List.append_nil _⟩
  · rintro ⟨values, yields, rfl⟩
    have found := (all_yield_iff each).mpr ⟨values, yields, rfl⟩
    rw [← List.forall₂_map_left_iff, ← lined] at found
    exact ⟨_, ⟨_, _, ⟨_, found, rfl⟩, rfl, rfl⟩, (List.append_nil _).symm⟩

/-- Texts joined as lines of one source load exactly when they load as sources of their own, and
then as the same values in the same order: what the pointer and the filter select from each text. As
a source a text gives its path as the label; as a line it gives the path of the joined source with
its number among all lines. Behind either stands the number of the output where the filter has more
than one. -/
theorem lines_load_as_sources (steady : tools.Steady) (settings : InputSettings)
    (made : MadeOf lines joined) (unbroken : ∀ line ∈ lines, '\n' ∉ line.toList)
    (kept : (lines.filter fun line => !isBlank line) = texts)
    (plain : ∀ text ∈ texts, '\r' ∉ text.toList)
    (together : Holds tools s inputs [path] [joined]) (apart : Holds tools t others paths texts) :
    let load (ndjson : Bool) (inputs : List String) (s : σ) :=
      ((loadDocuments tools { settings with ndjson, inputs }).run.run s).1
    ((∃ documents, load true inputs s = .ok documents) ↔
      ∃ documents, load false others t = .ok documents) ∧
    ∀ documents, load false others t = .ok documents → ∃ values lined,
      List.Forall₂ (TextYields tools.evaluate settings) texts values ∧
      documents = (paths.zipWith labelled values).flatten ∧
      load true inputs s = .ok lined ∧
      lined = ((numbered 1 lines).zipWith
        (fun line => labelled (path ++ ":" ++ toString line.2)) values).flatten ∧
      lined.map Labelled.content = documents.map Labelled.content := by
  intro load
  have read : numbered 1 (Text.lines joined) = numbered 1 lines := by
    refine numbered_lines made unbroken (fun line listed solid => plain line ?_) 1
    rw [← kept]
    exact List.mem_filter.mpr ⟨listed, by simp [solid]⟩
  have named : (numbered 1 lines).map Prod.fst = texts := (texts_of_numbered 1 lines).trans kept
  have lined_iff (lined : List InputDocument) : load true inputs s = .ok lined ↔
      ∃ values, List.Forall₂ (TextYields tools.evaluate settings) texts values ∧
        lined = ((numbered 1 lines).zipWith
          (fun line => labelled (path ++ ":" ++ toString line.2)) values).flatten := by
    rw [← named, ← read]
    exact load_lines_iff steady { settings with ndjson := true, inputs } rfl together
  have whole_iff (documents : List InputDocument) : load false others t = .ok documents ↔
      ∃ values, List.Forall₂ (TextYields tools.evaluate settings) texts values ∧
        documents = (paths.zipWith labelled values).flatten :=
    load_whole_iff steady { settings with ndjson := false, inputs := others } rfl apart
  refine ⟨⟨?_, ?_⟩, fun documents loaded => ?_⟩
  · rintro ⟨lined, loaded⟩
    obtain ⟨values, yields, -⟩ := (lined_iff lined).mp loaded
    exact ⟨_, (whole_iff _).mpr ⟨values, yields, rfl⟩⟩
  · rintro ⟨documents, loaded⟩
    obtain ⟨values, yields, -⟩ := (whole_iff documents).mp loaded
    exact ⟨_, (lined_iff _).mpr ⟨values, yields, rfl⟩⟩
  · obtain ⟨values, yields, rfl⟩ := (whole_iff documents).mp loaded
    refine ⟨values, _, yields, rfl, (lined_iff _).mpr ⟨values, yields, rfl⟩, rfl, ?_⟩
    have lines_length : (numbered 1 lines).length = values.length := by
      rw [← yields.length_eq, ← named, List.length_map]
    have paths_length : paths.length = values.length :=
      apart.length_eq.trans yields.length_eq
    exact (contents_of_labelled lines_length).trans (contents_of_labelled paths_length).symm

/-- Two texts with a blank line between them, and a filter that has two outputs for the second. -/
theorem blank_lines_are_counted :
    let tree : Files.Tree := .ofFiles [("all", Text.Utf8.encode "[1]\r\n \t\n[2,3]"),
      ("a", Text.Utf8.encode "[1]"), ("b", Text.Utf8.encode "[2,3]")]
    let start : Files.Surroundings := ⟨tree, []⟩
    let tools := Tools.ofHost Files.Tree.host
    let load (ndjson : Bool) (inputs : List String) :=
      ((loadDocuments tools ⟨ndjson, none, some ".[]", inputs⟩).run.run start).1
    let number (n : Int) : Value := .ofJson (.integer n)
    load false ["a", "b"] = .ok [⟨"a", number 1⟩, ⟨"b#0", number 2⟩, ⟨"b#1", number 3⟩] ∧
    load true ["all"] = .ok [⟨"all:1", number 1⟩, ⟨"all:3#0", number 2⟩, ⟨"all:3#1", number 3⟩] := by
  intro tree start tools load number
  let settings : InputSettings := ⟨false, none, some ".[]", ["a", "b"]⟩
  have steady : tools.Steady := Tools.of_host_steady Files.Tree.host_steady
  have files (whole first second : List UInt8) :
      let tree : Files.Tree := .ofFiles [("all", whole), ("a", first), ("b", second)]
      tree.read "all" = .ok whole ∧ tree.read "a" = .ok first ∧ tree.read "b" = .ok second :=
    by with_unfolding_all exact ⟨rfl, rfl, rfl⟩
  obtain ⟨readWhole, readFirst, readSecond⟩ := files _ _ _
  have together : Holds tools start ["all"] ["all"] ["[1]\r\n \t\n[2,3]"] := by
    refine ⟨⟨_, .cons (.path (by decide +kernel)) .nil, rfl⟩, ?_⟩
    rw [sources_of_files (by decide +kernel)]
    exact .cons ⟨_, readWhole, by decide +kernel⟩ .nil
  have apart : Holds tools start ["a", "b"] ["a", "b"] ["[1]", "[2,3]"] := by
    refine ⟨⟨_, .cons (.path (by decide +kernel)) (.cons (.path (by decide +kernel)) .nil), rfl⟩, ?_⟩
    rw [sources_of_files (by decide +kernel)]
    exact .cons ⟨_, readFirst, by decide +kernel⟩ (.cons ⟨_, readSecond, by decide +kernel⟩ .nil)
  have yields : List.Forall₂ (TextYields tools.evaluate settings) ["[1]", "[2,3]"]
      [[number 1], [number 2, number 3]] := by
    have single : Json.parse "[1]" = .ok (.array [.integer 1]) := by decide +kernel
    have double : Json.parse "[2,3]" = .ok (.array [.integer 2, .integer 3]) := by decide +kernel
    have one : Filter.run ".[]" (.array [.integer 1]) = .ok [.integer 1] := by decide +kernel
    have two : Filter.run ".[]" (.array [.integer 2, .integer 3]) =
      .ok [.integer 2, .integer 3] := by decide +kernel
    exact .cons ⟨_, _, _, single, rfl, one, rfl⟩ (.cons ⟨_, _, _, double, rfl, two, rfl⟩ .nil)
  have loaded : load false ["a", "b"] = .ok _ :=
    (load_whole_iff steady settings rfl apart).mpr ⟨_, yields, rfl⟩
  have made : MadeOf ["[1]", " \t", "[2,3]"] "[1]\r\n \t\n[2,3]" := .returnFeed (.feed .last)
  obtain ⟨-, same⟩ := lines_load_as_sources steady settings made (by decide +kernel)
    (by decide +kernel) (by decide +kernel) together apart
  obtain ⟨values, lined, given, -, lines, rfl, -⟩ := same _ loaded
  have once : Relator.RightUnique (TextYields tools.evaluate settings) :=
    fun _ _ _ => TextYields.unique
  cases once.forall₂ yields given
  have under_paths (first second third : Value) :
      (["a", "b"].zipWith labelled [[first], [second, third]]).flatten =
        [⟨"a", first⟩, ⟨"b#0", second⟩, ⟨"b#1", third⟩] := by with_unfolding_all rfl
  have under_numbers (first second third : Value) :
      ((numbered 1 ["[1]", " \t", "[2,3]"]).zipWith
        (fun line => labelled ("all" ++ ":" ++ toString line.2))
        [[first], [second, third]]).flatten =
        [⟨"all:1", first⟩, ⟨"all:3#0", second⟩, ⟨"all:3#1", third⟩] := by with_unfolding_all rfl
  exact ⟨loaded.trans (congrArg _ (under_paths _ _ _)),
    lines.trans (congrArg _ (under_numbers _ _ _))⟩

end Readings.CommandLine
