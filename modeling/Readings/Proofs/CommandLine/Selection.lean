import Readings.CommandLine.Selection
import Readings.Proofs.Closure.Walking

/-!
What sources yield, and what keeps them from it. A source is cut into pieces, each of which is to be
one document; a piece yields what the pointer and then the filter select from it. Whatever does not
yield fails for a reason that is told where it arises: the source cannot be read or is no text, or
some piece of it, wherever it stands, is no JSON data, has nothing under the pointer, or is refused
by the filter.
-/
namespace Readings.CommandLine

variable {evaluate : Evaluation} {settings : InputSettings}

/-! ## One document -/

namespace InputSettings

/-- The pointer, if any, leads from a document to a part of it. -/
def Points (settings : InputSettings) (json part : Json) : Prop :=
  match settings.pointer with
  | none => part = json
  | some pointer => json.pointTo? pointer = some part

/-- The filter, if any, has these outputs on a part. -/
def Filters (evaluate : Evaluation) (settings : InputSettings) (part : Json)
    (outputs : List Json) : Prop :=
  match settings.filter with
  | none => outputs = [part]
  | some filter => evaluate filter part = .ok outputs

theorem Points.unique (points : settings.Points json part) (again : settings.Points json other) :
    part = other := by
  unfold Points at points again
  cases asked : settings.pointer with
  | none =>
    rw [asked] at points again
    exact points.trans again.symm
  | some pointer =>
    rw [asked] at points again
    exact Option.some.inj (points.symm.trans again)

theorem Filters.unique (filters : settings.Filters evaluate part outputs)
    (again : settings.Filters evaluate part others) : outputs = others := by
  unfold Filters at filters again
  cases asked : settings.filter with
  | none =>
    rw [asked] at filters again
    exact filters.trans again.symm
  | some filter =>
    rw [asked] at filters again
    exact Except.ok.inj (filters.symm.trans again)

end InputSettings

/-- Values under a label, with their number behind it if there are several. -/
def labelled (label : String) (values : List Value) : List InputDocument :=
  if values.length > 1 then
    values.zipIdx.map fun output => ⟨label ++ "#" ++ toString output.2, output.1⟩
  else values.map fun value => ⟨label, value⟩

theorem labelled_outputs (label : String) (outputs : List Json) :
    (labelOutputs label outputs).map (fun output => ⟨output.label, .ofJson output.content⟩) =
      labelled label (outputs.map .ofJson) := by
  unfold labelOutputs labelled
  rw [List.length_map]
  split
  · rw [List.zipIdx_map, List.map_map, List.map_map]
    rfl
  · rw [List.map_map, List.map_map]
    rfl

theorem labelled_contents (label : String) (values : List Value) :
    (labelled label values).map Labelled.content = values := by
  unfold labelled
  split
  · rw [List.map_map]
    exact List.zipIdx_map_fst 0 values
  · rw [List.map_map]
    exact List.map_id values

/-- These documents are selected from one, in the order of the filter's outputs. -/
def Selects (evaluate : Evaluation) (settings : InputSettings) (document : Labelled Json)
    (documents : List InputDocument) : Prop :=
  ∃ part outputs, settings.Points document.content part ∧ settings.Filters evaluate part outputs ∧
    documents = labelled document.label (outputs.map .ofJson)

theorem Selects.unique {document : Labelled Json}
    (selects : Selects evaluate settings document documents)
    (again : Selects evaluate settings document others) : documents = others := by
  obtain ⟨part, outputs, points, filters, rfl⟩ := selects
  obtain ⟨other, _, led, filtered, rfl⟩ := again
  cases points.unique led
  cases filters.unique filtered
  rfl

/-- Nothing can be selected from a document. -/
inductive SelectionFails (evaluate : Evaluation) (settings : InputSettings) (json : Json) :
    Prop where
  | unpointed (asked : settings.pointer = some pointer) (nothing : json.pointTo? pointer = none)
  | unfiltered (points : settings.Points json part) (asked : settings.filter = some filter)
      (refused : evaluate filter part = .error reason)

theorem SelectionFails.not_selects {document : Labelled Json}
    (fails : SelectionFails evaluate settings document.content) :
    ¬ Selects evaluate settings document documents := by
  rintro ⟨part, outputs, points, filters, _⟩
  cases fails with
  | unpointed asked nothing => simp [InputSettings.Points, asked, nothing] at points
  | unfiltered led asked refused =>
    cases led.unique points
    simp [InputSettings.Filters, asked, refused] at filters

/-! ## Pieces of a source -/

/-- The texts in a source that are each to be one document: all of it, or the lines that are not
blank. -/
def pieces (ndjson : Bool) (path text : String) : List (Labelled String) :=
  if ndjson then
    (((Text.lines text).zipIdx 1).filter fun line => !Text.isBlank line.1).map fun line =>
      ⟨path ++ ":" ++ toString line.2, line.1⟩
  else [⟨path, text⟩]

/-- A piece is read as one document, under the label of the piece. -/
def ReadsAs (piece : Labelled String) (document : Labelled Json) : Prop :=
  document.label = piece.label ∧ Json.parse piece.content = .ok document.content

/-- A piece is read, and these documents are selected from it. -/
def PieceYields (evaluate : Evaluation) (settings : InputSettings) (piece : Labelled String)
    (documents : List InputDocument) : Prop :=
  ∃ document, ReadsAs piece document ∧ Selects evaluate settings document documents

theorem PieceYields.unique (yields : PieceYields evaluate settings piece documents)
    (again : PieceYields evaluate settings piece others) : documents = others := by
  obtain ⟨⟨_, _⟩, ⟨rfl, parsed⟩, selects⟩ := yields
  obtain ⟨⟨_, _⟩, ⟨rfl, read⟩, selected⟩ := again
  cases parsed.symm.trans read
  exact selects.unique selected

theorem pieces_once : Relator.RightUnique (List.Forall₂ (PieceYields evaluate settings)) :=
  Relator.RightUnique.forall₂ fun _ _ _ => PieceYields.unique

/-- What goes wrong with a piece. -/
inductive PieceFails (evaluate : Evaluation) (settings : InputSettings)
    (piece : Labelled String) : Prop where
  | unparsed (refused : Json.parse piece.content = .error fault)
  | unselected (parsed : Json.parse piece.content = .ok json)
      (fails : SelectionFails evaluate settings json)

theorem PieceFails.not_yields (fails : PieceFails evaluate settings piece) :
    ¬ PieceYields evaluate settings piece documents := by
  rintro ⟨document, ⟨_, parsed⟩, selects⟩
  cases fails with
  | unparsed refused =>
    rw [parsed] at refused
    cases refused
  | unselected again fails =>
    cases again.symm.trans parsed
    exact fails.not_selects selects

/-! ## Sources -/

/-- A path with what there is to be read. -/
structure Source where
  path : String
  content : Except Files.FileError (List UInt8)

/-- A source is read, and its pieces yield these documents in order. -/
def SourceYields (evaluate : Evaluation) (settings : InputSettings) (source : Source)
    (documents : List InputDocument) : Prop :=
  ∃ bytes text found, source.content = .ok bytes ∧ Text.Utf8.decode bytes = .ok text ∧
    List.Forall₂ (PieceYields evaluate settings) (pieces settings.ndjson source.path text) found ∧
    documents = found.flatten

theorem SourceYields.unique {source : Source}
    (yields : SourceYields evaluate settings source documents)
    (again : SourceYields evaluate settings source others) : documents = others := by
  obtain ⟨bytes, text, found, read, decoded, each, rfl⟩ := yields
  obtain ⟨_, _, _, reread, redecoded, alike, rfl⟩ := again
  cases read.symm.trans reread
  cases decoded.symm.trans redecoded
  exact congrArg List.flatten (pieces_once each alike)

/-- What goes wrong with a source. -/
inductive SourceFails (evaluate : Evaluation) (settings : InputSettings) (source : Source) :
    Prop where
  | unread (refused : source.content = .error error)
  | undecoded (read : source.content = .ok bytes) (refused : Text.Utf8.decode bytes = .error offset)
  | piece (read : source.content = .ok bytes) (decoded : Text.Utf8.decode bytes = .ok text)
      (listed : piece ∈ pieces settings.ndjson source.path text)
      (fails : PieceFails evaluate settings piece)

theorem SourceFails.not_yields {source : Source} (fails : SourceFails evaluate settings source) :
    ¬ SourceYields evaluate settings source documents := by
  rintro ⟨bytes, text, found, read, decoded, yields, _⟩
  cases fails with
  | unread refused =>
    rw [read] at refused
    cases refused
  | undecoded again refused =>
    cases again.symm.trans read
    rw [decoded] at refused
    cases refused
  | piece again same listed fails =>
    cases again.symm.trans read
    cases same.symm.trans decoded
    obtain ⟨_, _, yields⟩ := partner_of_left yields listed
    exact fails.not_yields yields

/-! ## What the program selects -/

/-- A result is what a relation asks for, or a failure that a condition explains. -/
def Settles (result : Except ε α) (yields : α → Prop) (fails : Prop) : Prop :=
  match result with
  | .ok value => yields value
  | .error _ => fails

theorem Settles.bind {first : Except ε α} {next : α → Except ε β}
    (settled : Settles first middle fails)
    (onward : ∀ value, middle value → Settles (next value) yields fails) :
    Settles (first >>= next) yields fails := by
  cases first with
  | ok value => exact onward value settled
  | error => exact settled

theorem Settles.imp {result : Except ε α} (settled : Settles result yields fails)
    (gives : ∀ value, yields value → reaches value) (explains : fails → others) :
    Settles result reaches others := by
  cases result with
  | ok value => exact gives value settled
  | error => exact explains settled

/-- Where a relation has one value at most, and none when something fails, a result is told by it. -/
theorem Settles.ok_iff {result : Except ε α} (settled : Settles result yields fails)
    (unique : ∀ value other, yields value → yields other → value = other)
    (apart : ∀ value, yields value → ¬ fails) : result = .ok value ↔ yields value := by
  cases result with
  | ok found =>
    refine ⟨fun same => Except.ok.inj same ▸ settled, fun holds => ?_⟩
    rw [unique found value settled holds]
  | error => exact ⟨nofun, fun holds => absurd settled (apart value holds)⟩

theorem Settles.each {f : α → Except ε β} {R : α → β → Prop} {items : List α}
    (each : ∀ item ∈ items, Settles (f item) (R item) fails) :
    Settles (items.mapM f) (List.Forall₂ R items) fails := by
  cases ran : items.mapM f with
  | ok results =>
    refine (partners_listed (map_ok_iff.mp ran)).imp fun item result ⟨listed, same⟩ => ?_
    have settled := each item listed
    rwa [same] at settled
  | error error =>
    obtain ⟨item, listed, same⟩ := map_error ran
    have settled := each item listed
    rwa [same] at settled

theorem select_settles (document : Labelled Json) :
    Settles (select evaluate settings document) (Selects evaluate settings document)
      (SelectionFails evaluate settings document.content) := by
  unfold select
  extract_lets conclude proceed
  have proceeds (part : Json) (points : settings.Points document.content part) :
      Settles (proceed part) (Selects evaluate settings document)
        (SelectionFails evaluate settings document.content) := by
    dsimp only [proceed]
    cases asked : settings.filter with
    | none =>
      have filters : settings.Filters evaluate part [part] := by
        simp [InputSettings.Filters, asked]
      exact ⟨part, [part], points, filters, rfl⟩
    | some filter =>
      dsimp only
      cases ran : evaluate filter part with
      | ok outputs =>
        have filters : settings.Filters evaluate part outputs := by
          simpa [InputSettings.Filters, asked] using ran
        exact ⟨part, outputs, points, filters, labelled_outputs _ _⟩
      | error reason => exact SelectionFails.unfiltered points asked ran
  cases asked : settings.pointer with
  | none => exact proceeds document.content (by simp [InputSettings.Points, asked])
  | some pointer =>
    dsimp only
    cases pointed : document.content.pointTo? pointer with
    | some part => exact proceeds part (by simp [InputSettings.Points, asked, pointed])
    | none => exact SelectionFails.unpointed asked pointed

/-- Reads one piece. -/
def parsePiece (ndjson : Bool) (piece : Labelled String) : Except Failure (Labelled Json) :=
  match Json.parse piece.content with
  | .ok json => .ok ⟨piece.label, json⟩
  | .error fault =>
    .error (if ndjson then .lineInvalid piece.label fault else .sourceInvalid piece.label fault)

theorem parse_source_eq (ndjson : Bool) (path text : String) :
    parseSource ndjson path text = (pieces ndjson path text).mapM (parsePiece ndjson) := by
  cases ndjson with
  | false =>
    simp only [parseSource, pieces, parsePiece, Bool.false_eq_true, if_false, List.mapM_cons,
      List.mapM_nil]
    cases Json.parse text <;> rfl
  | true =>
    simp only [parseSource, pieces, if_true, List.mapM_map]
    rfl

/-- The documents of a text are what its pieces yield, unless one of them fails. -/
theorem documents_settle (path text : String) :
    Settles (documentsOf evaluate settings path text)
      (fun documents => ∃ found, List.Forall₂ (PieceYields evaluate settings)
        (pieces settings.ndjson path text) found ∧ documents = found.flatten)
      (∃ piece ∈ pieces settings.ndjson path text, PieceFails evaluate settings piece) := by
  have reads : Settles (parseSource settings.ndjson path text)
      (List.Forall₂ ReadsAs (pieces settings.ndjson path text))
      (∃ piece ∈ pieces settings.ndjson path text, PieceFails evaluate settings piece) := by
    rw [parse_source_eq]
    refine .each fun piece listed => ?_
    unfold parsePiece
    cases parsed : Json.parse piece.content with
    | ok json => exact ⟨rfl, parsed⟩
    | error fault => exact ⟨piece, listed, .unparsed parsed⟩
  refine reads.bind fun documents read => ?_
  have selects : Settles (documents.mapM (select evaluate settings))
      (List.Forall₂ (Selects evaluate settings) documents)
      (∃ piece ∈ pieces settings.ndjson path text, PieceFails evaluate settings piece) := by
    refine .each fun document listed => ?_
    obtain ⟨piece, there, _, parsed⟩ := partner_of_right read listed
    exact (select_settles document).imp (fun _ selects => selects) fun fails =>
      ⟨piece, there, .unselected parsed fails⟩
  refine selects.bind fun found selected => ⟨found, ?_, rfl⟩
  exact (partners_compose read selected).imp fun piece _ ⟨document, _, reads, selects⟩ =>
    ⟨document, reads, selects⟩

/-- A source that was read yields its documents, unless a piece of it fails. -/
theorem source_settles (evaluate : Evaluation) (settings : InputSettings) (path : String)
    (read : content = .ok bytes) (decoded : Text.Utf8.decode bytes = .ok text) :
    Settles (documentsOf evaluate settings path text)
      (SourceYields evaluate settings ⟨path, content⟩)
      (SourceFails evaluate settings ⟨path, content⟩) :=
  (documents_settle path text).imp
    (fun _ ⟨found, yields, flat⟩ => ⟨bytes, text, found, read, decoded, yields, flat⟩)
    fun ⟨_, listed, fails⟩ => .piece read decoded listed fails

end Readings.CommandLine
