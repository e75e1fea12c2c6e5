import Readings.Proofs.Document.Decoding

/-!
What follows a document in its text. A document is written as an array or an object, which ends with
a bracket of its own, and its reader never looks behind that one. So a text loads with whatever is
put behind it, while as data it is read only when nothing but blanks is
(`load_stops_at_the_bracket`).
-/
namespace Readings

namespace Json

/-- A text that is a container, up to blanks, has it in front whatever follows. -/
theorem container_in_front (read : readBytes front = .ok json)
    (container : json.isContainer = true) :
    ∃ used blanks offset, front = used ++ blanks ∧ blanks.all isBlank = true ∧
      ∀ rest, readValue nestingLimit (.start (used ++ rest)) = .ok (json, ⟨rest, offset⟩) := by
  obtain ⟨behind, value, blank⟩ := read_bytes_ok_iff.mp read
  obtain ⟨used, rejoined, again⟩ := container_continues value container
  exact ⟨used, behind.rest, behind.offset, rejoined, blank, again⟩

/-- As data, a container is followed by blanks or refused. -/
theorem read_bytes_continued (read : readBytes front = .ok json)
    (container : json.isContainer = true) (rest : List UInt8) :
    (rest.all isBlank = true → readBytes (front ++ rest) = .ok json) ∧
      (rest.all isBlank = false →
        ∃ offset, readBytes (front ++ rest) = .error ⟨.trailingCharacters, offset, []⟩) := by
  obtain ⟨used, blanks, offset, rfl, blank, again⟩ := container_in_front read container
  rw [List.append_assoc, read_bytes_of_value (again _)]
  simp only [List.all_append, blank, Bool.true_and]
  constructor
  · exact fun all => if_pos all
  · exact fun other => ⟨_, if_neg (Bool.eq_false_iff.mp other)⟩

end Json

namespace Document

theorem container_of_json {json : Json} (read : ofJson? json = some document) :
    json.isContainer = true := by
  cases json with
  | array | object => rfl
  | _ => cases read

/-- A text is read as a document exactly when some front part of it is the data that spells it. -/
theorem read_bytes_front_iff : readBytes bytes = .ok document ↔
    ∃ front rest json, bytes = front ++ rest ∧ Json.readBytes front = .ok json ∧
      ofJson? json = some document := by
  rw [read_bytes_ok_iff]
  constructor
  · rintro ⟨json, behind, value, whole⟩
    obtain ⟨front, rejoined, again⟩ := Json.container_continues value (container_of_json whole)
    refine ⟨front, behind.rest, json, rejoined, ?_, whole⟩
    have alone := again []
    rw [List.append_nil] at alone
    exact Json.read_bytes_ok_iff.mpr ⟨_, alone, rfl⟩
  · rintro ⟨front, rest, json, rfl, read, whole⟩
    obtain ⟨used, blanks, offset, rfl, -, again⟩ :=
      Json.container_in_front read (container_of_json whole)
    exact ⟨json, ⟨blanks ++ rest, offset⟩, List.append_assoc used blanks rest ▸ again _, whole⟩

end Document

theorem Text.Utf8.encode_append (text continuation : String) :
    encode (text ++ continuation) = encode text ++ encode continuation := by
  rw [encode, String.toList_append, List.flatMap_append]
  rfl

namespace Schema

theorem of_bytes_ok_iff : ofBytes serial bytes = .ok schema ↔
    ∃ front rest json document, bytes = front ++ rest ∧ Json.readBytes front = .ok json ∧
      Document.ofJson? json = some document ∧ document.compile serial = .ok schema := by
  simp only [ofBytes, bind_ok_iff, Document.of_bytes_ok_iff, Document.read_bytes_front_iff]
  constructor
  · rintro ⟨document, ⟨front, rest, json, parted, read, whole⟩, compiled⟩
    exact ⟨front, rest, json, document, parted, read, whole, compiled⟩
  · rintro ⟨front, rest, json, document, parted, read, whole, compiled⟩
    exact ⟨document, ⟨front, rest, json, parted, read, whole⟩, compiled⟩

/-- What follows the value that loads does not matter. -/
theorem of_bytes_append (loaded : ofBytes serial bytes = .ok schema) (continuation : List UInt8) :
    ofBytes serial (bytes ++ continuation) = .ok schema := by
  obtain ⟨front, rest, json, document, rfl, found⟩ := of_bytes_ok_iff.mp loaded
  exact of_bytes_ok_iff.mpr
    ⟨front, rest ++ continuation, json, document, List.append_assoc _ _ _, found⟩

theorem of_text_append (loaded : ofText serial text = .ok schema) (continuation : String) :
    ofText serial (text ++ continuation) = .ok schema := by
  rw [ofText, Text.Utf8.encode_append]
  exact of_bytes_append loaded _

/-- Loading looks at the value in front of a text only. A text loads exactly when a front part of it
is, as data, a document that compiles. As data the whole text is that document if only blanks are
left behind it, and is refused otherwise; yet the text loads with anything put behind it. -/
theorem load_stops_at_the_bracket (serial : Nat) (bytes : List UInt8) (schema : Schema) :
    (ofBytes serial bytes = .ok schema ↔ ∃ front rest json document, bytes = front ++ rest ∧
      Json.readBytes front = .ok json ∧ Document.ofJson? json = some document ∧
        document.compile serial = .ok schema ∧
          (rest.all Json.isBlank = true → Json.readBytes bytes = .ok json) ∧
          (rest.all Json.isBlank = false →
            ∃ offset, Json.readBytes bytes = .error ⟨.trailingCharacters, offset, []⟩)) ∧
      ∀ continuation, ofBytes serial bytes = .ok schema →
        ofBytes serial (bytes ++ continuation) = .ok schema := by
  refine ⟨?_, fun continuation loaded => of_bytes_append loaded continuation⟩
  rw [of_bytes_ok_iff]
  constructor
  · rintro ⟨front, rest, json, document, rfl, read, whole, compiled⟩
    exact ⟨front, rest, json, document, rfl, read, whole, compiled,
      Json.read_bytes_continued read (Document.container_of_json whole) rest⟩
  · rintro ⟨front, rest, json, document, parted, read, whole, compiled, -⟩
    exact ⟨front, rest, json, document, parted, read, whole, compiled⟩

/-- A text that is data as a whole loads as what that data is compiled to. -/
theorem of_bytes_of_data {document : Document} (read : Json.readBytes bytes = .ok json)
    (whole : Document.ofJson? json = some document) (compiled : document.compile serial = .ok schema) :
    ofBytes serial bytes = .ok schema :=
  of_bytes_ok_iff.mpr ⟨bytes, [], json, document, (List.append_nil bytes).symm, read, whole, compiled⟩

private theorem unknown_loads :
    ofBytes 0 (Text.Utf8.encode "\x7b\"root\":\"unknown\"\x7d") = .ok ⟨.unknown, []⟩ := by
  have read : Json.readBytes (Text.Utf8.encode "\x7b\"root\":\"unknown\"\x7d") =
      .ok (.object [("root", .string "unknown")]) := by decide +kernel
  exact of_bytes_of_data read rfl (compile_of_stages rfl rfl rfl rfl
    (Group.close_of_walk (Group.walk_of_children rfl [] .nil)))

/-- A document goes on loading with a letter behind it. -/
theorem document_and_letter_load :
    ofBytes 0 (Text.Utf8.encode "\x7b\"root\":\"unknown\"\x7d" ++ Text.Utf8.encode " x") =
      .ok ⟨.unknown, []⟩ :=
  (load_stops_at_the_bracket 0 (Text.Utf8.encode "\x7b\"root\":\"unknown\"\x7d") ⟨.unknown, []⟩).2
    (Text.Utf8.encode " x") unknown_loads

/-- The same text is not one JSON value. -/
theorem loaded_text_is_not_one_value :
    let text := "\x7b\"root\":\"unknown\"\x7d" ++ " x"
    ofText 0 text = .ok ⟨.unknown, []⟩ ∧
      ¬ ∃ json, Json.readBytes (Text.Utf8.encode text) = .ok json := by
  intro text
  have refused : Json.readBytes (Text.Utf8.encode text) = .error ⟨.trailingCharacters, 20, []⟩ := by
    decide +kernel
  refine ⟨of_text_append unknown_loads " x", ?_⟩
  rw [refused]
  rintro ⟨_, ⟨⟩⟩

end Schema
end Readings
