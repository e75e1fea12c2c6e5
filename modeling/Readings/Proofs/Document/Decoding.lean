import Readings.Proofs.Document.Spelling
import Readings.Proofs.Json.Continuation

/-!
What the reader of documents reads. It walks through the text by itself, and yet a text is read as
a document exactly when the value in front of it spells one (`read_bytes_ok_iff`): reading node by
node while the fields go by is reading the value first and decoding it then.
-/
namespace Readings.Document
open Json (Cursor Read ObjectEnds MemberAt ArrayEnds)

theorem within_ok_iff {reading : Except Fault α} :
    within step reading = .ok answer ↔ reading = .ok answer :=
  map_error_ok_iff

theorem of_syntax_ok_iff {reading : Except Json.Fault α} :
    ofSyntax reading = .ok answer ↔ reading = .ok answer :=
  map_error_ok_iff

theorem read_node_ok_iff : readNode levels close cursor = .ok (node, behind) ↔
    ∃ json, Json.readValue levels cursor = .ok (json, behind) ∧ Node.ofJson? json = some node := by
  unfold readNode
  rw [bind_ok_iff]
  constructor
  · rintro ⟨⟨json, after⟩, read, ran⟩
    simp only at ran
    split at ran
    · cases ran
      exact ⟨json, of_syntax_ok_iff.mp read, by assumption⟩
    · cases ran
  · rintro ⟨json, read, spelled⟩
    refine ⟨_, of_syntax_ok_iff.mpr read, ?_⟩
    simp only [spelled]

theorem not_refused {expected : String} : refuseKind expected byte cursor ≠ .ok result := by
  intro read
  unfold refuseKind at read
  split at read
  · cases read
  · split at read
    · cases read
    · obtain ⟨_, _, read⟩ := bind_ok_iff.mp read
      cases read

/-! ## Definitions -/

/-- What reading on among definitions does: the map ends, or one more is written into the table. -/
theorem read_definition_step :
    readDefinitionMembers levels (fuel + 1) isFirst table cursor = .ok (whole, behind) ↔
      (ObjectEnds isFirst cursor behind ∧ whole = table) ∨
        ∃ key place node after, MemberAt isFirst cursor key place ∧
          readNode levels afterObject place = .ok (node, after) ∧
            readDefinitionMembers levels fuel false (Entries.insert table key node) after =
              .ok (whole, behind) := by
  rw [readDefinitionMembers, bind_ok_iff]
  constructor
  · rintro ⟨⟨more, first⟩, next, ran⟩
    replace next := of_syntax_ok_iff.mp (within_ok_iff.mp next)
    cases more with
    | false =>
      cases ran
      exact .inl ⟨⟨first, next, rfl⟩, rfl⟩
    | true =>
      obtain ⟨⟨key, colon⟩, named, ran⟩ := bind_ok_iff.mp ran
      obtain ⟨⟨_, place⟩, told, ran⟩ := bind_ok_iff.mp ran
      obtain ⟨⟨node, after⟩, inside, ran⟩ := bind_ok_iff.mp ran
      exact .inr ⟨key, place, node, after, ⟨first, colon, next,
        of_syntax_ok_iff.mp (within_ok_iff.mp named), of_syntax_ok_iff.mp told⟩,
        within_ok_iff.mp inside, ran⟩
  · rintro (⟨⟨brace, next, rfl⟩, rfl⟩ |
      ⟨key, place, node, after, ⟨quote, colon, next, named, told⟩, inside, ran⟩)
    · exact ⟨_, within_ok_iff.mpr (of_syntax_ok_iff.mpr next), rfl⟩
    · exact ⟨_, within_ok_iff.mpr (of_syntax_ok_iff.mpr next), bind_ok_iff.mpr ⟨_,
        within_ok_iff.mpr (of_syntax_ok_iff.mpr named), bind_ok_iff.mpr ⟨_,
          of_syntax_ok_iff.mpr told, bind_ok_iff.mpr ⟨_, within_ok_iff.mpr inside, ran⟩⟩⟩⟩

/-- Reading definitions one by one is reading their members first and decoding these then. -/
theorem read_definition_members_iff :
    readDefinitionMembers levels fuel isFirst table cursor = .ok (whole, behind) ↔
      ∃ members fields, Json.readMembers (Json.readValue levels) fuel isFirst cursor =
        .ok (members, behind) ∧ Node.ofMembers? members = some fields ∧
          Entries.extend table fields = whole := by
  -- both readers spend their fuel on the same members, so one of them can be followed by the other
  induction fuel generalizing isFirst table cursor with
  | zero =>
    constructor
    · exact nofun
    · rintro ⟨_, _, ⟨⟩, _⟩
  | succ fuel ih =>
    rw [read_definition_step]
    constructor
    · rintro (⟨ends, rfl⟩ | ⟨key, place, node, after, member, inside, ran⟩)
      · exact ⟨[], [], Json.read_no_members_iff.mpr ends, rfl, rfl⟩
      · obtain ⟨json, read, spelled⟩ := read_node_ok_iff.mp inside
        obtain ⟨members, fields, onward, others, rfl⟩ := ih.mp ran
        refine ⟨(key, json) :: members, (key, node) :: fields,
          Json.read_more_members_iff.mpr ⟨place, after, member, read, onward⟩, ?_, rfl⟩
        rw [Node.ofMembers?, spelled, others]
        rfl
    · rintro ⟨_ | ⟨⟨key, json⟩, members⟩, fields, read, spelled, rfl⟩
      · cases spelled
        exact .inl ⟨Json.read_no_members_iff.mp read, rfl⟩
      · obtain ⟨place, after, member, inside, onward⟩ := Json.read_more_members_iff.mp read
        obtain ⟨node, first, fields, others, rfl⟩ : ∃ node, Node.ofJson? json = some node ∧
            ∃ others, Node.ofMembers? members = some others ∧ (key, node) :: others = fields := by
          simpa [Node.ofMembers?, Option.bind_eq_some_iff] using spelled
        exact .inr ⟨key, place, node, after, member, read_node_ok_iff.mpr ⟨json, inside, first⟩,
          ih.mpr ⟨members, fields, onward, others, rfl⟩⟩

theorem read_definitions_iff {levels : Nat} :
    readDefinitions (levels + 2) cursor = .ok (table, behind) ↔
      ∃ json, Json.readValue (levels + 2) cursor = .ok (json, behind) ∧
        definitionsOfJson? json = some table := by
  simp only [Json.read_value_iff, readDefinitions]
  cases starts : cursor.skipBlanks.rest with
  | nil => simp [ofSyntax, Cursor.failAhead, Except.mapError]
  | cons byte rest =>
    simp only [List.head?_cons, Option.some.injEq, exists_eq_left']
    by_cases brace : byte = 123
    · subst brace
      simp only [↓reduceIte, read_definition_members_iff]
      constructor
      · rintro ⟨members, fields, read, spelled, rfl⟩
        refine ⟨.object members, ⟨members, read, rfl⟩, ?_⟩
        rw [definitionsOfJson?, spelled]
        rfl
      · rintro ⟨_, ⟨members, read, rfl⟩, spelled⟩
        obtain ⟨fields, inside, rfl⟩ := Option.map_eq_some_iff.mp spelled
        exact ⟨members, fields, read, inside, rfl⟩
    · simp only [if_neg brace, not_refused, false_iff]
      rintro ⟨json, read, spelled⟩
      have container : json.isContainer = true ∧ ∀ items, json ≠ .array items := by
        cases json with
        | object members => exact ⟨rfl, fun items => by simp⟩
        | _ => cases spelled
      split at read
      · obtain ⟨items, _, rfl⟩ := read
        exact container.2 items rfl
      · rw [Json.scalar_plain read] at container
        cases container.1

/-! ## Fields -/

/-- The document that the members of an object complete, where a root and definitions may have been
met before. -/
def withFields? (root : Option Node) (definitions : Option (Entries Node)) :
    List (String × Json) → Option Document
  | [] => root.map fun root => ⟨root, definitions.getD []⟩
  | (key, json) :: rest =>
    if key = "root" ∧ root = none then do
      withFields? (some (← Node.ofJson? json)) definitions rest
    else if key = "definitions" ∧ definitions = none then do
      withFields? root (some (← definitionsOfJson? json)) rest
    else none

variable {root : Option Node} {definitions : Option (Entries Node)}

/-- What reading on among fields does: the object ends, or a field comes that was not there yet. -/
theorem read_field_step :
    readFields levels (fuel + 1) isFirst root definitions cursor = .ok document ↔
      ((∃ behind, ObjectEnds isFirst cursor behind) ∧
          root.map (fun root => ⟨root, definitions.getD []⟩) = some document) ∨
        ∃ key place, MemberAt isFirst cursor key place ∧
          ((key = "root" ∧ root = none ∧ ∃ node after,
            readNode levels afterObject place = .ok (node, after) ∧
              readFields levels fuel false (some node) definitions after = .ok document) ∨
          (key = "definitions" ∧ definitions = none ∧ ∃ table after,
            readDefinitions levels place = .ok (table, after) ∧
              readFields levels fuel false root (some table) after = .ok document)) := by
  rw [readFields, bind_ok_iff]
  constructor
  · rintro ⟨⟨more, first⟩, next, ran⟩
    replace next := of_syntax_ok_iff.mp (within_ok_iff.mp next)
    cases more with
    | false =>
      refine .inl ⟨⟨_, first, next, rfl⟩, ?_⟩
      cases root <;> cases ran
      rfl
    | true =>
      obtain ⟨⟨key, colon⟩, named, ran⟩ := bind_ok_iff.mp ran
      replace named := of_syntax_ok_iff.mp (within_ok_iff.mp named)
      refine .inr ?_
      simp only at ran
      split at ran
      · rename_i known
        split at ran
        · cases ran
        · rename_i fresh
          obtain ⟨⟨_, place⟩, told, ran⟩ := bind_ok_iff.mp ran
          obtain ⟨⟨node, after⟩, inside, ran⟩ := bind_ok_iff.mp ran
          exact ⟨key, place, ⟨first, colon, next, named, of_syntax_ok_iff.mp told⟩, .inl
            ⟨known, by simpa using fresh, node, after, within_ok_iff.mp inside, ran⟩⟩
      · split at ran
        · rename_i known
          split at ran
          · cases ran
          · rename_i fresh
            obtain ⟨⟨_, place⟩, told, ran⟩ := bind_ok_iff.mp ran
            obtain ⟨⟨table, after⟩, inside, ran⟩ := bind_ok_iff.mp ran
            exact ⟨key, place, ⟨first, colon, next, named, of_syntax_ok_iff.mp told⟩, .inr
              ⟨known, by simpa using fresh, table, after, within_ok_iff.mp inside, ran⟩⟩
        · cases ran
  · rintro (⟨⟨behind, brace, next, -⟩, whole⟩ |
      ⟨key, place, ⟨quote, colon, next, named, told⟩, field⟩)
    · refine ⟨_, within_ok_iff.mpr (of_syntax_ok_iff.mpr next), ?_⟩
      obtain ⟨root, rfl, rfl⟩ := Option.map_eq_some_iff.mp whole
      rfl
    · refine ⟨_, within_ok_iff.mpr (of_syntax_ok_iff.mpr next), bind_ok_iff.mpr ⟨_,
        within_ok_iff.mpr (of_syntax_ok_iff.mpr named), ?_⟩⟩
      have colon := of_syntax_ok_iff.mpr told
      rcases field with ⟨rfl, rfl, node, after, inside, ran⟩ | ⟨rfl, rfl, table, after, inside, ran⟩
      · exact bind_ok_iff.mpr ⟨_, colon, bind_ok_iff.mpr ⟨_, within_ok_iff.mpr inside, ran⟩⟩
      · exact bind_ok_iff.mpr ⟨_, colon, bind_ok_iff.mpr ⟨_, within_ok_iff.mpr inside, ran⟩⟩

/-- Reading the fields of a document is reading the members of an object first. -/
theorem read_fields_iff {levels : Nat} :
    readFields (levels + 2) fuel isFirst root definitions cursor = .ok document ↔
      ∃ members behind, Json.readMembers (Json.readValue (levels + 2)) fuel isFirst cursor =
        .ok (members, behind) ∧ withFields? root definitions members = some document := by
  induction fuel generalizing isFirst root definitions cursor with
  | zero =>
    constructor
    · exact nofun
    · rintro ⟨_, _, ⟨⟩, _⟩
  | succ fuel ih =>
    rw [read_field_step]
    constructor
    · rintro (⟨⟨behind, ends⟩, whole⟩ | ⟨key, place, member,
        ⟨rfl, rfl, node, after, inside, ran⟩ | ⟨rfl, rfl, table, after, inside, ran⟩⟩)
      · exact ⟨[], behind, Json.read_no_members_iff.mpr ends, whole⟩
      · obtain ⟨json, read, spelled⟩ := read_node_ok_iff.mp inside
        obtain ⟨members, behind, onward, others⟩ := ih.mp ran
        refine ⟨("root", json) :: members, behind,
          Json.read_more_members_iff.mpr ⟨place, after, member, read, onward⟩, ?_⟩
        rw [withFields?, if_pos ⟨rfl, rfl⟩, spelled]
        exact others
      · obtain ⟨json, read, spelled⟩ := read_definitions_iff.mp inside
        obtain ⟨members, behind, onward, others⟩ := ih.mp ran
        refine ⟨("definitions", json) :: members, behind,
          Json.read_more_members_iff.mpr ⟨place, after, member, read, onward⟩, ?_⟩
        rw [withFields?, if_neg (by simp), if_pos ⟨rfl, rfl⟩, spelled]
        exact others
    · rintro ⟨_ | ⟨⟨key, json⟩, members⟩, behind, read, whole⟩
      · exact .inl ⟨⟨behind, Json.read_no_members_iff.mp read⟩, whole⟩
      · obtain ⟨place, after, member, inside, onward⟩ := Json.read_more_members_iff.mp read
        refine .inr ⟨key, place, member, ?_⟩
        rw [withFields?] at whole
        split at whole
        · rename_i fresh
          obtain ⟨node, spelled, others⟩ := Option.bind_eq_some_iff.mp whole
          exact .inl ⟨fresh.1, fresh.2, node, after, read_node_ok_iff.mpr ⟨json, inside, spelled⟩,
            ih.mpr ⟨members, behind, onward, others⟩⟩
        · split at whole
          · rename_i fresh
            obtain ⟨table, spelled, others⟩ := Option.bind_eq_some_iff.mp whole
            exact .inr ⟨fresh.1, fresh.2, table, after,
              read_definitions_iff.mpr ⟨json, inside, spelled⟩,
              ih.mpr ⟨members, behind, onward, others⟩⟩
          · cases whole

theorem with_root_field (root : Node) (members : Entries Json) :
    withFields? (some root) none members = match members with
      | [] => some ⟨root, []⟩
      | [("definitions", json)] => do some ⟨root, ← definitionsOfJson? json⟩
      | _ => none := by
  rcases members with _ | ⟨⟨key, json⟩, rest⟩
  · rfl
  · by_cases named : key = "definitions"
    · subst named
      cases rest <;> simp [withFields?]
    · simp [withFields?, named]

theorem with_definitions_field (table : Entries Node) (members : Entries Json) :
    withFields? none (some table) members = match members with
      | [("root", json)] => do some ⟨← Node.ofJson? json, table⟩
      | _ => none := by
  rcases members with _ | ⟨⟨key, json⟩, rest⟩
  · rfl
  · by_cases named : key = "root"
    · subst named
      cases rest <;> simp [withFields?]
    · simp [withFields?, named]

theorem with_fields_eq (members : Entries Json) :
    withFields? none none members = ofJson? (.object members) := by
  rcases members with _ | ⟨⟨key, json⟩, rest⟩
  · rfl
  · by_cases head : key = "root"
    · subst head
      simp only [withFields?, with_root_field]
      rcases rest with _ | ⟨⟨other, table⟩, _ | ⟨more, rest⟩⟩
      · simp only [ofJson?]
        cases Node.ofJson? json <;> rfl
      · by_cases tail : other = "definitions"
        · subst tail
          simp [ofJson?]
        · simp [ofJson?, tail]
      · simp [ofJson?]
    · by_cases known : key = "definitions"
      · subst known
        simp only [withFields?, with_definitions_field]
        rcases rest with _ | ⟨⟨other, body⟩, _ | ⟨more, rest⟩⟩
        · simp [ofJson?]
        · by_cases tail : other = "root"
          · subst tail
            simp only [ofJson?]
            cases definitionsOfJson? json <;> cases Node.ofJson? body <;> rfl
          · simp [ofJson?, tail]
        · simp [ofJson?]
      · simp [withFields?, ofJson?, head, known]

/-! ## Parts -/

theorem close_array_iff : Json.closeArray cursor = .ok answer ↔
    ArrayEnds false cursor answer.2 := by
  simp only [Json.array_ends_iff, Json.closeArray]
  split
  · simp [Cursor.failAhead, *]
  · split
    · simp [Prod.ext_iff, *]
    · split <;> simp [Cursor.failAhead, *]

/-- What reading the parts of a document does: a root comes, and then the array ends or definitions
come before it does. -/
theorem read_parts_step : readParts levels cursor = .ok document ↔
    ∃ place root after, Json.nextItem true cursor = .ok (true, place) ∧
      readNode levels afterArray place = .ok (root, after) ∧
        ((∃ behind, ArrayEnds false after behind) ∧ document = ⟨root, []⟩ ∨
          ∃ second table last behind, Json.nextItem false after = .ok (true, second) ∧
            readDefinitions levels second = .ok (table, last) ∧ ArrayEnds false last behind ∧
              document = ⟨root, table⟩) := by
  unfold readParts
  rw [bind_ok_iff]
  constructor
  · rintro ⟨⟨more, place⟩, next, ran⟩
    cases more with
    | false => cases ran
    | true =>
      obtain ⟨⟨root, after⟩, inside, ran⟩ := bind_ok_iff.mp ran
      obtain ⟨⟨more, second⟩, onward, ran⟩ := bind_ok_iff.mp ran
      replace onward := of_syntax_ok_iff.mp onward
      refine ⟨place, root, after, of_syntax_ok_iff.mp next, within_ok_iff.mp inside, ?_⟩
      cases more with
      | false =>
        cases ran
        exact .inl ⟨⟨_, second, onward, rfl⟩, rfl⟩
      | true =>
        obtain ⟨⟨table, last⟩, below, ran⟩ := bind_ok_iff.mp ran
        obtain ⟨⟨_, behind⟩, closed, ran⟩ := bind_ok_iff.mp ran
        cases ran
        exact .inr ⟨second, table, last, behind, onward, within_ok_iff.mp below,
          close_array_iff.mp (of_syntax_ok_iff.mp closed), rfl⟩
  · rintro ⟨place, root, after, next, inside, rest⟩
    refine ⟨_, of_syntax_ok_iff.mpr next, bind_ok_iff.mpr ⟨_, within_ok_iff.mpr inside, ?_⟩⟩
    rcases rest with ⟨⟨behind, bracket, closed, -⟩, rfl⟩ |
      ⟨second, table, last, behind, onward, below, closed, rfl⟩
    · exact bind_ok_iff.mpr ⟨_, of_syntax_ok_iff.mpr closed, rfl⟩
    · have ends : Json.closeArray last = .ok ((), behind) := close_array_iff.mpr closed
      exact bind_ok_iff.mpr ⟨_, of_syntax_ok_iff.mpr onward, bind_ok_iff.mpr ⟨_,
        within_ok_iff.mpr below, bind_ok_iff.mpr ⟨_, of_syntax_ok_iff.mpr ends, rfl⟩⟩⟩

theorem of_parts_iff {items : List Json} : ofJson? (.array items) = some document ↔
    ∃ json root, Node.ofJson? json = some root ∧
      (items = [json] ∧ document = ⟨root, []⟩ ∨ ∃ definitions table, items = [json, definitions] ∧
        definitionsOfJson? definitions = some table ∧ document = ⟨root, table⟩) := by
  constructor
  · intro whole
    rcases items with _ | ⟨json, _ | ⟨definitions, _ | ⟨more, items⟩⟩⟩
    · cases whole
    · obtain ⟨root, spelled, rfl⟩ := Option.map_eq_some_iff.mp whole
      exact ⟨json, root, spelled, .inl ⟨rfl, rfl⟩⟩
    · obtain ⟨root, spelled, rest⟩ := Option.bind_eq_some_iff.mp whole
      obtain ⟨table, told, ⟨⟩⟩ := Option.bind_eq_some_iff.mp rest
      exact ⟨json, root, spelled, .inr ⟨definitions, table, rfl, told, rfl⟩⟩
    · cases whole
  · rintro ⟨json, root, spelled, ⟨rfl, rfl⟩ | ⟨definitions, table, rfl, told, rfl⟩⟩
    · rw [ofJson?, spelled]
      rfl
    · rw [ofJson?, spelled, told]
      rfl

/-- Reading the parts of a document is reading the items of an array first. -/
theorem read_parts_iff {levels : Nat} {cursor : Cursor} (limit : cursor.rest.length < fuel) :
    readParts (levels + 2) cursor = .ok document ↔
      ∃ items behind, Json.readItems (Json.readValue (levels + 2)) fuel 0 cursor =
        .ok (items, behind) ∧ ofJson? (.array items) = some document := by
  simp only [read_parts_step, of_parts_iff]
  constructor
  · rintro ⟨place, root, after, next, inside, rest⟩
    obtain ⟨json, read, spelled⟩ := read_node_ok_iff.mp inside
    -- two parts and the bracket are all that is ever read here, within any limit on the bytes
    have enough : ∀ {items behind}, Json.readItems (Json.readValue (levels + 2)) 3 0 cursor =
        .ok (items, behind) → Json.readItems (Json.readValue (levels + 2)) fuel 0 cursor =
          .ok (items, behind) :=
      fun run => Json.items_enough (Json.local_value _) run (by rw [if_pos rfl]; omega)
    rcases rest with ⟨⟨behind, closed⟩, rfl⟩ |
      ⟨second, table, last, behind, onward, below, closed, rfl⟩
    · exact ⟨[json], behind, enough (Json.read_more_items_iff.mpr ⟨place, after, next, read,
        Json.read_no_items_iff.mpr closed⟩), json, root, spelled, .inl ⟨rfl, rfl⟩⟩
    · obtain ⟨definitions, found, told⟩ := read_definitions_iff.mp below
      exact ⟨[json, definitions], behind, enough (Json.read_more_items_iff.mpr ⟨place, after, next,
        read, Json.read_more_items_iff.mpr ⟨second, last, onward, found,
          Json.read_no_items_iff.mpr closed⟩⟩), json, root, spelled,
        .inr ⟨definitions, table, rfl, told, rfl⟩⟩
  · rintro ⟨items, behind, run, json, root, spelled, rest⟩
    obtain _ | fuel := fuel
    · cases run
    rcases rest with ⟨rfl, rfl⟩ | ⟨definitions, table, rfl, told, rfl⟩
    · obtain ⟨place, after, next, read, run⟩ := Json.read_more_items_iff.mp run
      obtain _ | fuel := fuel
      · cases run
      have closed := Json.read_no_items_iff.mp run
      exact ⟨place, root, after, next, read_node_ok_iff.mpr ⟨json, read, spelled⟩,
        .inl ⟨⟨behind, closed⟩, rfl⟩⟩
    · obtain ⟨place, after, next, read, run⟩ := Json.read_more_items_iff.mp run
      obtain _ | fuel := fuel
      · cases run
      obtain ⟨second, last, onward, found, run⟩ := Json.read_more_items_iff.mp run
      obtain _ | fuel := fuel
      · cases run
      have closed := Json.read_no_items_iff.mp run
      exact ⟨place, root, after, next, read_node_ok_iff.mpr ⟨json, read, spelled⟩,
        .inr ⟨second, table, last, behind, onward,
          read_definitions_iff.mpr ⟨definitions, found, told⟩, closed, rfl⟩⟩

/-! ## Documents -/

/-- A text is read as a document exactly when the value in front of it spells one. -/
theorem read_bytes_ok_iff : readBytes bytes = .ok document ↔
    ∃ json behind, Json.readValue Json.nestingLimit (.start bytes) = .ok (json, behind) ∧
      ofJson? json = some document := by
  simp only [readBytes, show Json.nestingLimit = 126 + 2 from rfl, Json.read_value_iff]
  cases starts : (Cursor.start bytes).skipBlanks.rest with
  | nil => simp [ofSyntax, Cursor.failAhead, Except.mapError]
  | cons byte rest =>
    simp only [List.head?_cons, Option.some.injEq, exists_eq_left']
    have levels : 126 + 2 - 1 = 125 + 2 := rfl
    by_cases bracket : byte = 91
    · subst bracket
      have limit : ((Cursor.start bytes).skipBlanks.advance 1).rest.length < (91 :: rest).length :=
        starts ▸ (Json.local_take ()).lt (congrArg List.head? starts) rfl
      rw [if_neg (by decide), if_pos rfl, levels, read_parts_iff limit]
      constructor
      · rintro ⟨items, behind, read, whole⟩
        exact ⟨.array items, behind, by rw [if_pos rfl]; exact ⟨items, read, rfl⟩, whole⟩
      · rintro ⟨json, behind, read, whole⟩
        rw [if_pos rfl] at read
        obtain ⟨items, read, rfl⟩ := read
        exact ⟨items, behind, read, whole⟩
    · simp only [if_neg bracket]
      by_cases brace : byte = 123
      · simp only [if_pos brace, levels, read_fields_iff, with_fields_eq]
        constructor
        · rintro ⟨members, behind, read, whole⟩
          exact ⟨.object members, behind, ⟨members, read, rfl⟩, whole⟩
        · rintro ⟨json, behind, ⟨members, read, rfl⟩, whole⟩
          exact ⟨members, behind, read, whole⟩
      · simp only [if_neg brace, not_refused, false_iff]
        rintro ⟨json, behind, read, whole⟩
        have plain := Json.scalar_plain read
        cases json <;> first | cases whole | cases plain

theorem of_bytes_ok_iff : ofBytes bytes = .ok document ↔ readBytes bytes = .ok document :=
  map_error_ok_iff

/-- A document that was read has each key once in all of its tables. -/
theorem of_bytes_keyed (read : ofBytes bytes = .ok document) : document.Keyed := by
  obtain ⟨json, behind, _, whole⟩ := read_bytes_ok_iff.mp (of_bytes_ok_iff.mp read)
  have tidy := tidy_of_json whole
  exact ⟨tidy.names, fun entry listed => (tidy.bodies _ (List.mem_map_of_mem listed)).keyed,
    tidy.root.keyed⟩

/-- Decoding undoes spelling: a document with each key once is decoded from its spelling, nothing
else is ever decoded, and as a node exactly what spells one, which is a string or an object with one
key that names a form. A text is read as the document that the value in front of it spells, which
has each key once in all of its tables. -/
theorem spelled_documents_are_read :
    (∀ document : Document, document.Tidy → ofJson? document.spelled = some document) ∧
    (∀ json document, ofJson? json = some document → document.Tidy) ∧
    (∀ json node, Node.ofJson? json = some node ↔ Node.Spells json node) ∧
    (∀ json node, Node.Spells json node → (∃ name, json = .string name) ∨
      ∃ key ∈ Node.forms, ∃ payload, json = Node.under key payload) ∧
    (∀ bytes document, readBytes bytes = .ok document ↔ ∃ json behind,
      Json.readValue Json.nestingLimit (.start bytes) = .ok (json, behind) ∧
        ofJson? json = some document) ∧
    ∀ bytes document, ofBytes bytes = .ok document → document.Keyed :=
  ⟨fun _ => of_json_spelled, fun _ _ => tidy_of_json, fun _ _ => Node.of_json_iff,
    fun _ _ => Node.Spells.form, fun _ _ => read_bytes_ok_iff, fun _ _ => of_bytes_keyed⟩

/-- A document of every depth: a map over a reference, and a definition with two fields. -/
theorem nested_document_is_read :
    let document : Document := ⟨.map "first" (.reference "a"),
      [("a", .object [("y", .nullable (.atom "number")), ("x", .enumeration [.null, .integer 1])])]⟩
    document.Tidy ∧ ofJson? document.spelled = some document := by
  intro document
  have tidy : document.Tidy := spelled_documents_are_read.2.1 document.spelled document rfl
  exact ⟨tidy, spelled_documents_are_read.1 document tidy⟩

end Readings.Document
