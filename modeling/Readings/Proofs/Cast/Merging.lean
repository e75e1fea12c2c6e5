import Readings.Proofs.Cast.Answers
import Readings.Proofs.Cast.ListSemantics
import Readings.Proofs.Morphism.Regrouping

/-!
Merging the readings of object shapes side by side. An intersection of object shapes reads one object
for each shape, and a merge writes them into one, in the order of the shapes. Where no two shapes
declare the same key this is the object of all their fields: the same readings, in the same order,
because rows of rows are rows (`rows_flatten`) and keys written for the first time go to the end.
-/
namespace Readings

/-! ## What a merge writes -/

/-- Merging objects writes the entries of one behind those of the other. -/
theorem merged_objects (pieces : List (Entries Value)) :
    Builtin.merged (.array (pieces.map .object)) = .ofPairs pieces.flatten := by
  rw [Builtin.merged_eq, List.flatMap_map]
  simp only [Value.ownEntries, List.flatMap_id']

/-- Rows of several tables, each under the keys of its own, joined. -/
private theorem zip_flatten {tables : List (Entries α)} {rows : List (List β)}
    (same : List.Forall₂ (fun table row => (Entries.keys table).length = row.length) tables rows) :
    (tables.zipWith (fun table row => (Entries.keys table).zip row) rows).flatten =
        (Entries.keys tables.flatten).zip rows.flatten ∧
      (Entries.keys tables.flatten).length = rows.flatten.length := by
  induction same with
  | nil => exact ⟨rfl, rfl⟩
  | @cons table row tables rows head _ ih =>
    have keys : Entries.keys (table :: tables).flatten =
        Entries.keys table ++ Entries.keys tables.flatten := by
      simp [Entries.keys]
    constructor
    · rw [List.zipWith_cons_cons, List.flatten_cons, ih.1, keys, List.flatten_cons,
        List.zip_append head]
    · rw [keys, List.flatten_cons, List.length_append, List.length_append, head, ih.2]

/-- One object for each table, merged, is the object of all tables. -/
theorem merged_rows {tables : List (Entries α)} {rows : List (List Value)}
    (distinct : Entries.Distinct tables.flatten)
    (same : List.Forall₂ (fun table row => (Entries.keys table).length = row.length) tables rows) :
    Builtin.merged (.array (tables.zipWith
        (fun table row => .object ((Entries.keys table).zip row)) rows)) =
      .object ((Entries.keys tables.flatten).zip rows.flatten) := by
  obtain ⟨joined, length⟩ := zip_flatten same
  have once : Entries.Distinct ((Entries.keys tables.flatten).zip rows.flatten) := by
    rwa [Entries.Distinct, Entries.keys_zip length]
  have pieces : tables.zipWith (fun table row => Value.object ((Entries.keys table).zip row)) rows =
      (tables.zipWith (fun table row => (Entries.keys table).zip row) rows).map .object :=
    List.map_zipWith.symm
  rw [pieces, merged_objects, joined, Value.ofPairs, Entries.of_pairs_distinct once]

/-! ## Readings side by side -/

namespace Descriptor

/-- What the declared keys of a table offer, column by column. -/
private def columnsTo (depth : Nat) (scope : Scope) (entries : Entries Value)
    (table : Entries Descriptor) : List (List Value) :=
  table.map fun field =>
    field.2.readingsTo depth scope ((Entries.find? entries field.1).getD .undefined)

/-- Object shapes side by side read an object for each row of each table. -/
private theorem side_by_side_readings (depth : Nat) (scope : Scope) (entries : Entries Value)
    (tables : List (Entries Descriptor)) :
    (intersection (tables.map .object)).readingsTo (depth + 2) scope (.object entries) =
      (rowsOf (tables.map fun table => rowsOf (columnsTo depth scope entries table))).map
        fun rows => .array (tables.zipWith
          (fun table row => .object ((Entries.keys table).zip row)) rows) := by
  have read : (intersection (tables.map .object)).readingsTo (depth + 2) scope (.object entries) =
      (rowsOf (tables.map fun table => (rowsOf (columnsTo depth scope entries table)).map
        fun row => Value.object ((Entries.keys table).zip row))).map .array := by
    simp only [readingsTo, List.map_map]
    rfl
  rw [read, rows_map, List.map_map]
  rfl

/-- The joined table reads an object for the joined rows of the tables. -/
private theorem joined_readings (depth : Nat) (scope : Scope) (entries : Entries Value)
    (tables : List (Entries Descriptor)) :
    (object tables.flatten).readingsTo (depth + 1) scope (.object entries) =
      (rowsOf (tables.map fun table => rowsOf (columnsTo depth scope entries table))).map
        fun rows => .object ((Entries.keys tables.flatten).zip rows.flatten) := by
  have grouped : columnsTo depth scope entries tables.flatten =
      (tables.map (columnsTo depth scope entries)).flatten := List.map_flatten
  have read : (object tables.flatten).readingsTo (depth + 1) scope (.object entries) =
      (rowsOf (columnsTo depth scope entries tables.flatten)).map
        fun row => .object ((Entries.keys tables.flatten).zip row) := rfl
  rw [read, grouped, rows_flatten, List.map_map, List.map_map]
  rfl

/-- The merged readings of tables side by side are those of the joined table, two levels further
up. -/
theorem merged_readings {tables : List (Entries Descriptor)} (some : tables ≠ [])
    (distinct : Entries.Distinct tables.flatten) (depth : Nat) (scope : Scope) (actual : Value) :
    (map (.compose Builtin.merge.morphism .id) (.intersection (tables.map .object))).readingsTo
        (depth + 3) scope actual =
      (object tables.flatten).readingsTo (depth + 1) scope actual := by
  have outer : (map (.compose Builtin.merge.morphism .id)
      (.intersection (tables.map .object))).readingsTo (depth + 3) scope actual =
        ((intersection (tables.map .object)).readingsTo (depth + 2) scope actual).map
          Builtin.merged := rfl
  cases actual with
  | object entries =>
    rw [outer, side_by_side_readings, joined_readings, List.map_map]
    refine List.map_congr_left fun rows chosen => ?_
    -- a row of a table is as long as the table has keys
    have same : List.Forall₂ (fun table row => (Entries.keys table).length = row.length)
        tables rows := by
      refine (mem_rows_map_iff.mp chosen).imp fun table row listed => ?_
      have length := (mem_rows_iff.mp listed).length_eq
      simpa [columnsTo, Entries.keys] using length.symm
    exact merged_rows distinct same
  | _ =>
    -- the first shape already refuses what is no object
    obtain ⟨table, rest, rfl⟩ := List.exists_cons_of_ne_nil some
    rfl

end Descriptor

/-! ## Answers -/

/-- A plain node answers exactly if all its parts do. -/
theorem answered_iff {d : Descriptor} (plain : d.plain = true) :
    (∃ outcome, Answers scope d actual outcome) ↔
      ∀ part ∈ d.parts actual, ∃ outcome, Answers scope part.1 part.2 outcome := by
  constructor
  · rintro ⟨outcome, answers⟩ part listed
    obtain ⟨outcomes, each, _⟩ := (answers_plain_iff plain).mp answers
    obtain ⟨own, _, answered⟩ := partner_of_left each listed
    exact ⟨own, answered⟩
  · intro each
    obtain ⟨outcomes, answered⟩ := related_of_each each
    exact ⟨_, .plain plain answered⟩

/-- Tables side by side answer exactly if the joined table does: the casts they ask for are the
same. -/
private theorem side_by_side_answered {composition : Composition}
    (tables : List (Entries Descriptor)) :
    (∃ outcome, Answers scope (.map composition (.intersection (tables.map .object))) actual
        outcome) ↔
      ∃ outcome, Answers scope (.object tables.flatten) actual outcome := by
  have outer : (∃ outcome, Answers scope
      (.map composition (.intersection (tables.map .object))) actual outcome) ↔
        ∃ outcome, Answers scope (.intersection (tables.map .object)) actual outcome := by
    rw [answered_iff rfl]
    simp [Descriptor.parts]
  have members : (∃ outcome, Answers scope (.intersection (tables.map .object)) actual outcome) ↔
      ∀ table ∈ tables, ∃ outcome, Answers scope (.object table) actual outcome := by
    rw [answered_iff rfl]
    simp [Descriptor.parts]
  have fields : ∀ table, (∃ outcome, Answers scope (.object table) actual outcome) ↔
      ∀ part ∈ (Descriptor.object table).parts actual,
        ∃ outcome, Answers scope part.1 part.2 outcome := fun _ => answered_iff rfl
  rw [outer, members]
  simp only [fields]
  cases actual with
  | object entries =>
    simp only [Descriptor.parts, List.forall_mem_map, List.mem_flatten]
    constructor
    · rintro each field ⟨table, listed, inside⟩
      exact each table listed field inside
    · intro each table listed field inside
      exact each field ⟨table, listed, inside⟩
  | _ => simp [Descriptor.parts]

/-- Descriptors that have the same readings, one of them some levels further up, have the same
candidates where both answer. -/
theorem Answers.same_success {d other : Descriptor} (answers : Answers scope d actual outcome)
    (also : Answers scope other actual result)
    (same : ∀ depth, d.readingsTo (depth + more) scope actual =
      other.readingsTo (depth + less) scope actual) (candidates : List Value) :
    outcome = .success candidates ↔ result = .success candidates := by
  obtain ⟨depth, ran⟩ := answers
  obtain ⟨deeper, again⟩ := also
  have offered := cast_offers (ran (max depth deeper + more) (by omega))
  have offers := cast_offers (again (max depth deeper + less) (by omega))
  rw [same] at offered
  have equal : outcome.readings? = result.readings? := offered.trans offers.symm
  have success : ∀ outcome : Outcome,
      outcome = .success candidates ↔ outcome.readings? = some candidates := by
    intro outcome
    cases outcome <;> simp [Outcome.readings?]
  rw [success, success, equal]

/-- The objects that an intersection of object shapes reads, merged, are the object that the joined
fields read, where no key is declared in two of the shapes: the one cast returns exactly if the other
does, and they succeed with the same candidates, in the same order and with the keys of each in the
same order. -/
theorem merged_shapes_read_joined_fields {lists : List (Entries Descriptor)}
    (some : lists ≠ [])
    (apart : lists.Pairwise fun one other => (Entries.keys one).Disjoint (Entries.keys other))
    (scope : Scope) (actual : Value) :
    let merged : Descriptor :=
      .mapWith Builtin.merge.morphism (.intersection (lists.map .ofFields))
    let joined : Descriptor := .ofFields lists.flatten
    ((∃ outcome, Answers scope merged actual outcome) ↔
      ∃ outcome, Answers scope joined actual outcome) ∧
    ∀ candidates, Answers scope merged actual (.success candidates) ↔
      Answers scope joined actual (.success candidates) := by
  intro merged joined
  let tables := lists.map Entries.ofPairs
  have sides : merged = .map (.compose Builtin.merge.morphism .id)
      (.intersection (tables.map .object)) := by
    simp only [merged, tables, List.map_map]
    rfl
  have whole : joined = .object tables.flatten :=
    congrArg Descriptor.object (Entries.of_pairs_flatten apart)
  have distinct : Entries.Distinct tables.flatten := by
    rw [← Entries.of_pairs_flatten apart]
    exact Entries.distinct_of_pairs _
  have tabled : tables ≠ [] := by simpa [tables] using some
  have returns : (∃ outcome, Answers scope merged actual outcome) ↔
      ∃ outcome, Answers scope joined actual outcome := by
    rw [sides, whole]
    exact side_by_side_answered tables
  have same : ∀ depth, merged.readingsTo (depth + 3) scope actual =
      joined.readingsTo (depth + 1) scope actual := by
    intro depth
    rw [sides, whole]
    exact Descriptor.merged_readings tabled distinct depth scope actual
  refine ⟨returns, fun candidates => ⟨fun answers => ?_, fun answers => ?_⟩⟩
  · obtain ⟨result, also⟩ := returns.mp ⟨_, answers⟩
    obtain rfl := (answers.same_success also same candidates).mp rfl
    exact also
  · obtain ⟨result, also⟩ := returns.mpr ⟨_, answers⟩
    obtain rfl := (also.same_success answers same candidates).mpr rfl
    exact also

/-- Two ambiguous fields in two shapes: the four merged rows are those of the one shape that declares
both fields. -/
theorem ambiguous_shapes_are_merged :
    let either (value : Value) : Descriptor := .union [.unknown, .pure value]
    let lists : List (Entries Descriptor) := [[("b", either .null)], [("a", either .undefined)]]
    let row (b a : Value) : Value := .object [("b", b), ("a", a)]
    let candidates : List Value := [row (.bool true) (.bool false), row (.bool true) .undefined,
      row .null (.bool false), row .null .undefined]
    let actual : Value := .object [("a", .bool false), ("extra", .null), ("b", .bool true)]
    Answers [] (.ofFields lists.flatten) actual (.success candidates) ∧
      Answers [] (.mapWith Builtin.merge.morphism (.intersection (lists.map .ofFields))) actual
        (.success candidates) := by
  intro either lists row candidates actual
  have ran : castWithin 3 [] (.ofFields lists.flatten) actual = some (.success candidates) := rfl
  have apart : lists.Pairwise fun one other =>
      (Entries.keys one).Disjoint (Entries.keys other) := by
    simp [lists, Entries.keys]
  obtain ⟨_, success⟩ := merged_shapes_read_joined_fields (by simp [lists]) apart [] actual
  exact ⟨answers_of_ran ran, (success candidates).mpr (answers_of_ran ran)⟩

end Readings
