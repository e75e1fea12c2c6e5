import Readings.Morphism.Builtin
import Readings.Proofs.Cast.Parts
import Readings.Proofs.Cast.Rows
import Readings.Proofs.Morphism.Composition

/-!
The readings of a value as a plain list, with no failure and no success in it: an atom has one
reading or none, a union has those of its members one after the other, a composite has every row of
its parts' readings, and a map runs its morphisms on each, the one laid last running last. The
interpreter computes this list and nothing else. It succeeds exactly when the list has a member, at
every node of the tree it answers with.
-/
namespace Readings
namespace Descriptor

/-- The readings that a descriptor allows, following it to a depth of descriptors. Only references
make the depth count: below it they have no readings. -/
def readingsTo : (depth : Nat) → Scope → Descriptor → Value → List Value
  | 0, _, _, _ => []
  | depth + 1, scope, descriptor, actual =>
    match descriptor, actual with
    | .unknown, actual => [actual]
    | .never, _ => []
    | .primitive kind, actual => if kind.admits actual then [actual] else []
    | .enumeration members, actual =>
      match Literal.ofValue? actual with
      | some literal => if literal.isIn members then [actual] else []
      | none => []
    | .pure value, _ => [value]
    | .array item, .array values =>
      (rowsOf (values.map (readingsTo depth scope item))).map .array
    | .array _, _ => []
    | .tuple items, .array values =>
      if values.length = items.length then
        (rowsOf (items.zipWith (readingsTo depth scope) values)).map .array
      else []
    | .tuple _, _ => []
    | .record item, .object entries =>
      (rowsOf ((Entries.values entries).map (readingsTo depth scope item))).map fun row =>
        .object ((Entries.keys entries).zip row)
    | .record _, _ => []
    | .object fields, .object entries =>
      (rowsOf (fields.map fun (key, field) =>
        readingsTo depth scope field ((Entries.find? entries key).getD .undefined))).map fun row =>
          .object ((Entries.keys fields).zip row)
    | .object _, _ => []
    | .union members, actual => members.flatMap (readingsTo depth scope · actual)
    | .intersection members, actual =>
      (rowsOf (members.map (readingsTo depth scope · actual))).map .array
    | .map composition inner, actual =>
      (readingsTo depth scope inner actual).map (Morphism.inTurn composition.latestFirst.reverse)
    | .reference symbol, actual =>
      match scope.lookup symbol with
      | some body => readingsTo depth scope body actual
      | none => []
    | .recursive symbol body, actual => readingsTo depth ((symbol, body) :: scope) body actual

/-- How many readings there are: a sum over the members of a union, a product over the parts of a
composite. -/
def countTo : (depth : Nat) → Scope → Descriptor → Value → Nat
  | 0, _, _, _ => 0
  | depth + 1, scope, descriptor, actual =>
    match descriptor, actual with
    | .unknown, _ | .pure _, _ => 1
    | .never, _ => 0
    | .primitive kind, actual => if kind.admits actual then 1 else 0
    | .enumeration members, actual =>
      match Literal.ofValue? actual with
      | some literal => if literal.isIn members then 1 else 0
      | none => 0
    | .array item, .array values => (values.map (countTo depth scope item)).prod
    | .tuple items, .array values =>
      if values.length = items.length then (items.zipWith (countTo depth scope) values).prod else 0
    | .record item, .object entries =>
      ((Entries.values entries).map (countTo depth scope item)).prod
    | .object fields, .object entries =>
      (fields.map fun (key, field) =>
        countTo depth scope field ((Entries.find? entries key).getD .undefined)).prod
    | .array _, _ | .tuple _, _ | .record _, _ | .object _, _ => 0
    | .union members, actual => (members.map (countTo depth scope · actual)).sum
    | .intersection members, actual => (members.map (countTo depth scope · actual)).prod
    | .map _ inner, actual => countTo depth scope inner actual
    | .reference symbol, actual =>
      match scope.lookup symbol with
      | some body => countTo depth scope body actual
      | none => 0
    | .recursive symbol body, actual => countTo depth ((symbol, body) :: scope) body actual

theorem length_readings_to (depth : Nat) (scope : Scope) (d : Descriptor) (actual : Value) :
    (d.readingsTo depth scope actual).length = d.countTo depth scope actual := by
  induction depth generalizing scope d actual with
  | zero => rfl
  | succ depth ih =>
    cases d with
    | unknown | never | pure => rfl
    | primitive | enumeration =>
      simp only [readingsTo, countTo]
      repeat' split
      all_goals rfl
    | array =>
      cases actual with
      | array => simp [readingsTo, countTo, length_rows, ih, Function.comp_def]
      | _ => rfl
    | tuple =>
      cases actual with
      | array =>
        simp only [readingsTo, countTo]
        split
        · simp [length_rows, List.map_zipWith, ih]
        · rfl
      | _ => rfl
    | record | object =>
      cases actual with
      | object => simp [readingsTo, countTo, length_rows, ih, Function.comp_def]
      | _ => rfl
    | union => simp [readingsTo, countTo, List.length_flatMap, ih]
    | intersection => simp [readingsTo, countTo, length_rows, ih, Function.comp_def]
    | map => simp [readingsTo, countTo, ih]
    | reference =>
      simp only [readingsTo, countTo]
      split
      · exact ih ..
      · rfl
    | recursive => exact ih ..

end Descriptor

namespace Outcome

/-- An outcome that says exactly these readings: a success with them when there are any, and no
success when there are none. -/
def Offers (outcome : Outcome) (readings : List Value) : Prop :=
  outcome.readings? = if readings = [] then none else some readings

private theorem columns_offered (offered : List.Forall₂ Offers outcomes lists) :
    columns? outcomes = if rowsOf lists = [] then none else some lists := by
  induction offered with
  | nil => rfl
  | @cons outcome readings outcomes lists head _ ih =>
    have split : columns? (outcome :: outcomes) = match outcome.readings? with
        | none => none
        | some readings => (columns? outcomes).map (readings :: ·) := by
      simp only [columns?, List.map_cons]
      cases outcome.readings? <;> rfl
    have empty : rowsOf (readings :: lists) = [] ↔ readings = [] ∨ rowsOf lists = [] := by
      rw [rows_eq_nil_iff, List.mem_cons, ← rows_eq_nil_iff, eq_comm]
    rw [split, head, ih]
    by_cases none : readings = []
    · simp [none, rowsOf]
    · by_cases short : rowsOf lists = []
      · simp [none, short, empty]
      · simp [none, short, empty]

theorem sequence_offers (offered : List.Forall₂ Offers outcomes lists) :
    Offers (ofSequence demand place actual outcomes) ((rowsOf lists).map .array) := by
  unfold Offers ofSequence
  rw [columns_offered offered]
  by_cases short : rowsOf lists = []
  · simp [short, readings?]
  · simp [short, readings?, choices_eq_rows]

theorem keyed_offers (offered : List.Forall₂ Offers outcomes lists) :
    Offers (ofKeyed demand actual keys outcomes)
      ((rowsOf lists).map fun row => .object (keys.zip row)) := by
  unfold Offers ofKeyed
  rw [columns_offered offered]
  by_cases short : rowsOf lists = []
  · simp [short, readings?]
  · simp [short, readings?, choices_eq_rows]

theorem offers_success {list : List Value} (offered : Offers outcome list) :
    outcome.isSuccess = true ↔ list ≠ [] := by
  unfold Offers at offered
  cases outcome <;> by_cases none : list = [] <;> simp_all [readings?, isSuccess]

theorem offers_candidates (offered : Offers (.success candidates) list) :
    candidates = list ∧ list ≠ [] := by
  unfold Offers at offered
  by_cases none : list = [] <;> simp_all [readings?]

theorem offers_of_mem {list : List Value} (offered : Offers outcome list)
    (listed : reading ∈ list) : outcome = .success list := by
  unfold Offers at offered
  rw [if_neg (List.ne_nil_of_mem listed)] at offered
  cases outcome with
  | success => exact congrArg success (Option.some.inj offered)
  | unbound | mismatch => cases offered

theorem offers_readings (offered : Offers outcome list) : outcome.readings = list := by
  unfold Offers at offered
  rw [Outcome.readings, offered]
  split
  · simp [*]
  · rfl

theorem variants_offer (offered : List.Forall₂ Offers outcomes lists) :
    Offers (ofVariants actual outcomes) lists.flatten := by
  have joined : outcomes.flatMap readings = lists.flatten := by
    induction offered with
    | nil => rfl
    | cons head _ ih => rw [List.flatMap_cons, List.flatten_cons, offers_readings head, ih]
  have any : outcomes.any isSuccess = true ↔ lists.flatten ≠ [] := by
    clear joined
    induction offered with
    | nil => simp
    | @cons outcome list outcomes lists head _ ih =>
      rw [List.any_cons, Bool.or_eq_true, offers_success head, ih, List.flatten_cons, ← not_and_or,
        ← List.append_eq_nil_iff]
  unfold Offers ofVariants
  by_cases none : lists.flatten = []
  · rw [if_neg (mt any.mp (not_not_intro none)), if_pos none]
    rfl
  · rw [if_pos (any.mpr none), if_neg none, joined]
    rfl

theorem transformed_offers (offered : Offers outcome list) (morphism : Morphism) :
    Offers (outcome.mapReadings morphism) (list.map morphism) := by
  unfold Offers at offered ⊢
  cases outcome <;> by_cases none : list = [] <;> simp_all [readings?, mapReadings]

end Outcome

/-- One level: when the outcomes of the parts offer the readings of the parts, the outcome of the
node offers the readings of the node. -/
theorem assemble_offers {d : Descriptor} (plain : d.plain = true)
    (below : List.Forall₂ (fun part outcome =>
      Outcome.Offers outcome (part.1.readingsTo depth scope part.2)) (d.parts actual) outcomes) :
    (d.assemble actual outcomes).Offers (d.readingsTo (depth + 1) scope actual) := by
  have offered : List.Forall₂ Outcome.Offers outcomes
      ((d.parts actual).map fun part => part.1.readingsTo depth scope part.2) :=
    List.forall₂_map_right_iff.mpr below.flip
  cases d with
  | reference | recursive => cases plain
  | unknown | pure | never => rfl
  | primitive kind =>
    simp only [Descriptor.assemble, Descriptor.readingsTo]
    split <;> rfl
  | enumeration members =>
    simp only [Descriptor.assemble, Descriptor.readingsTo]
    cases Literal.ofValue? actual with
    | none => rfl
    | some literal => by_cases member : literal.isIn members = true <;> simp only [member] <;> rfl
  | array =>
    cases actual with
    | array =>
      simp only [Descriptor.parts, List.map_map] at offered
      exact Outcome.sequence_offers offered
    | _ => rfl
  | record =>
    cases actual with
    | object =>
      simp only [Descriptor.parts, List.map_map] at offered
      exact Outcome.keyed_offers offered
    | _ => rfl
  | object =>
    cases actual with
    | object =>
      simp only [Descriptor.parts, List.map_map] at offered
      exact Outcome.keyed_offers offered
    | _ => rfl
  | tuple items =>
    cases actual with
    | array values =>
      simp only [Descriptor.assemble, Descriptor.readingsTo]
      simp only [Descriptor.parts] at offered
      split
      · rename_i same
        simp only [same, ↓reduceIte, List.map_zip_eq_zipWith] at offered
        exact Outcome.sequence_offers offered
      · rfl
    | _ => rfl
  | union =>
    simp only [Descriptor.parts, List.map_map] at offered
    exact Outcome.variants_offer offered
  | intersection =>
    simp only [Descriptor.parts, List.map_map] at offered
    exact Outcome.sequence_offers offered
  | map composition inner =>
    obtain ⟨outcome, rest, head, none, rfl⟩ := List.forall₂_cons_left_iff.mp below
    rw [Descriptor.readingsTo, ← composition.apply_eq_in_turn]
    exact Outcome.transformed_offers head composition.apply

theorem cast_offers (ran : castWithin depth scope d actual = some outcome) :
    outcome.Offers (d.readingsTo depth scope actual) := by
  induction depth generalizing scope d actual outcome with
  | zero => cases ran
  | succ depth ih =>
    cases kind : d.plain with
    | true =>
      obtain ⟨outcomes, below, rfl⟩ := (cast_plain_iff kind).mp ran
      exact assemble_offers kind (below.imp fun _ _ => ih)
    | false =>
      cases d with
      | reference symbol =>
        cases bound : scope.lookup symbol with
        | none =>
          rw [cast_unbound bound] at ran
          cases ran
          simp only [Descriptor.readingsTo, bound]
          rfl
        | some body =>
          rw [cast_bound bound] at ran
          simp only [Descriptor.readingsTo, bound]
          exact ih ran
      | recursive symbol body => exact ih ran
      | _ => cases kind

/-- No node of an answer's tree is a success without candidates. -/
theorem cast_never_empty (ran : castWithin depth scope d actual = some outcome)
    (inside : Outcome.Inside (.success candidates) outcome) : candidates ≠ [] := by
  induction depth generalizing scope d actual outcome with
  | zero => cases ran
  | succ depth ih =>
    cases kind : d.plain with
    | true =>
      have offered := cast_offers ran
      obtain ⟨outcomes, below, rfl⟩ := (cast_plain_iff kind).mp ran
      rcases (Outcome.assemble_made_of kind below).inside inside with root | ⟨part, listed, inside⟩
      · rw [← root] at offered
        obtain ⟨rfl, some⟩ := Outcome.offers_candidates offered
        exact some
      · obtain ⟨asked, _, ran⟩ := partner_of_right below listed
        exact ih ran inside
    | false =>
      cases d with
      | reference symbol =>
        cases bound : scope.lookup symbol with
        | none =>
          rw [cast_unbound bound] at ran
          cases ran
          cases inside
        | some body =>
          rw [cast_bound bound] at ran
          exact ih ran inside
      | recursive symbol body => exact ih ran inside
      | _ => cases kind

/-- The interpreter computes the list of readings: it succeeds exactly when there is one, and its
candidates are the list, in order and with repetitions. The list is the same at every depth at which
there is an answer, no success in the tree is empty, and candidates count as sums over unions and
products over composites. -/
theorem cast_computes_the_readings (ran : castWithin depth scope d actual = some outcome) :
    (outcome.isSuccess = true ↔ d.readingsTo depth scope actual ≠ []) ∧
      (∀ candidates, outcome = .success candidates →
        candidates = d.readingsTo depth scope actual) ∧
      (∀ deeper, depth ≤ deeper →
        d.readingsTo deeper scope actual = d.readingsTo depth scope actual) ∧
      (∀ candidates, Outcome.Inside (.success candidates) outcome → candidates ≠ []) ∧
      outcome.readings.length = d.countTo depth scope actual := by
  have offered := cast_offers ran
  refine ⟨Outcome.offers_success offered, ?_, ?_, fun _ => cast_never_empty ran, ?_⟩
  · rintro candidates rfl
    exact (Outcome.offers_candidates offered).1
  · intro deeper more
    have later := cast_offers (cast_mono ran more)
    rw [← Outcome.offers_readings later, Outcome.offers_readings offered]
  · rw [Outcome.offers_readings offered, Descriptor.length_readings_to]

/-- A pair of ambiguous parts has every row, with the first part varying slowest. One part is a
reference to an enumeration that holds the other zero, and beside the pair stands what two layers
make of an array: its first item measured. -/
theorem ambiguous_pair_has_every_row :
    let choice : Symbol := ⟨0, "choice"⟩
    let scope : Scope := [(choice, .union [.enumeration [.number .zero], .pure .null])]
    let pair : Descriptor :=
      .tuple [.reference choice, .union [.primitive .boolean, .pure .undefined]]
    let size : Descriptor :=
      .map (.compose Builtin.length.morphism (.compose Builtin.first.morphism .id)) .unknown
    let shape : Descriptor := .object [("pair", pair), ("size", size)]
    let negative : Value := .number (Double.neg .zero)
    let actual : Value := .object [("size", .array [.string "abc"]),
      ("pair", .array [negative, .bool false])]
    let row (first second : Value) : Value :=
      .object [("pair", .array [first, second]), ("size", .number (.ofNat 3))]
    let rows : List Value := [row negative (.bool false), row negative .undefined,
      row .null (.bool false), row .null .undefined]
    castWithin 5 scope shape actual = some (.success rows) ∧
      rows = shape.readingsTo 5 scope actual ∧ rows.length = shape.countTo 5 scope actual := by
  intro choice scope pair size shape negative actual row rows
  have ran : castWithin 5 scope shape actual = some (.success rows) := rfl
  obtain ⟨_, candidates, _, _, count⟩ := cast_computes_the_readings ran
  exact ⟨ran, candidates rows rfl, count⟩

end Readings
