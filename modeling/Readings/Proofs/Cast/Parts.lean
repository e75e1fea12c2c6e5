import Readings.Cast.Basic
import Readings.Proofs.Descriptor.Children

/-!
One level of a cast. A plain node casts its parts, each a child against a piece of the input, in the
scope it stands in, and assembles their outcomes; only references and binders look at the scope.
`cast_plain_iff`, `cast_bound`, `cast_unbound` and `cast_recursive` are all that later proofs use of
the interpreter.
-/
namespace Readings

theorem collect_map_eq_some_iff {f : α → Option β} {items : List α} {results : List β} :
    collect (items.map f) = some results ↔
      List.Forall₂ (fun item result => f item = some result) items results := by
  induction items generalizing results with
  | nil => simp [collect, eq_comm]
  | cons item rest ih =>
    cases found : f item with
    | none => simp [collect, found, List.forall₂_cons_left_iff]
    | some result =>
      simp only [List.map_cons, collect, found, Option.map_eq_some_iff, ih,
        List.forall₂_cons_left_iff, Option.some.injEq]
      constructor
      · rintro ⟨tail, ran, rfl⟩
        exact ⟨result, tail, rfl, ran, rfl⟩
      · rintro ⟨_, tail, rfl, ran, rfl⟩
        exact ⟨tail, ran, rfl⟩

namespace Descriptor

/-- The casts that a plain node asks for, in order: which child against which value. A value of the
wrong kind or arity is not looked into, and a missing key is cast as undefined. -/
def parts : Descriptor → Value → List (Descriptor × Value)
  | .array item, .array values => values.map (item, ·)
  | .tuple items, .array values =>
    if values.length = items.length then items.zip values else []
  | .record item, .object entries => (Entries.values entries).map (item, ·)
  | .object fields, .object entries =>
    fields.map fun field => (field.2, (Entries.find? entries field.1).getD .undefined)
  | .union members, actual => members.map (·, actual)
  | .intersection members, actual => members.map (·, actual)
  | .map _ inner, actual => [(inner, actual)]
  | _, _ => []

/-- The outcome of a plain node from the outcomes of its parts. -/
def assemble : Descriptor → Value → List Outcome → Outcome
  | .unknown, actual, _ => .success [actual]
  | .never, actual, _ => .mismatch .never [] actual
  | .primitive kind, actual, _ =>
    if kind.admits actual then .success [actual] else .mismatch (.primitive kind) [] actual
  | .array _, .array values, outcomes => .ofSequence .array .item (.array values) outcomes
  | .array _, actual, _ => .mismatch .array [] actual
  | .tuple items, .array values, outcomes =>
    if values.length = items.length then
      .ofSequence (.tuple items.length) .item (.array values) outcomes
    else .mismatch (.tuple items.length) [] (.array values)
  | .tuple items, actual, _ => .mismatch (.tuple items.length) [] actual
  | .record _, .object entries, outcomes =>
    .ofKeyed .record (.object entries) (Entries.keys entries) outcomes
  | .record _, actual, _ => .mismatch .record [] actual
  | .object fields, .object entries, outcomes =>
    .ofKeyed .object (.object entries) (Entries.keys fields) outcomes
  | .object _, actual, _ => .mismatch .object [] actual
  | .enumeration members, actual, _ =>
    match Literal.ofValue? actual with
    | some literal =>
      if literal.isIn members then .success [actual]
      else .mismatch (.enumeration members) [] actual
    | none => .mismatch (.enumeration members) [] actual
  | .union _, actual, outcomes => .ofVariants actual outcomes
  | .intersection _, actual, outcomes => .ofSequence .intersection .member actual outcomes
  | .pure value, _, _ => .success [value]
  | .map composition _, _, outcomes => (outcomes.headD default).mapReadings composition.apply
  | .reference _, _, _ | .recursive .., _, _ => default

theorem height_item {value : Value} {items : List Value} (member : value ∈ items) :
    value.height < (Value.array items).height := by
  have bound : value.height ≤ Value.heightItems items := by
    induction items with
    | nil => cases member
    | cons head rest ih =>
      rcases List.mem_cons.mp member with rfl | member
      · exact Nat.le_max_left ..
      · exact Nat.le_trans (ih member) (Nat.le_max_right ..)
  exact Nat.lt_succ_of_le bound

theorem height_entry {value : Value} {entries : Entries Value}
    (member : value ∈ Entries.values entries) : value.height < (Value.object entries).height := by
  have bound : value.height ≤ Value.heightEntries entries := by
    induction entries with
    | nil => cases member
    | cons head rest ih =>
      rcases List.mem_cons.mp member with rfl | member
      · exact Nat.le_max_left ..
      · exact Nat.le_trans (ih member) (Nat.le_max_right ..)
  exact Nat.lt_succ_of_le bound

/-- Undefined stands below every object, so a missing key descends like one that is there. -/
theorem height_field (entries : Entries Value) (key : String) :
    ((Entries.find? entries key).getD .undefined).height < (Value.object entries).height := by
  cases found : Entries.find? entries key with
  | none => exact Nat.succ_pos _
  | some value =>
    obtain ⟨before, after, rfl, _⟩ := List.lookup_eq_some_iff.mp found
    exact height_entry (by simp [Entries.values])

/-- A part is a child, cast against the node's own input where the node is transparent and against a
lower value everywhere else. -/
theorem part_descends {d : Descriptor} {part : Descriptor × Value} (below : part ∈ d.parts actual) :
    part.1 ∈ d.children ∧
      (d.transparent = true ∧ part.2 = actual ∨ part.2.height < actual.height) := by
  cases d with
  | array item =>
    cases actual with
    | array values =>
      obtain ⟨value, member, rfl⟩ := List.mem_map.mp below
      exact ⟨List.mem_singleton_self _, .inr (height_item member)⟩
    | _ => cases below
  | record item =>
    cases actual with
    | object entries =>
      obtain ⟨value, member, rfl⟩ := List.mem_map.mp below
      exact ⟨List.mem_singleton_self _, .inr (height_entry member)⟩
    | _ => cases below
  | tuple items =>
    cases actual with
    | array values =>
      simp only [parts] at below
      split at below
      · obtain ⟨child, value⟩ := List.of_mem_zip below
        exact ⟨child, .inr (height_item value)⟩
      · cases below
    | _ => cases below
  | object fields =>
    cases actual with
    | object entries =>
      obtain ⟨field, member, rfl⟩ := List.mem_map.mp below
      exact ⟨List.mem_map_of_mem member, .inr (height_field entries field.1)⟩
    | _ => cases below
  | union members | intersection members =>
    obtain ⟨child, member, rfl⟩ := List.mem_map.mp below
    exact ⟨member, .inl ⟨rfl, rfl⟩⟩
  | map composition inner =>
    obtain rfl := List.mem_singleton.mp below
    exact ⟨List.mem_singleton_self _, .inl ⟨rfl, rfl⟩⟩
  | _ => cases below

/-- A transparent node casts each of its children against its own input. -/
theorem part_of_transparent {d child : Descriptor} (passes : d.transparent = true)
    (below : child ∈ d.children) (actual : Value) : (child, actual) ∈ d.parts actual := by
  cases d with
  | union | intersection => exact List.mem_map_of_mem below
  | map => exact List.mem_singleton.mpr (congrArg (·, actual) (List.mem_singleton.mp below))
  | _ => cases passes

private theorem related_single {R : Descriptor → Descriptor → Prop}
    (related : List.Forall₂ R [child] shapes) : ∃ shape, shapes = [shape] ∧ R child shape := by
  cases related with
  | cons head tail =>
    cases tail
    exact ⟨_, rfl, head⟩

private theorem related_zip {R : Descriptor → Descriptor → Prop}
    (related : List.Forall₂ R items shapes) (values : List Value) :
    List.Forall₂ (fun part other => R part.1 other.1 ∧ part.2 = other.2)
      (items.zip values) (shapes.zip values) := by
  induction related generalizing values with
  | nil => exact .nil
  | cons head _ ih =>
    cases values with
    | nil => exact .nil
    | cons value values => exact .cons ⟨head, rfl⟩ (ih values)

private theorem related_repeated {R : Descriptor → Descriptor → Prop} (head : R item shape)
    (values : List Value) :
    List.Forall₂ (fun part other => R part.1 other.1 ∧ part.2 = other.2)
      (values.map (item, ·)) (values.map (shape, ·)) :=
  List.forall₂_map_left_iff.mpr (List.forall₂_map_right_iff.mpr
    (List.forall₂_same.mpr fun _ _ => ⟨head, rfl⟩))

private theorem related_fields {R : Descriptor → Descriptor → Prop} (entries : Entries Value)
    {fields : Entries Descriptor} (related : List.Forall₂ R (Entries.values fields) shapes) :
    List.Forall₂ (fun part other => R part.1 other.1 ∧ part.2 = other.2)
      (fields.map fun field => (field.2, (Entries.find? entries field.1).getD .undefined))
      (((Entries.keys fields).zip shapes).map fun field =>
        (field.2, (Entries.find? entries field.1).getD .undefined)) := by
  induction fields generalizing shapes with
  | nil => exact .nil
  | cons field fields ih =>
    cases related with
    | cons head tail => exact .cons ⟨head, rfl⟩ (ih tail)

/-- Nodes of one shape with pairwise related children ask for pairwise related casts, of the same
values. -/
theorem parts_with_children {R : Descriptor → Descriptor → Prop} {d : Descriptor}
    (related : List.Forall₂ R d.children shapes) (actual : Value) :
    List.Forall₂ (fun part other => R part.1 other.1 ∧ part.2 = other.2)
      (d.parts actual) ((d.withChildren shapes).parts actual) := by
  cases d with
  | array item =>
    obtain ⟨shape, rfl, head⟩ := related_single related
    cases actual with
    | array values => exact related_repeated head values
    | _ => exact .nil
  | record item =>
    obtain ⟨shape, rfl, head⟩ := related_single related
    cases actual with
    | object entries => exact related_repeated head (Entries.values entries)
    | _ => exact .nil
  | tuple items =>
    cases actual with
    | array values =>
      have same : items.length = shapes.length := related.length_eq
      simp only [parts, withChildren, ← same]
      split
      · exact related_zip related values
      · exact .nil
    | _ => exact .nil
  | object fields =>
    cases actual with
    | object entries => exact related_fields entries related
    | _ => exact .nil
  | union members | intersection members =>
    exact List.forall₂_map_left_iff.mpr (List.forall₂_map_right_iff.mpr
      (related.imp fun _ _ head => ⟨head, rfl⟩))
  | map composition inner =>
    obtain ⟨shape, rfl, head⟩ := related_single related
    exact .cons ⟨head, rfl⟩ .nil
  | recursive =>
    obtain ⟨shape, rfl, head⟩ := related_single related
    exact .nil
  | _ =>
    cases related
    exact .nil

/-- What a node makes of the outcomes of its parts does not depend on its children. -/
theorem assemble_with_children {d : Descriptor} (same : shapes.length = d.children.length)
    (actual : Value) : (d.withChildren shapes).assemble actual = d.assemble actual := by
  funext outcomes
  cases d with
  | array | record | map | recursive =>
    obtain ⟨shape, rfl⟩ := List.length_eq_one_iff.mp same
    cases actual <;> rfl
  | tuple items =>
    simp only [children] at same
    cases actual <;> simp only [withChildren, assemble, same]
  | object fields =>
    simp only [children, Entries.values, List.length_map] at same
    have keys : Entries.keys ((Entries.keys fields).zip shapes) = Entries.keys fields := by
      simp [Entries.keys, List.map_fst_zip, same]
    cases actual <;> simp only [withChildren, assemble, keys]
  | _ => rfl

end Descriptor

namespace Outcome

/-- A node of the tree that an outcome is. -/
inductive Inside : Outcome → Outcome → Prop where
  | self : Inside outcome outcome
  | part (listed : (step, part) ∈ parts) (inside : Inside node part) :
      Inside node (.mismatch demand parts actual)

/-- Trees that put nothing but a root above the given ones. -/
inductive MadeOf (outcomes : List Outcome) : Outcome → Prop where
  | success : MadeOf outcomes (.success candidates)
  | mismatch (listed : ∀ step part, (step, part) ∈ parts → part ∈ outcomes) :
      MadeOf outcomes (.mismatch demand parts actual)
  | kept (listed : outcome ∈ outcomes) : MadeOf outcomes outcome

theorem MadeOf.inside (made : MadeOf outcomes tree) (inside : Inside node tree) :
    node = tree ∨ ∃ part ∈ outcomes, Inside node part := by
  cases made with
  | success =>
    cases inside
    exact .inl rfl
  | mismatch listed =>
    cases inside with
    | self => exact .inl rfl
    | part member inside => exact .inr ⟨_, listed _ _ member, inside⟩
  | kept listed => exact .inr ⟨_, listed, inside⟩

private theorem leaf_made_of : MadeOf outcomes (.mismatch demand [] actual) :=
  .mismatch fun _ _ listed => nomatch listed

private theorem placed_part (listed : (step, part) ∈ placed place outcomes) : part ∈ outcomes := by
  obtain ⟨⟨outcome, index⟩, member, same⟩ := List.mem_map.mp listed
  cases same
  exact List.fst_mem_of_mem_zipIdx member

private theorem sequence_made_of :
    MadeOf outcomes (ofSequence demand place actual outcomes) := by
  unfold ofSequence
  split
  · exact .success
  · exact .mismatch fun _ _ listed => placed_part listed

private theorem keyed_made_of : MadeOf outcomes (ofKeyed demand actual keys outcomes) := by
  unfold ofKeyed
  split
  · exact .success
  · exact .mismatch fun _ _ listed => (List.of_mem_zip listed).2

private theorem variants_made_of : MadeOf outcomes (ofVariants actual outcomes) := by
  unfold ofVariants
  split
  · exact .success
  · exact .mismatch fun _ _ listed => placed_part listed

private theorem transformed_made_of (outcome : Outcome) :
    MadeOf [outcome] (outcome.mapReadings morphism) := by
  cases outcome with
  | success => exact .success
  | unbound | mismatch => exact .kept (List.mem_singleton_self _)

/-- The tree that a plain node assembles has nothing in it but its root and the trees of its
parts. -/
theorem assemble_made_of {d : Descriptor} (plain : d.plain = true)
    (below : List.Forall₂ R (d.parts actual) outcomes) :
    MadeOf outcomes (d.assemble actual outcomes) := by
  cases d with
  | reference | recursive => cases plain
  | unknown | pure => exact .success
  | never => exact leaf_made_of
  | primitive | enumeration =>
    simp only [Descriptor.assemble]
    repeat' split
    all_goals first | exact .success | exact leaf_made_of
  | array =>
    cases actual with
    | array => exact sequence_made_of
    | _ => exact leaf_made_of
  | tuple =>
    cases actual with
    | array =>
      simp only [Descriptor.assemble]
      split
      · exact sequence_made_of
      · exact leaf_made_of
    | _ => exact leaf_made_of
  | record | object =>
    cases actual with
    | object => exact keyed_made_of
    | _ => exact leaf_made_of
  | union => exact variants_made_of
  | intersection => exact sequence_made_of
  | map =>
    obtain ⟨outcome, rest, _, none, rfl⟩ := List.forall₂_cons_left_iff.mp below
    obtain rfl := List.forall₂_nil_left_iff.mp none
    exact transformed_made_of outcome

end Outcome

/-! ## The interpreter, one level at a time -/

theorem cast_plain {d : Descriptor} (plain : d.plain = true) (scope : Scope) (actual : Value) :
    castWithin (budget + 1) scope d actual =
      (collect ((d.parts actual).map fun part => castWithin budget scope part.1 part.2)).map
        (d.assemble actual) := by
  cases d with
  | reference | recursive => cases plain
  | array item =>
    cases actual with
    | array values => simp only [castWithin, Descriptor.parts, List.map_map]; rfl
    | _ => rfl
  | record item =>
    cases actual with
    | object entries => simp only [castWithin, Descriptor.parts, List.map_map]; rfl
    | _ => rfl
  | object fields =>
    cases actual with
    | object entries => simp only [castWithin, Descriptor.parts, List.map_map]; rfl
    | _ => rfl
  | union members | intersection members =>
    simp only [castWithin, Descriptor.parts, List.map_map]
    rfl
  | tuple items =>
    cases actual with
    | array values =>
      by_cases same : values.length = items.length
      · have assembled : Descriptor.assemble (.tuple items) (.array values) =
            Outcome.ofSequence (.tuple items.length) .item (.array values) := by
          funext outcomes
          simp [Descriptor.assemble, same]
        simp only [castWithin, Descriptor.parts, same, ↓reduceIte, List.map_zip_eq_zipWith, assembled]
        rfl
      · simp [castWithin, Descriptor.parts, Descriptor.assemble, same, collect]
    | _ => rfl
  | map composition inner =>
    simp only [castWithin, Descriptor.parts, List.map_cons, List.map_nil]
    cases castWithin budget scope inner actual <;> rfl
  | _ => rfl

theorem cast_plain_iff {d : Descriptor} (plain : d.plain = true) :
    castWithin (budget + 1) scope d actual = some outcome ↔
      ∃ outcomes, List.Forall₂
          (fun part result => castWithin budget scope part.1 part.2 = some result)
          (d.parts actual) outcomes ∧ outcome = d.assemble actual outcomes := by
  rw [cast_plain plain, Option.map_eq_some_iff]
  exact exists_congr fun outcomes => and_congr collect_map_eq_some_iff eq_comm

/-- Nodes of one shape whose children are cast alike are cast alike. -/
theorem cast_plain_congr {d : Descriptor} (plain : d.plain = true)
    (alike : List.Forall₂ (fun child shape => ∀ actual,
      castWithin budget scope child actual = castWithin budget other shape actual)
        d.children shapes) (actual : Value) :
    castWithin (budget + 1) scope d actual =
      castWithin (budget + 1) other (d.withChildren shapes) actual := by
  have kind : (d.withChildren shapes).plain = true := by rwa [Descriptor.plain_with_children]
  have answers : (d.parts actual).map (fun part => castWithin budget scope part.1 part.2) =
      ((d.withChildren shapes).parts actual).map
        fun part => castWithin budget other part.1 part.2 := by
    rw [← List.forall₂_eq_eq_eq, List.forall₂_map_left_iff, List.forall₂_map_right_iff]
    refine (Descriptor.parts_with_children alike actual).imp ?_
    rintro part shape ⟨same, value⟩
    rw [value]
    exact same shape.2
  rw [cast_plain plain, cast_plain kind, answers,
    Descriptor.assemble_with_children alike.length_eq.symm]

theorem cast_bound (bound : scope.lookup symbol = some body) :
    castWithin (budget + 1) scope (.reference symbol) actual =
      castWithin budget scope body actual := by
  simp only [castWithin, bound]

theorem cast_unbound (unbound : scope.lookup symbol = none) :
    castWithin (budget + 1) scope (.reference symbol) actual = some (.unbound symbol) := by
  simp only [castWithin, unbound]

theorem cast_recursive :
    castWithin (budget + 1) scope (.recursive symbol body) actual =
      castWithin budget ((symbol, body) :: scope) body actual := rfl

private theorem cast_step (ran : castWithin budget scope d actual = some outcome) :
    castWithin (budget + 1) scope d actual = some outcome := by
  induction budget generalizing scope d actual outcome with
  | zero => cases ran
  | succ budget ih =>
    cases kind : d.plain with
    | true =>
      obtain ⟨outcomes, below, rfl⟩ := (cast_plain_iff kind).mp ran
      exact (cast_plain_iff kind).mpr ⟨outcomes, below.imp fun _ _ => ih, rfl⟩
    | false =>
      cases d with
      | reference symbol =>
        cases bound : scope.lookup symbol with
        | none => rwa [cast_unbound bound] at ran ⊢
        | some body =>
          rw [cast_bound bound] at ran ⊢
          exact ih ran
      | recursive symbol body => exact ih ran
      | _ => cases kind

/-- An answer stays the same at every larger budget. -/
theorem cast_mono (ran : castWithin budget scope d actual = some outcome) (more : budget ≤ larger) :
    castWithin larger scope d actual = some outcome := by
  induction more with
  | refl => exact ran
  | step _ ih => exact cast_step ih

end Readings
