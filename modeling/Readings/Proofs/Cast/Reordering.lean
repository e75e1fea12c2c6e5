import Readings.Proofs.Cast.Derivation
import Readings.Proofs.Cast.Tree
import Readings.Proofs.Closure.Stacking
import Readings.Proofs.Value.Reordering
import Mathlib.Data.Multiset.Bind

/-!
The order of keys never decides. A record takes its rows in the order of the input's keys, so that
moving entries permutes the columns and with them all rows, at any depth of the input and through
unions, intersections and recursion. Counted with repetitions, the candidates stay the same up to the
order of their own entries. A map is left out: its morphism may look at the order it is given.
-/
namespace Readings

/-! ## Rows of moved and of related columns -/

/-- Lists that hold the same members with the same multiplicities, up to a relation. -/
theorem moved_of_rel {R : α → β → Prop} {items : List α} {others : List β}
    (related : Multiset.Rel R (items : Multiset α) (others : Multiset β)) :
    ∃ moved, items.Perm moved ∧ List.Forall₂ R moved others := by
  induction others generalizing items with
  | nil =>
    have none := Multiset.rel_zero_right.mp related
    exact ⟨[], Multiset.coe_eq_coe.mp none, .nil⟩
  | cons other others ih =>
    rw [← Multiset.cons_coe, Multiset.rel_cons_right] at related
    obtain ⟨item, rest, head, tail, same⟩ := related
    obtain ⟨rest, rfl⟩ := Quotient.exists_rep rest
    obtain ⟨moved, perm, each⟩ := ih tail
    exact ⟨item :: moved, (Multiset.coe_eq_coe.mp same).trans (perm.cons item), .cons head each⟩

/-- Related members of two lists have related images. -/
private theorem rel_of_map {R : α → β → Prop} {S : γ → δ → Prop} {rows : List α} {others : List β}
    {f : α → γ} {g : β → δ} (related : Multiset.Rel R (rows : Multiset α) (others : Multiset β))
    (onward : ∀ row next, R row next → S (f row) (g next)) :
    Multiset.Rel S (rows.map f : Multiset γ) (others.map g : Multiset δ) := by
  rw [← Multiset.map_coe, ← Multiset.map_coe, Multiset.rel_map]
  exact related.mono fun row _ next _ rows => onward row next rows

private theorem rows_gathered (column : List α) (rest : List (List α)) :
    (rowsOf (column :: rest) : Multiset (List α)) =
      (column : Multiset α).bind fun candidate =>
        (rowsOf rest : Multiset (List α)).map (candidate :: ·) := by
  simp [rowsOf]

/-- Columns of related candidates have related rows. -/
theorem rows_related {R : α → β → Prop} {columns : List (List α)} {others : List (List β)}
    (each : List.Forall₂ (fun (column : List α) (other : List β) =>
      Multiset.Rel R (column : Multiset α) (other : Multiset β)) columns others) :
    Multiset.Rel (List.Forall₂ R) (rowsOf columns : Multiset (List α))
      (rowsOf others : Multiset (List β)) := by
  induction each with
  | nil => exact .cons .nil .zero
  | cons head _ ih =>
    rw [rows_gathered, rows_gathered]
    refine Multiset.rel_bind (fun candidate other same => Multiset.rel_map.mpr ?_) head
    exact ih.mono fun row _ next _ rows => .cons same rows

/-- Moved columns have moved rows. -/
theorem rows_moved {columns others : List (List α)} (moved : columns.Perm others) :
    Multiset.Rel List.Perm (rowsOf columns : Multiset (List α))
      (rowsOf others : Multiset (List α)) := by
  induction moved with
  | nil => exact Multiset.rel_refl_of_refl_on fun row _ => .refl row
  | cons column _ ih =>
    rw [rows_gathered, rows_gathered]
    refine Multiset.rel_bind ?_ Multiset.rel_eq_refl
    rintro candidate _ rfl
    exact Multiset.rel_map.mpr (ih.mono fun row _ next _ rows => rows.cons candidate)
  | swap first second rest =>
    simp only [rows_gathered, Multiset.map_bind, Multiset.map_map]
    rw [Multiset.bind_bind]
    refine Multiset.rel_bind ?_ Multiset.rel_eq_refl
    rintro candidate _ rfl
    refine Multiset.rel_bind ?_ Multiset.rel_eq_refl
    rintro other _ rfl
    exact Multiset.rel_map.mpr (Multiset.rel_refl_of_refl_on fun row _ => .swap ..)
  | trans _ _ first second => exact Multiset.Rel.trans List.Perm first second

/-! ## Readings -/

open Value Descriptor

/-- Readings with the same multiplicities, up to the order of entries. -/
abbrev SameReadings (readings others : List Value) : Prop :=
  Multiset.Rel Reordered (readings : Multiset Value) (others : Multiset Value)

theorem same_readings_refl (readings : List Value) : SameReadings readings readings :=
  Multiset.rel_refl_of_refl_on fun reading _ => .refl reading

instance : IsTrans Value Reordered := ⟨fun _ _ _ => Reordered.trans⟩

theorem same_readings_single (same : Reordered actual other) : SameReadings [actual] [other] :=
  .cons same .zero

/-- Related rows make arrays that are reorderings of each other. -/
private theorem arrays_same {columns others : List (List Value)}
    (each : List.Forall₂ SameReadings columns others) :
    SameReadings ((rowsOf columns).map .array) ((rowsOf others).map .array) :=
  rel_of_map (rows_related each) fun _ _ rows => .array rows

private theorem zip_related {R : α → β → Prop} (firsts : List κ)
    (related : List.Forall₂ R row next) :
    List.Forall₂ (fun pair other => pair.1 = other.1 ∧ R pair.2 other.2)
      (firsts.zip row) (firsts.zip next) := by
  induction related generalizing firsts with
  | nil => simp
  | cons head _ ih =>
    cases firsts with
    | nil => exact .nil
    | cons first firsts => exact .cons ⟨rfl, head⟩ (ih firsts)

/-- Related rows under the same keys make objects that are reorderings of each other. -/
private theorem objects_same {columns others : List (List Value)} (keys : List String)
    (each : List.Forall₂ SameReadings columns others) :
    SameReadings ((rowsOf columns).map fun row => .object (keys.zip row))
      ((rowsOf others).map fun row => .object (keys.zip row)) := by
  refine rel_of_map (rows_related each) fun row next rows => ?_
  exact reordered_object_iff.mpr ⟨_, .refl _, zip_related keys rows⟩

/-- The readings of an entry, each under its key. -/
def keyedReadings (read : Value → List Value) (entry : String × Value) : List (String × Value) :=
  (read entry.2).map (entry.1, ·)

private theorem record_rows (read : Value → List Value) (entries : Entries Value) :
    ((rowsOf ((Entries.values entries).map read)).map fun row =>
        Value.object ((Entries.keys entries).zip row)) =
      (rowsOf (entries.map (keyedReadings read))).map .object := by
  have rows : rowsOf (entries.map (keyedReadings read)) =
      (rowsOf (entries.map fun entry => read entry.2)).map
        (entries.zipWith fun entry reading => (entry.1, reading)) :=
    rows_map (fun entry : String × Value => read entry.2)
      (fun entry reading => (entry.1, reading)) entries
  simp only [rows, Entries.values, Entries.keys, List.map_map, Function.comp_def, List.zip,
    List.zipWith_map_left]

/-- A record whose entries are moved has the same readings. -/
private theorem record_same {read other : Value → List Value} {entries others : Entries Value}
    (same : Reordered (.object entries) (.object others))
    (each : ∀ value ∈ Entries.values entries, ∀ next, Reordered value next →
      SameReadings (read value) (other next)) :
    SameReadings
      ((rowsOf ((Entries.values entries).map read)).map fun row =>
        .object ((Entries.keys entries).zip row))
      ((rowsOf ((Entries.values others).map other)).map fun row =>
        .object ((Entries.keys others).zip row)) := by
  obtain ⟨between, moved, alike⟩ := reordered_object_iff.mp same
  rw [record_rows, record_rows]
  have first : SameReadings ((rowsOf (entries.map (keyedReadings read))).map .object)
      ((rowsOf (between.map (keyedReadings read))).map .object) := by
    refine rel_of_map (rows_moved (moved.map _)) fun row next rows => ?_
    have alike : List.Forall₂ (Entries.Alike Reordered) next next :=
      List.forall₂_same.mpr fun entry _ => ⟨rfl, .refl entry.2⟩
    exact reordered_object_iff.mpr ⟨next, rows, alike⟩
  have columns : List.Forall₂ (fun (column next : List (String × Value)) =>
      Multiset.Rel (Entries.Alike Reordered) (column : Multiset (String × Value)) next)
      (between.map (keyedReadings read)) (others.map (keyedReadings other)) := by
    refine List.forall₂_map_left_iff.mpr (List.forall₂_map_right_iff.mpr ?_)
    refine (partners_listed alike).imp ?_
    rintro entry next ⟨listed, key, value⟩
    have own : entry.2 ∈ Entries.values entries :=
      List.mem_map_of_mem (moved.mem_iff.mpr listed)
    exact rel_of_map (each entry.2 own next.2 value) fun _ _ readings => ⟨key, readings⟩
  have second : SameReadings ((rowsOf (between.map (keyedReadings read))).map .object)
      ((rowsOf (others.map (keyedReadings other))).map .object) := by
    refine rel_of_map (rows_related columns) fun row next rows => ?_
    exact reordered_object_iff.mpr ⟨row, .refl row, rows⟩
  exact Multiset.Rel.trans Reordered first second

theorem admits_reordered (same : Reordered actual other) (kind : PrimitiveKind) :
    kind.admits actual = kind.admits other := by
  cases same <;> cases kind <;> rfl

theorem literal_reordered (same : Reordered actual other) :
    Literal.ofValue? actual = Literal.ofValue? other := by
  cases same <;> rfl

/-- Reorderings of a value have the same readings, up to reordering. -/
theorem readings_reordered {d : Descriptor} (each : d.EachNode fun node => node.isMap = false)
    (bodies : ∀ symbol body, scope.lookup symbol = some body →
      body.EachNode fun node => node.isMap = false)
    (keyed : actual.Keyed) (same : Reordered actual other) :
    SameReadings (d.readingsTo depth scope actual) (d.readingsTo depth scope other) := by
  induction depth generalizing scope d actual other with
  | zero => exact .zero
  | succ depth ih =>
    have below : ∀ child ∈ d.children, ∀ {actual other : Value}, actual.Keyed →
        Reordered actual other → SameReadings (child.readingsTo depth scope actual)
          (child.readingsTo depth scope other) :=
      fun child listed _ _ keyed same => ih (each.child listed) bodies keyed same
    cases d with
    | unknown => exact same_readings_single same
    | never => exact .zero
    | pure value => exact same_readings_refl [value]
    | primitive kind =>
      simp only [readingsTo, ← admits_reordered same kind]
      split
      · exact same_readings_single same
      · exact .zero
    | enumeration members =>
      simp only [readingsTo, ← literal_reordered same]
      repeat' split
      · exact same_readings_single same
      all_goals exact .zero
    | array item =>
      cases same with
      | scalar => exact same_readings_refl _
      | object => exact .zero
      | array items =>
        refine arrays_same (List.forall₂_map_left_iff.mpr (List.forall₂_map_right_iff.mpr ?_))
        refine (partners_listed items).imp ?_
        rintro value next ⟨listed, same⟩
        exact below item (List.mem_singleton_self item) (keyed.item listed) same
    | tuple shapes =>
      cases same with
      | scalar => exact same_readings_refl _
      | object => exact .zero
      | @array items others same =>
        simp only [readingsTo, readings_zip, ← same.length_eq]
        split
        · refine arrays_same (List.forall₂_map_left_iff.mpr (List.forall₂_map_right_iff.mpr ?_))
          refine (partners_listed (zip_related shapes same)).imp ?_
          rintro ⟨shape, value⟩ ⟨_, next⟩ ⟨listed, rfl, same⟩
          obtain ⟨child, item⟩ := List.of_mem_zip listed
          exact below shape child (keyed.item item) same
        · exact .zero
    | record item =>
      cases same with
      | scalar => exact same_readings_refl _
      | array => exact .zero
      | object moved keys values =>
        refine record_same (.object moved keys values) fun value listed next same => ?_
        exact below item (List.mem_singleton_self item) (keyed.entry listed) same
    | object fields =>
      cases same with
      | scalar => exact same_readings_refl _
      | array => exact .zero
      | @object entries _ others moved keys values =>
        refine objects_same _ (List.forall₂_map_left_iff.mpr (List.forall₂_map_right_iff.mpr ?_))
        refine List.forall₂_same.mpr fun field listed => ?_
        have part : (field.2, (Entries.find? entries field.1).getD .undefined) ∈
            (Descriptor.object fields).parts (.object entries) :=
          List.mem_map_of_mem listed
        exact below field.2 (List.mem_map_of_mem listed) (keyed_part keyed part)
          (find_reordered (.object moved keys values) keyed.distinct field.1)
    | union members =>
      have own : Multiset.Rel (fun member other => member = other ∧ member ∈ members)
          (members : Multiset Descriptor) members :=
        Multiset.rel_refl_of_refl_on fun member listed => ⟨rfl, listed⟩
      rw [SameReadings, readingsTo, readingsTo, ← Multiset.coe_bind, ← Multiset.coe_bind]
      refine Multiset.rel_bind ?_ own
      rintro member _ ⟨rfl, listed⟩
      exact below member listed keyed same
    | intersection members =>
      refine arrays_same (List.forall₂_map_left_iff.mpr (List.forall₂_map_right_iff.mpr ?_))
      exact List.forall₂_same.mpr fun member listed => below member listed keyed same
    | map =>
      cases each _ .self
    | reference symbol =>
      cases bound : scope.lookup symbol with
      | none =>
        simp only [readingsTo, bound]
        exact .zero
      | some body =>
        rw [readings_bound bound, readings_bound bound]
        exact ih (bodies symbol body bound) bodies keyed same
    | recursive symbol body =>
      have inside := each.child (List.mem_singleton_self body)
      exact ih inside (lookup_under inside bodies) keyed same

/-! ## Answers -/

/-- A node casts the reorderings of what it casts for the other value. -/
theorem part_reordered {d : Descriptor} (keyed : actual.Keyed) (same : Reordered actual other)
    (asked : part ∈ d.parts other) :
    ∃ own ∈ d.parts actual, own.1 = part.1 ∧ Reordered own.2 part.2 := by
  cases d with
  | array item =>
    cases same with
    | scalar kind => exact ⟨part, asked, rfl, .refl part.2⟩
    | object => cases asked
    | array each =>
      obtain ⟨next, listed, rfl⟩ := List.mem_map.mp asked
      obtain ⟨value, inside, same⟩ := partner_of_right each listed
      exact ⟨(item, value), List.mem_map_of_mem inside, rfl, same⟩
  | tuple shapes =>
    cases same with
    | scalar kind => exact ⟨part, asked, rfl, .refl part.2⟩
    | object => cases asked
    | array each =>
      simp only [parts, ← each.length_eq] at asked ⊢
      split at asked
      · rename_i counted
        obtain ⟨value, inside, same⟩ := zip_partner each asked
        exact ⟨(part.1, value), by rwa [if_pos counted], rfl, same⟩
      · cases asked
  | record item =>
    cases same with
    | scalar kind => exact ⟨part, asked, rfl, .refl part.2⟩
    | array => cases asked
    | object moved _ each =>
      obtain ⟨next, listed, rfl⟩ := List.mem_map.mp asked
      obtain ⟨value, inside, same⟩ := partner_of_right each listed
      have own := (moved.map Prod.snd).mem_iff.mpr inside
      exact ⟨(item, value), List.mem_map_of_mem own, rfl, same⟩
  | object fields =>
    cases same with
    | scalar kind => exact ⟨part, asked, rfl, .refl part.2⟩
    | array => cases asked
    | object moved keys each =>
      obtain ⟨field, listed, rfl⟩ := List.mem_map.mp asked
      exact ⟨_, List.mem_map_of_mem listed, rfl,
        find_reordered (.object moved keys each) keyed.distinct field.1⟩
  | union | intersection =>
    obtain ⟨member, listed, rfl⟩ := List.mem_map.mp asked
    exact ⟨(member, actual), List.mem_map_of_mem listed, rfl, same⟩
  | map composition inner =>
    obtain rfl := List.mem_singleton.mp asked
    exact ⟨(inner, actual), List.mem_singleton_self _, rfl, same⟩
  | _ => cases asked

/-- A cast of a value answers wherever that of a reordering does. -/
theorem cast_reordered_answers {d : Descriptor} (keyed : actual.Keyed)
    (same : Reordered actual other) (ran : castWithin depth scope d actual = some outcome) :
    ∃ result, castWithin depth scope d other = some result := by
  induction depth generalizing scope d actual other outcome with
  | zero => cases ran
  | succ depth ih =>
    cases kind : d.plain with
    | true =>
      obtain ⟨outcomes, below, _⟩ := (cast_plain_iff kind).mp ran
      have each : ∀ part ∈ d.parts other, ∃ result,
          castWithin depth scope part.1 part.2 = some result := by
        intro part asked
        obtain ⟨own, inside, child, same⟩ := part_reordered keyed same asked
        obtain ⟨_, _, ran⟩ := partner_of_left below inside
        rw [← child]
        exact ih (keyed_part keyed inside) same ran
      obtain ⟨results, answered⟩ := related_of_each each
      exact ⟨_, (cast_plain_iff kind).mpr ⟨results, answered, rfl⟩⟩
    | false =>
      cases d with
      | reference symbol =>
        cases bound : scope.lookup symbol with
        | none => exact ⟨_, cast_unbound bound⟩
        | some body =>
          rw [cast_bound bound] at ran ⊢
          exact ih keyed same ran
      | recursive symbol body => exact ih keyed same ran
      | _ => cases kind

/-- A cast of a value succeeds wherever that of a reordering does. -/
theorem cast_reordered_succeeds {d : Descriptor}
    (plain : d.EachNode fun node => node.isMap = false) (keyed : actual.Keyed)
    (same : Reordered actual other)
    (ran : castWithin depth [] d actual = some (.success candidates)) :
    ∃ others, castWithin depth [] d other = some (.success others) := by
  obtain ⟨result, again⟩ := cast_reordered_answers keyed same ran
  obtain ⟨own, some⟩ := Outcome.offers_candidates (cast_offers ran)
  have readings : SameReadings (d.readingsTo depth [] actual) (d.readingsTo depth [] other) :=
    readings_reordered plain (fun _ _ found => nomatch found) keyed same
  have others : d.readingsTo depth [] other ≠ [] := by
    intro none
    rw [SameReadings, none] at readings
    exact some (Multiset.coe_eq_coe.mp (Multiset.rel_zero_right.mp readings)).eq_nil
  have success := (Outcome.offers_success (cast_offers again)).mpr others
  cases result with
  | success others => exact ⟨others, again⟩
  | unbound | mismatch => cases success

/-- The order of keys never decides. Against a descriptor without maps, reorderings of a value are
cast with an answer at the same depths and with success alike, and the candidates of one are those
of the other, each as often, up to the order of their own entries. -/
theorem reordering_permutes_candidates {d : Descriptor}
    (plain : d.EachNode fun node => node.isMap = false) (keyed : actual.Keyed)
    (same : Reordered actual other) (depth : Nat) :
    (castWithin depth [] d actual = none ↔ castWithin depth [] d other = none) ∧
      ((∃ candidates, castWithin depth [] d actual = some (.success candidates)) ↔
        ∃ candidates, castWithin depth [] d other = some (.success candidates)) ∧
      ∀ candidates others, castWithin depth [] d actual = some (.success candidates) →
        castWithin depth [] d other = some (.success others) →
          ∃ moved, candidates.Perm moved ∧ List.Forall₂ Reordered moved others := by
  have readings : SameReadings (d.readingsTo depth [] actual) (d.readingsTo depth [] other) :=
    readings_reordered plain (fun _ _ found => nomatch found) keyed same
  have answers : ∀ {one next : Value}, one.Keyed → Reordered one next →
      castWithin depth [] d next = none → castWithin depth [] d one = none := by
    intro one next keyed same waits
    refine Option.eq_none_iff_forall_not_mem.mpr fun outcome ran => ?_
    obtain ⟨result, answered⟩ := cast_reordered_answers keyed same ran
    rw [waits] at answered
    cases answered
  refine ⟨⟨answers (same.keyed keyed) same.symm, answers keyed same⟩, ⟨?_, ?_⟩, ?_⟩
  · rintro ⟨candidates, ran⟩
    exact cast_reordered_succeeds plain keyed same ran
  · rintro ⟨candidates, ran⟩
    exact cast_reordered_succeeds plain (same.keyed keyed) same.symm ran
  · intro candidates others ran again
    obtain ⟨rfl, _⟩ := Outcome.offers_candidates (cast_offers ran)
    obtain ⟨rfl, _⟩ := Outcome.offers_candidates (cast_offers again)
    exact moved_of_rel readings

/-- Entries moved at two depths of an ambiguous record: the rows come in another order. -/
theorem moved_entries_move_rows :
    let number (n : Nat) : Value := .number (.ofNat n)
    let shape : Descriptor := .record (.union [.unknown, .pure .null])
    let inside : Value := .object [("p", number 1), ("q", number 2)]
    let moved : Value := .object [("q", number 2), ("p", number 1)]
    let actual : Value := .object [("x", inside), ("y", number 3)]
    let other : Value := .object [("y", number 3), ("x", moved)]
    let candidates : List Value := [.object [("x", inside), ("y", number 3)],
      .object [("x", inside), ("y", .null)], .object [("x", .null), ("y", number 3)],
      .object [("x", .null), ("y", .null)]]
    let others : List Value := [.object [("y", number 3), ("x", moved)],
      .object [("y", number 3), ("x", .null)], .object [("y", .null), ("x", moved)],
      .object [("y", .null), ("x", .null)]]
    actual.Keyed ∧ Reordered actual other ∧
      castWithin 4 [] shape actual = some (.success candidates) ∧
      castWithin 4 [] shape other = some (.success others) ∧
      ∃ moved, candidates.Perm moved ∧ List.Forall₂ Reordered moved others := by
  intro number shape inside moved actual other candidates others
  have plain : shape.EachNode fun node => node.isMap = false := by decide
  have leaves : ∀ n, (number n).Keyed := fun n => .scalar rfl
  have below : inside.Keyed := .object (by decide) (by
    simpa [Entries.values] using ⟨leaves 1, leaves 2⟩)
  have keyed : actual.Keyed := .object (by decide) (by
    simpa [Entries.values] using ⟨below, leaves 3⟩)
  have swapped : Reordered inside moved :=
    reordered_object_iff.mpr ⟨_, .swap .., .cons ⟨rfl, .refl _⟩ (.cons ⟨rfl, .refl _⟩ .nil)⟩
  have same : Reordered actual other :=
    reordered_object_iff.mpr ⟨_, .swap .., .cons ⟨rfl, .refl _⟩ (.cons ⟨rfl, swapped⟩ .nil)⟩
  have ran : castWithin 4 [] shape actual = some (.success candidates) := rfl
  have again : castWithin 4 [] shape other = some (.success others) := rfl
  obtain ⟨_, _, rows⟩ := reordering_permutes_candidates plain keyed same 4
  exact ⟨keyed, same, ran, again, rows candidates others ran again⟩

end Readings
