import Readings.Proofs.Cast.Derivation
import Readings.Proofs.Value.Parts

/-!
What a cast may do to its input. Without maps, intersections and constants it never repairs and
never invents: a candidate is the input with the keys of its objects set right (`Rekeys`). Keys that
an object shape does not declare are gone, declared ones that were missing are there as undefined,
and they stand in the order of the declaration; all else is the same at every depth. Where the
descriptor has no object shape either, the input is the only candidate there can be.
-/
namespace Readings

/-- A reading of a value that differs from it in the keys of objects alone. An object has its own
keys in their own order, or those of a declaration, each with a reading of the value that was under
it, or with undefined where the key was missing. -/
inductive Value.Rekeys (declares : List String → Prop) : Value → Value → Prop where
  | scalar (kind : Literal.ofValue? actual = some literal) : Rekeys declares actual actual
  | array (each : List.Forall₂ (Rekeys declares) items row) :
      Rekeys declares (.array items) (.array row)
  | record (keys : Entries.keys others = Entries.keys entries)
      (each : List.Forall₂ (Rekeys declares) (Entries.values entries) (Entries.values others)) :
      Rekeys declares (.object entries) (.object others)
  | object (declared : declares (Entries.keys others))
      (kept : ∀ key value reading, (key, reading) ∈ others →
        Entries.find? entries key = some value → Rekeys declares value reading)
      (added : ∀ key reading, (key, reading) ∈ others → key ∉ Entries.keys entries →
        reading = .undefined) :
      Rekeys declares (.object entries) (.object others)

namespace Value

theorem Rekeys.refl (declares : List String → Prop) (actual : Value) :
    Rekeys declares actual actual := by
  induction actual using part_induction with
  | scalar _ _ kind => exact .scalar kind
  | array items ih => exact .array (List.forall₂_same.mpr ih)
  | object entries ih => exact .record rfl (List.forall₂_same.mpr ih)

theorem Rekeys.of_undefined (rekeys : Rekeys declares .undefined reading) :
    reading = .undefined := by
  cases rekeys with
  | scalar => rfl

private theorem all_same {readings : List Value}
    (same : ∀ value ∈ values, ∀ {reading}, Rekeys declares value reading → reading = value)
    (each : List.Forall₂ (Rekeys declares) values readings) : readings = values := by
  have equal : List.Forall₂ (· = ·) values readings :=
    (partners_listed each).imp fun value reading related => (same value related.1 related.2).symm
  rw [List.forall₂_eq_eq_eq] at equal
  exact equal.symm

/-- Without a declaration there is nothing to set right. -/
theorem Rekeys.eq_of_none (none : ∀ keys, ¬ declares keys)
    (rekeys : Rekeys declares actual reading) : reading = actual := by
  induction actual using part_induction generalizing reading with
  | scalar actual literal kind =>
    cases rekeys with
    | scalar => rfl
    | _ => cases kind
  | array items ih =>
    cases rekeys with
    | scalar => rfl
    | array each => rw [all_same ih each]
  | object entries ih =>
    cases rekeys with
    | scalar => rfl
    | @record others _ keys each =>
      rw [← Entries.zip_keys_values others, keys, all_same ih each, Entries.zip_keys_values]
    | object declared => exact absurd declared (none _)

end Value

open Descriptor Value

/-- One level: what a node builds from parts that were rekeyed is the input rekeyed. -/
theorem Descriptor.Builds.rekeys {d : Descriptor} (faithful : d.invents = false)
    (declared : ∀ fields, d = .object fields → declares (Entries.keys fields))
    (built : d.Builds (fun _ actual reading => Rekeys declares actual reading) actual reading) :
    Rekeys declares actual reading := by
  cases built with
  | unknown | primitive | enumeration => exact .refl declares _
  | array each => exact .array each
  | tuple same each =>
    refine .array ?_
    rw [← List.map_snd_zip (Nat.le_of_eq same)]
    exact List.forall₂_map_left_iff.mpr each
  | @record _ entries row each =>
    have length : (Entries.keys entries).length = row.length := by
      simpa [Entries.keys, Entries.values] using each.length_eq
    refine .record (Entries.keys_zip length) ?_
    rwa [Entries.values_zip length]
  | @object entries fields row each =>
    have length : (Entries.keys fields).length = row.length := by
      simpa [Entries.keys] using each.length_eq
    have reads : List.Forall₂ (fun key reading =>
        Rekeys declares ((Entries.find? entries key).getD .undefined) reading)
        (Entries.keys fields) row :=
      List.forall₂_map_left_iff.mpr each
    refine .object ?_ ?_ ?_
    · rw [Entries.keys_zip length]
      exact declared fields rfl
    · intro key value reading listed found
      have read := List.forall₂_zip reads listed
      rwa [found] at read
    · intro key reading listed missing
      have read := List.forall₂_zip reads listed
      rw [Entries.find_eq_none_iff.mpr missing] at read
      exact read.of_undefined
  | union _ reads => exact reads
  | pure | intersection | map => cases faithful

/-- Every candidate of a cast against a descriptor without maps, intersections and constants is the
input with the keys of its objects as the descriptor declares them, and the input itself where it
declares none. -/
theorem candidates_only_rekey {d : Descriptor}
    (faithful : d.EachNode fun node => node.invents = false)
    (ran : castWithin depth [] d actual = some (.success candidates))
    (listed : candidate ∈ candidates) :
    actual.Rekeys d.Declares candidate ∧
      ((∀ fields, ¬ d.Contains (.object fields)) → candidate = actual) := by
  have each : d.EachNode fun node => node.invents = false ∧
      ∀ fields, node = .object fields → d.Declares (Entries.keys fields) := by
    refine fun node inside => ⟨faithful node inside, ?_⟩
    rintro fields rfl
    exact ⟨fields, inside, rfl⟩
  obtain ⟨rfl, _⟩ := Outcome.offers_candidates (cast_offers ran)
  have rekeys : actual.Rekeys d.Declares candidate := by
    refine reading_induction (motive := fun _ _ _ actual reading => actual.Rekeys d.Declares reading)
      ?built ?jumped ?entered each listed (fun _ _ found => nomatch found)
    case built =>
      rintro depth scope d actual reading ⟨faithful, declared⟩ built
      exact built.rekeys faithful declared
    case jumped => exact fun _ rekeys => rekeys
    case entered => exact fun rekeys => rekeys
  refine ⟨rekeys, fun plain => rekeys.eq_of_none ?_⟩
  rintro keys ⟨fields, inside, _⟩
  exact plain fields inside

/-- A list with an extra key, its keys in another order and its end missing: the reading has what was
declared, with undefined for the end. -/
theorem missing_tail_is_added :
    let list : Symbol := ⟨0, "list"⟩
    let number (n : Nat) : Value := .number (.ofNat n)
    let shape : Descriptor := .recursive list (.object
      [("tail", .union [.primitive .undefined, .reference list]), ("head", .primitive .number)])
    let input : Value := .object
      [("head", number 1), ("extra", .null), ("tail", .object [("head", number 2)])]
    let reading : Value := .object
      [("tail", .object [("tail", .undefined), ("head", number 2)]), ("head", number 1)]
    castWithin 8 [] shape input = some (.success [reading]) ∧
      input.Rekeys shape.Declares reading := by
  intro list number shape input reading
  have ran : castWithin 8 [] shape input = some (.success [reading]) := rfl
  have faithful : shape.EachNode fun node => node.invents = false := by decide
  exact ⟨ran, (candidates_only_rekey faithful ran (List.mem_singleton_self reading)).1⟩

end Readings
