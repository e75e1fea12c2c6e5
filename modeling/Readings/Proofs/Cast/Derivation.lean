import Readings.Proofs.Cast.ListSemantics
import Readings.Proofs.Cast.Scoping
import Readings.Proofs.Descriptor.Nodes

/-!
How a single reading comes about. A plain node builds it from readings of its parts, one for each
part, or for one part of a union (`Builds`); a reference takes it from the body in scope. Whatever is
to be shown of the readings of a value then needs one case for each kind of node, and follows for
all of them, at every depth, by `reading_induction`.
-/
namespace Readings
namespace Descriptor

/-- A reading that a plain node builds from readings of its parts. `reads` are the readings that a
part, cast against a piece of the input, is taken to have. -/
inductive Builds (reads : Descriptor → Value → Value → Prop) :
    Descriptor → Value → Value → Prop where
  | unknown : Builds reads .unknown actual actual
  | primitive (admitted : kind.admits actual = true) : Builds reads (.primitive kind) actual actual
  | enumeration (scalar : Literal.ofValue? actual = some literal)
      (listed : literal.isIn members = true) : Builds reads (.enumeration members) actual actual
  | pure : Builds reads (.pure value) actual value
  | array (each : List.Forall₂ (reads item) items row) :
      Builds reads (.array item) (.array items) (.array row)
  | tuple (same : items.length = shapes.length)
      (each : List.Forall₂ (fun part reading => reads part.1 part.2 reading)
        (shapes.zip items) row) :
      Builds reads (.tuple shapes) (.array items) (.array row)
  | record (each : List.Forall₂ (reads item) (Entries.values entries) row) :
      Builds reads (.record item) (.object entries) (.object ((Entries.keys entries).zip row))
  | object (each : List.Forall₂ (fun field reading =>
        reads field.2 ((Entries.find? entries field.1).getD .undefined) reading) fields row) :
      Builds reads (.object fields) (.object entries) (.object ((Entries.keys fields).zip row))
  | union (listed : member ∈ members) (reading : reads member actual value) :
      Builds reads (.union members) actual value
  | intersection (each : List.Forall₂ (fun member reading => reads member actual reading)
        members row) : Builds reads (.intersection members) actual (.array row)
  | map (reading : reads part actual value) :
      Builds reads (.map composition part) actual
        (Morphism.inTurn composition.latestFirst.reverse value)

theorem Builds.imp {d : Descriptor} (built : Builds reads d actual reading)
    (more : ∀ child ∈ d.children, ∀ {value reading},
      reads child value reading → others child value reading) :
    Builds others d actual reading := by
  cases built with
  | unknown => exact .unknown
  | primitive admitted => exact .primitive admitted
  | enumeration scalar listed => exact .enumeration scalar listed
  | pure => exact .pure
  | array each => exact .array (each.imp fun _ _ => more _ (List.mem_singleton_self _))
  | tuple same each =>
    refine .tuple same ((partners_listed each).imp ?_)
    rintro part reading ⟨listed, reads⟩
    exact more part.1 (List.of_mem_zip listed).1 reads
  | record each => exact .record (each.imp fun _ _ => more _ (List.mem_singleton_self _))
  | object each =>
    refine .object ((partners_listed each).imp ?_)
    rintro field reading ⟨listed, reads⟩
    exact more field.2 (List.mem_map_of_mem listed) reads
  | union listed reads => exact .union listed (more _ listed reads)
  | intersection each =>
    refine .intersection ((partners_listed each).imp ?_)
    rintro member reading ⟨listed, reads⟩
    exact more member listed reads
  | map reads => exact .map (more _ (List.mem_singleton_self _) reads)

theorem readings_zip (depth : Nat) (scope : Scope) (shapes : List Descriptor)
    (items : List Value) :
    shapes.zipWith (readingsTo depth scope) items =
      (shapes.zip items).map fun part => part.1.readingsTo depth scope part.2 := by
  rw [List.map_zip_eq_zipWith]
  rfl

theorem built_of_reading {d : Descriptor} (plain : d.plain = true)
    (listed : reading ∈ d.readingsTo (depth + 1) scope actual) :
    Builds (fun part value reading => reading ∈ part.readingsTo depth scope value)
      d actual reading := by
  cases d with
  | reference | recursive => cases plain
  | never => cases listed
  | unknown =>
    obtain rfl := List.mem_singleton.mp listed
    exact .unknown
  | pure =>
    obtain rfl := List.mem_singleton.mp listed
    exact .pure
  | primitive kind =>
    simp only [readingsTo] at listed
    split at listed
    · rename_i admitted
      obtain rfl := List.mem_singleton.mp listed
      exact .primitive admitted
    · cases listed
  | enumeration members =>
    simp only [readingsTo] at listed
    repeat' split at listed
    · rename_i scalar member
      obtain rfl := List.mem_singleton.mp listed
      exact .enumeration scalar member
    all_goals cases listed
  | array item =>
    cases actual with
    | array items =>
      obtain ⟨row, chosen, rfl⟩ := List.mem_map.mp listed
      exact .array (mem_rows_map_iff.mp chosen)
    | _ => cases listed
  | tuple shapes =>
    cases actual with
    | array items =>
      simp only [readingsTo, readings_zip] at listed
      split at listed
      · rename_i same
        obtain ⟨row, chosen, rfl⟩ := List.mem_map.mp listed
        exact .tuple same (mem_rows_map_iff.mp chosen)
      · cases listed
    | _ => cases listed
  | record item =>
    cases actual with
    | object entries =>
      obtain ⟨row, chosen, rfl⟩ := List.mem_map.mp listed
      exact .record (mem_rows_map_iff.mp chosen)
    | _ => cases listed
  | object fields =>
    cases actual with
    | object entries =>
      obtain ⟨row, chosen, rfl⟩ := List.mem_map.mp listed
      exact .object (mem_rows_map_iff.mp chosen)
    | _ => cases listed
  | union members =>
    obtain ⟨member, below, listed⟩ := List.mem_flatMap.mp listed
    exact .union below listed
  | intersection members =>
    obtain ⟨row, chosen, rfl⟩ := List.mem_map.mp listed
    exact .intersection (mem_rows_map_iff.mp chosen)
  | map composition inner =>
    obtain ⟨value, read, rfl⟩ := List.mem_map.mp listed
    exact .map read

theorem reading_of_built {d : Descriptor}
    (built : Builds (fun part value reading => reading ∈ part.readingsTo depth scope value)
      d actual reading) : reading ∈ d.readingsTo (depth + 1) scope actual := by
  cases built with
  | unknown | pure => exact List.mem_singleton_self _
  | primitive admitted => simp [readingsTo, admitted]
  | enumeration scalar listed => simp [readingsTo, scalar, listed]
  | array each => exact List.mem_map_of_mem (mem_rows_map_iff.mpr each)
  | tuple same each =>
    simp only [readingsTo, readings_zip, same, ↓reduceIte]
    exact List.mem_map_of_mem (mem_rows_map_iff.mpr each)
  | record each => exact List.mem_map.mpr ⟨_, mem_rows_map_iff.mpr each, rfl⟩
  | object each => exact List.mem_map.mpr ⟨_, mem_rows_map_iff.mpr each, rfl⟩
  | union below listed => exact List.mem_flatMap.mpr ⟨_, below, listed⟩
  | intersection each => exact List.mem_map_of_mem (mem_rows_map_iff.mpr each)
  | map listed => exact List.mem_map_of_mem listed

/-- The readings of a reference are those of the body in scope. -/
theorem readings_bound {scope : Scope} (bound : scope.lookup symbol = some body) :
    (reference symbol).readingsTo (depth + 1) scope actual =
      body.readingsTo depth scope actual := by
  simp only [readingsTo, bound]

end Descriptor

open Descriptor

/-- Induction over how a reading of a descriptor comes about, when every node of the descriptor and
of the bodies in scope is of the kind `P`. -/
theorem reading_induction {motive : Nat → Scope → Descriptor → Value → Value → Prop}
    (built : ∀ {depth scope d actual reading}, P d →
      Builds (motive depth scope) d actual reading → motive (depth + 1) scope d actual reading)
    (jumped : ∀ {depth} {scope : Scope} {symbol body actual reading},
      scope.lookup symbol = some body → motive depth scope body actual reading →
        motive (depth + 1) scope (.reference symbol) actual reading)
    (entered : ∀ {depth scope symbol body actual reading},
      motive depth ((symbol, body) :: scope) body actual reading →
        motive (depth + 1) scope (.recursive symbol body) actual reading)
    (each : d.EachNode P) (listed : reading ∈ d.readingsTo depth scope actual)
    (bodies : ∀ symbol body, scope.lookup symbol = some body → body.EachNode P) :
    motive depth scope d actual reading := by
  induction depth generalizing scope d actual reading with
  | zero => cases listed
  | succ depth ih =>
    cases kind : d.plain with
    | true =>
      refine built (each d .self) ((built_of_reading kind listed).imp ?_)
      exact fun child below _ _ read => ih (each.child below) read bodies
    | false =>
      cases d with
      | reference symbol =>
        cases bound : scope.lookup symbol with
        | none =>
          simp only [readingsTo, bound] at listed
          cases listed
        | some body =>
          rw [readings_bound bound] at listed
          exact jumped bound (ih (bodies symbol body bound) listed bodies)
      | recursive symbol body =>
        have inside := each.child (List.mem_singleton_self body)
        exact entered (ih inside listed (lookup_under inside bodies))
      | _ => cases kind

end Readings
