import Readings.Proofs.Cast.Scoping
import Readings.Proofs.Descriptor.Nodes
import Readings.Proofs.Value.Parts

/-!
The tree that a cast leaves. A plain node that does not succeed looked at its own input and stands
above the outcomes of its parts, each below the step that leads to it (`Descriptor.steps`); a map
hands on the tree of what it maps, and references and binders leave no node at all. Whatever is to be
shown of the trees of casts follows from that by `tree_induction`.
-/
namespace Readings

theorem zip_partner {R : α → β → Prop} {steps : List γ} (related : List.Forall₂ R items others)
    (listed : (step, other) ∈ steps.zip others) :
    ∃ item, (step, item) ∈ steps.zip items ∧ R item other := by
  induction related generalizing steps with
  | nil => simp at listed
  | cons head _ ih =>
    cases steps with
    | nil => cases listed
    | cons first steps =>
      rcases List.mem_cons.mp listed with same | listed
      · cases same
        exact ⟨_, List.mem_cons_self, head⟩
      · obtain ⟨item, inside, tail⟩ := ih listed
        exact ⟨item, List.mem_cons_of_mem _ inside, tail⟩

namespace Outcome

/-- Outcomes placed in order stand below the steps of their indices. -/
theorem placed_eq_zip {outcomes : List Outcome} (counted : outcomes.length = count) :
    placed place outcomes = ((List.range count).map place).zip outcomes := by
  subst counted
  refine List.ext_getElem (by simp [placed]) fun index _ _ => ?_
  simp [placed]

end Outcome

namespace Descriptor

/-- The steps from a plain node to its parts, in order. -/
def steps : Descriptor → Value → List Step
  | .array item, actual => (List.range ((array item).parts actual).length).map .item
  | .tuple items, actual => (List.range ((tuple items).parts actual).length).map .item
  | .record _, .object entries => (Entries.keys entries).map .property
  | .object fields, .object _ => (Entries.keys fields).map .property
  | .union members, _ => (List.range members.length).map .variant
  | .intersection members, _ => (List.range members.length).map .member
  | _, _ => []

/-- What a plain node can make of the outcomes of its parts. -/
inductive Assembles (d : Descriptor) (actual : Value) (outcomes : List Outcome) : Outcome → Prop where
  | success : Assembles d actual outcomes (.success readings)
  | mismatch : Assembles d actual outcomes (.mismatch demand ((d.steps actual).zip outcomes) actual)
  | kept (only : d.parts actual = [(inside, actual)]) (same : outcomes = [outcome]) :
      Assembles d actual outcomes outcome

private theorem assembles_leaf {d : Descriptor} (none : outcomes = []) :
    Assembles d actual outcomes (.mismatch demand [] actual) := by
  have root : Assembles d actual outcomes
      (.mismatch demand ((d.steps actual).zip outcomes) actual) := .mismatch
  subst none
  rwa [List.zip_nil_right] at root

private theorem assembles_sequence {d : Descriptor}
    (steps : d.steps actual = (List.range count).map place) (counted : outcomes.length = count) :
    Assembles d actual outcomes (.ofSequence demand place actual outcomes) := by
  unfold Outcome.ofSequence
  split
  · exact .success
  · rw [Outcome.placed_eq_zip counted, ← steps]
    exact .mismatch

private theorem assembles_keyed {d : Descriptor} (steps : d.steps actual = keys.map .property) :
    Assembles d actual outcomes (.ofKeyed demand actual keys outcomes) := by
  unfold Outcome.ofKeyed
  split
  · exact .success
  · rw [← steps]
    exact .mismatch

/-- One level: a plain node succeeds, or leaves a mismatch above the outcomes of its parts, or hands
on the one outcome there is. -/
theorem assemble_cases {d : Descriptor} (plain : d.plain = true)
    (counted : outcomes.length = (d.parts actual).length) :
    Assembles d actual outcomes (d.assemble actual outcomes) := by
  cases d with
  | reference | recursive => cases plain
  | unknown | pure => exact .success
  | never => exact assembles_leaf (List.length_eq_zero_iff.mp counted)
  | primitive | enumeration =>
    have none := List.length_eq_zero_iff.mp counted
    simp only [assemble]
    repeat' split
    all_goals first | exact .success | exact assembles_leaf none
  | array =>
    cases actual with
    | array => exact assembles_sequence rfl counted
    | _ => exact assembles_leaf (List.length_eq_zero_iff.mp counted)
  | tuple items =>
    cases actual with
    | array values =>
      simp only [assemble]
      split
      · exact assembles_sequence rfl counted
      · rename_i other
        simp only [parts, other, ↓reduceIte, List.length_nil] at counted
        exact assembles_leaf (List.length_eq_zero_iff.mp counted)
    | _ => exact assembles_leaf (List.length_eq_zero_iff.mp counted)
  | record | object =>
    cases actual with
    | object => exact assembles_keyed rfl
    | _ => exact assembles_leaf (List.length_eq_zero_iff.mp counted)
  | union members =>
    simp only [parts, List.length_map] at counted
    simp only [assemble, Outcome.ofVariants]
    split
    · exact .success
    · rw [Outcome.placed_eq_zip counted]
      exact .mismatch
  | intersection members => exact assembles_sequence rfl (by simpa [parts] using counted)
  | map composition inside =>
    obtain ⟨outcome, rfl⟩ := List.length_eq_one_iff.mp counted
    cases outcome with
    | success => exact .success
    | unbound | mismatch => exact .kept rfl rfl

end Descriptor

open Descriptor

/-- Induction over the tree of a cast, when every node of the descriptor and of the bodies in scope
is of the kind `P`. -/
theorem tree_induction {motive : Value → Outcome → Prop}
    (success : ∀ {actual readings}, motive actual (.success readings))
    (unbound : ∀ {actual symbol}, motive actual (.unbound symbol))
    (mismatch : ∀ {d actual outcomes demand}, P d →
      List.Forall₂ (fun part outcome => part ∈ d.parts actual ∧ motive part.2 outcome)
        (d.parts actual) outcomes →
      motive actual (.mismatch demand ((d.steps actual).zip outcomes) actual))
    (each : d.EachNode P) (ran : castWithin depth scope d actual = some outcome)
    (bodies : ∀ symbol body, scope.lookup symbol = some body → body.EachNode P) :
    motive actual outcome := by
  induction depth generalizing scope d actual outcome with
  | zero => cases ran
  | succ depth ih =>
    cases kind : d.plain with
    | true =>
      obtain ⟨outcomes, below, rfl⟩ := (cast_plain_iff kind).mp ran
      have trees : List.Forall₂ (fun part outcome => part ∈ d.parts actual ∧ motive part.2 outcome)
          (d.parts actual) outcomes := by
        refine (partners_listed below).imp ?_
        rintro part outcome ⟨listed, ran⟩
        exact ⟨listed, ih (each.child (part_descends listed).1) ran bodies⟩
      have made := assemble_cases kind below.length_eq.symm
      generalize d.assemble actual outcomes = tree at made ⊢
      cases made with
      | success => exact success
      | mismatch => exact mismatch (each d .self) trees
      | kept only same =>
        -- a map that failed: the tree is that of its only part, on the same input
        rw [only, same] at trees
        exact (List.forall₂_cons.mp trees).1.2
    | false =>
      cases d with
      | reference symbol =>
        cases bound : scope.lookup symbol with
        | none =>
          rw [cast_unbound bound] at ran
          cases ran
          exact unbound
        | some body =>
          rw [cast_bound bound] at ran
          exact ih (bodies symbol body bound) ran bodies
      | recursive symbol body =>
        have inside := each.child (List.mem_singleton_self body)
        exact ih inside ran (lookup_under inside bodies)
      | _ => cases kind

end Readings
