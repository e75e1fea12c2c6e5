import Readings.Descriptor.Basic
import Readings.Proofs.Entries
import Mathlib.Algebra.GroupWithZero.Nat
import Mathlib.Algebra.Order.BigOperators.Group.List
import Mathlib.Algebra.Order.Group.Nat
import Mathlib.Data.List.Forall2

/-!
Descriptors as trees. Most facts about closing and casting treat twelve of the fourteen constructors
alike: they look at the children and put the node back around what becomes of them. `children` and
`withChildren` say so once; what is left are references and binders.
-/
namespace Readings

theorem partner_of_left {R : α → β → Prop} (related : List.Forall₂ R items others)
    (member : item ∈ items) : ∃ other ∈ others, R item other := by
  induction related with
  | nil => cases member
  | cons head _ ih =>
    rcases List.mem_cons.mp member with rfl | member
    · exact ⟨_, List.mem_cons_self, head⟩
    · obtain ⟨other, listed, tail⟩ := ih member
      exact ⟨other, List.mem_cons_of_mem _ listed, tail⟩

theorem partner_of_right {R : α → β → Prop} (related : List.Forall₂ R items others)
    (member : other ∈ others) : ∃ item ∈ items, R item other :=
  partner_of_left related.flip member

theorem partners_listed {R : α → β → Prop} (related : List.Forall₂ R items others) :
    List.Forall₂ (fun item other => item ∈ items ∧ R item other) items others :=
  (List.forall₂_and_left items others).mpr ⟨fun _ listed => listed, related⟩

theorem related_of_each {R : α → β → Prop} {items : List α}
    (each : ∀ item ∈ items, ∃ result, R item result) : ∃ results, List.Forall₂ R items results := by
  induction items with
  | nil => exact ⟨[], .nil⟩
  | cons item rest ih =>
    obtain ⟨result, first⟩ := each item List.mem_cons_self
    obtain ⟨results, others⟩ := ih fun other listed => each other (List.mem_cons_of_mem _ listed)
    exact ⟨result :: results, .cons first others⟩

theorem partners_compose {R : α → β → Prop} {S : β → γ → Prop}
    (first : List.Forall₂ R items others) (second : List.Forall₂ S others results) :
    List.Forall₂ (fun item result => ∃ other ∈ others, R item other ∧ S other result)
      items results := by
  induction first generalizing results with
  | nil =>
    cases second
    exact .nil
  | cons head _ ih =>
    cases second with
    | cons next rest =>
      refine .cons ⟨_, List.mem_cons_self, head, next⟩ ((ih rest).imp ?_)
      rintro item result ⟨other, listed, pair⟩
      exact ⟨other, List.mem_cons_of_mem _ listed, pair⟩

namespace Descriptor

/-- The descriptors right below a node, from left to right. -/
def children : Descriptor → List Descriptor
  | .array item => [item]
  | .record item => [item]
  | .map _ inner => [inner]
  | .recursive _ body => [body]
  | .tuple items => items
  | .union members => members
  | .intersection members => members
  | .object fields => Entries.values fields
  | .unknown | .never | .primitive _ | .enumeration _ | .pure _ | .reference _ => []

/-- The node with other descriptors below it, as many as before. -/
def withChildren : Descriptor → List Descriptor → Descriptor
  | .array _, [item] => .array item
  | .record _, [item] => .record item
  | .map composition _, [inner] => .map composition inner
  | .recursive symbol _, [body] => .recursive symbol body
  | .tuple _, items => .tuple items
  | .union _, members => .union members
  | .intersection _, members => .intersection members
  | .object fields, shapes => .object ((Entries.keys fields).zip shapes)
  | other, _ => other

/-- A node that is neither a reference nor a binder. -/
def plain : Descriptor → Bool
  | .reference _ | .recursive .. => false
  | _ => true

/-- A node that hands its own input to its children: a union, an intersection or a map. -/
def transparent : Descriptor → Bool
  | .union _ | .intersection _ | .map .. => true
  | _ => false

theorem plain_of_transparent {d : Descriptor} (passes : d.transparent = true) : d.plain = true := by
  cases d with
  | reference | recursive => cases passes
  | _ => rfl

theorem children_with_children (d : Descriptor) (same : shapes.length = d.children.length) :
    (d.withChildren shapes).children = shapes := by
  cases d with
  | array | record | map | recursive =>
    obtain ⟨shape, rfl⟩ := List.length_eq_one_iff.mp same
    rfl
  | tuple | union | intersection => rfl
  | object fields =>
    simp only [children, Entries.values, List.length_map] at same
    simp [withChildren, children, Entries.values, Entries.keys, List.map_snd_zip, same]
  | unknown | never | primitive | enumeration | pure | reference =>
    exact (List.length_eq_zero_iff.mp same).symm

theorem with_children_self (d : Descriptor) : d.withChildren d.children = d := by
  cases d with
  | object fields =>
    simp only [withChildren, children, Entries.keys, Entries.values, List.zip_map',
      Prod.mk.eta, List.map_id']
  | _ => rfl

theorem transparent_with_children (d : Descriptor) (shapes : List Descriptor) :
    (d.withChildren shapes).transparent = d.transparent := by
  unfold withChildren
  split <;> rfl

theorem plain_with_children (d : Descriptor) (shapes : List Descriptor) :
    (d.withChildren shapes).plain = d.plain := by
  unfold withChildren
  split <;> rfl

/-! ## Measures over the children -/

private theorem sum_of_steps {whole : List α → Nat} {one : α → Nat} (empty : whole [] = 0)
    (step : ∀ item rest, whole (item :: rest) = one item + whole rest) (items : List α) :
    whole items = (items.map one).sum := by
  induction items with
  | nil => exact empty
  | cons item rest ih => rw [step, ih, List.map_cons, List.sum_cons]

private theorem size_all (items : List Descriptor) : sizeAll items = (items.map size).sum :=
  sum_of_steps rfl (fun _ _ => rfl) items

private theorem size_fields (fields : List (String × Descriptor)) :
    sizeFields fields = ((Entries.values fields).map size).sum := by
  rw [Entries.values, List.map_map]
  exact sum_of_steps rfl (fun _ _ => rfl) fields

theorem size_children (d : Descriptor) : d.size = 1 + (d.children.map size).sum := by
  cases d <;> simp [size, children, size_all, size_fields]

theorem size_child_lt {d child : Descriptor} (below : child ∈ d.children) :
    child.size < d.size := by
  have part := List.le_sum_of_mem (List.mem_map_of_mem (f := size) below)
  rw [d.size_children]
  omega

private theorem binders_all (items : List Descriptor) :
    bindersAll items = (items.map binders).sum :=
  sum_of_steps rfl (fun _ _ => rfl) items

private theorem binders_fields (fields : List (String × Descriptor)) :
    bindersFields fields = ((Entries.values fields).map binders).sum := by
  rw [Entries.values, List.map_map]
  exact sum_of_steps rfl (fun _ _ => rfl) fields

theorem binders_children {d : Descriptor} (plain : d.plain = true) :
    d.binders = (d.children.map binders).sum := by
  cases d with
  | reference | recursive => cases plain
  | _ => simp [binders, children, binders_all, binders_fields]

/-- Every part of a descriptor without binders is without binders. -/
theorem binders_child {d child : Descriptor} (none : d.binders = 0) (below : child ∈ d.children) :
    child.binders = 0 := by
  cases d with
  | recursive => simp [binders] at none
  | reference => cases below
  | _ =>
    rw [binders_children rfl, List.sum_eq_zero_iff_forall_eq_nat] at none
    exact none _ (List.mem_map_of_mem below)

/-- Induction over the tree, with every child as a smaller case. -/
@[elab_as_elim]
theorem child_induction {motive : Descriptor → Prop}
    (node : ∀ d, (∀ child ∈ d.children, motive child) → motive d) (d : Descriptor) : motive d :=
  node d fun child _below => child_induction node child
termination_by d.size
decreasing_by exact size_child_lt _below

end Descriptor
end Readings
