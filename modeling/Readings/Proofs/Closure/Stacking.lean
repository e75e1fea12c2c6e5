import Readings.Proofs.Closure.Placement
import Readings.Proofs.Descriptor.Nodes

/-!
Maps on maps. Transforming a map extends its composition, so that nothing built from the constructors
has a map right on a map (`map_with_flat`). Closing keeps every map where it is and rewrites what
stands below it. A reference or a binder there may turn out to be a map itself: the walk puts the
body in its place, without a binder when the symbol is not free in it, and the two maps are left one
on the other. That is the only way in which a closed descriptor comes to have a map on a map, and it
does so exactly then (`flat_iff`).
-/
namespace Readings
namespace Descriptor

def isMap : Descriptor → Bool
  | .map .. => true
  | _ => false

/-- A map right on a map. -/
def stacked : Descriptor → Bool
  | .map _ inner => inner.isMap
  | _ => false

/-- No map stands right on a map. -/
abbrev Flat (d : Descriptor) : Prop := d.EachNode fun node => node.stacked = false

/-- A node that is no map right on a map, a reference or a binder. -/
def mapsApart : Descriptor → Bool
  | .map _ inner => inner.plain && !inner.isMap
  | _ => true

/-- Every map stands on a plain node that is no map. -/
abbrev Apart (d : Descriptor) : Prop := d.EachNode fun node => node.mapsApart = true

theorem is_map_with_children (d : Descriptor) (shapes : List Descriptor) :
    (d.withChildren shapes).isMap = d.isMap := by
  unfold withChildren
  split <;> rfl

theorem eq_map_of_is_map {d : Descriptor} (map : d.isMap = true) :
    ∃ composition inner, d = .map composition inner := by
  cases d with
  | map composition inner => exact ⟨composition, inner, rfl⟩
  | _ => cases map

theorem flat_of_children {d : Descriptor} (kind : d.isMap = false)
    (below : ∀ child ∈ d.children, child.Flat) : d.Flat := by
  refine each_node_iff.mpr ⟨?_, below⟩
  cases d with
  | map => cases kind
  | _ => rfl

/-- A transformation goes into the composition of a map, and on top of anything else. -/
theorem map_with_flat (morphism : Morphism) {inner : Descriptor} (flat : inner.Flat) :
    (mapWith morphism inner).Flat := by
  cases inner with
  | map composition shape =>
    obtain ⟨own, below⟩ := each_node_iff.mp flat
    exact each_node_iff.mpr ⟨own, below⟩
  | _ => exact each_node_iff.mpr ⟨rfl, List.forall_mem_singleton.mpr flat⟩

end Descriptor

namespace Group
variable {group : Group}

theorem Enters.same (one : group.Enters expanding symbol body d)
    (other : group.Enters expanding own shape d) : own = symbol ∧ shape = body := by
  cases one with
  | reference _ found =>
    cases other with
    | reference _ again => exact ⟨rfl, Option.some.inj (again.symm.trans found)⟩
  | binder =>
    cases other with
    | binder => exact ⟨rfl, rfl⟩

/-- What a walk makes of a descriptor is a map: the descriptor is one, or a body is entered there that
becomes one and gets no binder. -/
inductive BecomesMap (group : Group) : List Symbol → Descriptor → Prop where
  | map : BecomesMap group expanding (.map composition shape)
  | inlined (enters : group.Enters expanding symbol body d)
      (ran : group.walk (symbol :: expanding) body = .ok walked) (unbound : symbol ∉ walked.free)
      (inside : BecomesMap group (symbol :: expanding) body) : BecomesMap group expanding d

theorem becomes_map_plain {d : Descriptor} (plain : d.plain = true) :
    group.BecomesMap expanding d ↔ d.isMap = true := by
  constructor
  · intro becomes
    cases becomes with
    | map => rfl
    | inlined enters =>
      cases enters with
      | reference | binder => cases plain
  · intro map
    obtain ⟨composition, inner, rfl⟩ := Descriptor.eq_map_of_is_map map
    exact .map

theorem becomes_map_iff (ran : group.walk expanding d = .ok walked) :
    group.BecomesMap expanding d ↔ walked.descriptor.isMap = true := by
  induction ran using walk_ok_induction with
  | plain expanding d parts _ kind _ =>
    rw [becomes_map_plain kind, Walked.around, Descriptor.is_map_with_children]
  | stopped expanding symbol _ stop =>
    refine iff_of_false (fun becomes => ?_) Bool.false_ne_true
    cases becomes with
    | inlined enters =>
      cases enters with
      | reference fresh found => exact stop.elim fresh (by simp [found])
  | left expanding d symbol body inner below _ enters closed ih =>
    rw [← ih]
    constructor
    · intro becomes
      cases becomes with
      | map => cases enters
      | inlined again _ _ inside =>
        obtain ⟨rfl, rfl⟩ := enters.same again
        exact inside
    · exact .inlined enters below closed
  | bound expanding d symbol body inner below _ enters free _ _ =>
    refine iff_of_false (fun becomes => ?_) Bool.false_ne_true
    cases becomes with
    | map => cases enters
    | inlined again ran unbound _ =>
      obtain ⟨rfl, rfl⟩ := enters.same again
      rw [below] at ran
      cases ran
      exact unbound free

/-- The walk of a descriptor arrives at a map over something that becomes a map. -/
def Stacks (group : Group) (expanding : List Symbol) (d : Descriptor) : Prop :=
  ∃ others composition inner, group.Visits expanding d others (.map composition inner) ∧
    group.BecomesMap others inner

theorem walk_map_ok (ran : group.walk expanding (.map composition shape) = .ok walked) :
    ∃ one, group.walk expanding shape = .ok one ∧
      walked.descriptor = .map composition one.descriptor := by
  obtain ⟨parts, below, rfl⟩ := walk_plain_ok rfl ran
  obtain ⟨one, rest, first, tail, rfl⟩ := List.forall₂_cons_left_iff.mp below
  obtain rfl := List.forall₂_nil_left_iff.mp tail
  exact ⟨one, first, rfl⟩

/-- The result of a walk has no map on a map unless the walk puts one there. -/
theorem flat_iff (ran : group.walk expanding d = .ok walked) :
    walked.descriptor.Flat ↔ ¬ group.Stacks expanding d := by
  constructor
  · rintro flat ⟨others, composition, inner, visits, becomes⟩
    obtain ⟨part, there, inside⟩ := walk_at_place ran visits
    obtain ⟨one, below, shape⟩ := walk_map_ok there
    have apart := flat _ inside
    rw [shape, Descriptor.stacked, (becomes_map_iff below).mp becomes] at apart
    cases apart
  · intro apart node inside
    by_contra bad
    obtain ⟨composition, inner, rfl, map⟩ : ∃ composition inner,
        node = .map composition inner ∧ inner.isMap = true := by
      cases node with
      | map composition inner => exact ⟨composition, inner, rfl, Bool.of_not_eq_false bad⟩
      | _ => exact absurd rfl bad
    obtain ⟨others, place, part, visits, plain, there, stands⟩ := node_at_place ran inside rfl
    -- a plain node stays of its kind, so that the place is a map as well
    have kept := (becomes_map_iff there).mpr (by rw [stands]; rfl)
    obtain ⟨outer, under, rfl⟩ :=
      Descriptor.eq_map_of_is_map ((becomes_map_plain plain).mp kept)
    obtain ⟨one, below, shape⟩ := walk_map_ok there
    rw [shape] at stands
    cases stands
    exact apart ⟨others, _, under, visits, (becomes_map_iff below).mpr map⟩

/-- The closed form has no map on a map unless closing puts one there. -/
theorem flat_close_iff (closes : group.closeType raw = .ok closed) :
    closed.Flat ↔ ¬ group.Stacks [] raw := by
  obtain ⟨walked, ran, _, rfl⟩ := walk_of_close closes
  exact flat_iff ran

/-- What every node of a descriptor and of the bodies has, every node has at the places of a walk. -/
theorem Visits.each_node (visits : group.Visits expanding d others place)
    (bodies : ∀ entry ∈ group.bodies, entry.2.EachNode P) (each : d.EachNode P) :
    place.EachNode P := by
  induction visits with
  | here => exact each
  | child _ below _ ih => exact ih (each.child below)
  | entered enters _ ih =>
    cases enters with
    | reference _ found => exact ih (bodies _ (mem_of_lookup found))
    | binder => exact ih (each.child (List.mem_singleton_self _))

/-- Where no map stands right on a map, a reference or a binder, closing puts none on another. -/
theorem not_stacks_of_apart
    (bodies : ∀ entry ∈ group.bodies, entry.2.Apart) (raw : d.Apart) :
    ¬ group.Stacks expanding d := by
  rintro ⟨others, composition, inner, visits, becomes⟩
  have apart : (inner.plain && !inner.isMap) = true := visits.each_node bodies raw _ .self
  obtain ⟨plain, other⟩ := Bool.and_eq_true_iff.mp apart
  have map := (becomes_map_plain plain).mp becomes
  rw [map] at other
  cases other

end Group
end Readings
