import Readings.Proofs.Closure.Walking

/-!
The free symbols of a walked descriptor, seen from three sides: the set that the walk computes on
the way, the references that no binder of the result captures, and the symbols to which paths of the
reference graph lead. All three agree, and so do the unguarded references of the result and the
unguarded paths.
-/
namespace Readings
namespace Descriptor

/-- A reference to the symbol stands below plain nodes that let pass, and below no binder for it. -/
inductive OccursFree (passes : Descriptor → Bool) : Descriptor → Symbol → Prop where
  | reference : OccursFree passes (.reference symbol) symbol
  | child (plain : d.plain = true) (admitted : passes d = true) (below : child ∈ d.children)
      (inside : OccursFree passes child symbol) : OccursFree passes d symbol
  | binder (other : bound ≠ symbol) (inside : OccursFree passes body symbol) :
      OccursFree passes (.recursive bound body) symbol

/-- The symbols a descriptor leaves free. -/
abbrev Frees (d : Descriptor) (symbol : Symbol) : Prop := d.OccursFree anyNode symbol

theorem OccursFree.frees (inside : OccursFree passes d symbol) : Frees d symbol := by
  induction inside with
  | reference => exact .reference
  | child plain _ below _ ih => exact .child plain rfl below ih
  | binder other _ ih => exact .binder other ih

/-- A free reference is a reference. -/
theorem OccursFree.mentions (inside : OccursFree passes d symbol) : Mentions d symbol := by
  induction inside with
  | reference => exact .reference
  | child _ _ below _ ih => exact .child rfl below ih
  | binder _ _ ih => exact .child rfl (List.mem_singleton_self _) ih

theorem free_reference : OccursFree passes (.reference other) symbol ↔ symbol = other := by
  constructor
  · intro inside
    cases inside with
    | reference => rfl
    | child plain => cases plain
  · rintro rfl
    exact .reference

theorem free_plain {d : Descriptor} (plain : d.plain = true) : OccursFree passes d symbol ↔
    passes d = true ∧ ∃ child ∈ d.children, OccursFree passes child symbol := by
  constructor
  · intro inside
    cases inside with
    | reference | binder => cases plain
    | child _ admitted below inside => exact ⟨admitted, _, below, inside⟩
  · rintro ⟨admitted, child, below, inside⟩
    exact .child plain admitted below inside

theorem free_recursive : OccursFree passes (.recursive bound body) symbol ↔
    bound ≠ symbol ∧ OccursFree passes body symbol := by
  constructor
  · intro inside
    cases inside with
    | child plain => cases plain
    | binder other inside => exact ⟨other, inside⟩
  · rintro ⟨other, inside⟩
    exact .binder other inside

/-- What a body leaves free its binder captures or leaves free. -/
theorem Frees.out_of_binder (captured : Frees body symbol) (bound : Symbol) :
    symbol = bound ∨ Frees (.recursive bound body) symbol := by
  by_cases own : symbol = bound
  · exact .inl own
  · exact .inr (.binder (Ne.symm own) captured)

private theorem any_reaches_iff {members : List Descriptor} :
    anyReachesUnguarded symbol members = true ↔
      ∃ member ∈ members, reachesUnguarded symbol member = true := by
  induction members with
  | nil => simp [anyReachesUnguarded]
  | cons member rest ih => simp [anyReachesUnguarded, ih]

/-- The check on a new binder looks for exactly the free references that are unguarded. -/
theorem reaches_unguarded_iff {d : Descriptor} :
    d.reachesUnguarded symbol = true ↔ d.OccursFree transparent symbol := by
  induction d using child_induction with
  | node d ih =>
    cases kind : d.plain with
    | true =>
      rw [free_plain kind]
      cases d with
      | reference | recursive => cases kind
      | union members | intersection members =>
        simp only [reachesUnguarded, any_reaches_iff, transparent, true_and]
        exact exists_congr fun member => and_congr_right fun below => ih member below
      | map composition inner =>
        simp only [reachesUnguarded, transparent, children, List.mem_singleton, exists_eq_left,
          true_and]
        exact ih inner (List.mem_singleton_self _)
      | _ => simp [reachesUnguarded, transparent]
    | false =>
      cases d with
      | reference other =>
        rw [free_reference, reachesUnguarded, beq_iff_eq]
        exact eq_comm
      | recursive bound body =>
        rw [free_recursive, ← ih body (List.mem_singleton_self _)]
        simp [reachesUnguarded]
      | _ => cases kind

end Descriptor

namespace Group
variable {group : Group}

theorem free_nodup (ran : group.walk expanding d = .ok walked) : walked.free.Nodup := by
  induction ran using walk_ok_induction with
  | plain expanding d parts _ _ below =>
    refine Walked.nodup_join_all .nil fun one member => ?_
    obtain ⟨child, _, _, distinct⟩ := partner_of_right below member
    exact distinct
  | stopped => exact List.nodup_cons.mpr ⟨List.not_mem_nil, .nil⟩
  | left _ _ _ _ _ _ _ _ _ distinct => exact distinct
  | bound _ _ symbol _ _ _ _ _ _ _ distinct => exact distinct.erase symbol

/-- A node put around walked children leaves free what they leave free, if it lets pass. -/
private theorem free_around {d : Descriptor} (kind : d.plain = true)
    (stable : ∀ d shapes, passes (Descriptor.withChildren d shapes) = passes d)
    (same : d.children.length = walked.length) :
    (Walked.around d walked).descriptor.OccursFree passes symbol ↔
      passes d = true ∧ ∃ one ∈ walked, one.descriptor.OccursFree passes symbol := by
  have plain : (Walked.around d walked).descriptor.plain = true := by rwa [Walked.plain_around]
  rw [Descriptor.free_plain plain, Walked.children_around same, Walked.around, stable]
  simp only [List.mem_map, exists_exists_and_eq_and]

/-- The set that the walk computes is the set of the references that no binder captures. -/
theorem mem_free_iff (ran : group.walk expanding d = .ok walked) :
    symbol ∈ walked.free ↔ walked.descriptor.Frees symbol := by
  induction ran using walk_ok_induction with
  | plain expanding d parts _ kind below =>
    rw [Descriptor.Frees, free_around kind (fun _ _ => rfl) below.length_eq, Walked.around,
      Walked.mem_join_all]
    simp only [List.not_mem_nil, false_or, Descriptor.anyNode, true_and]
    refine exists_congr fun one => and_congr_right fun member => ?_
    obtain ⟨child, _, _, inside⟩ := partner_of_right below member
    exact inside
  | stopped => exact List.mem_singleton.trans Descriptor.free_reference.symm
  | left _ _ _ _ _ _ _ _ _ inside => exact inside
  | bound _ _ own _ _ below _ _ _ _ inside =>
    rw [(free_nodup below).mem_erase_iff, inside, ne_comm]
    exact Descriptor.free_recursive.symm

/-- Over bodies without binders, the references that the result leaves free are the symbols that
stop the walk, at the end of a path that avoids the symbols being expanded. -/
theorem occurs_free_iff (passes : Descriptor → Bool)
    (stable : ∀ d shapes, passes (d.withChildren shapes) = passes d) (bodies : group.BinderFree)
    (raw : d.binders = 0) (ran : group.walk expanding d = .ok walked) :
    walked.descriptor.OccursFree passes symbol ↔
      (symbol ∈ expanding ∨ group.body? symbol = none) ∧
        group.Leads passes expanding d symbol := by
  induction expanding, d using expansion_induction group generalizing walked with
  | plain expanding d kind ih =>
    obtain ⟨parts, below, rfl⟩ := walk_plain_ok kind ran
    rw [free_around kind stable below.length_eq, Leads.plain_iff kind]
    constructor
    · rintro ⟨admitted, one, member, inside⟩
      obtain ⟨child, listed, ran⟩ := partner_of_right below member
      obtain ⟨stop, path⟩ := (ih child listed (d.binders_child raw listed) ran).mp inside
      exact ⟨stop, admitted, child, listed, path⟩
    · rintro ⟨stop, admitted, child, listed, path⟩
      obtain ⟨one, member, ran⟩ := partner_of_left below listed
      have inside := (ih child listed (d.binders_child raw listed) ran).mpr ⟨stop, path⟩
      exact ⟨admitted, one, member, inside⟩
  | stopped expanding other stopped =>
    rw [walk_stopped stopped] at ran
    cases ran
    rw [Leads.stopped_iff stopped, Walked.loose, Descriptor.free_reference]
    exact ⟨fun same => ⟨same ▸ stopped, same⟩, And.right⟩
  | expanded expanding other body fresh found ih =>
    rw [walk_expanded fresh found] at ran
    obtain ⟨inner, below, ends⟩ := walk_bound_ok ran
    have inside := ih (bodies.of_body found) below
    rw [Leads.expanded_iff fresh found]
    by_cases own : symbol = other
    · -- the symbol itself is bound by the group, not expanded here, and not free in the result
      subst own
      have left : ¬ walked.descriptor.OccursFree passes symbol := by
        rcases ends with ⟨closed, rfl⟩ | ⟨_, _, rfl⟩
        · exact fun captured => closed ((mem_free_iff below).mpr captured.frees)
        · exact fun captured => (Descriptor.free_recursive.mp captured).1 rfl
      simp [left, fresh, found]
    · have same : walked.descriptor.OccursFree passes symbol ↔
          inner.descriptor.OccursFree passes symbol := by
        rcases ends with ⟨_, rfl⟩ | ⟨_, _, rfl⟩
        · exact Iff.rfl
        · rw [Descriptor.free_recursive]
          exact and_iff_right (Ne.symm own)
      simp [same, inside, own]
  | recursive => simp [Descriptor.binders] at raw

/-- Over bodies without binders, what is free in the result is where the walk of the reference graph
stops. -/
theorem mem_free_iff_leads (bodies : group.BinderFree) (raw : d.binders = 0)
    (ran : group.walk expanding d = .ok walked) :
    symbol ∈ walked.free ↔ (symbol ∈ expanding ∨ group.body? symbol = none) ∧
      group.Leads Descriptor.anyNode expanding d symbol :=
  (mem_free_iff ran).trans
    (occurs_free_iff Descriptor.anyNode (fun _ _ => rfl) bodies raw ran)

/-- Likewise for unguarded references and paths. -/
theorem reaches_unguarded_iff_leads (bodies : group.BinderFree) (raw : d.binders = 0)
    (ran : group.walk expanding d = .ok walked) :
    walked.descriptor.reachesUnguarded symbol = true ↔
      (symbol ∈ expanding ∨ group.body? symbol = none) ∧
        group.Leads Descriptor.transparent expanding d symbol :=
  Descriptor.reaches_unguarded_iff.trans
    (occurs_free_iff Descriptor.transparent Descriptor.transparent_with_children bodies raw ran)

end Group
end Readings
