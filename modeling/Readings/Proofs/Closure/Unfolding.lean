import Readings.Proofs.Cast.Scoping

/-!
How a closed descriptor and the raw one it comes from belong together. `Unfolds` allows every form
in which a walk can leave a reference: as it stands, as the body in its place, or as the body under
a binder. A cast of the closed side runs in a scope that `Fits`: each body in it unfolds from the
group's body of its symbol, and whatever such a body leaves free the scope can answer. Both are kept
by every step of a cast, since the scope only grows on the way down and a reference is looked up
where it is met.
-/
namespace Readings

/-- A descriptor that a walk can make of the raw one, whatever is being expanded around it. -/
inductive Unfolds (group : Group) : Descriptor → Descriptor → Prop where
  | node (plain : raw.plain = true) (same : raw.children.length = shapes.length)
      (below : ∀ pair ∈ raw.children.zip shapes, Unfolds group pair.1 pair.2) :
      Unfolds group raw (raw.withChildren shapes)
  | kept : Unfolds group (.reference symbol) (.reference symbol)
  | inlined (found : group.body? symbol = some body) (inside : Unfolds group body d) :
      Unfolds group (.reference symbol) d
  | bound (found : group.body? symbol = some body) (inside : Unfolds group body d) :
      Unfolds group (.reference symbol) (.recursive symbol d)

theorem unfolds_of_walk {group : Group} (bodies : group.BinderFree) (free : raw.binders = 0)
    (ran : group.walk expanding raw = .ok walked) : Unfolds group raw walked.descriptor := by
  induction expanding, raw using Group.expansion_induction group generalizing walked with
  | plain expanding raw kind ih =>
    obtain ⟨parts, below, rfl⟩ := Group.walk_plain_ok kind ran
    have related : List.Forall₂ (Unfolds group) raw.children (parts.map Walked.descriptor) := by
      refine List.forall₂_map_right_iff.mpr ((partners_listed below).imp ?_)
      rintro child one ⟨listed, ran⟩
      exact ih child listed (raw.binders_child free listed) ran
    obtain ⟨same, pairs⟩ := List.forall₂_iff_zip.mp related
    exact .node kind same fun pair listed => pairs listed
  | stopped expanding symbol stopped =>
    rw [Group.walk_stopped stopped] at ran
    cases ran
    exact .kept
  | expanded expanding symbol body fresh found ih =>
    rw [Group.walk_expanded fresh found] at ran
    obtain ⟨inner, below, ⟨_, rfl⟩ | ⟨_, _, rfl⟩⟩ := Group.walk_bound_ok ran
    · exact .inlined found (ih (bodies.of_body found) below)
    · exact .bound found (ih (bodies.of_body found) below)
  | recursive => simp [Descriptor.binders] at free

/-- Nodes over unfolded children ask for the casts of unfolded parts. -/
theorem unfolds_parts {group : Group} {raw : Descriptor}
    (same : raw.children.length = shapes.length)
    (below : ∀ pair ∈ raw.children.zip shapes, Unfolds group pair.1 pair.2) (actual : Value) :
    List.Forall₂ (fun part other => Unfolds group part.1 other.1 ∧ part.2 = other.2)
      (raw.parts actual) ((raw.withChildren shapes).parts actual) := by
  have related : List.Forall₂ (Unfolds group) raw.children shapes :=
    List.forall₂_iff_zip.mpr ⟨same, fun listed => below _ listed⟩
  exact Descriptor.parts_with_children related actual

/-! ## Scopes -/

/-- A closed descriptor unfolds from the raw one and needs no scope. -/
theorem unfolds_of_close {group : Group} (bodies : group.BinderFree) (free : raw.binders = 0)
    (closes : group.closeType raw = .ok closed) :
    Unfolds group raw closed ∧ closed.CoveredBy [] := by
  obtain ⟨walked, ran, _, rfl⟩ := Group.walk_of_close closes
  refine ⟨unfolds_of_walk bodies free ran, fun symbol captured => ?_⟩
  exact absurd captured (frees_nothing_of_close closes symbol)

/-- A scope over unfolded bodies, in which every body finds the symbols it leaves free. -/
structure Fits (group : Group) (scope : Scope) : Prop where
  unfolds : ∀ symbol body, scope.lookup symbol = some body →
    ∃ raw, group.body? symbol = some raw ∧ Unfolds group raw body
  covered : SelfCovering scope

theorem fits_nothing (group : Group) : Fits group [] where
  unfolds _ _ found := nomatch found
  covered _ _ found := nomatch found

/-- Entering a binder keeps the scope fitting. -/
theorem Fits.under (fits : Fits group scope) (found : group.body? bound = some raw)
    (inside : Unfolds group raw body)
    (covered : Descriptor.CoveredBy (.recursive bound body) scope) :
    Fits group ((bound, body) :: scope) where
  unfolds symbol shape listed := by
    rcases lookup_frame listed with ⟨rfl, rfl⟩ | ⟨_, listed⟩
    · exact ⟨raw, found, inside⟩
    · exact fits.unfolds symbol shape listed
  covered := fits.covered.under covered

end Readings
