import Readings.Proofs.Cast.Answers
import Readings.Proofs.Closure.Totality
import Readings.Proofs.Closure.Unfolding

/-!
Closing keeps the meaning. The raw descriptor is read with every symbol of the group bound to its
raw body around it; the closed one is read on its own. Both give the same outcome, the whole tree of
a failure included. The proof follows the closed side: wherever a cast of it stands, with whatever
copies of a body in scope, the raw descriptor that this place unfolds from answers the same in the
group.
-/
namespace Readings

/-- Whatever a closed descriptor answers, the raw one it unfolds from answers in the group. -/
theorem raw_answers {group : Group} (unfolds : Unfolds group raw d) (fits : Fits group scope)
    (covered : d.CoveredBy scope) (ran : castWithin budget scope d actual = some outcome) :
    Answers group.bodies raw actual outcome := by
  induction budget generalizing scope raw d actual outcome with
  | zero => cases ran
  | succ budget deeper =>
    -- the closed side takes no step where a body was inlined, hence the inner induction
    induction unfolds with
    | @node raw shapes plain same below ih =>
      have kind : (raw.withChildren shapes).plain = true := by rwa [Descriptor.plain_with_children]
      obtain ⟨outcomes, each, rfl⟩ := (cast_plain_iff kind).mp ran
      rw [Descriptor.assemble_with_children same.symm]
      have asked := partners_compose (unfolds_parts same below actual) each
      refine .plain plain (asked.imp ?_)
      rintro part outcome ⟨other, listed, ⟨inside, value⟩, ran⟩
      obtain ⟨below, _⟩ := Descriptor.part_descends listed
      rw [value]
      exact deeper inside fits (covered.child kind below) ran
    | @kept symbol =>
      obtain ⟨body, bound⟩ := covered symbol .reference
      obtain ⟨source, found, inside⟩ := fits.unfolds symbol body bound
      rw [cast_bound bound] at ran
      exact .reference found (deeper inside fits (fits.covered symbol body bound) ran)
    | inlined found inside ih => exact .reference found (ih covered ran)
    | bound found inside ih =>
      rw [cast_recursive] at ran
      exact .reference found (deeper inside (fits.under found inside covered) covered.under ran)

/-- A closed descriptor means what the raw one means in its group. On every value the cast answers
within its budget, and reading the raw descriptor with each symbol bound to its raw body gives that
very outcome: the candidates in order, or the tree of the failure. -/
theorem close_type_preserves_meaning {group : Group} (bodies : group.BinderFree)
    (free : raw.binders = 0) (closes : group.closeType raw = .ok closed) (actual : Value) :
    ∃ outcome, closed.cast actual = some outcome ∧ Answers [] closed actual outcome ∧
      ∀ other, Answers group.bodies raw actual other ↔ other = outcome := by
  obtain ⟨outcome, ran⟩ := close_type_total bodies free closes actual
  obtain ⟨unfolds, covered⟩ := unfolds_of_close bodies free closes
  have answered : Answers group.bodies raw actual outcome :=
    raw_answers unfolds (fits_nothing group) covered (ran _ (Nat.le_refl _))
  refine ⟨outcome, ran _ (Nat.le_refl _), ⟨_, ran⟩, fun other => ⟨fun also => ?_, ?_⟩⟩
  · exact also.unique answered
  · rintro rfl
    exact answered

/-- Of two names that refer to each other, the one met first gets a binder and the other is inlined
in it; the reference that closes the cycle stays. One array in another has a reading in either form,
and an array of null has the same tree of failures. -/
theorem alternating_list_keeps_its_meaning :
    let list : Symbol := ⟨0, "list"⟩
    let cell : Symbol := ⟨1, "cell"⟩
    let group : Group := ⟨[(list, .intersection [.unknown, .reference cell]),
      (cell, .array (.reference list))]⟩
    let closed : Descriptor :=
      .recursive list (.intersection [.unknown, .array (.reference list)])
    let empty : Value := .array []
    let means (actual : Value) (outcome : Outcome) : Prop :=
      closed.cast actual = some outcome ∧
        ∀ other, Answers group.bodies (.reference list) actual other ↔ other = outcome
    group.closeType (.reference list) = .ok closed ∧
      means (.array [empty])
        (.success [.array [.array [empty], .array [.array [empty, empty]]]]) ∧
      means (.array [.null]) (.mismatch .intersection [(.member 0, .success [.array [.null]]),
        (.member 1, .mismatch .array [(.item 0, .mismatch .intersection
          [(.member 0, .success [.null]), (.member 1, .mismatch .array [] .null)] .null)]
          (.array [.null]))] (.array [.null])) := by
  intro list cell group closed empty means
  have bodies : group.BinderFree := by
    intro entry listed
    simp only [group, List.mem_cons, List.not_mem_nil, or_false] at listed
    rcases listed with rfl | rfl <;> rfl
  have leaf : group.walk [cell, list] (.reference list) = .ok (.loose list) :=
    Group.walk_stopped (.inl (by decide))
  have items : group.walk [cell, list] (.array (.reference list)) =
      .ok ⟨.array (.reference list), [list]⟩ :=
    Group.walk_of_children rfl [.loose list] (.cons leaf .nil)
  have inlined : group.walk [list] (.reference cell) = .ok ⟨.array (.reference list), [list]⟩ := by
    rw [Group.walk_expanded (by decide) rfl, items]
    rfl
  have any : group.walk [list] .unknown = .ok (.closed .unknown) :=
    Group.walk_of_children rfl [] .nil
  have inside : group.walk [list] (.intersection [.unknown, .reference cell]) =
      .ok ⟨.intersection [.unknown, .array (.reference list)], [list]⟩ :=
    Group.walk_of_children rfl [.closed .unknown, ⟨.array (.reference list), [list]⟩]
      (.cons any (.cons inlined .nil))
  have bound : group.walk [] (.reference list) = .ok ⟨closed, []⟩ := by
    rw [Group.walk_expanded List.not_mem_nil rfl, inside]
    rfl
  have closes : group.closeType (.reference list) = .ok closed := Group.close_of_walk bound
  have meant {actual : Value} {outcome : Outcome} (ran : closed.cast actual = some outcome) :
      means actual outcome := by
    obtain ⟨own, answered, _, same⟩ := close_type_preserves_meaning bodies rfl closes actual
    obtain rfl := Option.some.inj (answered.symm.trans ran)
    exact ⟨ran, same⟩
  exact ⟨closes, meant rfl, meant rfl⟩

end Readings
