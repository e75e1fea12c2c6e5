import Readings.Proofs.Cast.Answers
import Readings.Proofs.Closure.Shadowing

/-!
Closed descriptors and the scope around them. A jump takes the whole scope along, so that a body may
run below frames of binders that do not enclose it, and above whatever was bound before the cast
began. None of the latter is ever read: wherever the cast of a closed descriptor stands, the frames
that it has entered itself answer what is looked up, and what their bodies leave free in turn. The
same symbols may be bound to anything else further out.
-/
namespace Readings

/-- Frames that answer a descriptor and their own bodies shut off everything around them. -/
theorem cast_above {entered : Scope} (kept : SelfCovering entered) (covered : d.CoveredBy entered)
    (ambient : Scope) (actual : Value) :
    castWithin budget (entered ++ ambient) d actual = castWithin budget entered d actual := by
  have agree : Agree (fun symbol => ∃ body, entered.lookup symbol = some body)
      (entered ++ ambient) entered := by
    have same : ∀ symbol, (∃ body, entered.lookup symbol = some body) →
        (entered ++ ambient).lookup symbol = entered.lookup symbol := by
      rintro symbol ⟨body, bound⟩
      rw [List.lookup_append, bound, Option.some_or]
    refine ⟨same, fun symbol body matter found free captured => ?_⟩
    rw [same symbol matter] at found
    exact kept symbol body found free captured
  exact cast_agrees agree covered actual

/-- A cast answers, or no depth is enough for it. -/
theorem answers_or_never (scope : Scope) (d : Descriptor) (actual : Value) :
    (∃ outcome, Answers scope d actual outcome) ∨ NeverAnswers scope d actual := by
  by_cases never : NeverAnswers scope d actual
  · exact .inr never
  · obtain ⟨budget, answers⟩ := not_forall.mp never
    obtain ⟨outcome, ran⟩ := Option.ne_none_iff_exists'.mp answers
    exact .inl ⟨outcome, answers_of_ran ran⟩

/-- A closed descriptor is read by itself. Whatever is bound around it, the symbols of its own
binders included, a cast comes to the same at every depth as in the empty scope: it answers with one
tree in both scopes, or never in either. -/
theorem closed_casts_ignore_the_scope (closed : ∀ symbol, ¬ d.Frees symbol) (scope : Scope)
    (actual : Value) :
    (∀ budget, castWithin budget scope d actual = castWithin budget [] d actual) ∧
      ((∃ outcome, Answers scope d actual outcome ∧ Answers [] d actual outcome) ∨
        NeverAnswers scope d actual ∧ NeverAnswers [] d actual) := by
  have covered : d.CoveredBy [] := fun symbol captured => absurd captured (closed symbol)
  have same : ∀ budget, castWithin budget scope d actual = castWithin budget [] d actual :=
    fun _ => cast_above self_covering_nothing covered scope actual
  refine ⟨same, ?_⟩
  rcases answers_or_never [] d actual with ⟨outcome, answers⟩ | never
  · obtain ⟨depth, ran⟩ := answers
    exact .inl ⟨outcome, ⟨depth, fun budget more => (same budget).trans (ran budget more)⟩, depth, ran⟩
  · exact .inr ⟨fun budget => (same budget).trans (never budget), never⟩

/-- Below the inner of two binders the body jumps out to the outer one, in a scope that binds both
symbols to something else. -/
theorem nested_binders_shut_off_the_scope :
    let a : Symbol := ⟨0, "a"⟩
    let b : Symbol := ⟨1, "b"⟩
    let closed : Descriptor := .recursive a (.array (.recursive b (.union
      [.primitive .null, .array (.reference b), .array (.reference a)])))
    let scope : Scope := [(b, .never), (a, .pure .undefined)]
    let actual : Value := .array [.array [.array [.null], .null]]
    (∀ symbol, ¬ closed.Frees symbol) ∧
      castWithin 12 [] closed actual = some (.success [actual]) ∧
      castWithin 12 scope closed actual = some (.success [actual]) := by
  intro a b closed scope actual
  have closes : Group.empty.closeType closed = .ok closed := by cbv
  have closed_off := frees_nothing_of_close closes
  obtain ⟨same, _⟩ := closed_casts_ignore_the_scope closed_off scope actual
  have ran : castWithin 12 [] closed actual = some (.success [actual]) := by rfl
  exact ⟨closed_off, ran, (same 12).trans ran⟩

end Readings
