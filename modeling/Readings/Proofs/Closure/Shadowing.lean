import Readings.Proofs.Closure.Totality

/-!
Where the check on binders and the cast part ways. The check reads a descriptor as it is written: a
reference belongs to the nearest binder of its symbol around it. A cast that jumps from an inner
binder out to a body keeps the inner binder in scope, and what the body leaves free is then looked
up there. So long as no body binds again what it leaves free, there is no difference, and a closed
descriptor answers every value. Otherwise two binders that are guarded as written may expose each
other where the cast stands, and it re-enters them on the same input at every depth
(`never_answers_of_loop`), though closing has let the descriptor pass.
-/
namespace Readings

/-! ## Without shadowing -/

/-- Every binder of a closed descriptor is guarded as it is written. Every value has an answer,
from the budget on, unless a binder further in binds again what a body leaves free; and none does so
where the bodies of the group have no binders and the descriptor to close binds no symbol inside a
binder of it. -/
theorem close_type_answers_unless_shadowed {group : Group}
    (closes : group.closeType raw = .ok closed) :
    closed.Guarded ∧
      (closed.Unshadowed → ∀ actual, ∃ outcome, ∀ budget, castBudget closed actual ≤ budget →
        castWithin budget [] closed actual = some outcome) ∧
      (group.BinderFree → raw.BindsOnce → closed.Unshadowed) :=
  ⟨guarded_of_close closes, answers_of_close closes,
    fun bodies once => unshadowed_of_close bodies once closes⟩

/-- Where all binders are of one symbol none of them leaves that symbol free, and nothing is
shadowed, however they are nested. -/
theorem unshadowed_of_one_symbol {d : Descriptor}
    (only : d.EachBinder fun symbol _ => symbol = own) : d.Unshadowed := by
  intro symbol body inside inner shape bound free
  have within : d.Contains (.recursive inner shape) :=
    inside.trans (.child (List.mem_singleton_self _) bound)
  obtain rfl := only symbol body inside
  exact (Descriptor.free_recursive.mp free).1 (only inner shape within).symm

/-- A symbol bound twice on a path, the outer binder having no reference below the inner one. -/
theorem nested_binders_of_one_symbol_answer :
    let a : Symbol := ⟨0, "a"⟩
    let inner : Descriptor := .recursive a (.array (.reference a))
    let closed : Descriptor := .recursive a (.array (.union [.reference a, .tuple [inner]]))
    Group.empty.closeType closed = .ok closed ∧ ¬ closed.BindsOnce ∧
      ∀ actual, ∃ outcome, closed.cast actual = some outcome := by
  intro a inner closed
  have closes : Group.empty.closeType closed = .ok closed := by cbv
  have nested : Descriptor.Contains (.array (.union [.reference a, .tuple [inner]])) inner :=
    .child List.mem_cons_self (.child (List.mem_cons_of_mem _ List.mem_cons_self)
      (.child List.mem_cons_self .self))
  have only : closed.EachBinder fun symbol _ => symbol = a := by
    refine Descriptor.each_binder_recursive rfl (Descriptor.each_binder_plain rfl ?_)
    refine List.forall_mem_singleton.mpr (Descriptor.each_binder_plain rfl ?_)
    refine List.forall_mem_cons.mpr ⟨Descriptor.each_binder_of_binders rfl, ?_⟩
    refine List.forall_mem_singleton.mpr (Descriptor.each_binder_plain rfl ?_)
    refine List.forall_mem_singleton.mpr (Descriptor.each_binder_recursive rfl ?_)
    exact Descriptor.each_binder_of_binders rfl
  obtain ⟨_, answers, _⟩ := close_type_answers_unless_shadowed closes
  refine ⟨closes, fun once => ?_, fun actual => ?_⟩
  · exact once a _ .self a _ nested (List.mem_singleton_self a)
  · obtain ⟨outcome, ran⟩ := answers (unshadowed_of_one_symbol only) actual
    exact ⟨outcome, ran _ (Nat.le_refl _)⟩

/-! ## Casts that never answer -/

/-- A node waits for each of its parts. -/
theorem cast_waits {d : Descriptor} (plain : d.plain = true) (asked : part ∈ d.parts actual)
    (waits : castWithin budget scope part.1 part.2 = none) :
    castWithin (budget + 1) scope d actual = none := by
  refine Option.eq_none_iff_forall_not_mem.mpr fun outcome ran => ?_
  obtain ⟨outcomes, below, _⟩ := (cast_plain_iff plain).mp ran
  obtain ⟨_, _, answered⟩ := partner_of_left below asked
  rw [waits] at answered
  cases answered

/-- No depth is enough for the cast to answer. -/
def NeverAnswers (scope : Scope) (d : Descriptor) (actual : Value) : Prop :=
  ∀ budget, castWithin budget scope d actual = none

namespace NeverAnswers

theorem of_part {d : Descriptor} (plain : d.plain = true) (asked : part ∈ d.parts actual)
    (never : NeverAnswers scope part.1 part.2) : NeverAnswers scope d actual
  | 0 => rfl
  | budget + 1 => cast_waits plain asked (never budget)

theorem of_binder (never : NeverAnswers ((symbol, body) :: scope) body actual) :
    NeverAnswers scope (.recursive symbol body) actual
  | 0 => rfl
  | budget + 1 => never budget

end NeverAnswers

/-- Each of the symbols is bound to a body that exposes one of them. -/
def Loops (scope : Scope) (symbols : List Symbol) : Prop :=
  ∀ symbol ∈ symbols, ∃ body, scope.lookup symbol = some body ∧ ∃ next ∈ symbols, body.Exposes next

/-- A cast that meets one of such symbols goes round on the same input, whatever the input is. -/
theorem never_answers_of_loop {d : Descriptor} (loops : Loops scope symbols)
    (listed : symbol ∈ symbols) (exposed : d.Exposes symbol) (actual : Value) :
    NeverAnswers scope d actual := by
  intro budget
  induction budget generalizing d symbol with
  | zero => rfl
  | succ budget round =>
    cases exposed with
    | reference =>
      obtain ⟨body, bound, next, again, exposed⟩ := loops _ listed
      rw [cast_bound bound]
      exact round again exposed
    | child passes below exposed =>
      exact cast_waits (Descriptor.plain_of_transparent passes)
        (Descriptor.part_of_transparent passes below actual) (round listed exposed)

/-- Closing accepts two guarded binders of which the inner one binds the symbol of the outer one
again; below both, each body exposes the symbol of the other, and no depth is enough to refuse an
array of arrays that are not empty. -/
theorem accepted_binders_expose_each_other :
    let a : Symbol := ⟨0, "a"⟩
    let b : Symbol := ⟨1, "b"⟩
    let inner : Descriptor := .union [.reference b, .array (.reference a)]
    let middle : Descriptor := .union [.reference a, .array (.recursive a inner)]
    let closed : Descriptor := .recursive a (.array (.recursive b middle))
    Group.empty.closeType closed = .ok closed ∧ ¬ closed.Unshadowed ∧
      NeverAnswers [] closed (.array [.array [.null]]) := by
  intro a b inner middle closed
  have closes : Group.empty.closeType closed = .ok closed := by cbv
  let outer : Descriptor := .array (.recursive b middle)
  let scope : Scope := [(a, inner), (b, middle), (a, outer)]
  have second : b ∈ [a, b] := List.mem_cons_of_mem a List.mem_cons_self
  have loops : Loops scope [a, b] := by
    refine List.forall_mem_cons.mpr ⟨?_, List.forall_mem_singleton.mpr ?_⟩
    · exact ⟨inner, rfl, b, second, .child rfl List.mem_cons_self .reference⟩
    · exact ⟨middle, rfl, a, List.mem_cons_self, .child rfl List.mem_cons_self .reference⟩
  have around : NeverAnswers scope inner .null :=
    never_answers_of_loop loops second (.child rfl List.mem_cons_self .reference) .null
  have item : NeverAnswers [(b, middle), (a, outer)] (.array (.recursive a inner))
      (.array [.null]) := .of_part rfl List.mem_cons_self (.of_binder around)
  have member : NeverAnswers [(b, middle), (a, outer)] middle (.array [.null]) :=
    .of_part rfl (List.mem_cons_of_mem _ List.mem_cons_self) item
  have never : NeverAnswers [] closed (.array [.array [.null]]) :=
    .of_binder (.of_part rfl List.mem_cons_self (.of_binder member))
  have shadowed : ¬ closed.Unshadowed := by
    intro unshadowed
    obtain ⟨outcome, ran⟩ := answers_of_close closes unshadowed (.array [.array [.null]])
    have answered := ran _ (Nat.le_refl _)
    rw [never] at answered
    cases answered
  exact ⟨closes, shadowed, never⟩

end Readings
