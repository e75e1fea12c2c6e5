import Readings.Proofs.Cast.Scoping
import Readings.Proofs.Closure.Placement

/-!
Closed descriptors in later groups. The walk of another group goes into a closed descriptor like into
any other, with whatever it has been expanding. It finds every reference below its binder, which is on
the stack, and so expands none of them, even where the group has a body for the symbol; and every
binder it comes back to still captures a reference and is still guarded. So it leaves the descriptor
as it is (`walk_settled`), wherever that stands.
-/
namespace Readings
namespace Descriptor

/-- Every binder in a descriptor captures a reference, and only guarded ones. -/
def Tied (d : Descriptor) : Prop :=
  d.EachBinder fun symbol body => body.Frees symbol ∧ ¬ body.OccursFree transparent symbol

end Descriptor

namespace Group
variable {group : Group}

/-- A walk rebuilds a descriptor whose binders are tied and whose free symbols are being expanded. -/
theorem walk_settled (group : Group) {d : Descriptor} (tied : d.Tied)
    (known : ∀ symbol, d.Frees symbol → symbol ∈ expanding) :
    ∃ free, group.walk expanding d = .ok ⟨d, free⟩ := by
  induction d using Descriptor.child_induction generalizing expanding with
  | node d ih =>
    cases kind : d.plain with
    | true =>
      have each : ∀ child ∈ d.children,
          ∃ one, group.walk expanding child = .ok one ∧ one.descriptor = child := by
        intro child below
        obtain ⟨free, ran⟩ := ih child below (tied.child below) fun symbol inside =>
          known symbol (.child kind rfl below inside)
        exact ⟨_, ran, rfl⟩
      obtain ⟨parts, walked⟩ := related_of_each each
      have same : parts.map Walked.descriptor = d.children := by
        rw [← List.forall₂_eq_eq_eq, List.forall₂_map_left_iff]
        exact (walked.imp fun _ _ => And.right).flip
      have ran := walk_of_children kind parts (walked.imp fun _ _ => And.left)
      rw [Walked.around, same, Descriptor.with_children_self] at ran
      exact ⟨_, ran⟩
    | false =>
      cases d with
      | reference symbol => exact ⟨_, walk_stopped (.inl (known symbol .reference))⟩
      | recursive bound body =>
        obtain ⟨captured, guarded⟩ := tied bound body .self
        have stack : ∀ symbol, body.Frees symbol → symbol ∈ bound :: expanding := by
          intro symbol inside
          rcases inside.out_of_binder bound with rfl | outside
          · exact List.mem_cons_self
          · exact List.mem_cons_of_mem _ (known symbol outside)
        obtain ⟨free, ran⟩ := ih body (List.mem_singleton_self _)
          (tied.child (List.mem_singleton_self _)) stack
        have own : bound ∈ free := (mem_free_iff ran).mpr captured
        rw [← Descriptor.reaches_unguarded_iff] at guarded
        refine ⟨free.erase bound, ?_⟩
        rw [walk_recursive, ran]
        simp [Except.bind, Walked.bindCycle, own, guarded]
      | _ => cases kind

/-- Another group walks a closed descriptor to itself, whatever it is expanding. -/
theorem walk_closed (closes : group.closeType raw = .ok closed) (other : Group)
    (expanding : List Symbol) : other.walk expanding closed = .ok (.closed closed) := by
  have nothing := frees_nothing_of_close closes
  obtain ⟨walked, ran, _, rfl⟩ := walk_of_close closes
  obtain ⟨free, again⟩ := other.walk_settled (binder_captures ran)
    (fun symbol inside => absurd inside (nothing symbol))
  have left : free = [] := by
    refine List.eq_nil_iff_forall_not_mem.mpr fun symbol listed => ?_
    exact nothing symbol ((mem_free_iff again).mp listed)
  rw [again, left]
  rfl

/-! ## Where closed descriptors are embedded -/

theorem Visits.trans (first : group.Visits expanding d middle part)
    (second : group.Visits middle part others place) : group.Visits expanding d others place := by
  induction first with
  | here => exact second
  | child plain below _ ih => exact .child plain below (ih second)
  | entered enters _ ih => exact .entered enters (ih second)

/-- A walk visits whatever a descriptor contains. -/
theorem visits_of_contains (group : Group) {d : Descriptor} (inside : d.Contains part)
    (expanding : List Symbol) : ∃ others, group.Visits expanding d others part := by
  induction inside generalizing expanding with
  | self => exact ⟨expanding, .here⟩
  | @child _ _ d below _ ih =>
    cases kind : d.plain with
    | true =>
      obtain ⟨others, visits⟩ := ih expanding
      exact ⟨others, .child kind below visits⟩
    | false =>
      cases d with
      | reference => cases below
      | recursive bound body =>
        obtain rfl := List.mem_singleton.mp below
        obtain ⟨others, visits⟩ := ih (bound :: expanding)
        exact ⟨others, .entered .binder visits⟩
      | _ => cases kind

/-- Where a walk that goes through visits a closed descriptor, that descriptor stands in the result. -/
theorem closed_at_place (closes : group.closeType raw = .ok closed) {other : Group}
    (whole : other.closeType d = .ok result) (visits : other.Visits [] d expanding closed) :
    result.Contains closed := by
  obtain ⟨walked, ran, _, rfl⟩ := walk_of_close whole
  obtain ⟨part, there, inside⟩ := walk_at_place ran visits
  rw [walk_closed closes other expanding] at there
  cases there
  exact inside

/-- What a group has closed, every group closes to itself, and so does each of its walks, whatever it
is expanding. A closed descriptor therefore stands unchanged in whatever closes from a descriptor that
contains it, or expands a body that does. -/
theorem closed_descriptors_stay (closes : group.closeType raw = .ok closed) (other : Group) :
    other.closeType closed = .ok closed ∧
      (∀ expanding, other.walk expanding closed = .ok (.closed closed)) ∧
      ∀ d whole, other.closeType d = .ok whole →
        (d.Contains closed → whole.Contains closed) ∧
        ∀ expanding symbol body, other.Visits [] d expanding (.reference symbol) →
          symbol ∉ expanding → other.body? symbol = some body → body.Contains closed →
            whole.Contains closed := by
  refine ⟨close_of_walk (walk_closed closes other []), walk_closed closes other, ?_⟩
  intro d result whole
  constructor
  · intro inside
    obtain ⟨_, visits⟩ := other.visits_of_contains inside []
    exact closed_at_place closes whole visits
  · intro expanding symbol body visits fresh found inside
    obtain ⟨_, deeper⟩ := other.visits_of_contains inside (symbol :: expanding)
    exact closed_at_place closes whole (visits.trans (.entered (.reference fresh found) deeper))

/-- A closed descriptor that binds one symbol twice on a path, in a group that binds the same symbol
to something else. -/
theorem rebound_symbol_is_not_expanded :
    let a : Symbol := ⟨0, "a"⟩
    let pair : Symbol := ⟨1, "pair"⟩
    let inner : Descriptor := .recursive a (.array (.reference a))
    let closed : Descriptor := .recursive a (.array (.union [.reference a, .tuple [inner]]))
    let body : Descriptor := .tuple [closed, .union [.reference pair, .reference a]]
    let other : Group := ⟨[(a, .primitive .null), (pair, body)]⟩
    let whole : Descriptor :=
      .recursive pair (.tuple [closed, .union [.reference pair, .primitive .null]])
    Group.empty.closeType closed = .ok closed ∧ other.closeType closed = .ok closed ∧
      other.close pair = .ok whole ∧ whole.Contains closed := by
  intro a pair inner closed body other whole
  have closes : Group.empty.closeType closed = .ok closed := by cbv
  have closesPair : other.close pair = .ok whole := by cbv
  obtain ⟨again, _, embedded⟩ := closed_descriptors_stay closes other
  have inside : body.Contains closed := .child List.mem_cons_self .self
  have stays := (embedded _ whole closesPair).2 [] pair body .here List.not_mem_nil rfl inside
  exact ⟨closes, again, closesPair, stays⟩

end Group
end Readings
