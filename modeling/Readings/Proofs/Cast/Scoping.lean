import Readings.Proofs.Cast.Parts
import Readings.Proofs.Closure.FreeSymbols

/-!
What a cast finds in its scope. A reference is looked up where the cast stands and not where it is
written, so that below a jump the scope may hold bodies that no binder around the text has put
there, and several of one symbol. Two things hold all the same. A scope that answers what its bodies
leave free goes on doing so, whatever is shadowed on the way down; a closed descriptor therefore
never meets an unbound reference (`cast_never_unbound`). And a cast reads its scope at the free
references only, those of the descriptor and of the bodies that they lead to (`cast_agrees`).
-/
namespace Readings

theorem lookup_own (scope : Scope) : ((symbol, body) :: scope).lookup symbol = some body := by
  rw [List.lookup_cons, BEq.rfl]

theorem lookup_other (scope : Scope) (other : symbol ≠ bound) :
    ((bound, body) :: scope).lookup symbol = scope.lookup symbol := by
  rw [List.lookup_cons, beq_eq_false_iff_ne.mpr other]

/-- What a scope with a new frame finds is the frame, or what it found before. -/
theorem lookup_frame {scope : Scope} (found : ((bound, body) :: scope).lookup symbol = some shape) :
    symbol = bound ∧ shape = body ∨ symbol ≠ bound ∧ scope.lookup symbol = some shape := by
  by_cases own : symbol = bound
  · subst own
    rw [lookup_own] at found
    exact .inl ⟨rfl, (Option.some.inj found).symm⟩
  · rw [lookup_other scope own] at found
    exact .inr ⟨own, found⟩

/-- What holds of the bodies in scope and of the body of a new frame holds of all that is found. -/
theorem lookup_under {Q : Descriptor → Prop} {scope : Scope} (own : Q body)
    (bodies : ∀ symbol shape, scope.lookup symbol = some shape → Q shape) :
    ∀ symbol shape, ((bound, body) :: scope).lookup symbol = some shape → Q shape := by
  intro symbol shape found
  rcases lookup_frame found with ⟨_, rfl⟩ | ⟨_, found⟩
  · exact own
  · exact bodies symbol shape found

/-- Frames that do not bind the symbol are passed over. -/
theorem lookup_past {entered outer : Scope} (outside : entered.lookup symbol = none) :
    (entered ++ outer).lookup symbol = outer.lookup symbol := by
  rw [List.lookup_append, outside, Option.none_or]

namespace Descriptor

/-- The scope answers every symbol that a descriptor leaves free. -/
def CoveredBy (d : Descriptor) (scope : Scope) : Prop :=
  ∀ symbol, d.Frees symbol → ∃ body, scope.lookup symbol = some body

theorem CoveredBy.child {d child : Descriptor} (covered : d.CoveredBy scope)
    (plain : d.plain = true) (below : child ∈ d.children) : child.CoveredBy scope :=
  fun symbol inside => covered symbol (.child plain rfl below inside)

/-- A larger scope covers as much. -/
theorem CoveredBy.grown {d : Descriptor} (covered : d.CoveredBy scope) :
    d.CoveredBy ((bound, shape) :: scope) := by
  intro symbol inside
  by_cases own : symbol = bound
  · subst own
    exact ⟨shape, lookup_own scope⟩
  · rw [lookup_other scope own]
    exact covered symbol inside

/-- Under its binder, a body is covered where the binder was. -/
theorem CoveredBy.under (covered : CoveredBy (.recursive bound body) scope) :
    body.CoveredBy ((bound, shape) :: scope) := by
  intro symbol inside
  rcases inside.out_of_binder bound with rfl | inside
  · exact ⟨shape, lookup_own scope⟩
  · exact covered.grown symbol inside

end Descriptor

/-- A scope that answers whatever its own bodies leave free. -/
def SelfCovering (scope : Scope) : Prop :=
  ∀ symbol body, scope.lookup symbol = some body → body.CoveredBy scope

/-- Entering a covered binder keeps a scope self-covering, whatever the binder shadows. -/
theorem SelfCovering.under (kept : SelfCovering scope)
    (covered : Descriptor.CoveredBy (.recursive bound body) scope) :
    SelfCovering ((bound, body) :: scope) := by
  intro symbol shape listed
  rcases lookup_frame listed with ⟨rfl, rfl⟩ | ⟨_, listed⟩
  · exact covered.under
  · exact (kept symbol shape listed).grown

theorem self_covering_nothing : SelfCovering [] := fun _ _ found => nomatch found

/-! ## Unbound references -/

/-- Putting a node around the trees of its parts adds no unbound reference. -/
theorem Outcome.MadeOf.unbound (made : Outcome.MadeOf outcomes tree)
    (inside : Outcome.Inside (.unbound symbol) tree) :
    ∃ part ∈ outcomes, Outcome.Inside (.unbound symbol) part := by
  cases made with
  | success => cases inside
  | mismatch listed =>
    cases inside with
    | part member inside => exact ⟨_, listed _ _ member, inside⟩
  | kept listed => exact ⟨_, listed, inside⟩

/-- Where the scope covers the descriptor and its own bodies, no node of an answer's tree is an
unbound reference. -/
theorem cast_never_unbound (kept : SelfCovering scope) (covered : d.CoveredBy scope)
    (ran : castWithin budget scope d actual = some outcome) :
    ¬ Outcome.Inside (.unbound symbol) outcome := by
  intro inside
  induction budget generalizing scope d actual outcome with
  | zero => cases ran
  | succ budget ih =>
    cases kind : d.plain with
    | true =>
      obtain ⟨outcomes, below, rfl⟩ := (cast_plain_iff kind).mp ran
      obtain ⟨part, listed, inside⟩ := (Outcome.assemble_made_of kind below).unbound inside
      obtain ⟨asked, asks, ran⟩ := partner_of_right below listed
      obtain ⟨child, _⟩ := Descriptor.part_descends asks
      exact ih kept (covered.child kind child) ran inside
    | false =>
      cases d with
      | reference symbol =>
        obtain ⟨body, bound⟩ := covered symbol .reference
        rw [cast_bound bound] at ran
        exact ih kept (kept symbol body bound) ran inside
      | recursive symbol body => exact ih (kept.under covered) covered.under ran inside
      | _ => cases kind

/-! ## What a scope is read for -/

/-- Two scopes hold the same bodies of the symbols that matter, and what such a body leaves free
matters too. -/
structure Agree (matters : Symbol → Prop) (scope other : Scope) : Prop where
  same : ∀ symbol, matters symbol → scope.lookup symbol = other.lookup symbol
  onward : ∀ symbol body, matters symbol → scope.lookup symbol = some body →
    ∀ free, body.Frees free → matters free

theorem Agree.under (agree : Agree matters scope other)
    (inside : ∀ free, Descriptor.Frees (.recursive bound body) free → matters free) :
    Agree (fun symbol => symbol = bound ∨ matters symbol) ((bound, body) :: scope)
      ((bound, body) :: other) where
  same symbol matter := by
    by_cases own : symbol = bound
    · subst own
      rw [lookup_own, lookup_own]
    · rw [lookup_other scope own, lookup_other other own]
      exact agree.same symbol (matter.resolve_left own)
  onward symbol shape matter listed free captured := by
    rcases lookup_frame listed with ⟨rfl, rfl⟩ | ⟨own, listed⟩
    · exact (captured.out_of_binder symbol).imp_right (inside free)
    · exact .inr (agree.onward symbol shape (matter.resolve_left own) listed free captured)

/-- A cast comes to the same at every depth in scopes that agree on what the descriptor leaves
free. -/
theorem cast_agrees (agree : Agree matters scope other)
    (inside : ∀ free, d.Frees free → matters free) (actual : Value) :
    castWithin budget scope d actual = castWithin budget other d actual := by
  induction budget generalizing matters scope other d actual with
  | zero => rfl
  | succ budget ih =>
    cases kind : d.plain with
    | true =>
      have alike : List.Forall₂ (fun child shape => ∀ actual, castWithin budget scope child actual =
          castWithin budget other shape actual) d.children d.children :=
        List.forall₂_same.mpr fun child below => ih agree fun free captured =>
          inside free (.child kind rfl below captured)
      rw [cast_plain_congr kind alike, d.with_children_self]
    | false =>
      cases d with
      | reference symbol =>
        have matter := inside symbol .reference
        have same := agree.same symbol matter
        cases bound : scope.lookup symbol with
        | none => rw [cast_unbound bound, cast_unbound (same.symm.trans bound)]
        | some body =>
          rw [cast_bound bound, cast_bound (same.symm.trans bound)]
          exact ih agree (agree.onward symbol body matter bound) actual
      | recursive symbol body =>
        rw [cast_recursive, cast_recursive]
        exact ih (agree.under inside)
          (fun free captured => (captured.out_of_binder symbol).imp_right (inside free)) actual
      | _ => cases kind

/-! ## Closed descriptors -/

/-- A closed descriptor leaves nothing free. -/
theorem frees_nothing_of_close {group : Group} (closes : group.closeType d = .ok closed)
    (symbol : Symbol) : ¬ closed.Frees symbol := by
  obtain ⟨walked, ran, none, rfl⟩ := Group.walk_of_close closes
  rw [← Group.mem_free_iff ran, none]
  exact List.not_mem_nil

/-- A closed descriptor has no free reference, and no answer of a cast against it, whatever the
depth, holds an unbound reference at any place of its tree. -/
theorem close_type_never_unbound {group : Group} (closes : group.closeType d = .ok closed) :
    (∀ symbol, ¬ closed.Frees symbol) ∧
      ∀ budget actual outcome, castWithin budget [] closed actual = some outcome →
        ∀ symbol, ¬ Outcome.Inside (.unbound symbol) outcome := by
  have closed_off := frees_nothing_of_close closes
  refine ⟨closed_off, fun budget actual outcome ran symbol => ?_⟩
  exact cast_never_unbound self_covering_nothing
    (fun free captured => absurd captured (closed_off free)) ran

/-- A symbol bound twice on one path: the inner binder shadows the outer one where its body jumps
out to the symbol between them, and still nothing in the tree of the failure is unbound. -/
theorem shadowing_leaves_nothing_unbound :
    let a : Symbol := ⟨0, "a"⟩
    let b : Symbol := ⟨1, "b"⟩
    let closed : Descriptor := .recursive a (.array (.recursive b (.union
      [.reference a, .array (.recursive a (.array (.union [.reference a, .reference b])))])))
    let one : Value := .array [.null]
    let two : Value := .array [one]
    let items (below : Outcome) (actual : Value) : Outcome :=
      .mismatch .array [(.item 0, below)] actual
    let either (first second : Outcome) (actual : Value) : Outcome :=
      .mismatch .union [(.variant 0, first), (.variant 1, second)] actual
    let refused : Outcome := .mismatch .array [] .null
    let both : Outcome := either refused refused .null
    let outcome : Outcome := items (either
      (items (either (items both one) (items refused one) one) two)
      (items (items (either refused both .null) one) two) two) (.array [two])
    Group.empty.closeType closed = .ok closed ∧ ¬ closed.Frees b ∧
      castWithin 20 [] closed (.array [two]) = some outcome ∧
      ¬ Outcome.Inside (.unbound a) outcome := by
  intro a b closed one two items either refused both outcome
  have closes : Group.empty.closeType closed = .ok closed := by cbv
  obtain ⟨closed_off, bound⟩ := close_type_never_unbound closes
  have ran : castWithin 20 [] closed (.array [two]) = some outcome := rfl
  exact ⟨closes, closed_off b, ran, bound 20 _ outcome ran a⟩

end Readings
