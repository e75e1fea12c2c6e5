import Readings.Proofs.Cast.Scoping
import Readings.Proofs.Closure.Placement

/-!
A cast of a closed descriptor answers, as long as no body that leaves a symbol free binds that
symbol again further in. References are then looked up as if the scope held the enclosing binders
only: what lies above the frame that a cast jumps to may be dropped (`Chain.agree`). On one input
value a cast goes down through unions, intersections, maps and binders, and jumps out at references.
Closing has refused unguarded binders, so that no binder entered or jumped to on this value is
exposed, and every jump leads further out. Between two jumps the descriptor shrinks, at a container
the value does, and `depthLeft` counts all three.
-/
namespace Readings
namespace Descriptor

/-- No binder has its symbol below it with neither a container nor a binder of the same symbol in
between. -/
def Guarded (d : Descriptor) : Prop :=
  d.EachBinder fun symbol body => ¬ body.OccursFree transparent symbol

/-- What a binder leaves free is bound nowhere in its body. -/
def Unshadowed (d : Descriptor) : Prop :=
  d.EachBinder fun symbol body =>
    body.EachBinder fun inner _ => ¬ Frees (.recursive symbol body) inner

/-- Where nothing is bound twice on a path, the symbols bound further out are not bound again. -/
theorem unshadowed_of_binds_once {d : Descriptor} (once : d.BindsOnce) (spares : d.Spares symbols)
    (known : ∀ free, d.Frees free → free ∈ symbols) : d.Unshadowed := by
  induction d using child_induction generalizing symbols with
  | node d ih =>
    cases kind : d.plain with
    | true =>
      exact each_binder_plain kind fun child below =>
        ih child below (once.child below) (spares.child below) fun free captured =>
          known free (.child kind rfl below captured)
    | false =>
      cases d with
      | reference => exact each_binder_of_binders rfl
      | recursive bound body =>
        have below : body ∈ (Descriptor.recursive bound body).children :=
          List.mem_singleton_self body
        refine each_binder_recursive (fun inner shape inside free => ?_) ?_
        · exact spares inner shape (.child below inside) (known inner free)
        · refine ih body below (once.child below) (once.under spares) fun free captured => ?_
          exact List.mem_cons.mpr ((captured.out_of_binder bound).imp_right (known free))
      | _ => cases kind

/-! ## Depth -/

/-- How deep a cast can still go: a square for every level of the value, and on this level as many
jumps as there are binders further out, each into a descriptor no larger than the whole. -/
def depthLeft (whole : Descriptor) (jumps : Nat) (d : Descriptor) (actual : Value) : Nat :=
  actual.height * ((whole.size + 1) * (whole.size + 1)) + jumps * (whole.size + 1) + d.size

theorem depth_down {child d : Descriptor} (whole : Descriptor) (jumps : Nat) (actual : Value)
    (smaller : child.size < d.size) :
    depthLeft whole jumps child actual < depthLeft whole jumps d actual :=
  Nat.add_lt_add_left smaller _

private theorem square (whole : Descriptor) :
    (whole.size + 1) * (whole.size + 1) = whole.size * (whole.size + 1) + (whole.size + 1) :=
  Nat.add_one_mul ..

/-- On a lower value the cast may jump again as often as there are binders around it. -/
theorem depth_lower {child : Descriptor} {lower actual : Value} (jumps : Nat) (d : Descriptor)
    (room : again + child.size ≤ whole.size) (less : lower.height < actual.height) :
    depthLeft whole again child lower < depthLeft whole jumps d actual := by
  have level : lower.height * ((whole.size + 1) * (whole.size + 1)) +
      (whole.size + 1) * (whole.size + 1) ≤
        actual.height * ((whole.size + 1) * (whole.size + 1)) := by
    rw [← Nat.add_one_mul]
    exact Nat.mul_le_mul_right _ less
  have all : again * (whole.size + 1) ≤ whole.size * (whole.size + 1) :=
    Nat.mul_le_mul_right _ (by omega)
  have parts := square whole
  unfold depthLeft
  omega

/-- A jump outwards leaves fewer jumps. -/
theorem depth_jump (symbol : Symbol) (actual : Value) (outwards : left < jumps)
    (small : body.size ≤ whole.size) :
    depthLeft whole left body actual < depthLeft whole jumps (.reference symbol) actual := by
  have used : left * (whole.size + 1) + (whole.size + 1) ≤ jumps * (whole.size + 1) := by
    rw [← Nat.add_one_mul]
    exact Nat.mul_le_mul_right _ outwards
  unfold depthLeft
  omega

/-- The budget of a cast is enough to start with. -/
theorem depth_left_le_budget (whole : Descriptor) (actual : Value) :
    depthLeft whole 0 whole actual ≤ castBudget whole actual := by
  have parts := square whole
  simp only [depthLeft, castBudget]
  rw [Nat.add_mul actual.height 2, Nat.two_mul]
  omega

end Descriptor

/-! ## Enclosing binders -/

/-- A descriptor in the whole, under the binders that the scope holds. -/
structure Enclosed (whole : Descriptor) (scope : Scope) (d : Descriptor) : Prop where
  inside : whole.Contains d
  around : ∀ frame ∈ scope, frame.2.Contains d
  covered : d.CoveredBy scope
  room : scope.length + d.size ≤ whole.size

theorem Enclosed.child {d child : Descriptor} (enclosed : Enclosed whole scope d)
    (plain : d.plain = true) (below : child ∈ d.children) : Enclosed whole scope child where
  inside := enclosed.inside.trans (.child below .self)
  around frame listed := (enclosed.around frame listed).trans (.child below .self)
  covered := enclosed.covered.child plain below
  room := by
    have smaller := Descriptor.size_child_lt below
    have room := enclosed.room
    omega

theorem Enclosed.under (enclosed : Enclosed whole scope (.recursive symbol body)) :
    Enclosed whole ((symbol, body) :: scope) body where
  inside := enclosed.inside.trans (.child (List.mem_singleton_self _) .self)
  around := List.forall_mem_cons.mpr ⟨.self, fun frame listed =>
    (enclosed.around frame listed).trans (.child (List.mem_singleton_self _) .self)⟩
  covered := enclosed.covered.under
  room := by
    have room := enclosed.room
    simp only [Descriptor.size, List.length_cons] at room ⊢
    omega

/-- A scope that holds nothing but nested binders of the whole, the innermost one first. -/
inductive Chain (whole : Descriptor) : Scope → Prop where
  | nil : Chain whole []
  | link (outer : Chain whole scope) (enclosed : Enclosed whole scope (.recursive symbol body)) :
      Chain whole ((symbol, body) :: scope)

namespace Chain

theorem inside (chain : Chain whole scope) (listed : (symbol, body) ∈ scope) :
    whole.Contains (.recursive symbol body) := by
  induction chain with
  | nil => cases listed
  | link _ enclosed ih =>
    rcases List.mem_cons.mp listed with same | listed
    · cases same
      exact enclosed.inside
    · exact ih listed

/-- The scope of a frame, and what stands there. -/
theorem frame (chain : Chain whole (above ++ (symbol, body) :: scope)) :
    Chain whole scope ∧ Enclosed whole scope (.recursive symbol body) := by
  induction above with
  | nil =>
    cases chain with
    | link outer enclosed => exact ⟨outer, enclosed⟩
  | cons _ _ ih =>
    cases chain with
    | link outer _ => exact ih outer

/-- No frame further in binds what a binder leaves free. -/
theorem apart (unshadowed : whole.Unshadowed) (chain : Chain whole (above ++ scope))
    (listed : (symbol, body) ∈ scope) (free : Descriptor.Frees (.recursive symbol body) other) :
    above.lookup other = none := by
  induction above with
  | nil => rfl
  | cons frame above ih =>
    cases chain with
    | @link _ inner shape outer enclosed =>
      have member : (symbol, body) ∈ above ++ scope := List.mem_append_right _ listed
      have different : other ≠ inner := by
        rintro rfl
        exact unshadowed symbol body (outer.inside member) other shape
          (enclosed.around _ member) free
      rw [lookup_other above different]
      exact ih outer

/-- The frames further in make no difference to what can be reached from further out. -/
theorem agree (unshadowed : whole.Unshadowed) (chain : Chain whole (above ++ scope)) :
    Agree (fun symbol => above.lookup symbol = none) (above ++ scope) scope where
  same symbol outside := lookup_past outside
  onward symbol body outside found free captured := by
    rw [lookup_past outside] at found
    obtain ⟨_, _, rfl, _⟩ := List.lookup_eq_some_iff.mp found
    rcases captured.out_of_binder symbol with rfl | free
    · exact outside
    · exact chain.apart unshadowed (List.mem_append_right _ List.mem_cons_self) free

/-- A jump past some frames lands at a binder further out, and what it does there does not depend on
the frames that it has passed. -/
theorem jump (unshadowed : whole.Unshadowed) (chain : Chain whole (entered ++ outer))
    (outside : entered.lookup symbol = none)
    (bound : (entered ++ outer).lookup symbol = some body) :
    ∃ further, further.length < outer.length ∧ Chain whole further ∧
      Enclosed whole further (.recursive symbol body) ∧
      ∀ budget actual, castWithin budget (entered ++ outer) body actual =
        castWithin budget ((symbol, body) :: further) body actual := by
  rw [lookup_past outside] at bound
  obtain ⟨passed, further, rfl, skipped⟩ := List.lookup_eq_some_iff.mp bound
  have split : entered ++ (passed ++ (symbol, body) :: further) =
      (entered ++ passed) ++ (symbol, body) :: further := (List.append_assoc ..).symm
  rw [split] at chain ⊢
  obtain ⟨rest, landed⟩ := chain.frame
  have shorter : further.length < (passed ++ (symbol, body) :: further).length := by
    rw [List.length_append, List.length_cons]
    omega
  have unseen : ∀ free, body.Frees free → (entered ++ passed).lookup free = none := by
    intro free captured
    rcases captured.out_of_binder symbol with rfl | free
    · rw [lookup_past outside]
      exact List.lookup_eq_none_iff.mpr skipped
    · exact chain.apart unshadowed List.mem_cons_self free
  exact ⟨further, shorter, rest, landed, fun _ => cast_agrees (chain.agree unshadowed) unseen⟩

end Chain

/-- Entering a guarded binder leaves exposed only what was so before. -/
private theorem unexposed_under
    (guarded : ¬ Descriptor.OccursFree Descriptor.transparent body bound)
    (unexposed : ∀ symbol, Descriptor.OccursFree Descriptor.transparent (.recursive bound body)
      symbol → List.lookup symbol entered = none) :
    ∀ symbol, body.OccursFree Descriptor.transparent symbol →
      List.lookup symbol ((bound, body) :: entered) = none := by
  intro symbol exposed
  have other : symbol ≠ bound := by
    rintro rfl
    exact guarded exposed
  rw [lookup_other entered other]
  exact unexposed symbol (.binder other.symm exposed)

/-! ## Answers -/

/-- As long as there is depth left, the cast goes on to an answer. The frames of `entered` are those
of the present value, and nothing that they bind is exposed. -/
theorem cast_answers (guarded : whole.Guarded) (unshadowed : whole.Unshadowed)
    (chain : Chain whole (entered ++ outer)) (enclosed : Enclosed whole (entered ++ outer) d)
    (unexposed : ∀ symbol, d.OccursFree Descriptor.transparent symbol →
      entered.lookup symbol = none)
    (enough : Descriptor.depthLeft whole outer.length d actual ≤ budget) :
    ∃ outcome, castWithin budget (entered ++ outer) d actual = some outcome := by
  induction budget generalizing entered outer d actual with
  | zero =>
    have here : 0 < Descriptor.depthLeft whole outer.length d actual := by
      rw [Descriptor.depthLeft, d.size_children]
      omega
    omega
  | succ budget deeper =>
    cases kind : d.plain with
    | true =>
      have each : ∀ part ∈ d.parts actual,
          ∃ outcome, castWithin budget (entered ++ outer) part.1 part.2 = some outcome := by
        intro part listed
        obtain ⟨below, ⟨passes, here⟩ | lower⟩ := Descriptor.part_descends listed
        · have less :=
            Descriptor.depth_down whole outer.length actual (Descriptor.size_child_lt below)
          rw [here]
          exact deeper chain (enclosed.child kind below)
            (fun symbol exposed => unexposed symbol (.child kind passes below exposed))
            (Nat.le_of_lt_succ (less.trans_le enough))
        · -- on a lower value every frame may be jumped to again
          have enclosed := enclosed.child kind below
          have less := Descriptor.depth_lower outer.length d enclosed.room lower
          have fresh : Chain whole ([] ++ (entered ++ outer)) := chain
          have answers := deeper fresh enclosed (fun _ _ => rfl)
            (Nat.le_of_lt_succ (less.trans_le enough))
          exact answers
      obtain ⟨outcomes, ran⟩ := related_of_each each
      exact ⟨_, (cast_plain_iff kind).mpr ⟨outcomes, ran, rfl⟩⟩
    | false =>
      cases d with
      | reference symbol =>
        have outside := unexposed symbol .reference
        obtain ⟨body, bound⟩ := enclosed.covered symbol .reference
        obtain ⟨further, outwards, rest, landed, same⟩ := chain.jump unshadowed outside bound
        have guard := guarded symbol body landed.inside
        have small : body.size ≤ whole.size := (Nat.le_add_left ..).trans landed.under.room
        have less := Descriptor.depth_jump symbol actual outwards small
        -- without the frames that were passed, what is left is again a chain around the body
        have link : Chain whole ([(symbol, body)] ++ further) := .link rest landed
        rw [cast_bound bound, same]
        exact deeper link landed.under (unexposed_under guard fun _ _ => rfl)
          (Nat.le_of_lt_succ (less.trans_le enough))
      | recursive symbol body =>
        have less := Descriptor.depth_down whole outer.length actual
          (Descriptor.size_child_lt (d := .recursive symbol body) (List.mem_singleton_self body))
        have guard := guarded symbol body enclosed.inside
        have link : Chain whole (((symbol, body) :: entered) ++ outer) := .link chain enclosed
        rw [cast_recursive]
        exact deeper link enclosed.under (unexposed_under guard unexposed)
          (Nat.le_of_lt_succ (less.trans_le enough))
      | _ => cases kind

/-! ## Closed descriptors -/

theorem guarded_of_close {group : Group} (closes : group.closeType raw = .ok closed) :
    closed.Guarded := by
  obtain ⟨walked, ran, _, rfl⟩ := Group.walk_of_close closes
  exact fun symbol body inside => (Group.binder_captures ran symbol body inside).2

/-- Closing makes no shadowed body over bodies without binders, from a descriptor that binds nothing
twice on a path. -/
theorem unshadowed_of_close {group : Group} (bodies : group.BinderFree) (once : raw.BindsOnce)
    (closes : group.closeType raw = .ok closed) : closed.Unshadowed := by
  have closed_off := frees_nothing_of_close closes
  obtain ⟨walked, ran, _, rfl⟩ := Group.walk_of_close closes
  obtain ⟨once, spares⟩ :=
    Group.walk_binds_once bodies ran once fun _ _ _ => List.not_mem_nil
  exact Descriptor.unshadowed_of_binds_once once spares
    fun free captured => absurd captured (closed_off free)

/-- Every value has an answer against a closed descriptor without shadowed bodies, at every depth
from its budget on. -/
theorem answers_of_close {group : Group} (closes : group.closeType raw = .ok closed)
    (unshadowed : closed.Unshadowed) (actual : Value) :
    ∃ outcome, ∀ budget, castBudget closed actual ≤ budget →
      castWithin budget [] closed actual = some outcome := by
  have enclosed : Enclosed closed ([] ++ []) closed :=
    ⟨.self, fun _ listed => (nomatch listed),
      fun free captured => absurd captured (frees_nothing_of_close closes free),
      Nat.le_of_eq (Nat.zero_add _)⟩
  obtain ⟨outcome, ran⟩ := cast_answers (guarded_of_close closes) unshadowed .nil enclosed
    (fun _ _ => rfl) (Descriptor.depth_left_le_budget closed actual)
  exact ⟨outcome, fun budget more => cast_mono ran more⟩

/-- Every value has an answer against a descriptor closed from parts without binders. -/
theorem close_type_total {group : Group} (bodies : group.BinderFree) (free : raw.binders = 0)
    (closes : group.closeType raw = .ok closed) (actual : Value) :
    ∃ outcome, ∀ budget, castBudget closed actual ≤ budget →
      castWithin budget [] closed actual = some outcome :=
  answers_of_close closes
    (unshadowed_of_close bodies (Descriptor.each_binder_of_binders free) closes) actual

end Readings
