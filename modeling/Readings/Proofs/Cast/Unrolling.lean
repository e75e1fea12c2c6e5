import Readings.Proofs.Closure.Meaning
import Readings.Proofs.Descriptor.Binders

/-!
A binder stands for its own unrolling. The interpreter never writes a body in place of a reference:
it puts the body into the scope and jumps back to it. Textual unrolling does write it, and so brings
the binders of the body below themselves. Both come to the same at every depth, since a scope on the
one side mirrors the scope on the other (`Mirrors`): the bodies in it are the same but for the
replacement, and where the text has the binder again, the scope has its body. All that has to be
asked of the body is that it does not bind the symbol a second time.
-/
namespace Readings
namespace Descriptor

/-- The descriptor with an image in place of every reference to a symbol that no binder for it
captures. What the image leaves free may be captured where it comes to stand. -/
def replace (symbol : Symbol) : (d : Descriptor) → (image : Descriptor) → Descriptor
  | .reference other, image => if other = symbol then image else .reference other
  | .recursive bound body, image =>
    if bound = symbol then .recursive bound body
    else .recursive bound (body.replace symbol image)
  | d, image => d.withChildren (d.children.attach.map fun child => child.1.replace symbol image)
termination_by d => d.size
decreasing_by
  · exact size_child_lt (d := .recursive bound body) (List.mem_singleton_self _)
  · exact size_child_lt child.2

theorem replace_plain {d : Descriptor} (plain : d.plain = true) (symbol : Symbol)
    (image : Descriptor) :
    d.replace symbol image = d.withChildren (d.children.map (replace symbol · image)) := by
  rw [replace]
  · rw [List.map_subtype (g := (replace symbol · image)) fun _ _ => rfl, List.unattach_attach]
  · rintro other rfl
    cases plain
  · rintro bound body rfl
    cases plain

theorem replace_own : replace symbol (.reference symbol) image = image := by
  rw [replace, if_pos rfl]

theorem replace_other (other : free ≠ symbol) :
    replace symbol (.reference free) image = .reference free := by
  rw [replace, if_neg other]

theorem replace_binder (other : bound ≠ symbol) :
    replace symbol (.recursive bound body) image =
      .recursive bound (body.replace symbol image) := by
  rw [replace, if_neg other]

/-- A part of the body of a binder, below further binders for the known symbols. -/
structure PartOf (symbol : Symbol) (known : List Symbol) (d : Descriptor) : Prop where
  frees : ∀ free, d.Frees free → free = symbol ∨ free ∈ known
  spares : d.Spares [symbol]

namespace PartOf

theorem child {d child : Descriptor} (part : PartOf symbol known d) (plain : d.plain = true)
    (below : child ∈ d.children) : PartOf symbol known child where
  frees free captured := part.frees free (.child plain rfl below captured)
  spares := part.spares.child below

theorem other (part : PartOf symbol known (.recursive bound body)) : bound ≠ symbol :=
  fun same => part.spares bound body .self (List.mem_singleton.mpr same)

theorem under (part : PartOf symbol known (.recursive bound body)) :
    PartOf symbol (bound :: known) body where
  frees free captured := by
    rcases captured.out_of_binder bound with rfl | captured
    · exact .inr List.mem_cons_self
    · exact (part.frees free captured).imp_right (List.mem_cons_of_mem _)
  spares := part.spares.child (List.mem_singleton_self _)

theorem more {d : Descriptor} (part : PartOf symbol known d) :
    PartOf symbol (bound :: known) d where
  frees free captured := (part.frees free captured).imp_right (List.mem_cons_of_mem _)
  spares := part.spares

end PartOf

end Descriptor

open Descriptor

/-- Two scopes beside each other: the first has the body of the binder that the second has in its
text, and the bodies of all other known symbols are the same up to that. -/
structure Mirrors (symbol : Symbol) (body : Descriptor) (known : List Symbol)
    (scope other : Scope) : Prop where
  own : scope.lookup symbol = some body
  apart : symbol ∉ known
  each : ∀ free ∈ known, ∃ shape, PartOf symbol known shape ∧ scope.lookup free = some shape ∧
    other.lookup free = some (shape.replace symbol (.recursive symbol body))

theorem Mirrors.under (mirrors : Mirrors symbol body known scope other)
    (part : PartOf symbol known (.recursive bound shape)) :
    Mirrors symbol body (bound :: known) ((bound, shape) :: scope)
      ((bound, shape.replace symbol (.recursive symbol body)) :: other) where
  own := by rw [lookup_other scope part.other.symm, mirrors.own]
  apart := List.not_mem_cons_of_ne_of_not_mem part.other.symm mirrors.apart
  each free listed := by
    by_cases same : free = bound
    · subst same
      exact ⟨shape, part.under, lookup_own scope, lookup_own other⟩
    · obtain ⟨shape, within, left, right⟩ :=
        mirrors.each free ((List.mem_cons.mp listed).resolve_left same)
      refine ⟨shape, within.more, ?_, ?_⟩
      · rw [lookup_other scope same, left]
      · rw [lookup_other other same, right]

/-- Beside each other, a part of the body and its unrolled form come to the same at every depth. -/
theorem cast_mirrored (whole : PartOf symbol [] body)
    (mirrors : Mirrors symbol body known scope other) (part : PartOf symbol known d)
    (actual : Value) :
    castWithin budget scope d actual =
      castWithin budget other (d.replace symbol (.recursive symbol body)) actual := by
  induction budget generalizing known scope other d actual with
  | zero => rfl
  | succ budget ih =>
    cases kind : d.plain with
    | true =>
      rw [replace_plain kind]
      refine cast_plain_congr kind (List.forall₂_map_right_iff.mpr ?_) actual
      exact List.forall₂_same.mpr fun child below => ih mirrors (part.child kind below)
    | false =>
      cases d with
      | reference free =>
        rcases part.frees free .reference with rfl | listed
        · -- one side jumps to the body in scope, the other enters the binder in its text
          rw [replace_own, cast_bound mirrors.own, cast_recursive]
          have reads (inner : Symbol) (captured : body.Frees inner) : inner = free :=
            (whole.frees inner captured).resolve_right List.not_mem_nil
          have agree : Agree (· = free) scope ((free, body) :: other) := by
            refine ⟨?_, ?_⟩
            · rintro _ rfl
              rw [mirrors.own, lookup_own]
            · rintro _ shape rfl found
              obtain rfl := Option.some.inj (mirrors.own.symm.trans found)
              exact reads
          exact cast_agrees agree reads actual
        · obtain ⟨shape, within, left, right⟩ := mirrors.each free listed
          have apart : free ≠ symbol := fun same => mirrors.apart (same ▸ listed)
          rw [replace_other apart, cast_bound left, cast_bound right]
          exact ih mirrors within actual
      | recursive bound inner =>
        rw [replace_binder part.other, cast_recursive, cast_recursive]
        exact ih (mirrors.under part) part.under actual
      | _ => cases kind

/-- Casting against a closed binder, in which no binder stands inside another one of its symbol, and
casting against its body with the binder in place of every reference to it: one returns exactly if
the other does, with the same outcome down to the last node, and the first goes one step deeper. -/
theorem cast_unrolls_binder (closed : ∀ free, ¬ Frees (.recursive symbol body) free)
    (once : BindsOnce (.recursive symbol body)) (actual : Value) :
    (∀ budget, castWithin (budget + 1) [] (.recursive symbol body) actual =
      castWithin budget [] (body.replace symbol (.recursive symbol body)) actual) ∧
    ∀ outcome, Answers [] (.recursive symbol body) actual outcome ↔
      Answers [] (body.replace symbol (.recursive symbol body)) actual outcome := by
  have whole : PartOf symbol [] body :=
    ⟨fun free captured => (captured.out_of_binder symbol).imp_right (absurd · (closed free)),
      once symbol body .self⟩
  have mirrors : Mirrors symbol body [] [(symbol, body)] [] :=
    ⟨lookup_own [], List.not_mem_nil, fun _ listed => nomatch listed⟩
  have deeper (budget : Nat) : castWithin (budget + 1) [] (.recursive symbol body) actual =
      castWithin budget [] (body.replace symbol (.recursive symbol body)) actual :=
    cast_mirrored whole mirrors whole actual
  refine ⟨deeper, fun outcome => ⟨?_, ?_⟩⟩
  · rintro ⟨depth, ran⟩
    exact answers_of_ran ((deeper depth).symm.trans (ran (depth + 1) (Nat.le_succ depth)))
  · rintro ⟨depth, ran⟩
    exact answers_of_ran ((deeper depth).trans (ran depth (Nat.le_refl depth)))

/-- Unrolling the outer of two binders repeats the inner one below itself. An array in an array in an
array is read twice either way. -/
theorem outer_binder_unrolls :
    let outer : Symbol := ⟨0, "outer"⟩
    let inner : Symbol := ⟨1, "inner"⟩
    let within (d : Descriptor) : Descriptor :=
      .array (.recursive inner (.union [d, .tuple [.reference inner]]))
    let whole : Descriptor := .recursive outer (within (.reference outer))
    let actual : Value := .array [.array [.array []]]
    (within (.reference outer)).replace outer whole = within whole ∧
      (∀ free, ¬ whole.Frees free) ∧ whole.BindsOnce ∧
      Answers [] whole actual (.success [actual, actual]) ∧
      ∀ outcome,
        Answers [] (within whole) actual outcome ↔ outcome = .success [actual, actual] := by
  intro outer inner within whole actual
  have unrolled : (within (.reference outer)).replace outer whole = within whole := by cbv
  have closes : Group.empty.closeType whole = .ok whole := by cbv
  have closed := frees_nothing_of_close closes
  have leaf : binders (.union [.reference outer, .tuple [.reference inner]]) = 0 := rfl
  have below : BindsOnce (within (.reference outer)) :=
    each_binder_plain rfl (List.forall_mem_singleton.mpr
      (each_binder_recursive (each_binder_of_binders leaf) (each_binder_of_binders leaf)))
  have apart : Spares (within (.reference outer)) [outer] :=
    each_binder_plain rfl (List.forall_mem_singleton.mpr
      (each_binder_recursive (by decide) (each_binder_of_binders leaf)))
  have once : whole.BindsOnce := each_binder_recursive apart below
  have ran : castWithin 20 [] whole actual = some (.success [actual, actual]) := rfl
  have answers : Answers [] whole actual (.success [actual, actual]) := answers_of_ran ran
  refine ⟨unrolled, closed, once, answers, fun outcome => ?_⟩
  obtain ⟨_, same⟩ := cast_unrolls_binder closed once actual
  rw [unrolled] at same
  rw [← same]
  exact ⟨fun also => also.unique answers, fun read => read ▸ answers⟩

end Readings
