import Readings.Proofs.Closure.Renaming

/-!
A group over its life. Bodies are bound to symbols and descriptors are closed in any order, and any
of these calls may be refused. What the calls leave behind is the first body of each symbol and
nothing else (`body_after_all`): a second body is refused, and closing leaves the group as it was.
Closing a descriptor then looks at the first bodies of the symbols that it comes to, so that two
groups agree on its outcome, be it a descriptor or an error, whatever else was bound in them and in
whatever order.
-/
namespace Readings

/-- A call on a group. -/
inductive Call
  | bind (symbol : Symbol) (body : Descriptor)
  | close (symbol : Symbol)
  | closeType (descriptor : Descriptor)

/-- The first body that calls give a symbol. -/
def firstBody (symbol : Symbol) : List Call → Option Descriptor
  | [] => none
  | .bind bound body :: later => if bound = symbol then some body else firstBody symbol later
  | _ :: later => firstBody symbol later

/-- A symbol that a descriptor leaves free, or that such a symbol's body comes to in turn. -/
inductive ComesTo (bodies : Symbol → Option Descriptor) : Descriptor → Symbol → Prop where
  | free (inside : d.Frees symbol) : ComesTo bodies d symbol
  | through (inside : d.Frees next) (found : bodies next = some body)
      (rest : ComesTo bodies body symbol) : ComesTo bodies d symbol

theorem ComesTo.onward (path : ComesTo bodies d symbol) (found : bodies symbol = some body)
    (inside : body.Frees next) : ComesTo bodies d next := by
  induction path with
  | free first => exact .through first found (.free inside)
  | through first bound _ ih => exact .through first bound (ih found)

/-- What holds of the free symbols, and of those that the body of such a symbol leaves free, holds of
all that a descriptor comes to. -/
theorem ComesTo.all {motive : Symbol → Prop} (path : ComesTo bodies d symbol)
    (first : ∀ symbol, d.Frees symbol → motive symbol)
    (onward : ∀ symbol body, motive symbol → bodies symbol = some body →
      ∀ next, body.Frees next → motive next) : motive symbol := by
  induction path with
  | free inside => exact first _ inside
  | through inside found _ ih => exact ih (onward _ _ (first _ inside) found)

namespace Group
variable {group : Group}

/-- What a call answers: the closed descriptor, nothing for a binding, or the error. -/
def answer (group : Group) : Call → Except SchemaError (Option Descriptor)
  | .bind symbol body => (group.bind symbol body).map fun _ => none
  | .close symbol => (group.close symbol).map some
  | .closeType descriptor => (group.closeType descriptor).map some

/-- The group that a call leaves: a larger one after a binding that is accepted, and the same one
after anything else. -/
def after (group : Group) : Call → Group
  | .bind symbol body =>
    match group.bind symbol body with
    | .ok grown => grown
    | .error _ => group
  | .close _ | .closeType _ => group

/-- The group that calls leave, one after the other, of an empty one. -/
def afterAll (calls : List Call) : Group := calls.foldl after empty

theorem bind_refused (taken : group.body? symbol = some first) (body : Descriptor) :
    group.bind symbol body = .error (.duplicateName symbol.description) := by
  rw [bind, taken, Option.isSome_some, if_pos rfl]

theorem bind_accepted (unbound : group.body? symbol = none) (body : Descriptor) :
    group.bind symbol body = .ok ⟨group.bodies ++ [(symbol, body)]⟩ := by
  rw [bind, unbound, Option.isSome_none, if_neg Bool.false_ne_true]

/-- A refused binding leaves the group as it was. -/
theorem after_refused (taken : group.body? symbol = some first) (body : Descriptor) :
    group.after (.bind symbol body) = group := by
  rw [after, bind_refused taken body]

theorem after_accepted (unbound : group.body? symbol = none) (body : Descriptor) :
    group.after (.bind symbol body) = ⟨group.bodies ++ [(symbol, body)]⟩ := by
  rw [after, bind_accepted unbound body]

/-- A call keeps every body there is, and gives one to its own symbol at most. -/
theorem body_after (group : Group) (call : Call) (symbol : Symbol) :
    (group.after call).body? symbol = (group.body? symbol).or (firstBody symbol [call]) := by
  cases call with
  | close | closeType => exact (Option.or_none ..).symm
  | bind bound body =>
    cases found : group.body? bound with
    | none =>
      have single : [(bound, body)].lookup symbol = firstBody symbol [.bind bound body] := by
        by_cases own : bound = symbol
        · rw [own, List.lookup_cons_self, firstBody, if_pos rfl]
        · rw [List.lookup_cons, beq_eq_false_iff_ne.mpr (Ne.symm own), firstBody, if_neg own]
          rfl
      rw [after_accepted found body, body?, body?, List.lookup_append, single]
    | some first =>
      rw [after_refused found body]
      by_cases own : bound = symbol
      · rw [← own, found, Option.some_or]
      · rw [firstBody, if_neg own]
        exact (Option.or_none ..).symm

/-- After any calls a symbol has the body that it had before, or else the first one they gave it. -/
theorem body_after_calls (group : Group) (calls : List Call) (symbol : Symbol) :
    (calls.foldl after group).body? symbol = (group.body? symbol).or (firstBody symbol calls) := by
  induction calls generalizing group with
  | nil => exact (Option.or_none ..).symm
  | cons call later ih =>
    have step : firstBody symbol (call :: later) =
        (firstBody symbol [call]).or (firstBody symbol later) := by
      cases call with
      | close | closeType => exact (Option.none_or ..).symm
      | bind bound body =>
        rw [firstBody, firstBody, firstBody]
        split
        · exact (Option.some_or ..).symm
        · exact (Option.none_or ..).symm
    rw [List.foldl_cons, ih, body_after, step, Option.or_assoc]

theorem body_after_all (calls : List Call) (symbol : Symbol) :
    (afterAll calls).body? symbol = firstBody symbol calls :=
  body_after_calls empty calls symbol

/-- Groups that agree on the bodies of all symbols that a descriptor comes to close it alike. -/
theorem close_type_reads_free {other : Group}
    (agree : ∀ symbol, ComesTo group.body? d symbol → group.body? symbol = other.body? symbol) :
    group.closeType d = other.closeType d := by
  have walks : group.walk [] d = other.walk [] d := by
    refine walk_reads_free agree ?_ (fun _ _ => Iff.rfl)
      fun symbol captured => .inl (.free captured)
    exact fun symbol body path found next captured => path.onward found captured
  rw [closeType, closeType, walks]

/-- Of all calls on a group, the outcome of closing a descriptor depends on the first body of each
symbol that the descriptor comes to: that is the body the symbol has, any further one is refused
without a trace, and calls that gave those symbols the same first bodies leave groups that answer
alike. -/
theorem closing_reads_first_bodies (calls others : List Call) (d : Descriptor)
    (agree : ∀ symbol, ComesTo (firstBody · calls) d symbol →
      firstBody symbol calls = firstBody symbol others) :
    (afterAll calls).answer (.closeType d) = (afterAll others).answer (.closeType d) ∧
      (∀ symbol, (afterAll calls).body? symbol = firstBody symbol calls) ∧
      ∀ symbol first body, firstBody symbol calls = some first →
        (afterAll calls).answer (.bind symbol body) =
            .error (.duplicateName symbol.description) ∧
          afterAll (calls ++ [.bind symbol body]) = afterAll calls := by
  have bodies : (afterAll calls).body? = (firstBody · calls) := funext (body_after_all calls)
  refine ⟨?_, body_after_all calls, fun symbol first body taken => ?_⟩
  · have same : (afterAll calls).closeType d = (afterAll others).closeType d := by
      refine close_type_reads_free fun symbol path => ?_
      rw [bodies] at path
      rw [body_after_all, body_after_all]
      exact agree symbol path
    rw [answer, answer, same]
  · have refused := bind_refused ((body_after_all calls symbol).trans taken) body
    refine ⟨by rw [answer, refused]; rfl, ?_⟩
    rw [afterAll, List.foldl_append, List.foldl_cons, List.foldl_nil, ← afterAll]
    exact after_refused ((body_after_all calls symbol).trans taken) body

/-- Two groups with the same bodies of `a` and `b`. One was offered a second body of `a`; the other
bound them the other way round, after a failed attempt to close `a`, and has a body of `c`, which the
descriptor binds itself. -/
theorem unrelated_bindings_do_not_matter :
    let a : Symbol := ⟨0, "a"⟩
    let b : Symbol := ⟨1, "b"⟩
    let c : Symbol := ⟨2, "c"⟩
    let items : Descriptor := .array (.reference b)
    let choice : Descriptor := .union [.primitive .null, .reference a]
    let loop : Descriptor := .recursive c (.array (.reference c))
    let d : Descriptor := .tuple [.reference a, loop]
    let calls : List Call :=
      [.bind a items, .bind b choice, .bind a .never, .closeType (.reference c)]
    let others : List Call := [.close a, .bind c .never, .bind b choice, .bind a items]
    let closed : Descriptor :=
      .tuple [.recursive a (.array (.union [.primitive .null, .reference a])), loop]
    (∀ symbol, ComesTo (firstBody · calls) d symbol →
        firstBody symbol calls = firstBody symbol others) ∧
      firstBody c calls = none ∧ firstBody c others = some .never ∧
      (afterAll others).answer (.closeType d) = .ok (some closed) ∧
      (afterAll calls).answer (.closeType d) = .ok (some closed) := by
  intro a b c items choice loop d calls others closed
  -- what is free in the three descriptors, as a walk over no bodies lists it
  have whole : empty.walk [] d = .ok ⟨d, [a]⟩ := by cbv
  have first : empty.walk [] items = .ok ⟨items, [b]⟩ := by cbv
  have second : empty.walk [] choice = .ok ⟨choice, [a]⟩ := by cbv
  have agree : ∀ symbol, ComesTo (firstBody · calls) d symbol →
      firstBody symbol calls = firstBody symbol others := by
    intro symbol path
    have near : symbol = a ∨ symbol = b := by
      refine path.all (motive := fun symbol => symbol = a ∨ symbol = b)
        (fun next captured => .inl ?_) fun known body near found next captured => ?_
      · exact List.mem_singleton.mp ((mem_free_iff whole).mpr captured)
      · rcases near with rfl | rfl
        · cases found
          exact .inr (List.mem_singleton.mp ((mem_free_iff first).mpr captured))
        · cases found
          exact .inl (List.mem_singleton.mp ((mem_free_iff second).mpr captured))
    rcases near with rfl | rfl <;> rfl
  have left : afterAll others = ⟨[(c, .never), (b, choice), (a, items)]⟩ := rfl
  have answered : (afterAll others).answer (.closeType d) = .ok (some closed) := by
    rw [left]
    cbv
  obtain ⟨same, _⟩ := closing_reads_first_bodies calls others d agree
  exact ⟨agree, rfl, rfl, answered, same.trans answered⟩

end Group
end Readings
