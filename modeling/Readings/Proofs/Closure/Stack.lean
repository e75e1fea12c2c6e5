import Readings.Proofs.Closure.Walking

/-!
Closing on one stack. The walk hands down the symbols that are being expanded; here it keeps them on
a stack instead, which is pushed and popped around every body (`walkOn`), and it may go only so many
calls deep. A run that is out of depth has gone down a path of that many calls (`walk_on_restores`).
On any such path each group symbol is expanded at most once, since it stays on the stack from then
on, so that no path has more calls than the descriptor and the bodies left have nodes
(`Descends.calls_lt`). That is why the walk ends for every group and descriptor, and then, with a
result or an error, the stack is again what it was.
-/
namespace Readings
namespace Group
variable {group : Group}

/-! ## The walk on a stack -/

/-- Computations on a stack of symbols. One that fails leaves its stack behind; there is no answer at
all when the depth runs out. -/
abbrev OnStack (α : Type) := ExceptT SchemaError (StateT (List Symbol) Option) α

/-- Walks a body under its symbol. The symbol is taken off again before the result is looked at, be
that an error or not. -/
def walkUnder (symbol : Symbol) (body : OnStack Walked) : OnStack Walked := ExceptT.mk do
  modify (symbol :: ·)
  let result ← body.run
  modify List.tail
  pure (result.bind (Walked.bindCycle symbol))

/-- Walks a descriptor with calls that are nested at most `depth` deep. -/
def walkOn (group : Group) : (depth : Nat) → Descriptor → OnStack Walked
  | 0, _ => ExceptT.mk fun _ => none
  | depth + 1, d =>
    match d with
    | .reference symbol => do
      match group.body? symbol with
      | some body =>
        if symbol ∈ (← get) then pure (.loose symbol)
        else walkUnder symbol (group.walkOn depth body)
      | none => pure (.loose symbol)
    | .recursive symbol body => walkUnder symbol (group.walkOn depth body)
    | d => do pure (.around d (← d.children.mapM (group.walkOn depth)))

/-! ## Paths of calls -/

/-- A walk on a stack comes, by so many calls one inside the other, to a descriptor and the stack it
has there. Of the group symbols expanded on the way, the outermost is first. -/
inductive Descends (group : Group) : (calls : Nat) → List Symbol → Descriptor →
    (expanded : List Symbol) → List Symbol → Descriptor → Prop where
  | here : Descends group 0 stack d [] stack d
  | child (plain : d.plain = true) (below : part ∈ d.children)
      (rest : Descends group calls stack part expanded others place) :
      Descends group (calls + 1) stack d expanded others place
  | expansion (fresh : symbol ∉ stack) (found : group.body? symbol = some body)
      (rest : Descends group calls (symbol :: stack) body expanded others place) :
      Descends group (calls + 1) stack (.reference symbol) (symbol :: expanded) others place
  | binder (rest : Descends group calls (symbol :: stack) body expanded others place) :
      Descends group (calls + 1) stack (.recursive symbol body) expanded others place

/-- What is expanded on a path was not on the stack, has a body, and is not expanded again. -/
theorem Descends.expanded_once (path : group.Descends calls stack d expanded others place) :
    expanded.Nodup ∧ ∀ symbol ∈ expanded, symbol ∉ stack ∧ (group.body? symbol).isSome := by
  induction path with
  | here => exact ⟨List.nodup_nil, fun _ listed => nomatch listed⟩
  | child _ _ _ ih => exact ih
  | expansion fresh found _ ih =>
    obtain ⟨once, outside⟩ := ih
    refine ⟨List.nodup_cons.mpr ⟨fun again => (outside _ again).1 List.mem_cons_self, once⟩, ?_⟩
    intro symbol listed
    rcases List.mem_cons.mp listed with rfl | later
    · exact ⟨fresh, by rw [found]; rfl⟩
    · exact ⟨fun known => (outside symbol later).1 (List.mem_cons_of_mem _ known),
        (outside symbol later).2⟩
  | binder _ ih =>
    exact ⟨ih.1, fun symbol listed =>
      ⟨fun known => (ih.2 symbol listed).1 (List.mem_cons_of_mem _ known), (ih.2 symbol listed).2⟩⟩

/-- The nodes of the bodies that can still be expanded. -/
def unexpandedSize (group : Group) (stack : List Symbol) : Nat :=
  (group.bodies.map fun entry => if entry.1 ∈ stack then 0 else entry.2.size).sum

/-- More calls than this are on no path: one for each node of the descriptor and of the bodies that
can still be expanded. -/
def depthBound (group : Group) (stack : List Symbol) (d : Descriptor) : Nat :=
  d.size + group.unexpandedSize stack

theorem unexpanded_size_push (group : Group) (symbol : Symbol) (stack : List Symbol) :
    group.unexpandedSize (symbol :: stack) ≤ group.unexpandedSize stack := by
  refine List.sum_le_sum fun entry _ => ?_
  by_cases known : entry.1 ∈ stack
  · simp [known]
  · rw [if_neg known]
    split
    · exact Nat.zero_le _
    · exact Nat.le_refl _

/-- Expanding a symbol uses up its body. -/
theorem unexpanded_size_expand (fresh : symbol ∉ stack) (found : group.body? symbol = some body) :
    body.size + group.unexpandedSize (symbol :: stack) ≤ group.unexpandedSize stack := by
  obtain ⟨before, after, split, _⟩ := List.lookup_eq_some_iff.mp found
  have left := unexpanded_size_push ⟨before⟩ symbol stack
  have right := unexpanded_size_push ⟨after⟩ symbol stack
  simp only [unexpandedSize, split, List.map_append, List.map_cons, List.sum_append, List.sum_cons,
    List.mem_cons_self, if_true, if_neg fresh] at left right ⊢
  omega

theorem Descends.calls_lt (path : group.Descends calls stack d expanded others place) :
    calls < group.depthBound stack d := by
  induction path with
  | @here stack d =>
    have node := d.size_children
    simp only [depthBound]
    omega
  | child _ below _ ih =>
    have smaller := Descriptor.size_child_lt below
    simp only [depthBound] at ih ⊢
    omega
  | expansion fresh found _ ih =>
    have spent := unexpanded_size_expand fresh found
    simp only [depthBound, Descriptor.size] at ih ⊢
    omega
  | @binder calls symbol stack body _ _ _ _ ih =>
    have spent := unexpanded_size_push group symbol stack
    simp only [depthBound, Descriptor.size] at ih ⊢
    omega

/-! ## What a run returns -/

/-- From a stack, a computation has this result and leaves the stack as it was, unless it is out of
depth, which a condition explains. -/
def Restores (action : OnStack α) (stack : List Symbol) (result : Except SchemaError α)
    (deep : Prop) : Prop :=
  action.run.run stack = some (result, stack) ∨ deep ∧ action.run.run stack = none

namespace Restores

theorem bind {action : OnStack α} {next : α → OnStack β} {further : α → Except SchemaError β}
    (first : Restores action stack result deep)
    (onward : ∀ value, Restores (next value) stack (further value) deep) :
    Restores (action >>= next) stack (result >>= further) deep := by
  have run : (action >>= next).run.run stack = (action.run.run stack).bind fun step =>
      (ExceptT.bindCont next step.1).run step.2 := rfl
  rcases first with ran | ⟨explained, ran⟩
  · cases result with
    | error error => exact .inl (by rw [run, ran]; rfl)
    | ok value => exact (onward value).imp (by rw [run, ran]; exact id) (by rw [run, ran]; exact id)
  · exact .inr ⟨explained, by rw [run, ran]; rfl⟩

theorem each {f : α → OnStack β} {g : α → Except SchemaError β} {items : List α}
    (each : ∀ item ∈ items, Restores (f item) stack (g item) deep) :
    Restores (items.mapM f) stack (items.mapM g) deep := by
  induction items with
  | nil => exact .inl rfl
  | cons item rest ih =>
    rw [List.mapM_cons, List.mapM_cons]
    refine (each item List.mem_cons_self).bind fun first => ?_
    exact (ih fun other listed => each other (List.mem_cons_of_mem _ listed)).bind
      fun others => .inl rfl

theorem under {body : OnStack Walked} (inner : Restores body (symbol :: stack) result deep) :
    Restores (walkUnder symbol body) stack (result.bind (Walked.bindCycle symbol)) deep := by
  have run : (walkUnder symbol body).run.run stack =
      (body.run.run (symbol :: stack)).bind fun step =>
        some (step.1.bind (Walked.bindCycle symbol), step.2.tail) := rfl
  rcases inner with ran | ⟨explained, ran⟩
  · exact .inl (by rw [run, ran]; rfl)
  · exact .inr ⟨explained, by rw [run, ran]; rfl⟩

theorem explained {action : OnStack α} (returns : Restores action stack result deep)
    (because : deep → others) : Restores action stack result others :=
  returns.imp id fun ⟨explained, ran⟩ => ⟨because explained, ran⟩

end Restores

/-- The walk goes down a path of so many calls. -/
def Deep (group : Group) (calls : Nat) (stack : List Symbol) (d : Descriptor) : Prop :=
  ∃ expanded others place, group.Descends calls stack d expanded others place

theorem walk_on_plain {d : Descriptor} (plain : d.plain = true) (depth : Nat) :
    group.walkOn (depth + 1) d =
      d.children.mapM (group.walkOn depth) >>= fun parts => pure (.around d parts) := by
  cases d with
  | reference | recursive => cases plain
  | _ => rfl

theorem walk_on_bound (found : group.body? symbol = some body) (depth : Nat) (stack : List Symbol) :
    (group.walkOn (depth + 1) (.reference symbol)).run.run stack =
      (if symbol ∈ stack then (pure (.loose symbol) : OnStack Walked)
        else walkUnder symbol (group.walkOn depth body)).run.run stack := by
  rw [walkOn, found]
  rfl

/-- A run has the result of the walk and leaves the stack as it was, or else it went down a path of
as many calls as it may nest. -/
theorem walk_on_restores (depth : Nat) (stack : List Symbol) (d : Descriptor) :
    Restores (group.walkOn depth d) stack (group.walk stack d) (group.Deep depth stack d) := by
  induction depth generalizing stack d with
  | zero => exact .inr ⟨⟨[], stack, d, .here⟩, rfl⟩
  | succ depth ih =>
    cases kind : d.plain with
    | true =>
      have parts : Restores (d.children.mapM (group.walkOn depth)) stack
          (d.children.mapM (group.walk stack)) (group.Deep (depth + 1) stack d) :=
        .each fun part below => (ih stack part).explained fun ⟨expanded, others, place, path⟩ =>
          ⟨expanded, others, place, .child kind below path⟩
      rw [walk_on_plain kind, walk_plain kind]
      exact parts.bind fun walked => .inl rfl
    | false =>
      cases d with
      | reference symbol =>
        cases found : group.body? symbol with
        | none =>
          rw [walk_stopped (.inr found)]
          exact .inl (by simp [walkOn, found])
        | some body =>
          rw [Restores, walk_on_bound found]
          by_cases known : symbol ∈ stack
          · rw [walk_stopped (.inl known), if_pos known]
            exact .inl rfl
          · rw [walk_expanded known found, if_neg known]
            exact Restores.under ((ih (symbol :: stack) body).explained
              fun ⟨expanded, others, place, path⟩ =>
                ⟨symbol :: expanded, others, place, .expansion known found path⟩)
      | recursive symbol body =>
        rw [walk_recursive]
        exact .under ((ih (symbol :: stack) body).explained fun ⟨expanded, others, place, path⟩ =>
          ⟨expanded, others, place, .binder path⟩)
      | _ => cases kind

/-- The walk ends, whatever the group and the descriptor. To any depth it either returns the result
or error of the walk, with the stack it was called with, or it is out of depth on a path of as many
calls. But on a path no group symbol is expanded twice, and there are fewer calls than the descriptor
and the bodies not on the stack have nodes; so a depth of that many suffices. -/
theorem walk_ends_with_its_stack (group : Group) (stack : List Symbol) (d : Descriptor) :
    (∀ depth, (group.walkOn depth d).run.run stack = some (group.walk stack d, stack) ∨
      (∃ expanded others place, group.Descends depth stack d expanded others place) ∧
        (group.walkOn depth d).run.run stack = none) ∧
    (∀ calls expanded others place, group.Descends calls stack d expanded others place →
      expanded.Nodup ∧ (∀ symbol ∈ expanded, symbol ∉ stack ∧ (group.body? symbol).isSome) ∧
        calls < group.depthBound stack d) ∧
    ∀ depth, group.depthBound stack d ≤ depth →
      (group.walkOn depth d).run.run stack = some (group.walk stack d, stack) := by
  refine ⟨fun depth => group.walk_on_restores depth stack d,
    fun calls expanded others place path => ?_, fun depth enough => ?_⟩
  · obtain ⟨once, fresh⟩ := path.expanded_once
    exact ⟨once, fresh, path.calls_lt⟩
  · refine (group.walk_on_restores depth stack d).resolve_right ?_
    rintro ⟨⟨expanded, others, place, path⟩, -⟩
    exact Nat.not_le.mpr path.calls_lt enough

/-- A walk that is refused: with `b` on the stack already, a binder of `b` puts it there again, `a` is
expanded below and found to stand for itself. -/
theorem refused_walk_leaves_the_stack :
    let a : Symbol := ⟨0, "a"⟩
    let b : Symbol := ⟨1, "b"⟩
    let group : Group := ⟨[(a, .union [.reference b, .reference a]), (b, .array (.reference a))]⟩
    let d : Descriptor := .recursive b (.reference a)
    group.Descends 3 [b] d [a] [a, b, b] (.reference b) ∧ [a].Nodup ∧ 3 < group.depthBound [b] d ∧
      (group.walkOn 5 d).run.run [b] = some (.error (.unguardedRecursion "a"), [b]) := by
  intro a b group d
  have path : group.Descends 3 [b] d [a] [a, b, b] (.reference b) :=
    .binder (.expansion (by decide) rfl (.child rfl (List.mem_cons_self) .here))
  have refused : group.walk [b] d = .error (.unguardedRecursion "a") := by cbv
  obtain ⟨-, paths, returns⟩ := walk_ends_with_its_stack group [b] d
  obtain ⟨once, -, within⟩ := paths _ _ _ _ path
  exact ⟨path, once, within, refused ▸ returns 5 (by decide)⟩

end Group
end Readings
