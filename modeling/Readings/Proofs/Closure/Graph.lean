import Readings.Closure.Group
import Readings.Proofs.Descriptor.Children
import Mathlib.Logic.Relation

/-!
The reference graph of a group. A body has an edge to every symbol it refers to; an edge is
unguarded when only unions, intersections and maps stand above the reference. Reachability and
cycles are those of the graph. Closing follows paths that avoid the symbols being expanded, which is
what `Leads` describes; a path that does not avoid a further symbol can be cut there
(`Leads.split`), so that avoiding costs nothing in the end.
-/
namespace Readings
namespace Descriptor

/-- A reference to the symbol stands somewhere below nodes that all let pass. -/
inductive Occurs (passes : Descriptor → Bool) : Descriptor → Symbol → Prop where
  | reference : Occurs passes (.reference symbol) symbol
  | child (admitted : passes d = true) (below : child ∈ d.children)
      (inside : Occurs passes child symbol) : Occurs passes d symbol

/-- Every node lets pass. -/
def anyNode : Descriptor → Bool := fun _ => true

/-- A descriptor mentions the symbols of its references. -/
abbrev Mentions (d : Descriptor) (symbol : Symbol) : Prop := d.Occurs anyNode symbol

/-- A descriptor exposes a symbol when a reference to it has no array, tuple, record, object or
binder above it. -/
abbrev Exposes (d : Descriptor) (symbol : Symbol) : Prop := d.Occurs transparent symbol

theorem Exposes.mentions (exposed : Exposes d symbol) : Mentions d symbol := by
  induction exposed with
  | reference => exact .reference
  | child _ below _ ih => exact .child rfl below ih

theorem occurs_reference : Occurs passes (.reference other) symbol ↔ symbol = other := by
  constructor
  · intro inside
    cases inside with
    | reference => rfl
    | child _ below _ => cases below
  · rintro rfl
    exact .reference

theorem occurs_plain {d : Descriptor} (plain : d.plain = true) :
    Occurs passes d symbol ↔ passes d = true ∧ ∃ child ∈ d.children, Occurs passes child symbol := by
  constructor
  · intro inside
    cases inside with
    | reference => cases plain
    | child admitted below inside => exact ⟨admitted, _, below, inside⟩
  · rintro ⟨admitted, child, below, inside⟩
    exact .child admitted below inside

end Descriptor

namespace Group
variable {group : Group}

/-- No body has a binder of its own. -/
def BinderFree (group : Group) : Prop := ∀ entry ∈ group.bodies, entry.2.binders = 0

theorem BinderFree.of_body (free : group.BinderFree) (found : group.body? symbol = some body) :
    body.binders = 0 := by
  obtain ⟨before, after, split, _⟩ := List.lookup_eq_some_iff.mp found
  exact free (symbol, body) (by simp [split])

/-- The body of one symbol refers to another. -/
def Edge (group : Group) (passes : Descriptor → Bool) (source target : Symbol) : Prop :=
  ∃ body, group.body? source = some body ∧ body.Occurs passes target

/-- A symbol is mentioned by a descriptor, or by a body that the descriptor leads to. -/
def Reaches (group : Group) (d : Descriptor) (symbol : Symbol) : Prop :=
  ∃ first, d.Mentions first ∧ Relation.ReflTransGen (group.Edge Descriptor.anyNode) first symbol

/-- A symbol lies on a cycle of unguarded edges. -/
def OnUnguardedCycle (group : Group) (symbol : Symbol) : Prop :=
  Relation.TransGen (group.Edge Descriptor.transparent) symbol symbol

/-- A descriptor leads to a symbol when a path of references gets there through bodies of symbols
that are not avoided. The last symbol may be an avoided one. -/
inductive Leads (group : Group) (passes : Descriptor → Bool) (avoided : List Symbol) :
    Descriptor → Symbol → Prop where
  | here (inside : d.Occurs passes symbol) : Leads group passes avoided d symbol
  | through (inside : d.Occurs passes next) (fresh : next ∉ avoided)
      (found : group.body? next = some body) (rest : Leads group passes avoided body symbol) :
      Leads group passes avoided d symbol

namespace Leads

theorem mono (path : group.Leads passes avoided d symbol)
    (fewer : ∀ other ∈ less, other ∈ avoided) : group.Leads passes less d symbol := by
  induction path with
  | here inside => exact .here inside
  | through inside fresh found _ ih => exact .through inside (mt (fewer _) fresh) found ih

theorem trans (first : group.Leads passes avoided d middle) (fresh : middle ∉ avoided)
    (found : group.body? middle = some body) (second : group.Leads passes avoided body symbol) :
    group.Leads passes avoided d symbol := by
  induction first with
  | here inside => exact .through inside fresh found second
  | through inside passed again _ ih => exact .through inside passed again (ih fresh found)

/-- A path either avoids one more symbol, or leads to it and on from its last visit there. -/
theorem split (path : group.Leads passes avoided d symbol) (cut : Symbol) :
    group.Leads passes (cut :: avoided) d symbol ∨
      group.Leads passes avoided d cut ∧ ∃ body, group.body? cut = some body ∧
        group.Leads passes (cut :: avoided) body symbol := by
  induction path with
  | here inside => exact .inl (.here inside)
  | @through next body _ _ inside fresh found _ ih =>
    rcases ih with direct | ⟨before, visit⟩
    · by_cases same : next = cut
      · subst same
        exact .inr ⟨.here inside, body, found, direct⟩
      · exact .inl (.through inside (by simp [same, fresh]) found direct)
    · exact .inr ⟨.through inside fresh found before, visit⟩

/-- From the body of a symbol, paths need never come back to that symbol before their end. -/
theorem avoiding_own (found : group.body? cut = some body)
    (path : group.Leads passes avoided body symbol) :
    group.Leads passes (cut :: avoided) body symbol := by
  rcases path.split cut with direct | ⟨_, other, again, rest⟩
  · exact direct
  · obtain rfl := Option.some.inj (found.symm.trans again)
    exact rest

/-- A plain node leads where its children lead, if it lets pass. -/
theorem plain_iff {d : Descriptor} (plain : d.plain = true) :
    group.Leads passes avoided d symbol ↔
      passes d = true ∧ ∃ child ∈ d.children, group.Leads passes avoided child symbol := by
  constructor
  · intro path
    cases path with
    | here inside =>
      obtain ⟨admitted, child, below, inside⟩ := (Descriptor.occurs_plain plain).mp inside
      exact ⟨admitted, child, below, .here inside⟩
    | through inside fresh found rest =>
      obtain ⟨admitted, child, below, inside⟩ := (Descriptor.occurs_plain plain).mp inside
      exact ⟨admitted, child, below, .through inside fresh found rest⟩
  · rintro ⟨admitted, child, below, path⟩
    cases path with
    | here inside => exact .here (.child admitted below inside)
    | through inside fresh found rest =>
      exact .through (.child admitted below inside) fresh found rest

/-- A reference that is not expanded leads to its symbol only. -/
theorem stopped_iff (stopped : other ∈ avoided ∨ group.body? other = none) :
    group.Leads passes avoided (.reference other) symbol ↔ symbol = other := by
  constructor
  · intro path
    cases path with
    | here inside => exact Descriptor.occurs_reference.mp inside
    | through inside fresh found rest =>
      obtain rfl := Descriptor.occurs_reference.mp inside
      rcases stopped with avoids | unbound
      · exact absurd avoids fresh
      · rw [unbound] at found
        cases found
  · rintro rfl
    exact .here .reference

/-- A reference that is expanded leads to its own symbol, and where the body leads without coming
back. -/
theorem expanded_iff (fresh : other ∉ avoided) (found : group.body? other = some body) :
    group.Leads passes avoided (.reference other) symbol ↔
      symbol = other ∨ group.Leads passes (other :: avoided) body symbol := by
  constructor
  · intro path
    cases path with
    | here inside => exact .inl (Descriptor.occurs_reference.mp inside)
    | through inside _ again rest =>
      obtain rfl := Descriptor.occurs_reference.mp inside
      obtain rfl := Option.some.inj (found.symm.trans again)
      exact .inr (rest.avoiding_own found)
  · rintro (rfl | path)
    · exact .here .reference
    · exact .through .reference fresh found (path.mono fun _ member => List.mem_cons_of_mem _ member)

end Leads

theorem reaches_iff : group.Reaches d symbol ↔ group.Leads Descriptor.anyNode [] d symbol := by
  constructor
  · rintro ⟨first, inside, path⟩
    induction path using Relation.ReflTransGen.head_induction_on generalizing d with
    | refl => exact .here inside
    | head edge _ ih =>
      obtain ⟨body, found, next⟩ := edge
      exact .through inside List.not_mem_nil found (ih next)
  · intro path
    induction path with
    | here inside => exact ⟨_, inside, .refl⟩
    | through inside _ found _ ih =>
      obtain ⟨next, edge, path⟩ := ih
      exact ⟨_, inside, .head ⟨_, found, edge⟩ path⟩

/-- A path of edges into symbols that are not avoided leads on from the body of its first symbol. -/
theorem trans_gen_avoiding_iff (fresh : target ∉ avoided) :
    Relation.TransGen (fun one other => group.Edge passes one other ∧ other ∉ avoided)
        source target ↔
      ∃ body, group.body? source = some body ∧ group.Leads passes avoided body target := by
  constructor
  · intro path
    induction path using Relation.TransGen.head_induction_on with
    | single edge =>
      obtain ⟨⟨body, found, inside⟩, _⟩ := edge
      exact ⟨body, found, .here inside⟩
    | head edge _ ih =>
      obtain ⟨⟨body, found, inside⟩, new⟩ := edge
      obtain ⟨next, again, rest⟩ := ih
      exact ⟨body, found, .through inside new again rest⟩
  · rintro ⟨body, found, path⟩
    induction path generalizing source with
    | here inside => exact .single ⟨⟨_, found, inside⟩, fresh⟩
    | through inside new again _ ih => exact .head ⟨⟨_, found, inside⟩, new⟩ (ih fresh again)

theorem trans_gen_iff : Relation.TransGen (group.Edge passes) source target ↔
    ∃ body, group.body? source = some body ∧ group.Leads passes [] body target := by
  rw [← trans_gen_avoiding_iff List.not_mem_nil]
  simp only [List.not_mem_nil, not_false_eq_true, and_true]

end Group
end Readings
