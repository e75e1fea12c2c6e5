import Readings.Proofs.Closure.Graph

/-!
What the walk of a descriptor does, in three equations: a plain node walks its children from left to
right and is put around what they become, a reference is expanded or stays, and a binder is put back
where a cycle closes. `expansion_induction` follows the same three cases; every fact about closing
is an induction of that form.
-/
namespace Readings

theorem map_ok_iff {f : α → Except ε β} {items : List α} {results : List β} :
    items.mapM f = .ok results ↔
      List.Forall₂ (fun item result => f item = .ok result) items results := by
  induction items generalizing results with
  | nil => simp [pure, Except.pure, eq_comm]
  | cons item rest ih =>
    rw [List.mapM_cons, List.forall₂_cons_left_iff]
    cases first : f item with
    | error error => simp [bind, Except.bind]
    | ok result =>
      cases later : rest.mapM f with
      | error error => simp [bind, Except.bind, ← ih, later]
      | ok tail => simp [bind, Except.bind, pure, Except.pure, ← ih, later, eq_comm]

theorem map_error {f : α → Except ε β} {items : List α} (failed : items.mapM f = .error error) :
    ∃ item ∈ items, f item = .error error := by
  induction items with
  | nil => cases failed
  | cons item rest ih =>
    rw [List.mapM_cons] at failed
    cases first : f item with
    | error other =>
      rw [first] at failed
      cases failed
      exact ⟨item, List.mem_cons_self, first⟩
    | ok result =>
      rw [first] at failed
      cases later : rest.mapM f with
      | error other =>
        rw [later] at failed
        cases failed
        obtain ⟨item, member, same⟩ := ih later
        exact ⟨item, List.mem_cons_of_mem _ member, same⟩
      | ok tail =>
        rw [later] at failed
        cases failed

theorem map_congr {f g : α → Except ε β} {items : List α}
    (each : ∀ item ∈ items, f item = g item) : items.mapM f = items.mapM g := by
  induction items with
  | nil => rfl
  | cons item rest ih =>
    rw [List.mapM_cons, List.mapM_cons, each item List.mem_cons_self,
      ih fun other listed => each other (List.mem_cons_of_mem _ listed)]

/-- Doing alike with every item comes to the same for the whole list, up to what is made of items and
of answers. -/
theorem map_alike {f : α → Except ε β} {g : γ → Except ε δ} {into : α → γ} {out : β → δ}
    {items : List α} (each : ∀ item ∈ items, g (into item) = (f item).map out) :
    (items.map into).mapM g = (items.mapM f).map (List.map out) := by
  induction items with
  | nil => rfl
  | cons item rest ih =>
    have others := ih fun other listed => each other (List.mem_cons_of_mem _ listed)
    rw [List.map_cons, List.mapM_cons, List.mapM_cons, others, each item List.mem_cons_self]
    cases f item with
    | error error => rfl
    | ok first => cases rest.mapM f <;> rfl

namespace Walked

/-- The free symbols of several walked descriptors, each once, behind those met before. -/
def joinAll (met : List Symbol) (walked : List Walked) : List Symbol :=
  walked.foldl (fun met one => join met one.free) met

/-- A node put around what its children became. -/
def around (d : Descriptor) (walked : List Walked) : Walked :=
  ⟨d.withChildren (walked.map descriptor), joinAll [] walked⟩

theorem children_around {d : Descriptor} (same : d.children.length = walked.length) :
    (around d walked).descriptor.children = walked.map descriptor :=
  Descriptor.children_with_children d (by rw [List.length_map, same])

theorem plain_around (d : Descriptor) (walked : List Walked) :
    (around d walked).descriptor.plain = d.plain :=
  Descriptor.plain_with_children d (walked.map descriptor)

theorem mem_join : symbol ∈ join met more ↔ symbol ∈ met ∨ symbol ∈ more := by
  by_cases known : symbol ∈ met <;> simp [join, known]

theorem mem_join_all : symbol ∈ joinAll met walked ↔
    symbol ∈ met ∨ ∃ one ∈ walked, symbol ∈ one.free := by
  induction walked generalizing met with
  | nil => simp [joinAll]
  | cons one rest ih =>
    rw [joinAll, List.foldl_cons]
    exact ih.trans (by simp [mem_join, or_assoc])

theorem nodup_join (left : met.Nodup) (right : more.Nodup) : (join met more).Nodup := by
  refine List.nodup_append.mpr ⟨left, right.filter _, ?_⟩
  rintro symbol known _ new rfl
  simp [known] at new

theorem nodup_join_all (first : met.Nodup) (rest : ∀ one ∈ walked, one.free.Nodup) :
    (joinAll met walked).Nodup := by
  induction walked generalizing met with
  | nil => exact first
  | cons one walked ih =>
    exact ih (nodup_join first (rest one List.mem_cons_self))
      fun other member => rest other (List.mem_cons_of_mem _ member)

/-- A walked body is left as it is, or gets a binder that is guarded. -/
theorem bind_cycle_ok {walked : Walked} (bound : walked.bindCycle symbol = .ok result) :
    symbol ∉ walked.free ∧ result = walked ∨
      symbol ∈ walked.free ∧ walked.descriptor.reachesUnguarded symbol = false ∧
        result = ⟨.recursive symbol walked.descriptor, walked.free.erase symbol⟩ := by
  unfold bindCycle at bound
  split at bound
  · rename_i free
    split at bound
    · cases bound
    · rename_i guarded
      cases bound
      exact .inr ⟨free, by simpa using guarded, rfl⟩
  · rename_i closed
    cases bound
    exact .inl ⟨closed, rfl⟩

/-- The only error is an unguarded binder. -/
theorem bind_cycle_error {walked : Walked} (failed : walked.bindCycle symbol = .error error) :
    error = .unguardedRecursion symbol.description ∧
      walked.descriptor.reachesUnguarded symbol = true := by
  unfold bindCycle at failed
  split at failed
  · split at failed
    · rename_i unguarded
      cases failed
      exact ⟨rfl, unguarded⟩
    · cases failed
  · cases failed

end Walked

namespace Group
variable {group : Group}

private theorem walk_all_eq (expanding free : List Symbol) (items : List Descriptor) :
    group.walkAll expanding free items = (items.mapM (group.walk expanding)).map fun walked =>
      (walked.map Walked.descriptor, Walked.joinAll free walked) := by
  induction items generalizing free with
  | nil => rw [walkAll]; rfl
  | cons item rest ih =>
    rw [walkAll, List.mapM_cons]
    cases group.walk expanding item with
    | error error => rfl
    | ok first =>
      simp only [ih]
      cases rest.mapM (group.walk expanding) <;> rfl

private theorem walk_fields_eq (expanding free : List Symbol) (fields : Entries Descriptor) :
    group.walkFields expanding free fields =
      ((Entries.values fields).mapM (group.walk expanding)).map fun walked =>
        ((Entries.keys fields).zip (walked.map Walked.descriptor), Walked.joinAll free walked) := by
  induction fields generalizing free with
  | nil => rw [walkFields]; rfl
  | cons field rest ih =>
    rw [walkFields, Entries.values, List.map_cons, List.mapM_cons]
    cases group.walk expanding field.2 with
    | error error => rfl
    | ok first =>
      simp only [ih, Entries.values]
      cases (rest.map Prod.snd).mapM (group.walk expanding) <;> rfl

private theorem join_all_single (walked : Walked) : Walked.joinAll [] [walked] = walked.free := by
  simp [Walked.joinAll, Walked.join]

/-- A plain node walks its children from left to right. -/
theorem walk_plain {d : Descriptor} (plain : d.plain = true) (expanding : List Symbol) :
    group.walk expanding d =
      (d.children.mapM (group.walk expanding)).map (Walked.around d) := by
  cases d with
  | reference | recursive => cases plain
  | unknown | never | primitive | enumeration | pure => rw [walk]; rfl
  | array item | record item | map _ item =>
    rw [walk, Descriptor.children, List.mapM_cons]
    cases group.walk expanding item with
    | error error => rfl
    | ok walked =>
      change Except.ok _ = Except.ok (Walked.mk _ (Walked.joinAll [] [walked]))
      rw [join_all_single]
      rfl
  | tuple items | union items | intersection items =>
    rw [walk, walk_all_eq, Descriptor.children]
    cases items.mapM (group.walk expanding) <;> rfl
  | object fields =>
    rw [walk, walk_fields_eq, Descriptor.children]
    cases (Entries.values fields).mapM (group.walk expanding) <;> rfl

theorem walk_stopped (stopped : symbol ∈ expanding ∨ group.body? symbol = none) :
    group.walk expanding (.reference symbol) = .ok (.loose symbol) := by
  rw [walk]
  split
  · rename_i body found
    rw [dif_pos (stopped.resolve_right (by simp [found]))]
  · rfl

theorem walk_expanded (fresh : symbol ∉ expanding) (found : group.body? symbol = some body) :
    group.walk expanding (.reference symbol) =
      (group.walk (symbol :: expanding) body).bind (Walked.bindCycle symbol) := by
  rw [walk]
  split
  · rename_i other again
    obtain rfl := Option.some.inj (found.symm.trans again)
    rw [dif_neg fresh]
    rfl
  · rename_i unbound
    rw [unbound] at found
    cases found

theorem walk_recursive : group.walk expanding (.recursive symbol body) =
    (group.walk (symbol :: expanding) body).bind (Walked.bindCycle symbol) := by
  rw [walk]
  rfl

/-- Induction along the walk: into the children of a plain node, into the body of a symbol that is
not being expanded yet, and into the body of a binder. -/
@[elab_as_elim]
theorem expansion_induction (group : Group) {motive : List Symbol → Descriptor → Prop}
    (plain : ∀ expanding d, d.plain = true → (∀ child ∈ d.children, motive expanding child) →
      motive expanding d)
    (stopped : ∀ expanding symbol, symbol ∈ expanding ∨ group.body? symbol = none →
      motive expanding (.reference symbol))
    (expanded : ∀ expanding symbol body, symbol ∉ expanding → group.body? symbol = some body →
      motive (symbol :: expanding) body → motive expanding (.reference symbol))
    (recursive : ∀ expanding symbol body, motive (symbol :: expanding) body →
      motive expanding (.recursive symbol body))
    (expanding : List Symbol) (d : Descriptor) : motive expanding d := by
  cases kind : d.plain with
  | true =>
    exact plain expanding d kind fun child _below =>
      expansion_induction group plain stopped expanded recursive expanding child
  | false =>
    match d with
    | .reference symbol =>
      match _found : group.body? symbol with
      | none => exact stopped expanding symbol (.inr _found)
      | some body =>
        by_cases _fresh : symbol ∈ expanding
        · exact stopped expanding symbol (.inl _fresh)
        · exact expanded expanding symbol body _fresh _found
            (expansion_induction group plain stopped expanded recursive (symbol :: expanding) body)
    | .recursive symbol body =>
      exact recursive expanding symbol body
        (expansion_induction group plain stopped expanded recursive (symbol :: expanding) body)
termination_by (group.unexpanded expanding, d.size)
decreasing_by
  · exact .left _ _ (unexpanded_cons_lt _found _fresh)
  · exact lex_of_le (unexpanded_cons_le ..)
      (Descriptor.size_child_lt (d := .recursive symbol body) (List.mem_singleton_self _))
  · exact .right _ (Descriptor.size_child_lt _below)

/-! ## A successful walk, node by node -/

theorem walk_plain_ok {d : Descriptor} (plain : d.plain = true)
    (ran : group.walk expanding d = .ok result) :
    ∃ walked, List.Forall₂ (fun child one => group.walk expanding child = .ok one)
        d.children walked ∧ result = .around d walked := by
  rw [walk_plain plain] at ran
  cases below : d.children.mapM (group.walk expanding) with
  | error error =>
    rw [below] at ran
    cases ran
  | ok walked =>
    rw [below] at ran
    cases ran
    exact ⟨walked, map_ok_iff.mp below, rfl⟩

theorem walk_of_children {d : Descriptor} (plain : d.plain = true) (walked : List Walked)
    (below : List.Forall₂ (fun child one => group.walk expanding child = .ok one)
      d.children walked) : group.walk expanding d = .ok (.around d walked) := by
  rw [walk_plain plain, map_ok_iff.mpr below]
  rfl

/-- The two outcomes of a walked body: returned as it is, or under a guarded binder. -/
theorem walk_bound_ok
    (ran : (group.walk (symbol :: expanding) body).bind (Walked.bindCycle symbol) = .ok result) :
    ∃ walked, group.walk (symbol :: expanding) body = .ok walked ∧
      (symbol ∉ walked.free ∧ result = walked ∨
        symbol ∈ walked.free ∧ walked.descriptor.reachesUnguarded symbol = false ∧
          result = ⟨.recursive symbol walked.descriptor, walked.free.erase symbol⟩) := by
  cases below : group.walk (symbol :: expanding) body with
  | error error =>
    rw [below] at ran
    cases ran
  | ok walked =>
    rw [below] at ran
    exact ⟨walked, rfl, Walked.bind_cycle_ok ran⟩

/-- The walk of a descriptor goes on in a body under a symbol: behind a reference that is expanded,
or behind a binder. -/
inductive Enters (group : Group) (expanding : List Symbol) (symbol : Symbol) (body : Descriptor) :
    Descriptor → Prop where
  | reference (fresh : symbol ∉ expanding) (found : group.body? symbol = some body) :
      Enters group expanding symbol body (.reference symbol)
  | binder : Enters group expanding symbol body (.recursive symbol body)

theorem walk_enters (enters : group.Enters expanding symbol body d) : group.walk expanding d =
    (group.walk (symbol :: expanding) body).bind (Walked.bindCycle symbol) := by
  cases enters with
  | reference fresh found => exact walk_expanded fresh found
  | binder => exact walk_recursive

/-- Induction along a walk that goes through. A body that is entered is left as it is, or gets its
binder; both ways of entering it come to the same. -/
@[elab_as_elim]
theorem walk_ok_induction
    {motive : ∀ expanding d walked, group.walk expanding d = .ok walked → Prop}
    (plain : ∀ expanding d parts ran, d.plain = true →
      List.Forall₂ (fun child one => ∃ ran, motive expanding child one ran) d.children parts →
      motive expanding d (.around d parts) ran)
    (stopped : ∀ expanding symbol ran, symbol ∈ expanding ∨ group.body? symbol = none →
      motive expanding (.reference symbol) (.loose symbol) ran)
    (left : ∀ expanding d symbol body inner below ran, group.Enters expanding symbol body d →
      symbol ∉ inner.free → motive (symbol :: expanding) body inner below →
      motive expanding d inner ran)
    (bound : ∀ expanding d symbol body inner below ran, group.Enters expanding symbol body d →
      symbol ∈ inner.free → inner.descriptor.reachesUnguarded symbol = false →
      motive (symbol :: expanding) body inner below →
      motive expanding d ⟨.recursive symbol inner.descriptor, inner.free.erase symbol⟩ ran)
    (ran : group.walk expanding d = .ok walked) : motive expanding d walked ran := by
  have entered : ∀ {expanding d symbol body walked} ran, group.Enters expanding symbol body d →
      (∀ {walked} ran, motive (symbol :: expanding) body walked ran) →
      motive expanding d walked ran := by
    intro expanding d symbol body walked ran enters ih
    have steps := ran
    rw [walk_enters enters] at steps
    obtain ⟨inner, below, ⟨closed, rfl⟩ | ⟨free, guarded, rfl⟩⟩ := walk_bound_ok steps
    · exact left _ _ _ _ _ below _ enters closed (ih below)
    · exact bound _ _ _ _ _ below _ enters free guarded (ih below)
  induction expanding, d using expansion_induction group generalizing walked with
  | plain expanding d kind ih =>
    obtain ⟨parts, below, rfl⟩ := walk_plain_ok kind ran
    refine plain _ _ _ _ kind ((partners_listed below).imp ?_)
    rintro child one ⟨listed, ran⟩
    exact ⟨ran, ih child listed ran⟩
  | stopped expanding symbol stop =>
    have steps := ran
    rw [walk_stopped stop] at steps
    cases steps
    exact stopped _ _ _ stop
  | expanded expanding symbol body fresh found ih => exact entered ran (.reference fresh found) ih
  | recursive expanding symbol body ih => exact entered ran .binder ih

/-! ## Closing -/

/-- Closing is a walk with nothing being expanded, whose first free symbol dangles. -/
theorem close_of_walk (ran : group.walk [] d = .ok walked) :
    group.closeType d = match walked.free.head? with
      | none => .ok walked.descriptor
      | some symbol => .error (.danglingReference symbol.description) := by
  rw [closeType, ran]
  obtain ⟨d, free⟩ := walked
  cases free <;> rfl

theorem close_of_walk_error (failed : group.walk [] d = .error error) :
    group.closeType d = .error error := by
  rw [closeType, failed]
  rfl

theorem walk_of_close (closes : group.closeType d = .ok closed) :
    ∃ walked, group.walk [] d = .ok walked ∧ walked.free = [] ∧ walked.descriptor = closed := by
  cases ran : group.walk [] d with
  | error error =>
    rw [close_of_walk_error ran] at closes
    cases closes
  | ok walked =>
    rw [close_of_walk ran] at closes
    cases first : walked.free.head? with
    | none =>
      rw [first] at closes
      exact ⟨walked, rfl, List.head?_eq_none_iff.mp first, Except.ok.inj closes⟩
    | some symbol =>
      rw [first] at closes
      cases closes

end Group
end Readings
