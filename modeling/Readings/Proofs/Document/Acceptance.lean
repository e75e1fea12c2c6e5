import Readings.Proofs.Document.References

/-!
Which documents compile. Compiling goes through three stages: the definitions are lowered, each of
them is closed, and the root is lowered and closed. What stops the first stage and the last is the
first fault of a node there; what stops the second is an unguarded cycle, told by the first
definition that reaches one (`closing_outcome`). Closing the root adds no way to fail, since it
expands nothing but definitions that have been closed by then (`root_closes`).
-/
namespace Readings
namespace Group
variable {group : Group}

/-- Closes the members of a group that have a name, in order. -/
def closeNamed (group : Group) (symbols : Entries Symbol) :
    Except SchemaError (Entries Descriptor) :=
  symbols.mapM fun (name, symbol) => do .ok (name, ← group.close symbol)

/-- Where all symbols that are reached have a body, only an unguarded cycle can stop closing. -/
theorem close_type_decided (bodies : group.BinderFree) (raw : d.binders = 0)
    (bound : ∀ symbol, group.Reaches d symbol → ∃ body, group.body? symbol = some body) :
    ((¬ ∃ symbol, group.Reaches d symbol ∧ group.OnUnguardedCycle symbol) ∧
        ∃ closed, group.closeType d = .ok closed) ∨
      ∃ symbol, group.Reaches d symbol ∧ group.OnUnguardedCycle symbol ∧
        group.closeType d = .error (.unguardedRecursion symbol.description) := by
  cases ran : group.walk [] d with
  | error error =>
    obtain ⟨symbol, rfl, path, cycle⟩ := walk_error bodies raw ran
    exact .inr ⟨symbol, reaches_iff.mpr path, cycle, close_of_walk_error ran⟩
  | ok walked =>
    refine .inl ⟨?_, walked.descriptor, ?_⟩
    · rintro ⟨symbol, reached, cycle⟩
      obtain ⟨body, found, path⟩ := trans_gen_iff.mp cycle
      exact walk_ok_guarded bodies raw ran (reaches_iff.mp reached) List.not_mem_nil found path
    · have closed : walked.free = [] := by
        refine List.eq_nil_iff_forall_not_mem.mpr fun symbol free => ?_
        obtain ⟨stop, path⟩ := (mem_free_iff_leads bodies raw ran).mp free
        obtain ⟨body, found⟩ := bound symbol (reaches_iff.mpr path)
        simp [found] at stop
      rw [close_of_walk ran, closed]
      rfl

/-- Bodies of different symbols are bound one after the other without a complaint. -/
theorem bind_distinct {rows : List (Symbol × Descriptor)}
    (distinct : ((group.bodies ++ rows).map Prod.fst).Nodup) :
    rows.foldlM (fun group row => group.bind row.1 row.2) group =
      .ok ⟨group.bodies ++ rows⟩ := by
  induction rows generalizing group with
  | nil => simp [pure, Except.pure]
  | cons row rest ih =>
    have rejoined : group.bodies ++ row :: rest = (group.bodies ++ [row]) ++ rest := by simp
    have fresh : group.body? row.1 = none := by
      simp only [List.map_append, List.map_cons] at distinct
      have apart := (List.nodup_append.mp distinct).2.2
      refine List.lookup_eq_none_iff.mpr fun entry listed => ?_
      have other := apart _ (List.mem_map_of_mem listed) row.1 List.mem_cons_self
      simpa using Ne.symm other
    have bound : group.bind row.1 row.2 = .ok ⟨group.bodies ++ [row]⟩ := by simp [bind, fresh]
    rw [List.foldlM_cons, bound, rejoined]
    rw [rejoined] at distinct
    exact ih distinct

end Group

namespace Document
variable {document : Document}

/-- References lead from a definition to one on an unguarded cycle. -/
def ReachesCycle (document : Document) (name : String) : Prop :=
  ∃ other, document.Reaches name other ∧ document.OnUnguardedCycle other

/-- The first fault in a definition, in document order. -/
def definitionFault? (document : Document) : Option SchemaError :=
  (document.definitions.flatMap fun entry => entry.2.nodes).findSome? (Node.fault? document.names)

/-- The first fault in the root. -/
def rootFault? (document : Document) : Option SchemaError :=
  document.root.firstFault? document.names

/-! ## Lowering the definitions -/

theorem failure_bodies (serial : Nat) (document : Document) :
    failure? (document.definitions.mapM fun entry => entry.2.lower (document.symbols serial)) =
      document.definitionFault? := by
  rw [failure_each, definitionFault?, ← keys_symbols serial]
  exact first_below fun entry _ => Node.failure_lower _ entry.2

/-- Either a definition has a fault, or all of them are lowered. -/
theorem lowered_of_no_fault (sound : document.definitionFault? = none) (serial : Nat) :
    ∃ bodies, document.Lowered serial bodies := by
  rw [← failure_bodies serial, failure_eq_none_iff] at sound
  obtain ⟨bodies, ran⟩ := sound
  exact ⟨bodies, map_ok_iff.mp ran⟩

theorem definition_fault_eq_none_iff : document.definitionFault? = none ↔
    ∀ entry ∈ document.definitions, ∀ node ∈ entry.2.nodes, node.Sound document.names := by
  simp only [definitionFault?, List.findSome?_eq_none_iff, List.mem_flatMap,
    Node.fault_eq_none_iff, forall_exists_index, and_imp]
  exact ⟨fun each entry listed node inside => each node entry listed inside,
    fun each node entry listed inside => each entry listed node inside⟩

theorem root_fault_eq_none_iff : document.rootFault? = none ↔
    ∀ node ∈ document.root.nodes, node.Sound document.names := by
  simp only [rootFault?, Node.firstFault?, List.findSome?_eq_none_iff, Node.fault_eq_none_iff]

theorem compile_of_definition_fault (fault : document.definitionFault? = some error)
    (serial : Nat) : document.compile serial = .error error := by
  rw [← failure_bodies serial, failure_eq_some_iff] at fault
  rw [compile, fault]
  rfl

theorem compile_of_lowered (lowered : document.Lowered serial bodies) :
    document.compile serial = (do
      let definitions ← (document.group serial bodies).closeNamed (document.symbols serial)
      let root ← document.root.lower (document.symbols serial)
      .ok ⟨← (document.group serial bodies).closeType root, definitions⟩) := by
  have ran := map_ok_iff.mpr lowered
  rw [compile, ran]
  rfl

/-- Binding the bodies in document order leaves the group, and no name is taken twice. -/
theorem group_bound (lowered : document.Lowered serial bodies) :
    (document.group serial bodies).bodies.foldlM (fun group row => group.bind row.1 row.2)
      Group.empty = .ok (document.group serial bodies) := by
  have distinct : ((document.group serial bodies).bodies.map Prod.fst).Nodup := by
    rw [group_symbols lowered]
    exact numbered_nodup serial document.names
  exact Group.bind_distinct distinct

/-! ## Closing -/

/-- A symbol that is reached from symbols of names belongs to a name. -/
theorem symbol_of_reached (keyed : document.Keyed) (lowered : document.Lowered serial bodies)
    (named : ∀ symbol, d.Mentions symbol →
      ∃ name, Entries.find? (document.symbols serial) name = some symbol)
    (reached : (document.group serial bodies).Reaches d symbol) :
    ∃ name, Entries.find? (document.symbols serial) name = some symbol := by
  obtain ⟨first, mentioned, path⟩ := reached
  cases path with
  | refl => exact named symbol mentioned
  | tail _ edge =>
    obtain ⟨_, name, _, found, _⟩ := (edge_iff keyed lowered Node.corresponds_any).mp edge
    exact ⟨name, found⟩

/-- Closing a descriptor over the names of the document fails only with a cycle. -/
theorem close_type_outcome (keyed : document.Keyed) (lowered : document.Lowered serial bodies)
    (raw : d.binders = 0)
    (named : ∀ symbol, d.Mentions symbol →
      ∃ name, Entries.find? (document.symbols serial) name = some symbol) :
    ((¬ ∃ symbol, (document.group serial bodies).Reaches d symbol ∧
          (document.group serial bodies).OnUnguardedCycle symbol) ∧
        ∃ closed, (document.group serial bodies).closeType d = .ok closed) ∨
      ∃ symbol, (document.group serial bodies).Reaches d symbol ∧
        (document.group serial bodies).OnUnguardedCycle symbol ∧
        (document.group serial bodies).closeType d =
          .error (.unguardedRecursion symbol.description) := by
  refine Group.close_type_decided (group_binder_free lowered) raw fun symbol reached => ?_
  obtain ⟨name, found⟩ := symbol_of_reached keyed lowered named reached
  exact body_of_symbol keyed lowered found

/-- A definition closes unless it reaches a cycle, and then the error names a definition on one. -/
theorem close_outcome (keyed : document.Keyed) (lowered : document.Lowered serial bodies)
    (own : Entries.find? (document.symbols serial) name = some symbol) :
    (¬ document.ReachesCycle name ∧
        ∃ closed, (document.group serial bodies).close symbol = .ok closed) ∨
      ∃ other, document.Reaches name other ∧ document.OnUnguardedCycle other ∧
        (document.group serial bodies).close symbol = .error (.unguardedRecursion other) := by
  have named : ∀ other, (Descriptor.reference symbol).Mentions other →
      ∃ name, Entries.find? (document.symbols serial) name = some other := by
    intro other mentioned
    obtain rfl := Descriptor.occurs_reference.mp mentioned
    exact ⟨name, own⟩
  rcases close_type_outcome keyed lowered rfl named with ⟨acyclic, closes⟩ | ⟨other, reached, cycle, fails⟩
  · refine .inl ⟨?_, closes⟩
    rintro ⟨other, reached, cycle⟩
    obtain ⟨target, found⟩ : ∃ target,
        Entries.find? (document.symbols serial) other = some target := by
      obtain ⟨_, refers, _⟩ := Relation.TransGen.head'_iff.mp cycle
      obtain ⟨node, listed, _⟩ := refers
      exact numbered_of_mem (List.mem_map_of_mem (f := Prod.fst) listed) serial
    exact acyclic ⟨target, (reaches_iff keyed lowered own).mpr ⟨other, found, reached⟩,
      (cycle_iff keyed lowered found).mpr cycle⟩
  · obtain ⟨deeper, found, path⟩ := (reaches_iff keyed lowered own).mp reached
    refine .inr ⟨deeper, path, (cycle_iff keyed lowered found).mp cycle, ?_⟩
    rw [← description_of_numbered found]
    exact fails

/-- Only definitions are on cycles. -/
theorem named_of_cycle (cycle : document.OnUnguardedCycle name) : name ∈ document.names := by
  obtain ⟨_, ⟨node, listed, _⟩, _⟩ := Relation.TransGen.head'_iff.mp cycle
  exact List.mem_map_of_mem (f := Prod.fst) listed

private theorem failure_close_named (group : Group) (symbols : Entries Symbol) :
    failure? (group.closeNamed symbols) =
      symbols.findSome? fun entry => failure? (group.close entry.2) := by
  rw [Group.closeNamed, failure_each]
  congr 1
  funext ⟨name, symbol⟩
  change failure? (do .ok (name, ← group.close symbol)) = failure? (group.close symbol)
  cases group.close symbol <;> rfl

/-- All definitions close where there is no cycle. Where there is one, the first definition that
reaches any stops the stage. -/
theorem closing_outcome (keyed : document.Keyed) (lowered : document.Lowered serial bodies) :
    ((∀ name, ¬ document.OnUnguardedCycle name) ∧ ∃ definitions,
        (document.group serial bodies).closeNamed (document.symbols serial) = .ok definitions) ∨
      ∃ before first after name, document.names = before ++ first :: after ∧
        (∀ other ∈ before, ¬ document.ReachesCycle other) ∧ document.Reaches first name ∧
        document.OnUnguardedCycle name ∧
        (document.group serial bodies).closeNamed (document.symbols serial) =
          .error (.unguardedRecursion name) := by
  have distinct : Entries.Distinct (document.symbols serial) := by
    rw [Entries.Distinct, keys_symbols]
    exact keyed.definitions
  have outcome := fun entry (listed : entry ∈ document.symbols serial) =>
    close_outcome keyed lowered (Entries.find_of_mem distinct listed)
  cases stage : failure? ((document.group serial bodies).closeNamed (document.symbols serial)) with
  | none =>
    refine .inl ⟨fun name cycle => ?_, failure_eq_none_iff.mp stage⟩
    rw [failure_close_named, List.findSome?_eq_none_iff] at stage
    obtain ⟨symbol, found⟩ := numbered_of_mem (named_of_cycle cycle) serial
    have listed := Entries.mem_of_find found
    rcases outcome _ listed with ⟨acyclic, _⟩ | ⟨_, _, _, fails⟩
    · exact acyclic ⟨name, .refl, cycle⟩
    · have closes := stage _ listed
      rw [fails] at closes
      cases closes
  | some error =>
    have failed := failure_eq_some_iff.mp stage
    rw [failure_close_named, List.findSome?_eq_some_iff] at stage
    obtain ⟨before, ⟨first, symbol⟩, after, split, fails, passed⟩ := stage
    have listed : ∀ entry, entry ∈ before ∨ entry = (first, symbol) →
        entry ∈ document.symbols serial := by
      intro entry member
      rw [split]
      rcases member with member | rfl <;> simp_all
    rcases outcome _ (listed _ (.inr rfl)) with ⟨_, _, closes⟩ | ⟨name, path, cycle, stops⟩
    · rw [closes] at fails
      cases fails
    · rw [stops] at fails
      cases fails
      refine .inr ⟨Entries.keys before, first, Entries.keys after, name, ?_, ?_, path, cycle, failed⟩
      · rw [← keys_symbols serial, split]
        simp [Entries.keys]
      · intro other known reaches
        obtain ⟨entry, member, rfl⟩ := List.mem_map.mp known
        rcases outcome _ (listed _ (.inl member)) with ⟨acyclic, _⟩ | ⟨_, _, _, stops⟩
        · exact acyclic reaches
        · have closes := passed entry member
          rw [stops] at closes
          cases closes

/-- Where no definition is on a cycle, the root closes whatever it refers to. -/
theorem root_closes (keyed : document.Keyed) (lowered : document.Lowered serial bodies)
    (acyclic : ∀ name, ¬ document.OnUnguardedCycle name)
    (ran : document.root.lower (document.symbols serial) = .ok raw) :
    ∃ closed, (document.group serial bodies).closeType raw = .ok closed := by
  have named : ∀ symbol, raw.Mentions symbol →
      ∃ name, Entries.find? (document.symbols serial) name = some symbol := by
    intro symbol mentioned
    obtain ⟨name, found, _⟩ := (Node.occurs_lower Node.corresponds_any keyed.root ran).mp mentioned
    exact ⟨name, found⟩
  have binders := Node.lower_binders document.root ran
  rcases close_type_outcome keyed lowered binders named with ⟨_, closes⟩ | ⟨symbol, reached, cycle, _⟩
  · exact closes
  · obtain ⟨name, found⟩ := symbol_of_reached keyed lowered named reached
    exact absurd ((cycle_iff keyed lowered found).mp cycle) (acyclic name)

/-! ## Compiling -/

/-- The three stages of a compilation, with what stops each. -/
theorem compile_outcome (keyed : document.Keyed) (serial : Nat) :
    (∃ error, document.definitionFault? = some error ∧
        document.compile serial = .error error) ∨
      document.definitionFault? = none ∧
        ((∃ before first after name, document.names = before ++ first :: after ∧
            (∀ other ∈ before, ¬ document.ReachesCycle other) ∧ document.Reaches first name ∧
            document.OnUnguardedCycle name ∧
            document.compile serial = .error (.unguardedRecursion name)) ∨
          (∀ name, ¬ document.OnUnguardedCycle name) ∧
            ((∃ error, document.rootFault? = some error ∧
                document.compile serial = .error error) ∨
              document.rootFault? = none ∧ ∃ schema, document.compile serial = .ok schema)) := by
  cases fault : document.definitionFault? with
  | some error => exact .inl ⟨error, rfl, compile_of_definition_fault fault serial⟩
  | none =>
    obtain ⟨bodies, lowered⟩ := lowered_of_no_fault fault serial
    refine .inr ⟨rfl, ?_⟩
    rw [compile_of_lowered lowered]
    rcases closing_outcome keyed lowered with ⟨acyclic, definitions, closes⟩ |
      ⟨before, first, after, name, split, passed, path, cycle, failed⟩
    · refine .inr ⟨acyclic, ?_⟩
      rw [closes]
      have root : failure? (document.root.lower (document.symbols serial)) =
          document.rootFault? := by
        rw [Node.failure_lower, keys_symbols]
        rfl
      cases ran : document.root.lower (document.symbols serial) with
      | error error =>
        rw [ran] at root
        exact .inl ⟨error, root.symm, rfl⟩
      | ok raw =>
        rw [ran] at root
        obtain ⟨closed, done⟩ := root_closes keyed lowered acyclic ran
        refine .inr ⟨root.symm, ⟨closed, definitions⟩, ?_⟩
        change (do .ok (Schema.mk (← (document.group serial bodies).closeType raw) definitions)) = _
        rw [done]
        rfl
    · exact .inl ⟨before, first, after, name, split, passed, path, cycle, by rw [failed]; rfl⟩

/-- What is wrong with a node by itself is neither a dangling reference nor a repeated name. -/
theorem fault_kinds (document : Document) (text : String) :
    ∀ error, document.definitionFault? = some error ∨ document.rootFault? = some error →
      error ≠ .danglingReference text ∧ error ≠ .duplicateName text := by
  have single : ∀ (node : Node) error, node.fault? document.names = some error →
      error ≠ .danglingReference text ∧ error ≠ .duplicateName text := by
    intro node error fault
    cases node <;> simp [Node.fault?] at fault <;> grind
  rintro error (fault | fault) <;>
    obtain ⟨node, _, own⟩ := List.exists_of_findSome?_eq_some fault <;>
    exact single node error own

/-- A document compiles exactly if all of its nodes are sound and no definition is on an unguarded
cycle. Otherwise the first fault of a definition is the error, then a cycle that the first
definition to reach any reaches, then the first fault of the root. Nothing dangles, no name is taken
twice, and the root closes once all definitions do. -/
theorem compile_accepts_exactly (keyed : document.Keyed) (serial : Nat) :
    ((∃ schema, document.compile serial = .ok schema) ↔
      (∀ entry ∈ document.definitions, ∀ node ∈ entry.2.nodes, node.Sound document.names) ∧
        (∀ node ∈ document.root.nodes, node.Sound document.names) ∧
        ∀ name, ¬ document.OnUnguardedCycle name) ∧
    (∀ error, document.definitionFault? = some error → document.compile serial = .error error) ∧
    (document.definitionFault? = none → (∃ name, document.OnUnguardedCycle name) →
      ∃ before first after name, document.names = before ++ first :: after ∧
        (∀ other ∈ before, ¬ document.ReachesCycle other) ∧ document.Reaches first name ∧
        document.OnUnguardedCycle name ∧
        document.compile serial = .error (.unguardedRecursion name)) ∧
    (document.definitionFault? = none → (∀ name, ¬ document.OnUnguardedCycle name) →
      ∀ error, document.rootFault? = some error → document.compile serial = .error error) ∧
    (∀ text, document.compile serial ≠ .error (.danglingReference text) ∧
      document.compile serial ≠ .error (.duplicateName text)) ∧
    (∀ bodies, document.Lowered serial bodies →
      (document.group serial bodies).bodies.foldlM (fun group row => group.bind row.1 row.2)
          Group.empty = .ok (document.group serial bodies) ∧
        ∀ definitions raw,
          (document.group serial bodies).closeNamed (document.symbols serial) = .ok definitions →
          document.root.lower (document.symbols serial) = .ok raw →
            ∃ closed, (document.group serial bodies).closeType raw = .ok closed) := by
  rw [← definition_fault_eq_none_iff, ← root_fault_eq_none_iff]
  have stages := compile_outcome keyed serial
  refine ⟨?_, ?_, ?_, ?_, ?_, ?_⟩
  · rcases stages with ⟨error, fault, failed⟩ | ⟨sound, ⟨_, _, _, name, _, _, _, cycle, failed⟩ |
      ⟨acyclic, ⟨error, fault, failed⟩ | ⟨below, schema, compiled⟩⟩⟩
    · simp [fault, failed]
    · simp only [failed, reduceCtorEq, exists_false, false_iff]
      exact fun accepted => accepted.2.2 name cycle
    · simp [fault, failed]
    · exact iff_of_true ⟨schema, compiled⟩ ⟨sound, below, acyclic⟩
  · exact fun error fault => compile_of_definition_fault fault serial
  · rintro sound ⟨name, cycle⟩
    rcases stages with ⟨error, fault, _⟩ | ⟨_, stopped | ⟨acyclic, _⟩⟩
    · simp [sound] at fault
    · exact stopped
    · exact absurd cycle (acyclic name)
  · intro sound acyclic error fault
    rcases stages with ⟨other, fault, _⟩ | ⟨_, ⟨_, _, _, name, _, _, _, cycle, _⟩ |
      ⟨_, ⟨other, again, failed⟩ | ⟨below, _⟩⟩⟩
    · simp [sound] at fault
    · exact absurd cycle (acyclic name)
    · obtain rfl := Option.some.inj (fault.symm.trans again)
      exact failed
    · simp [below] at fault
  · intro text
    have kinds := document.fault_kinds text
    rcases stages with ⟨error, fault, failed⟩ | ⟨sound, ⟨_, _, _, name, _, _, _, cycle, failed⟩ |
      ⟨acyclic, ⟨error, fault, failed⟩ | ⟨below, schema, compiled⟩⟩⟩
    · simpa [failed] using kinds error (.inl fault)
    · simp [failed]
    · simpa [failed] using kinds error (.inr fault)
    · simp [compiled]
  · intro bodies lowered
    refine ⟨group_bound lowered, fun definitions raw closes ran => ?_⟩
    rcases closing_outcome keyed lowered with ⟨acyclic, _⟩ | ⟨_, _, _, _, _, _, _, _, failed⟩
    · exact root_closes keyed lowered acyclic ran
    · rw [failed] at closes
      cases closes

/-- A cycle behind the second definition is the error; the unknown kind in the root is not told. -/
theorem nullable_loop_is_refused :
    let document : Document := ⟨.atom "text",
      [("name", .atom "string"), ("list", .array (.reference "loop")),
        ("loop", .nullable (.reference "loop"))]⟩
    document.Keyed ∧ document.rootFault? = some (.unknownPrimitive "text") ∧
      document.compile 0 = .error (.unguardedRecursion "loop") := by
  intro document
  have keyed : document.Keyed := ⟨by decide, by decide, by decide⟩
  have sound : document.definitionFault? = none := by decide
  have own : document.Refers Node.transparent "loop" "loop" :=
    ⟨.nullable (.reference "loop"), by simp [document],
      .child rfl (List.mem_singleton_self _) .reference⟩
  obtain ⟨_, _, _, name, _, _, _, cycle, failed⟩ :=
    (compile_accepts_exactly keyed 0).2.2.1 sound ⟨"loop", .single own⟩
  have only : name = "loop" := by
    obtain ⟨_, ⟨node, listed, inside⟩, _⟩ := Relation.TransGen.head'_iff.mp cycle
    simp only [document, List.mem_cons, Prod.mk.injEq, List.not_mem_nil, or_false] at listed
    rcases listed with ⟨_, rfl⟩ | ⟨_, rfl⟩ | ⟨rfl, _⟩
    · cases inside with
      | child _ below => cases below
    · cases inside with
      | child passes => cases passes
    · rfl
  exact ⟨keyed, by decide, only ▸ failed⟩

end Document
end Readings
