import Readings.Proofs.Closure.Totality
import Readings.Proofs.Document.Nodes

/-!
What a document compiles to. Lowering writes references and never a binder, so that the root and
every definition of a compiled document is the closed form of a raw descriptor without binders over
a group of such bodies. All that is known of closing applies to them; in particular every cast
against them answers.
-/
namespace Readings

/-! ## Lowering -/

namespace Descriptor

theorem binders_of_children {d : Descriptor} (plain : d.plain = true)
    (none : ∀ child ∈ d.children, child.binders = 0) : d.binders = 0 := by
  rw [binders_children plain, List.sum_eq_zero_iff_forall_eq_nat]
  intro count listed
  obtain ⟨child, below, rfl⟩ := List.mem_map.mp listed
  exact none child below

/-- The shape of an atom is a word of its own or a primitive. -/
theorem of_atom_ok (read : ofAtom name = .ok d) :
    d = .unknown ∨ d = .never ∨ ∃ kind, d = .primitive kind := by
  unfold ofAtom at read
  split at read
  · cases read
    exact .inl rfl
  · split at read
    · cases read
      exact .inr (.inl rfl)
    · cases known : PrimitiveKind.ofName name with
      | error error =>
        rw [known] at read
        cases read
      | ok kind =>
        rw [known] at read
        cases read
        exact .inr (.inr ⟨kind, rfl⟩)

theorem of_atom_binders (read : ofAtom name = .ok d) : d.binders = 0 := by
  obtain rfl | rfl | ⟨kind, rfl⟩ := of_atom_ok read <;> rfl

theorem map_with_binders (morphism : Morphism) (inner : Descriptor) :
    (mapWith morphism inner).binders = inner.binders := by
  unfold mapWith
  split <;> rfl

theorem of_fields_binders {fields : Entries Descriptor}
    (none : ∀ field ∈ fields, field.2.binders = 0) : (ofFields fields).binders = 0 := by
  refine binders_of_children rfl fun child below => ?_
  obtain ⟨field, listed, rfl⟩ := List.mem_map.mp below
  exact none field (Entries.mem_of_pairs listed)

end Descriptor

namespace Node
variable {symbols : Entries Symbol}

theorem raised_binders (node : Node) (none : ∀ shape ∈ shapes, shape.binders = 0) :
    (node.raised symbols shapes).binders = 0 := by
  unfold raised
  split
  · rename_i name
    cases read : Descriptor.ofAtom name with
    | error => rfl
    | ok d => exact Descriptor.of_atom_binders read
  · exact Descriptor.binders_of_children rfl none
  · exact Descriptor.binders_of_children rfl none
  · refine Descriptor.binders_of_children rfl fun child listed => ?_
    rcases List.mem_pair.mp listed with rfl | rfl
    · exact none _ List.mem_cons_self
    · rfl
  · refine Descriptor.binders_of_children rfl fun child listed => ?_
    rcases List.mem_pair.mp listed with rfl | rfl
    · exact none _ List.mem_cons_self
    · rfl
  · split
    · rw [Descriptor.map_with_binders]
      exact none _ List.mem_cons_self
    · exact none _ List.mem_cons_self
  · exact Descriptor.binders_of_children rfl none
  · exact Descriptor.binders_of_children rfl none
  · exact Descriptor.binders_of_children rfl none
  · exact Descriptor.of_fields_binders fun field listed => none _ (List.of_mem_zip listed).2
  all_goals rfl

/-- Lowering leaves all recursion to references. -/
theorem lower_binders (node : Node) (lowered : node.lower symbols = .ok d) : d.binders = 0 := by
  induction node using child_induction generalizing d with
  | step node ih =>
    obtain ⟨_, shapes, below, rfl⟩ := lower_ok lowered
    refine raised_binders node fun shape listed => ?_
    obtain ⟨child, under, ran⟩ := partner_of_right below listed
    exact ih child under ran

end Node

/-! ## Compiling -/

/-- Members of a group that have a name are closed one after the other. -/
theorem Group.close_each {group : Group} {symbols : Entries Symbol} {table : Entries Descriptor}
    (each : List.Forall₂ (fun entry closed => closed.1 = entry.1 ∧
      group.closeType (.reference entry.2) = .ok closed.2) symbols table) :
    (symbols.mapM fun (name, symbol) => do Except.ok (name, ← group.close symbol)) = .ok table := by
  refine map_ok_iff.mpr (each.imp ?_)
  rintro ⟨_, symbol⟩ ⟨name, closed⟩ ⟨rfl, closes⟩
  change (do Except.ok (name, ← group.closeType (.reference symbol))) = _
  rw [closes]
  rfl

/-- A compilation stage by stage: the bodies are lowered, the definitions are closed, and the root
is lowered and closed. -/
theorem compile_of_stages {document : Document} {group : Group}
    (lowered : (document.definitions.mapM fun (_, node) => node.lower (document.symbols serial)) =
      .ok bodies)
    (bound : group = ⟨(Entries.values (document.symbols serial)).zip bodies⟩)
    (closes : ((document.symbols serial).mapM fun (name, symbol) => do
      .ok (name, ← group.close symbol)) = .ok table)
    (ran : document.root.lower (document.symbols serial) = .ok raw)
    (root : group.closeType raw = .ok shape) : document.compile serial = .ok ⟨shape, table⟩ := by
  subst bound
  exact bind_ok_iff.mpr ⟨bodies, lowered, bind_ok_iff.mpr ⟨table, closes,
    bind_ok_iff.mpr ⟨raw, ran, bind_ok_iff.mpr ⟨shape, root, rfl⟩⟩⟩⟩

/-- A descriptor that stands for a raw one of a group, neither with a binder of its own. -/
def ClosedOver (group : Group) (d : Descriptor) : Prop :=
  ∃ raw, raw.binders = 0 ∧ group.closeType raw = .ok d

/-- What all lowered nodes and all references have, the parts have from which the root and all
definitions are closed, over one group of such bodies. -/
theorem compile_closes_over {document : Document} {P : Descriptor → Prop}
    (compiled : document.compile serial = .ok schema)
    (lowers : ∀ symbols node d, node = document.root ∨ node ∈ Entries.values document.definitions →
      node.lower symbols = .ok d → P d) (refers : ∀ symbol, P (.reference symbol)) :
    ∃ group : Group, (∀ entry ∈ group.bodies, P entry.2) ∧
      (∃ raw, P raw ∧ group.closeType raw = .ok schema.root) ∧
      ∀ entry ∈ schema.definitions, ∃ raw, P raw ∧ group.closeType raw = .ok entry.2 := by
  obtain ⟨bodies, lowered, compiled⟩ := ok_of_bind compiled
  obtain ⟨definitions, closed, compiled⟩ := ok_of_bind compiled
  obtain ⟨raw, root, compiled⟩ := ok_of_bind compiled
  obtain ⟨shape, closes, done⟩ := ok_of_bind compiled
  cases done
  refine ⟨_, ?_, ⟨raw, lowers _ _ raw (.inl rfl) root, closes⟩, ?_⟩
  · rintro ⟨symbol, body⟩ listed
    obtain ⟨definition, known, ran⟩ :=
      partner_of_right (map_ok_iff.mp lowered) (List.of_mem_zip listed).2
    exact lowers _ _ body (.inr (List.mem_map_of_mem known)) ran
  · intro entry listed
    obtain ⟨⟨name, symbol⟩, _, ran⟩ := partner_of_right (map_ok_iff.mp closed) listed
    obtain ⟨shape, closes, done⟩ := ok_of_bind ran
    cases done
    exact ⟨.reference symbol, refers symbol, closes⟩

/-- The root and all definitions are closed over one group of lowered bodies. -/
theorem compile_closes {document : Document} (compiled : document.compile serial = .ok schema) :
    ∃ group : Group, group.BinderFree ∧ ClosedOver group schema.root ∧
      ∀ entry ∈ schema.definitions, ClosedOver group entry.2 :=
  compile_closes_over compiled (fun _ node _ _ ran => node.lower_binders ran) fun _ => rfl

/-- Every value has an answer against the root of a compiled document and against each of its
definitions, and no further depth changes it. -/
theorem compiled_casts_answer {document : Document}
    (compiled : document.compile serial = .ok schema) (d : Descriptor)
    (part : d = schema.root ∨ ∃ name, (name, d) ∈ schema.definitions) (actual : Value) :
    ∃ outcome, d.cast actual = some outcome ∧
      ∀ budget, castBudget d actual ≤ budget → castWithin budget [] d actual = some outcome := by
  obtain ⟨group, bodies, root, definitions⟩ := compile_closes compiled
  have closed : ClosedOver group d := by
    rcases part with rfl | ⟨name, listed⟩
    · exact root
    · exact definitions (name, d) listed
  obtain ⟨raw, free, closes⟩ := closed
  obtain ⟨outcome, ran⟩ := close_type_total bodies free closes actual
  exact ⟨outcome, ran _ (Nat.le_refl _), ran⟩

/-- A tree of arrays is compiled, and a record of two trees has its answer at every depth from the
budget on. -/
theorem array_tree_answers :
    let tree : Symbol := ⟨0, "tree"⟩
    let node : Node := .union [.atom "string", .array (.reference "tree")]
    let document : Document := ⟨.record (.reference "tree"), [("tree", node)]⟩
    let body : Descriptor := .union [.primitive .string, .array (.reference tree)]
    let schema : Schema := ⟨.record (.recursive tree body), [("tree", .recursive tree body)]⟩
    let actual : Value := .object [("a", .array [.string "x"]), ("b", .array [])]
    document.compile 0 = .ok schema ∧
      schema.root.cast actual = some (.success [actual]) ∧
      ∀ budget, castBudget schema.root actual ≤ budget →
        castWithin budget [] schema.root actual = some (.success [actual]) := by
  intro tree node document body schema actual
  let group : Group := ⟨[(tree, body)]⟩
  have text : group.walk [tree] (.primitive .string) = .ok (.closed (.primitive .string)) :=
    Group.walk_of_children rfl [] .nil
  have leaf : group.walk [tree] (.reference tree) = .ok (.loose tree) :=
    Group.walk_stopped (.inl List.mem_cons_self)
  have items : group.walk [tree] (.array (.reference tree)) =
      .ok ⟨.array (.reference tree), [tree]⟩ :=
    Group.walk_of_children rfl [.loose tree] (.cons leaf .nil)
  have inside : group.walk [tree] body = .ok ⟨body, [tree]⟩ :=
    Group.walk_of_children rfl [.closed (.primitive .string), ⟨.array (.reference tree), [tree]⟩]
      (.cons text (.cons items .nil))
  have tied : group.walk [] (.reference tree) = .ok ⟨.recursive tree body, []⟩ := by
    rw [Group.walk_expanded List.not_mem_nil rfl, inside]
    rfl
  have root : group.walk [] (.record (.reference tree)) = .ok ⟨schema.root, []⟩ :=
    Group.walk_of_children rfl [⟨.recursive tree body, []⟩] (.cons tied .nil)
  have definitions : List.Forall₂ (fun entry closed => closed.1 = entry.1 ∧
      group.closeType (.reference entry.2) = .ok closed.2) [("tree", tree)] schema.definitions :=
    .cons ⟨rfl, Group.close_of_walk tied⟩ .nil
  have compiled : document.compile 0 = .ok schema :=
    compile_of_stages rfl rfl (Group.close_each definitions) rfl (Group.close_of_walk root)
  have ran : schema.root.cast actual = some (.success [actual]) := rfl
  obtain ⟨outcome, answered, deeper⟩ := compiled_casts_answer compiled schema.root (.inl rfl) actual
  obtain rfl := Option.some.inj (answered.symm.trans ran)
  exact ⟨compiled, ran, deeper⟩

end Readings
