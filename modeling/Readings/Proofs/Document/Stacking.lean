import Readings.Proofs.Closure.Stacking
import Readings.Proofs.Document.FrontEnds

/-!
Maps on maps, from documents and systems. `Obtained` collects what can be built: the constructors with
`mapWith` for every map, and closings over what has been built before. Compiling a document and fixing
a system are such closings. As long as no closing puts a map on a map, nothing obtained has one
(`flat_of_obtained`); a document is safe where none of its maps stands right over a reference.
-/
namespace Readings

/-- The descriptors that constructors and closings give, where each closing is one of the allowed. -/
inductive Obtained (allowed : Group → Descriptor → Prop) : Descriptor → Prop where
  | node (kind : d.isMap = false) (below : ∀ child ∈ d.children, Obtained allowed child) :
      Obtained allowed d
  | mapped (morphism : Morphism) (inner : Obtained allowed d) :
      Obtained allowed (.mapWith morphism d)
  | closed (bodies : ∀ entry ∈ group.bodies, Obtained allowed entry.2)
      (raw : Obtained allowed d) (allow : allowed group d)
      (closes : group.closeType d = .ok result) : Obtained allowed result

/-- What is obtained by whatever closings. -/
abbrev Obtainable : Descriptor → Prop := Obtained fun _ _ => True

theorem Obtained.leaf (kind : d.isMap = false) (none : d.children = []) : Obtained allowed d :=
  .node kind (by simp [none])

/-- As long as no closing puts a map on a map, none stands on another. -/
theorem flat_of_obtained (obtained : Obtained (fun group raw => ¬ group.Stacks [] raw) d) :
    d.Flat := by
  induction obtained with
  | node kind _ ih => exact Descriptor.flat_of_children kind ih
  | mapped morphism _ ih => exact Descriptor.map_with_flat morphism ih
  | closed _ _ allow closes => exact (Group.flat_close_iff closes).mpr allow

/-! ## Systems -/

/-- What all bodies of a system and all references have, the parts have from which the system is
closed, over one group of such bodies. -/
theorem fix_closes_over {definitions : List (Definition (Except SchemaError))}
    {P : Descriptor → Prop} (fixed : fix serial definitions = .ok table)
    (built : ∀ definition ∈ definitions, ∀ placeholders draft,
      definition.body placeholders = .ok draft → P draft.descriptor)
    (refers : ∀ symbol, P (.reference symbol)) :
    ∃ group : Group, (∀ entry ∈ group.bodies, P entry.2) ∧
      ∀ entry ∈ table, ∃ raw, P raw ∧ group.closeType raw = .ok entry.2 := by
  obtain ⟨placeholders, _, fixed⟩ := ok_of_bind fixed
  obtain ⟨drafts, drafted, fixed⟩ := ok_of_bind fixed
  have closes : placeholders.close drafts = .ok table := by
    cases closes : placeholders.close drafts with
    | error error =>
      rw [closes] at fixed
      cases fixed
    | ok answer =>
      rw [closes] at fixed
      cases fixed
      rfl
  rw [Placeholders.close] at closes
  split at closes
  · cases closes
  · refine ⟨⟨(Entries.values placeholders.symbols).zip (drafts.map Draft.descriptor)⟩, ?_,
      fun entry listed => ?_⟩
    · rintro ⟨symbol, body⟩ bound
      obtain ⟨draft, member, rfl⟩ := List.mem_map.mp (List.of_mem_zip bound).2
      obtain ⟨definition, known, ran⟩ := partner_of_right (map_ok_iff.mp drafted) member
      exact built definition known placeholders draft ran
    · obtain ⟨⟨name, symbol⟩, _, ran⟩ := partner_of_right (map_ok_iff.mp closes) listed
      obtain ⟨shape, closes, done⟩ := ok_of_bind ran
      cases done
      exact ⟨.reference symbol, refers symbol, closes⟩

/-! ## Lowered nodes -/

namespace Descriptor

/-- A transformation over a map extends it, and over any other plain node it is apart. -/
theorem map_with_apart (morphism : Morphism) {inner : Descriptor} (kind : inner.plain = true)
    (apart : inner.Apart) : (mapWith morphism inner).Apart := by
  cases inner with
  | map composition shape =>
    obtain ⟨own, below⟩ := each_node_iff.mp apart
    exact each_node_iff.mpr ⟨own, below⟩
  | reference | recursive => cases kind
  | _ => exact each_node_iff.mpr ⟨rfl, List.forall_mem_singleton.mpr apart⟩

theorem maps_apart_of_other {d : Descriptor} (kind : d.isMap = false) : d.mapsApart = true := by
  cases d with
  | map => cases kind
  | _ => rfl

theorem apart_of_leaf {d : Descriptor} (kind : d.isMap = false) (none : d.children = []) : d.Apart :=
  each_node_iff.mpr ⟨maps_apart_of_other kind, by simp [none]⟩

end Descriptor

namespace Node
variable {symbols : Entries Symbol}

/-- A node other than a map or a reference is raised to a plain node that is no map, with the shapes
of its children below it and, beside them, only primitives. -/
theorem raised_other {node : Node} (map : ∀ name inner, node ≠ .map name inner)
    (reference : ∀ name, node ≠ .reference name) (same : shapes.length = node.children.length) :
    (node.raised symbols shapes).plain = true ∧ (node.raised symbols shapes).isMap = false ∧
      ∀ child ∈ (node.raised symbols shapes).children,
        child ∈ shapes ∨ ∃ kind, child = .primitive kind := by
  cases node with
  | atom name =>
    obtain raises | raises | ⟨kind, raises⟩ := raised_word symbols name shapes <;>
      exact raises ▸ ⟨rfl, rfl, fun _ below => absurd below List.not_mem_nil⟩
  | array | record =>
    obtain ⟨shape, rfl⟩ := List.length_eq_one_iff.mp same
    exact ⟨rfl, rfl, fun _ => .inl⟩
  | nullable | optional =>
    obtain ⟨shape, rfl⟩ := List.length_eq_one_iff.mp same
    refine ⟨rfl, rfl, fun child below => ?_⟩
    rcases List.mem_pair.mp below with rfl | rfl
    · exact .inl List.mem_cons_self
    · exact .inr ⟨_, rfl⟩
  | tuple | union | intersection => exact ⟨rfl, rfl, fun _ => .inl⟩
  | object fields =>
    refine ⟨rfl, rfl, fun child below => .inl ?_⟩
    obtain ⟨field, listed, rfl⟩ := List.mem_map.mp below
    exact (List.of_mem_zip (Entries.mem_of_pairs listed)).2
  | enumeration | pure => exact ⟨rfl, rfl, fun _ below => absurd below List.not_mem_nil⟩
  | map name inner => exact absurd rfl (map name inner)
  | reference name => exact absurd rfl (reference name)

/-- Induction over a node that is lowered. What a map is lowered to is made by `mapWith`, and any node
that is neither a map nor a reference is lowered to another node around what its children are. -/
@[elab_as_elim]
theorem lower_ok_induction {motive : ∀ node d, lower symbols node = .ok d → Prop}
    (map : ∀ name inner morphism shape below ran, motive inner shape below →
      motive (.map name inner) (.mapWith morphism shape) ran)
    (reference : ∀ name symbol ran, motive (.reference name) (.reference symbol) ran)
    (other : ∀ node d ran, d.plain = true → d.isMap = false →
      (∀ shape ∈ d.children, (∃ child ∈ node.children, ∃ ran, motive child shape ran) ∨
        ∃ kind, shape = .primitive kind) → motive node d ran)
    (lowered : lower symbols node = .ok d) : motive node d lowered := by
  induction node using child_induction generalizing d with
  | step node ih =>
    obtain ⟨sound, shapes, below, rfl⟩ := lower_ok lowered
    cases node with
    | map name inner =>
      obtain ⟨shape, rest, ran, tail, rfl⟩ := List.forall₂_cons_left_iff.mp below
      obtain rfl := List.forall₂_nil_left_iff.mp tail
      obtain ⟨morphism, raises⟩ := raised_map sound
      simp only [raises] at lowered ⊢
      exact map _ _ _ _ ran lowered (ih inner List.mem_cons_self ran)
    | reference name => exact reference name _ lowered
    | _ =>
      obtain ⟨plain, kind, children⟩ := raised_other
        (fun _ _ => by simp) (fun _ => by simp) below.length_eq.symm
      refine other _ _ lowered plain kind fun shape listed => ?_
      refine (children shape listed).imp_left fun listed => ?_
      obtain ⟨child, under, ran⟩ := partner_of_right below listed
      exact ⟨child, under, ran, ih child under ran⟩

theorem lower_obtained (lowered : lower symbols node = .ok d) : Obtained allowed d := by
  induction lowered using lower_ok_induction with
  | map _ _ morphism _ _ _ ih => exact .mapped morphism ih
  | reference => exact .leaf rfl rfl
  | other _ _ _ _ kind below =>
    refine .node kind fun shape listed => ?_
    obtain ⟨_, _, _, ih⟩ | ⟨primitive, rfl⟩ := below shape listed
    · exact ih
    · exact .leaf rfl rfl

/-- A map right over a reference. -/
def mapsReference : Node → Bool
  | .map _ (.reference _) => true
  | _ => false

/-- Where no map stands right over a reference, none is lowered to a map right over one. -/
theorem lower_apart (lowered : lower symbols node = .ok d)
    (apart : ∀ inner ∈ node.nodes, inner.mapsReference = false) :
    d.Apart ∧ ((∀ name, node ≠ .reference name) → d.plain = true) := by
  induction lowered using lower_ok_induction with
  | map name inner morphism shape _ _ ih =>
    obtain ⟨each, plain⟩ := ih fun deep inside =>
      apart deep (mem_nodes_child List.mem_cons_self inside)
    have direct : ∀ name, inner ≠ .reference name := by
      rintro other rfl
      cases apart _ (mem_nodes_self _)
    exact ⟨Descriptor.map_with_apart morphism (plain direct) each,
      fun _ => Descriptor.plain_of_transparent (map_with_transparent morphism shape)⟩
  | reference name symbol =>
    exact ⟨Descriptor.apart_of_leaf rfl rfl, fun direct => absurd rfl (direct name)⟩
  | other node d _ plain kind below =>
    refine ⟨Descriptor.each_node_iff.mpr ⟨Descriptor.maps_apart_of_other kind, ?_⟩, fun _ => plain⟩
    intro shape listed
    obtain ⟨child, under, _, ih⟩ | ⟨primitive, rfl⟩ := below shape listed
    · exact (ih fun deep inside => apart deep (mem_nodes_child under inside)).1
    · exact Descriptor.apart_of_leaf rfl rfl

end Node

namespace Document
variable {document : Document}

/-- All that a document compiles to is obtained by closings. -/
theorem compile_obtains (compiled : document.compile serial = .ok schema) :
    Obtainable schema.root ∧ ∀ entry ∈ schema.definitions, Obtainable entry.2 := by
  obtain ⟨group, bodies, ⟨raw, root, closes⟩, definitions⟩ :=
    compile_closes_over compiled (P := Obtainable) (fun _ _ _ _ => Node.lower_obtained)
      fun _ => .leaf rfl rfl
  refine ⟨.closed bodies root trivial closes, fun entry listed => ?_⟩
  obtain ⟨raw, body, closes⟩ := definitions entry listed
  exact .closed bodies body trivial closes

/-- No map of a document stands right over a reference. -/
def MapsNoReference (document : Document) : Prop :=
  ∀ node, node = document.root ∨ node ∈ Entries.values document.definitions →
    ∀ inner ∈ node.nodes, inner.mapsReference = false

theorem compile_flat (compiled : document.compile serial = .ok schema)
    (apart : document.MapsNoReference)
    (part : d = schema.root ∨ ∃ name, (name, d) ∈ schema.definitions) : d.Flat := by
  obtain ⟨group, bodies, root, definitions⟩ :=
    compile_closes_over compiled
      (fun _ node _ known ran => (Node.lower_apart ran (apart node known)).1)
      fun _ => Descriptor.apart_of_leaf rfl rfl
  obtain ⟨raw, each, closes⟩ : ∃ raw, raw.Apart ∧ group.closeType raw = .ok d := by
    rcases part with rfl | ⟨name, listed⟩
    · exact root
    · exact definitions (name, d) listed
  exact (Group.flat_close_iff closes).mpr (Group.not_stacks_of_apart bodies each)

/-- The reference in the root of a document stands for a map, and closing puts the map of the
definition right under that of the root. A binder that captures nothing is dropped between two maps
with the same result. -/
theorem map_of_reference_stacks :
    let document : Document :=
      ⟨.map "first" (.reference "a"), [("a", .map "keys" (.atom "unknown"))]⟩
    let keys : Descriptor := .mapWith Builtin.keys.morphism .unknown
    let root : Descriptor := .map (.compose Builtin.first.morphism .id) keys
    document.compile 0 = .ok ⟨root, [("a", keys)]⟩ ∧
      fixOne ⟨0, "a"⟩ (.mapWith Builtin.first.morphism (.recursive ⟨1, "b"⟩ keys)) = .ok root ∧
      Obtainable root ∧ ¬ root.Flat ∧ ¬ ∀ d, Obtainable d → d.Flat := by
  intro document keys root
  have compiled : document.compile 0 = .ok ⟨root, [("a", keys)]⟩ := by
    let group : Group := ⟨[(⟨0, "a"⟩, keys)]⟩
    have definition_closes : group.closeType (.reference ⟨0, "a"⟩) = .ok keys := by cbv
    have root_closes : group.closeType (.mapWith Builtin.first.morphism (.reference ⟨0, "a"⟩)) =
        .ok root := by cbv
    exact compile_of_stages rfl rfl (Group.close_each (.cons ⟨rfl, definition_closes⟩ .nil)) rfl
      root_closes
  have fixed : fixOne ⟨0, "a"⟩ (.mapWith Builtin.first.morphism (.recursive ⟨1, "b"⟩ keys)) =
      .ok root := by cbv
  have obtained : Obtainable root := (compile_obtains compiled).1
  have stacked : ¬ root.Flat := fun flat => Bool.false_ne_true (flat root .self).symm
  exact ⟨compiled, fixed, obtained, stacked, fun every => stacked (every root obtained)⟩

end Document

/-- What is obtained by constructors and by closings that put no map on a map has none on another. A
closing puts one there exactly if it arrives at a map over something that becomes a map, which a
reference or a binder does whose body becomes one and gets no binder. It does not where all maps
stand apart from references, binders and other maps, as in the bodies of a system or in a single
body, nor in a document that has no map right over a reference. -/
theorem maps_stay_apart_unless_inlined (d : Descriptor) :
    (Obtained (fun group raw => ¬ group.Stacks [] raw) d → d.Flat) ∧
      (∀ (group : Group) raw, group.closeType raw = .ok d →
        (d.Flat ↔ ¬ group.Stacks [] raw) ∧
        ((∀ entry ∈ group.bodies, entry.2.Apart) → raw.Apart → d.Flat)) ∧
      (∀ (document : Document) serial schema, document.compile serial = .ok schema →
        document.MapsNoReference →
          (d = schema.root ∨ ∃ name, (name, d) ∈ schema.definitions) → d.Flat) ∧
      (∀ (definitions : List (Definition (Except SchemaError))) serial table,
        fix serial definitions = .ok table →
        (∀ definition ∈ definitions, ∀ placeholders draft,
          definition.body placeholders = .ok draft → draft.descriptor.Apart) →
        d ∈ Entries.values table → d.Flat) ∧
      ∀ me body, fixOne me body = .ok d → body.Apart → d.Flat := by
  have apart_flat : ∀ (group : Group) raw, group.closeType raw = .ok d →
      (∀ entry ∈ group.bodies, entry.2.Apart) → raw.Apart → d.Flat :=
    fun group raw closes bodies apart =>
      (Group.flat_close_iff closes).mpr (Group.not_stacks_of_apart bodies apart)
  have reference : ∀ symbol, (Descriptor.reference symbol).Apart :=
    fun _ => Descriptor.apart_of_leaf rfl rfl
  refine ⟨flat_of_obtained,
    fun group raw closes => ⟨Group.flat_close_iff closes, apart_flat group raw closes⟩,
    fun _ _ _ => Document.compile_flat, fun definitions serial table fixed built listed => ?_,
    fun me body fixed apart => ?_⟩
  · obtain ⟨entry, known, rfl⟩ := List.mem_map.mp listed
    obtain ⟨group, bodies, each⟩ := fix_closes_over fixed built reference
    obtain ⟨raw, apart, closes⟩ := each entry known
    exact apart_flat group raw closes bodies apart
  · exact apart_flat _ _ fixed (List.forall_mem_singleton.mpr apart) (reference me)

/-- A map over a reference that gets a binder stays apart from the map in the binder. The same body
is closed in a group, in a document, in a system and by itself. -/
theorem bound_map_stays_apart :
    let a : Symbol := ⟨0, "a"⟩
    let around (own : Descriptor) : Descriptor := .mapWith Builtin.first.morphism (.array own)
    let tied (own : Symbol) : Descriptor := .recursive own (around (.reference own))
    let raw : Descriptor := .mapWith Builtin.keys.morphism (.reference a)
    let group : Group := ⟨[(a, around (.reference a))]⟩
    let closed : Descriptor := .mapWith Builtin.keys.morphism (tied a)
    let document : Document :=
      ⟨.array (.reference "a"), [("a", .map "first" (.array (.reference "a")))]⟩
    let definition : Definition (Except SchemaError) := ⟨"a", fun placeholders =>
      let own := placeholders.get "a"
      .ok ⟨around own.descriptor, own.missing⟩⟩
    (group.closeType raw = .ok closed ∧ ¬ group.Stacks [] raw ∧ closed.Flat) ∧
      (document.compile 0 = .ok ⟨.array (tied a), [("a", tied a)]⟩ ∧
        Descriptor.Flat (.array (tied a))) ∧
      (fix 7 [definition] = .ok [("a", tied ⟨7, "a"⟩)] ∧ (tied ⟨7, "a"⟩).Flat) ∧
      fixOne ⟨3, "a"⟩ (around (.reference ⟨3, "a"⟩)) = .ok (tied ⟨3, "a"⟩) ∧
        (tied ⟨3, "a"⟩).Flat := by
  intro a around tied raw group closed document definition
  have apart : ∀ own, (around (.reference own)).Apart := fun own =>
    Descriptor.map_with_apart _ rfl (Descriptor.each_node_iff.mpr
      ⟨rfl, List.forall_mem_singleton.mpr (Descriptor.apart_of_leaf rfl rfl)⟩)
  refine ⟨?group, ?document, ?system, ?single⟩
  case group =>
    have closes : group.closeType raw = .ok closed := by cbv
    obtain ⟨flat, closings, _⟩ := maps_stay_apart_unless_inlined closed
    have kept : ¬ group.Stacks [] raw := (closings group raw closes).1.mp (by decide)
    have built : Obtained (fun group raw => ¬ group.Stacks [] raw) (around (.reference a)) :=
      .mapped _ (.node rfl (List.forall_mem_singleton.mpr (.leaf rfl rfl)))
    exact ⟨closes, kept, flat (.closed (List.forall_mem_singleton.mpr built)
      (.mapped _ (.leaf rfl rfl)) kept closes)⟩
  case document =>
    have definition_closes : group.closeType (.reference a) = .ok (tied a) := by cbv
    have root_closes : group.closeType (.array (.reference a)) = .ok (.array (tied a)) := by cbv
    have compiled : document.compile 0 = .ok ⟨.array (tied a), [("a", tied a)]⟩ :=
      compile_of_stages rfl rfl (Group.close_each (.cons ⟨rfl, definition_closes⟩ .nil)) rfl
        root_closes
    have direct : document.MapsNoReference := by
      rintro node (rfl | known)
      · decide
      · obtain rfl := List.mem_singleton.mp known
        decide
    obtain ⟨_, _, documents, _⟩ := maps_stay_apart_unless_inlined (.array (tied a))
    exact ⟨compiled, documents document 0 _ compiled direct (.inl rfl)⟩
  case system =>
    let own : Group := ⟨[(⟨7, "a"⟩, around (.reference ⟨7, "a"⟩))]⟩
    have closes : own.closeType (.reference ⟨7, "a"⟩) = .ok (tied ⟨7, "a"⟩) := by cbv
    have fixed : fix 7 [definition] = .ok [("a", tied ⟨7, "a"⟩)] := by
      rw [fix_of_bodies (by decide) (.cons rfl .nil)]
      exact Group.close_each (.cons ⟨rfl, closes⟩ .nil)
    obtain ⟨_, _, _, systems, _⟩ := maps_stay_apart_unless_inlined (tied ⟨7, "a"⟩)
    refine ⟨fixed, systems [definition] 7 _ fixed (List.forall_mem_singleton.mpr ?_)
      List.mem_cons_self⟩
    rintro placeholders _ ⟨⟩
    obtain ⟨own, same⟩ : ∃ own, (placeholders.get "a").descriptor = .reference own := by
      unfold Placeholders.get
      split <;> exact ⟨_, rfl⟩
    change (around (placeholders.get "a").descriptor).Apart
    exact same ▸ apart own
  case single =>
    have closes : fixOne ⟨3, "a"⟩ (around (.reference ⟨3, "a"⟩)) = .ok (tied ⟨3, "a"⟩) := by cbv
    obtain ⟨_, _, _, _, single⟩ := maps_stay_apart_unless_inlined (tied ⟨3, "a"⟩)
    exact ⟨closes, single _ _ closes (apart _)⟩

end Readings
