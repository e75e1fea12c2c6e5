import Readings.Proofs.Closure.Acceptance
import Readings.Proofs.Descriptor.Nodes
import Readings.Proofs.Document.Compile

/-!
The reference graph of a document, on the names of its definitions. Lowering gives every name a
symbol and every reference the symbol of its name, so that the group of the lowered bodies has the
same graph on its symbols (`edge_iff`): what is reachable and what lies on an unguarded cycle can be
read off the document itself.
-/
namespace Readings
namespace Node

/-- A reference to the name stands somewhere below nodes that all let pass. -/
inductive Occurs (passes : Node → Bool) : Node → String → Prop where
  | reference : Occurs passes (.reference name) name
  | child (admitted : passes node = true) (below : child ∈ node.children)
      (inside : Occurs passes child name) : Occurs passes node name

/-- Every node lets pass. -/
def anyNode : Node → Bool := fun _ => true

/-- A node whose parts read the same input as it does itself. -/
def transparent : Node → Bool
  | .union _ | .intersection _ | .nullable _ | .optional _ | .map .. => true
  | _ => false

/-- A node that, where it is an object, has each key once. -/
def DeclaresOnce : Node → Prop
  | .object fields => Entries.Distinct fields
  | _ => True

instance : DecidablePred DeclaresOnce := fun node => by
  cases node <;> unfold DeclaresOnce <;> infer_instance

theorem occurs_in_reference : Occurs passes (.reference other) name ↔ name = other := by
  constructor
  · intro inside
    cases inside with
    | reference => rfl
    | child _ below _ => cases below
  · rintro rfl
    exact .reference

theorem Occurs.mem_nodes {node : Node} (inside : Occurs passes node name) :
    .reference name ∈ node.nodes := by
  induction inside with
  | reference => exact mem_nodes_self _
  | child _ below _ ih => exact mem_nodes_child below ih

theorem occurs_below {node : Node} (kind : ∀ other, node ≠ .reference other) :
    Occurs passes node name ↔
      passes node = true ∧ ∃ child ∈ node.children, Occurs passes child name := by
  constructor
  · intro inside
    cases inside with
    | reference => exact absurd rfl (kind name)
    | child admitted below inside => exact ⟨admitted, _, below, inside⟩
  · rintro ⟨admitted, child, below, inside⟩
    exact .child admitted below inside

/-- Descriptors let pass what the nodes that they are raised from let pass. -/
structure Corresponds (admits : Node → Bool) (passes : Descriptor → Bool) : Prop where
  raised : ∀ names symbols (node : Node) shapes, node.Sound names →
    (∀ other, node ≠ .reference other) → shapes.length = node.children.length →
      passes (node.raised symbols shapes) = admits node
  map : ∀ composition inner, passes (.map composition inner) = true

theorem raised_map {name : String} {inner : Node}
    (sound : (Node.map name inner).Sound names) :
    ∃ morphism, ∀ symbols shape,
      (Node.map name inner).raised symbols [shape] = .mapWith morphism shape := by
  obtain ⟨builtin, named⟩ := Builtin.named_iff.mp sound
  exact ⟨builtin.morphism, fun _ _ => by simp only [raised, named]⟩

/-- An atom is raised to a word of its own or a primitive. -/
theorem raised_word (symbols : Entries Symbol) (name : String) (shapes : List Descriptor) :
    (Node.atom name).raised symbols shapes = .unknown ∨
      (Node.atom name).raised symbols shapes = .never ∨
        ∃ kind, (Node.atom name).raised symbols shapes = .primitive kind := by
  rw [raised]
  cases read : Descriptor.ofAtom name with
  | error error => exact .inr (.inl rfl)
  | ok d => exact Descriptor.of_atom_ok read

/-- The descriptor of an atom has nothing below it. -/
private theorem raised_atom (symbols : Entries Symbol) (name : String) :
    ((Node.atom name).raised symbols []).transparent = false ∧
      ∀ passes symbol, ¬ ((Node.atom name).raised symbols []).Occurs passes symbol := by
  have leaf : ∀ d : Descriptor, d.plain = true → d.children = [] →
      d.transparent = false → d.transparent = false ∧ ∀ passes symbol, ¬ d.Occurs passes symbol := by
    intro d kind none blocks
    refine ⟨blocks, fun passes symbol inside => ?_⟩
    obtain ⟨_, child, below, _⟩ := (Descriptor.occurs_plain kind).mp inside
    rw [none] at below
    cases below
  obtain raises | raises | ⟨kind, raises⟩ := raised_word symbols name [] <;> rw [raises]
  · exact leaf .unknown rfl rfl rfl
  · exact leaf .never rfl rfl rfl
  · exact leaf (.primitive kind) rfl rfl rfl

theorem corresponds_any : Corresponds anyNode Descriptor.anyNode :=
  ⟨fun _ _ _ _ _ _ _ => rfl, fun _ _ => rfl⟩

theorem map_with_transparent (morphism : Morphism) (inner : Descriptor) :
    (Descriptor.mapWith morphism inner).transparent = true := by
  unfold Descriptor.mapWith
  split <;> rfl

theorem corresponds_transparent : Corresponds transparent Descriptor.transparent := by
  refine ⟨fun names symbols node shapes sound kind same => ?_, fun _ _ => rfl⟩
  cases node with
  | atom name =>
    obtain rfl := List.length_eq_zero_iff.mp same
    exact (raised_atom symbols name).1
  | array | record | nullable | optional =>
    obtain ⟨shape, rfl⟩ := List.length_eq_one_iff.mp same
    rfl
  | map name inner =>
    obtain ⟨shape, rfl⟩ := List.length_eq_one_iff.mp same
    obtain ⟨morphism, raises⟩ := raised_map sound
    rw [raises]
    exact map_with_transparent morphism shape
  | reference other => exact absurd rfl (kind other)
  | _ => rfl

private theorem occurs_map_with {passes : Descriptor → Bool}
    (maps : ∀ composition inner, passes (.map composition inner) = true) (morphism : Morphism)
    (inner : Descriptor) :
    (Descriptor.mapWith morphism inner).Occurs passes symbol ↔ inner.Occurs passes symbol := by
  have single : ∀ composition shape, (Descriptor.map composition shape).Occurs passes symbol ↔
      shape.Occurs passes symbol := by
    intro composition shape
    simp [Descriptor.occurs_plain (d := .map composition shape) rfl, maps, Descriptor.children]
  cases inner with
  | map composition shape => exact (single _ shape).trans (single composition shape).symm
  | _ => exact single _ _

/-- A raised node mentions what its children mention, where it lets pass. -/
private theorem occurs_raised {node : Node} (corresponds : Corresponds admits passes)
    (sound : node.Sound names) (once : node.DeclaresOnce)
    (kind : ∀ other, node ≠ .reference other) (same : shapes.length = node.children.length) :
    (node.raised symbols shapes).Occurs passes symbol ↔
      admits node = true ∧ ∃ shape ∈ shapes, shape.Occurs passes symbol := by
  rw [← corresponds.raised names symbols node shapes sound kind same]
  have scalar : ∀ primitive, ¬ (Descriptor.primitive primitive).Occurs passes symbol := by
    intro primitive inside
    obtain ⟨_, child, below, _⟩ := (Descriptor.occurs_plain rfl).mp inside
    cases below
  cases node with
  | atom name =>
    obtain rfl := List.length_eq_zero_iff.mp same
    simp [(raised_atom symbols name).2 passes symbol]
  | array | record =>
    obtain ⟨shape, rfl⟩ := List.length_eq_one_iff.mp same
    exact Descriptor.occurs_plain rfl
  | nullable | optional =>
    obtain ⟨shape, rfl⟩ := List.length_eq_one_iff.mp same
    refine (Descriptor.occurs_plain rfl).trans (and_congr_right fun _ => ?_)
    simp [raised, Descriptor.nullable, Descriptor.optional, Descriptor.children, scalar]
  | map name inner =>
    obtain ⟨shape, rfl⟩ := List.length_eq_one_iff.mp same
    obtain ⟨morphism, raises⟩ := raised_map sound
    have admitted : passes (.mapWith morphism shape) = true := by
      unfold Descriptor.mapWith
      split <;> exact corresponds.map _ _
    rw [raises, occurs_map_with corresponds.map, admitted]
    simp
  | tuple | union | intersection => exact Descriptor.occurs_plain rfl
  | object fields =>
    have counted : (Entries.keys fields).length = shapes.length := by
      simpa [Entries.keys, children, Entries.values] using same.symm
    have distinct : Entries.Distinct ((Entries.keys fields).zip shapes) := by
      rw [Entries.Distinct, Entries.keys_zip counted]
      exact once
    have written : (Node.object fields).raised symbols shapes =
        .object ((Entries.keys fields).zip shapes) :=
      congrArg Descriptor.object (Entries.of_pairs_distinct distinct)
    rw [written, Descriptor.occurs_plain rfl, Descriptor.children, Entries.values_zip counted]
  | enumeration | pure =>
    obtain rfl := List.length_eq_zero_iff.mp same
    exact Descriptor.occurs_plain rfl
  | reference other => exact absurd rfl (kind other)

/-- A lowered node refers to the symbols of the names that the node refers to. -/
theorem occurs_lower {node : Node} (corresponds : Corresponds admits passes)
    (once : ∀ inner ∈ node.nodes, inner.DeclaresOnce) (lowered : node.lower symbols = .ok d) :
    d.Occurs passes symbol ↔
      ∃ name, Entries.find? symbols name = some symbol ∧ node.Occurs admits name := by
  induction node using child_induction generalizing d with
  | step node ih =>
    obtain ⟨sound, shapes, below, rfl⟩ := lower_ok lowered
    by_cases kind : ∃ other, node = .reference other
    · obtain ⟨other, rfl⟩ := kind
      obtain ⟨own, found⟩ : ∃ own, Entries.find? symbols other = some own := by
        rw [← Option.ne_none_iff_exists']
        exact fun none => Entries.find_eq_none_iff.mp none sound
      rw [raised, found, Option.getD_some, Descriptor.occurs_reference]
      constructor
      · rintro rfl
        exact ⟨other, found, .reference⟩
      · rintro ⟨name, again, inside⟩
        obtain rfl := occurs_in_reference.mp inside
        exact Option.some.inj (again.symm.trans found)
    · simp only [not_exists] at kind
      rw [occurs_raised corresponds sound (once node (mem_nodes_self node)) kind
        below.length_eq.symm]
      have each : ∀ child ∈ node.children, ∀ shape, child.lower symbols = .ok shape →
          (shape.Occurs passes symbol ↔
            ∃ name, Entries.find? symbols name = some symbol ∧ child.Occurs admits name) :=
        fun child listed shape => ih child listed fun inner deep =>
          once inner (mem_nodes_child listed deep)
      constructor
      · rintro ⟨admitted, shape, listed, inside⟩
        obtain ⟨child, under, ran⟩ := partner_of_right below listed
        obtain ⟨name, found, deep⟩ := (each child under shape ran).mp inside
        exact ⟨name, found, .child admitted under deep⟩
      · rintro ⟨name, found, deep⟩
        obtain ⟨admitted, child, under, deep⟩ := (occurs_below kind).mp deep
        obtain ⟨shape, listed, ran⟩ := partner_of_left below under
        exact ⟨admitted, shape, listed, (each child under shape ran).mpr ⟨name, found, deep⟩⟩

end Node

namespace Document
variable {document : Document}

/-- The names of the definitions, in document order. -/
def names (document : Document) : List String := Entries.keys document.definitions

/-- The body of one definition refers to another. -/
def Refers (document : Document) (passes : Node → Bool) (one other : String) : Prop :=
  ∃ node, (one, node) ∈ document.definitions ∧ node.Occurs passes other

/-- References lead from one definition to another, or it is the same. -/
def Reaches (document : Document) : String → String → Prop :=
  Relation.ReflTransGen (document.Refers Node.anyNode)

/-- A definition comes back to itself through unions, intersections, nullable and optional shapes
and maps alone. -/
def OnUnguardedCycle (document : Document) (name : String) : Prop :=
  Relation.TransGen (document.Refers Node.transparent) name name

/-- Every table of a document has each key once. -/
structure Keyed (document : Document) : Prop where
  definitions : Entries.Distinct document.definitions
  bodies : ∀ entry ∈ document.definitions, ∀ node ∈ entry.2.nodes, node.DeclaresOnce
  root : ∀ node ∈ document.root.nodes, node.DeclaresOnce

/-! ## The group of a document -/

/-- Names with symbols counted up from a serial. -/
def numbered (serial : Nat) (names : List String) : Entries Symbol :=
  names.zipIdx.map fun (name, index) => (name, ⟨serial + index, name⟩)

theorem keys_numbered (serial : Nat) (names : List String) :
    Entries.keys (numbered serial names) = names := by
  simp [Entries.keys, numbered, Function.comp_def, List.zipIdx_map_fst]

theorem numbered_nodup (serial : Nat) (names : List String) :
    (Entries.values (numbered serial names)).Nodup := by
  have serials : (Entries.values (numbered serial names)).map Symbol.serial =
      (List.range' 0 names.length).map (serial + ·) := by
    simp [Entries.values, numbered, Function.comp_def, ← List.zipIdx_map_snd]
  refine List.Nodup.of_map Symbol.serial ?_
  rw [serials]
  exact List.Nodup.map (fun _ _ => Nat.add_left_cancel) List.nodup_range'

/-- The symbol of a name shows the name. -/
theorem description_of_numbered {names : List String}
    (found : Entries.find? (numbered serial names) name = some symbol) :
    symbol.description = name := by
  obtain ⟨⟨name, index⟩, _, same⟩ := List.mem_map.mp (Entries.mem_of_find found)
  cases same
  rfl

theorem numbered_of_mem {names : List String} (known : name ∈ names) (serial : Nat) :
    ∃ symbol, Entries.find? (numbered serial names) name = some symbol := by
  rw [← Option.ne_none_iff_exists', Ne, Entries.find_eq_none_iff, keys_numbered]
  exact fun absent => absent known

theorem symbols_eq (serial : Nat) (document : Document) :
    document.symbols serial = numbered serial document.names := rfl

theorem keys_symbols (serial : Nat) (document : Document) :
    Entries.keys (document.symbols serial) = document.names :=
  keys_numbered serial document.names

/-- The group of the bodies, one for each definition. -/
def group (document : Document) (serial : Nat) (bodies : List Descriptor) : Group :=
  ⟨(Entries.values (document.symbols serial)).zip bodies⟩

/-- The bodies are those of the definitions, lowered in document order. -/
def Lowered (document : Document) (serial : Nat) (bodies : List Descriptor) : Prop :=
  List.Forall₂ (fun entry body => entry.2.lower (document.symbols serial) = .ok body)
    document.definitions bodies

private theorem related_side_by_side {R : α → β → Prop} {S : α → γ → Prop}
    (first : List.Forall₂ R items others) (second : List.Forall₂ S items results) :
    List.Forall₂ (fun item pair => R item pair.1 ∧ S item pair.2) items (others.zip results) := by
  induction first generalizing results with
  | nil => exact .nil
  | cons head _ ih =>
    cases second with
    | cons next rest => exact .cons ⟨head, next⟩ (ih rest)

/-- Every definition has its symbol and its lowered body in the group. -/
theorem group_rows (keyed : document.Keyed) (lowered : document.Lowered serial bodies) :
    List.Forall₂ (fun entry row => Entries.find? (document.symbols serial) entry.1 = some row.1 ∧
        entry.2.lower (document.symbols serial) = .ok row.2)
      document.definitions (document.group serial bodies).bodies := by
  have distinct : Entries.Distinct (document.symbols serial) := by
    rw [Entries.Distinct, keys_symbols]
    exact keyed.definitions
  have named : List.Forall₂ (fun pair entry => pair.1 = entry.1)
      (document.symbols serial) document.definitions := by
    have same : Entries.keys (document.symbols serial) = Entries.keys document.definitions :=
      keys_symbols serial document
    rw [← List.forall₂_eq_eq_eq] at same
    exact List.forall₂_map_left_iff.mp (List.forall₂_map_right_iff.mp same)
  have found : List.Forall₂
      (fun entry symbol => Entries.find? (document.symbols serial) entry.1 = some symbol)
      document.definitions (Entries.values (document.symbols serial)) := by
    refine List.forall₂_map_right_iff.mpr ((partners_listed named).imp ?_).flip
    rintro ⟨name, symbol⟩ entry ⟨listed, same⟩
    change Entries.find? (document.symbols serial) entry.1 = some symbol
    rw [← same]
    exact Entries.find_of_mem distinct listed
  exact related_side_by_side found lowered

theorem group_symbols (lowered : document.Lowered serial bodies) :
    (document.group serial bodies).bodies.map Prod.fst =
      Entries.values (document.symbols serial) := by
  have counted : (Entries.values (document.symbols serial)).length ≤ bodies.length := by
    rw [← lowered.length_eq]
    simp [Entries.values, symbols, Entries.keys]
  exact List.map_fst_zip counted

/-- The body of a symbol is the lowered body of its definition. -/
theorem body_iff (keyed : document.Keyed) (lowered : document.Lowered serial bodies) :
    (document.group serial bodies).body? symbol = some body ↔
      ∃ entry ∈ document.definitions,
        Entries.find? (document.symbols serial) entry.1 = some symbol ∧
          entry.2.lower (document.symbols serial) = .ok body := by
  have rows := group_rows keyed lowered
  constructor
  · intro found
    exact partner_of_right rows (mem_of_lookup found)
  · rintro ⟨entry, listed, found, ran⟩
    obtain ⟨⟨own, shape⟩, member, again, same⟩ := partner_of_left rows listed
    obtain rfl := Option.some.inj (found.symm.trans again)
    obtain rfl := Except.ok.inj (ran.symm.trans same)
    refine lookup_of_mem ?_ member
    rw [group_symbols lowered]
    exact numbered_nodup serial document.names

/-- Every symbol of a document has a body. -/
theorem body_of_symbol (keyed : document.Keyed) (lowered : document.Lowered serial bodies)
    (found : Entries.find? (document.symbols serial) name = some symbol) :
    ∃ body, (document.group serial bodies).body? symbol = some body := by
  have known : name ∈ document.names := by
    rw [← keys_symbols serial]
    exact List.mem_map_of_mem (f := Prod.fst) (Entries.mem_of_find found)
  obtain ⟨entry, listed, rfl⟩ := List.mem_map.mp known
  obtain ⟨body, _, ran⟩ := partner_of_left lowered listed
  exact ⟨body, (body_iff keyed lowered).mpr ⟨entry, listed, found, ran⟩⟩

theorem group_binder_free (lowered : document.Lowered serial bodies) :
    (document.group serial bodies).BinderFree := by
  rintro ⟨symbol, body⟩ listed
  obtain ⟨definition, _, ran⟩ := partner_of_right lowered (List.of_mem_zip listed).2
  exact Node.lower_binders _ ran

/-! ## Edges -/

/-- The symbols have the same graph as the names. -/
theorem edge_iff (keyed : document.Keyed) (lowered : document.Lowered serial bodies)
    (corresponds : Node.Corresponds admits passes) :
    (document.group serial bodies).Edge passes source target ↔
      ∃ one other, Entries.find? (document.symbols serial) one = some source ∧
        Entries.find? (document.symbols serial) other = some target ∧
          document.Refers admits one other := by
  constructor
  · rintro ⟨body, found, inside⟩
    obtain ⟨⟨one, node⟩, listed, own, ran⟩ := (body_iff keyed lowered).mp found
    have once := keyed.bodies _ listed
    obtain ⟨other, named, inside⟩ := (Node.occurs_lower corresponds once ran).mp inside
    exact ⟨one, other, own, named, node, listed, inside⟩
  · rintro ⟨one, other, own, named, node, listed, inside⟩
    obtain ⟨body, _, ran⟩ := partner_of_left lowered listed
    have once := keyed.bodies _ listed
    exact ⟨body, (body_iff keyed lowered).mpr ⟨_, listed, own, ran⟩,
      (Node.occurs_lower corresponds once ran).mpr ⟨other, named, inside⟩⟩

/-- A name that a lowered definition refers to has a symbol. -/
theorem symbol_of_referred (lowered : document.Lowered serial bodies)
    (refers : document.Refers passes one other) :
    ∃ symbol, Entries.find? (document.symbols serial) other = some symbol := by
  obtain ⟨node, listed, inside⟩ := refers
  obtain ⟨body, _, ran⟩ := partner_of_left lowered listed
  have known : other ∈ Entries.keys (document.symbols serial) :=
    Node.lower_ok_iff.mp ⟨body, ran⟩ _ inside.mem_nodes
  rw [keys_symbols] at known
  exact numbered_of_mem known serial

/-- Paths of the graph of symbols are those of the graph of names. -/
theorem path_iff (keyed : document.Keyed) (lowered : document.Lowered serial bodies)
    (corresponds : Node.Corresponds admits passes)
    (own : Entries.find? (document.symbols serial) one = some source)
    (named : Entries.find? (document.symbols serial) other = some target) :
    Relation.TransGen ((document.group serial bodies).Edge passes) source target ↔
      Relation.TransGen (document.Refers admits) one other := by
  constructor
  · intro path
    rw [← description_of_numbered own, ← description_of_numbered named]
    refine path.lift Symbol.description fun source target edge => ?_
    obtain ⟨one, other, own, named, refers⟩ := (edge_iff keyed lowered corresponds).mp edge
    change document.Refers admits source.description target.description
    rwa [description_of_numbered own, description_of_numbered named]
  · intro path
    induction path generalizing target with
    | single refers =>
      exact .single ((edge_iff keyed lowered corresponds).mpr ⟨_, _, own, named, refers⟩)
    | tail before refers ih =>
      -- the name before the last is referred to as well, so it has a symbol
      obtain ⟨_, _, last⟩ := Relation.TransGen.tail'_iff.mp before
      obtain ⟨middle, found⟩ := symbol_of_referred lowered last
      exact (ih found).tail
        ((edge_iff keyed lowered corresponds).mpr ⟨_, _, found, named, refers⟩)

/-- A symbol lies on an unguarded cycle if its name does. -/
theorem cycle_iff (keyed : document.Keyed) (lowered : document.Lowered serial bodies)
    (own : Entries.find? (document.symbols serial) name = some symbol) :
    (document.group serial bodies).OnUnguardedCycle symbol ↔ document.OnUnguardedCycle name :=
  path_iff keyed lowered Node.corresponds_transparent own own

/-- What the reference to a definition reaches are the symbols of what the definition reaches. -/
theorem reaches_iff (keyed : document.Keyed) (lowered : document.Lowered serial bodies)
    (own : Entries.find? (document.symbols serial) one = some source) :
    (document.group serial bodies).Reaches (.reference source) target ↔
      ∃ other, Entries.find? (document.symbols serial) other = some target ∧
        document.Reaches one other := by
  have start : (document.group serial bodies).Reaches (.reference source) target ↔
      Relation.ReflTransGen ((document.group serial bodies).Edge Descriptor.anyNode)
        source target := by
    constructor
    · rintro ⟨first, inside, path⟩
      obtain rfl := Descriptor.occurs_reference.mp inside
      exact path
    · exact fun path => ⟨source, .reference, path⟩
  rw [start, Relation.reflTransGen_iff_eq_or_transGen]
  constructor
  · rintro (rfl | path)
    · exact ⟨one, own, .refl⟩
    · obtain ⟨_, _, edge⟩ := Relation.TransGen.tail'_iff.mp path
      obtain ⟨_, other, _, named, _⟩ :=
        (edge_iff keyed lowered Node.corresponds_any).mp edge
      exact ⟨other, named,
        ((path_iff keyed lowered Node.corresponds_any own named).mp path).to_reflTransGen⟩
  · rintro ⟨other, named, path⟩
    rcases Relation.reflTransGen_iff_eq_or_transGen.mp path with rfl | path
    · exact .inl (Option.some.inj (named.symm.trans own))
    · exact .inr ((path_iff keyed lowered Node.corresponds_any own named).mpr path)

end Document
end Readings
