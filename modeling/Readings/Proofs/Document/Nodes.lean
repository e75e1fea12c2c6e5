import Readings.Document.Compile
import Readings.Proofs.Closure.Walking
import Readings.Proofs.Failures
import Readings.Proofs.Json.Settled

/-!
Documents as trees of nodes. Each node can have one fault of its own, which the names of the
definitions decide (`Node.fault?`). Lowering looks for that fault first and then lowers the children
from left to right (`lower_eq`), so it fails exactly with the first fault in the order in which the
nodes are written (`failure_lower`).
-/
namespace Readings

/-- The first of the answers of lists side by side. -/
theorem first_below {items : List α} {f : α → Option γ} {below : α → List β} {g : β → Option γ}
    (each : ∀ item ∈ items, f item = (below item).findSome? g) :
    items.findSome? f = (items.flatMap below).findSome? g := by
  induction items with
  | nil => rfl
  | cons item rest ih =>
    have others := ih fun other listed => each other (List.mem_cons_of_mem _ listed)
    rw [List.findSome?_cons, List.flatMap_cons, List.findSome?_append, ← others,
      ← each item List.mem_cons_self]
    cases f item <;> rfl

/-! ## Nodes -/

/-- The names of builtins are those that are looked up. -/
theorem Builtin.named_iff {name : String} :
    name ∈ Builtin.all.map Builtin.name ↔ ∃ builtin, Builtin.named? name = some builtin := by
  rw [← Option.isSome_iff_exists, Builtin.named?, List.find?_isSome, List.mem_map]
  simp

namespace Node

/-- The nodes right below a node, from left to right. -/
def children : Node → List Node
  | .array item | .record item | .nullable item | .optional item | .map _ item => [item]
  | .tuple items | .union items | .intersection items => items
  | .object fields => Entries.values fields
  | .atom _ | .enumeration _ | .pure _ | .reference _ => []

mutual
/-- Every node, each before those below it. -/
def nodes : Node → List Node
  | .array item => .array item :: item.nodes
  | .record item => .record item :: item.nodes
  | .nullable inner => .nullable inner :: inner.nodes
  | .optional inner => .optional inner :: inner.nodes
  | .map morphism inner => .map morphism inner :: inner.nodes
  | .tuple items => .tuple items :: nodesAll items
  | .union members => .union members :: nodesAll members
  | .intersection members => .intersection members :: nodesAll members
  | .object fields => .object fields :: nodesFields fields
  | .atom name => [.atom name]
  | .enumeration literals => [.enumeration literals]
  | .pure value => [.pure value]
  | .reference name => [.reference name]

def nodesAll : List Node → List Node
  | [] => []
  | item :: rest => item.nodes ++ nodesAll rest

def nodesFields : List (String × Node) → List Node
  | [] => []
  | (_, item) :: rest => item.nodes ++ nodesFields rest
end

private theorem nodes_of_all (items : List Node) : nodesAll items = items.flatMap nodes :=
  flat_map_of_steps rfl (fun _ _ => rfl) items

private theorem nodes_of_fields (fields : List (String × Node)) :
    nodesFields fields = (Entries.values fields).flatMap nodes := by
  rw [Entries.values, List.flatMap_map]
  exact flat_map_of_steps rfl (fun _ _ => rfl) fields

theorem nodes_below (node : Node) : node.nodes = node :: node.children.flatMap nodes := by
  cases node <;> simp [nodes, children, nodes_of_all, nodes_of_fields]

theorem mem_nodes_self (node : Node) : node ∈ node.nodes := by
  rw [nodes_below]
  exact List.mem_cons_self

theorem mem_nodes_child {node child inner : Node} (below : child ∈ node.children)
    (inside : inner ∈ child.nodes) : inner ∈ node.nodes := by
  rw [nodes_below]
  exact List.mem_cons_of_mem _ (List.mem_flatMap.mpr ⟨child, below, inside⟩)

theorem size_of_child_lt {node child : Node} (below : child ∈ node.children) :
    sizeOf child < sizeOf node := by
  cases node with
  | array item | record item | nullable item | optional item | map _ item =>
    obtain rfl := List.mem_singleton.mp below
    simp
  | tuple items | union items | intersection items =>
    simp only [children] at below
    have smaller := List.sizeOf_lt_of_mem below
    simp
    omega
  | object fields =>
    obtain ⟨field, listed, rfl⟩ := List.mem_map.mp below
    have smaller := List.sizeOf_lt_of_mem listed
    obtain ⟨key, item⟩ := field
    simp at smaller ⊢
    omega
  | _ => cases below

/-- Induction over a node, with every child as a smaller case. -/
@[elab_as_elim]
theorem child_induction {motive : Node → Prop}
    (step : ∀ node, (∀ child ∈ node.children, motive child) → motive node) (node : Node) :
    motive node :=
  step node fun child _below => child_induction step child
termination_by sizeOf node
decreasing_by exact size_of_child_lt _below

/-! ## Faults -/

/-- Nothing is wrong with the node itself: an atom is a word or a primitive kind, the members of an
enumeration are scalars, a map names a builtin, and a reference names a definition. -/
def Sound (names : List String) : Node → Prop
  | .atom name => name ∈ "unknown" :: "never" :: PrimitiveKind.all.map PrimitiveKind.name
  | .enumeration literals => ∀ literal ∈ literals, literal.isContainer = false
  | .map morphism _ => morphism ∈ Builtin.all.map Builtin.name
  | .reference name => name ∈ names
  | _ => True

/-- The error that a node by itself is. -/
def fault? (names : List String) : Node → Option SchemaError
  | .atom name =>
    if name ∈ "unknown" :: "never" :: PrimitiveKind.all.map PrimitiveKind.name then none
    else some (.unknownPrimitive name)
  | .enumeration literals =>
    (literals.find? Json.isContainer).map fun literal => .invalidLiteral literal.compact
  | .map morphism _ =>
    if morphism ∈ Builtin.all.map Builtin.name then none else some (.unknownMorphism morphism)
  | .reference name => if name ∈ names then none else some (.undefinedName name)
  | .array _ | .record _ | .nullable _ | .optional _ | .tuple _ | .union _ | .intersection _
  | .object _ | .pure _ => none

theorem fault_eq_none_iff {node : Node} : node.fault? names = none ↔ node.Sound names := by
  cases node with
  | enumeration literals => simp [fault?, Sound]
  | atom | map | reference => simp only [fault?, Sound]; split <;> simp_all
  | _ => simp [fault?, Sound]

/-! ## Lowering, one level at a time -/

/-- The descriptor of a sound node, given those of its children. -/
def raised (symbols : Entries Symbol) : Node → List Descriptor → Descriptor
  | .atom name, _ => (Descriptor.ofAtom name).toOption.getD .never
  | .array _, [item] => .array item
  | .record _, [item] => .record item
  | .nullable _, [inner] => .nullable inner
  | .optional _, [inner] => .optional inner
  | .map name _, [inner] =>
    match Builtin.named? name with
    | some builtin => .mapWith builtin.morphism inner
    | none => inner
  | .tuple _, items => .tuple items
  | .union _, members => .union members
  | .intersection _, members => .intersection members
  | .object fields, shapes => .ofFields ((Entries.keys fields).zip shapes)
  | .enumeration literals, _ =>
    .oneOf (literals.filterMap fun literal => Literal.ofValue? (.ofJson literal))
  | .pure value, _ => .pure (.ofJson value)
  | .reference name, _ => .reference ((Entries.find? symbols name).getD default)
  | _, _ => .never

variable {symbols : Entries Symbol}

private theorem lower_all_eq (nodes : List Node) :
    lowerAll symbols nodes = nodes.mapM (lower symbols) := by
  induction nodes with
  | nil => rfl
  | cons node rest ih => rw [lowerAll, List.mapM_cons, ih]; rfl

private theorem lower_fields_eq (fields : List (String × Node)) : lowerFields symbols fields =
    ((Entries.values fields).mapM (lower symbols)).map ((Entries.keys fields).zip ·) := by
  induction fields with
  | nil => rfl
  | cons field rest ih =>
    obtain ⟨key, node⟩ := field
    have values : Entries.values ((key, node) :: rest) = node :: Entries.values rest := rfl
    rw [lowerFields, ih, values, List.mapM_cons]
    cases node.lower symbols with
    | error error => rfl
    | ok first => cases (Entries.values rest).mapM (lower symbols) <;> rfl

private theorem atom_eq (name : String) : Descriptor.ofAtom name =
    if name ∈ "unknown" :: "never" :: PrimitiveKind.all.map PrimitiveKind.name then
      .ok ((Descriptor.ofAtom name).toOption.getD .never)
    else .error (.unknownPrimitive name) := by
  unfold Descriptor.ofAtom PrimitiveKind.ofName
  by_cases unknown : name = "unknown"
  · simp [unknown, Except.toOption]
  · by_cases never : name = "never"
    · simp [never, Except.toOption]
    · rw [if_neg unknown, if_neg never]
      cases found : PrimitiveKind.all.find? (·.name == name) with
      | some kind =>
        have named : ∃ kind ∈ PrimitiveKind.all, kind.name = name :=
          ⟨kind, List.mem_of_find?_eq_some found, by simpa using List.find?_some found⟩
        rw [if_pos (by simp [named])]
        rfl
      | none =>
        have nameless : ∀ kind ∈ PrimitiveKind.all, kind.name ≠ name := by
          simpa using List.find?_eq_none.mp found
        rw [if_neg (by simpa [unknown, never] using nameless)]
        rfl

private theorem literal_of_json (json : Json) :
    Literal.ofJson json = if json.isContainer then .error (.invalidLiteral json.compact)
      else .ok ((Literal.ofValue? (.ofJson json)).getD default) := by
  cases json with
  | object members => simp [Literal.ofJson, Value.ofJson, Value.ofPairs, Literal.ofValue?, Json.isContainer]
  | _ => simp [Literal.ofJson, Value.ofJson, Literal.ofValue?, Json.isContainer]

private theorem literals_eq (literals : List Json) : literals.mapM Literal.ofJson =
    match literals.find? Json.isContainer with
    | some literal => .error (.invalidLiteral literal.compact)
    | none => .ok (literals.filterMap fun literal => Literal.ofValue? (.ofJson literal)) := by
  induction literals with
  | nil => rfl
  | cons literal rest ih =>
    rw [List.mapM_cons, literal_of_json, ih, List.find?_cons]
    cases container : literal.isContainer with
    | true => rfl
    | false =>
      have scalar : ∃ member, Literal.ofValue? (.ofJson literal) = some member := by
        cases literal with
        | array | object => cases container
        | _ => exact ⟨_, rfl⟩
      obtain ⟨member, scalar⟩ := scalar
      cases rest.find? Json.isContainer with
      | some other => rfl
      | none =>
        rw [List.filterMap_cons, scalar]
        rfl

private theorem builtin_eq (name : String) : Builtin.lookup name =
    match Builtin.named? name with
    | some builtin => .ok builtin.morphism
    | none => .error (.unknownMorphism name) := rfl

/-- A node with a fault is not lowered; any other has its children lowered from left to right. -/
theorem lower_eq (symbols : Entries Symbol) (node : Node) : node.lower symbols =
    match node.fault? (Entries.keys symbols) with
    | some error => .error error
    | none => (node.children.mapM (lower symbols)).map (node.raised symbols) := by
  cases node with
  | atom name =>
    rw [lower, atom_eq, fault?]
    split <;> rfl
  | array item | record item | nullable item | optional item =>
    rw [lower, fault?, children, List.mapM_cons]
    cases item.lower symbols <;> rfl
  | tuple items | union items | intersection items =>
    rw [lower, lower_all_eq, fault?, children]
    cases items.mapM (lower symbols) <;> rfl
  | object fields =>
    rw [lower, lower_fields_eq, fault?, children]
    cases (Entries.values fields).mapM (lower symbols) <;> rfl
  | enumeration literals =>
    rw [lower, literals_eq, fault?]
    cases literals.find? Json.isContainer <;> rfl
  | pure value =>
    rw [lower, fault?]
    rfl
  | map name inner =>
    rw [lower, builtin_eq, fault?, children, List.mapM_cons]
    cases named : Builtin.named? name with
    | none =>
      rw [if_neg (by simp [Builtin.named_iff, named])]
      rfl
    | some builtin =>
      rw [if_pos (Builtin.named_iff.mpr ⟨builtin, named⟩)]
      cases inner.lower symbols with
      | error error => rfl
      | ok shape =>
        have raises : (Node.map name inner).raised symbols [shape] =
            .mapWith builtin.morphism shape := by
          simp only [raised, named]
        exact congrArg Except.ok raises.symm
  | reference name =>
    rw [lower, fault?]
    by_cases known : name ∈ Entries.keys symbols
    · have found : Entries.find? symbols name ≠ none := fun none =>
        Entries.find_eq_none_iff.mp none known
      obtain ⟨symbol, found⟩ := Option.ne_none_iff_exists'.mp found
      have raises : (Node.reference name).raised symbols [] = .reference symbol := by
        simp only [raised, found, Option.getD_some]
      rw [if_pos known, found]
      exact congrArg Except.ok raises.symm
    · rw [if_neg known, Entries.find_eq_none_iff.mpr known]

/-- The first fault of a node, each node's own before those below it. -/
def firstFault? (names : List String) (node : Node) : Option SchemaError :=
  node.nodes.findSome? (fault? names)

/-- Lowering fails exactly with the first fault. -/
theorem failure_lower (symbols : Entries Symbol) (node : Node) :
    failure? (node.lower symbols) = node.firstFault? (Entries.keys symbols) := by
  induction node using child_induction with
  | step node ih =>
    rw [lower_eq, firstFault?, nodes_below, List.findSome?_cons]
    cases node.fault? (Entries.keys symbols) with
    | some error => rfl
    | none =>
      rw [failure_map, failure_each]
      exact first_below ih

/-- A node is lowered exactly if all nodes in it are sound. -/
theorem lower_ok_iff {symbols : Entries Symbol} {node : Node} :
    (∃ d, node.lower symbols = .ok d) ↔ ∀ inner ∈ node.nodes, inner.Sound (Entries.keys symbols) := by
  rw [← failure_eq_none_iff, failure_lower, firstFault?, List.findSome?_eq_none_iff]
  simp only [fault_eq_none_iff]

/-- A node that is lowered is sound, and raised around its lowered children. -/
theorem lower_ok {symbols : Entries Symbol} {node : Node} (lowered : node.lower symbols = .ok d) :
    node.Sound (Entries.keys symbols) ∧ ∃ shapes,
      List.Forall₂ (fun child shape => child.lower symbols = .ok shape) node.children shapes ∧
        d = node.raised symbols shapes := by
  rw [lower_eq] at lowered
  cases fault : node.fault? (Entries.keys symbols) with
  | some error =>
    rw [fault] at lowered
    cases lowered
  | none =>
    rw [fault] at lowered
    cases below : node.children.mapM (lower symbols) with
    | error error =>
      rw [below] at lowered
      cases lowered
    | ok shapes =>
      rw [below] at lowered
      cases lowered
      exact ⟨fault_eq_none_iff.mp fault, shapes, map_ok_iff.mp below, rfl⟩

end Node
end Readings
