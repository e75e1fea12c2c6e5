import Readings.Proofs.Descriptor.Binders

/-!
What is said of every node of a descriptor, at whatever depth it stands. The nodes are listed, so
that such a property can be decided for a given descriptor. Two kinds of node matter to what a cast
can make of its input: a node that transforms has readings of another shape than its parts, and a
node that invents has readings that need not come from the input at all.
-/
namespace Readings
namespace Descriptor

mutual
/-- Every node, each before those below it. -/
def nodes : Descriptor → List Descriptor
  | .array item => .array item :: item.nodes
  | .record item => .record item :: item.nodes
  | .map composition inner => .map composition inner :: inner.nodes
  | .recursive symbol body => .recursive symbol body :: body.nodes
  | .tuple items => .tuple items :: nodesAll items
  | .union members => .union members :: nodesAll members
  | .intersection members => .intersection members :: nodesAll members
  | .object fields => .object fields :: nodesFields fields
  | .unknown => [.unknown]
  | .never => [.never]
  | .primitive kind => [.primitive kind]
  | .enumeration members => [.enumeration members]
  | .pure value => [.pure value]
  | .reference symbol => [.reference symbol]

def nodesAll : List Descriptor → List Descriptor
  | [] => []
  | item :: rest => item.nodes ++ nodesAll rest

def nodesFields : List (String × Descriptor) → List Descriptor
  | [] => []
  | (_, item) :: rest => item.nodes ++ nodesFields rest
end

private theorem nodes_all (items : List Descriptor) : nodesAll items = items.flatMap nodes :=
  flat_map_of_steps rfl (fun _ _ => rfl) items

private theorem nodes_fields (fields : List (String × Descriptor)) :
    nodesFields fields = (Entries.values fields).flatMap nodes := by
  rw [Entries.values, List.flatMap_map]
  exact flat_map_of_steps rfl (fun _ _ => rfl) fields

theorem nodes_children (d : Descriptor) : d.nodes = d :: d.children.flatMap nodes := by
  cases d <;> simp [nodes, children, nodes_all, nodes_fields]

theorem mem_nodes_iff {d : Descriptor} : node ∈ d.nodes ↔ d.Contains node := by
  induction d using child_induction with
  | node d ih =>
    rw [nodes_children, List.mem_cons, List.mem_flatMap]
    constructor
    · rintro (rfl | ⟨child, below, inside⟩)
      · exact .self
      · exact .child below ((ih child below).mp inside)
    · intro inside
      cases inside with
      | self => exact .inl rfl
      | child below inside => exact .inr ⟨_, below, (ih _ below).mpr inside⟩

/-- Every node of a descriptor has a property. -/
def EachNode (d : Descriptor) (P : Descriptor → Prop) : Prop := ∀ node, d.Contains node → P node

instance (d : Descriptor) (P : Descriptor → Prop) [DecidablePred P] : Decidable (d.EachNode P) :=
  decidable_of_iff (∀ node ∈ d.nodes, P node) (forall_congr' fun _ => imp_congr_left mem_nodes_iff)

theorem EachNode.child {d child : Descriptor} (each : d.EachNode P) (below : child ∈ d.children) :
    child.EachNode P :=
  fun node inside => each node (.child below inside)

theorem each_node_iff {d : Descriptor} :
    d.EachNode P ↔ P d ∧ ∀ child ∈ d.children, child.EachNode P := by
  constructor
  · exact fun each => ⟨each d .self, fun _ below => each.child below⟩
  · rintro ⟨own, each⟩ node inside
    cases inside with
    | self => exact own
    | child below inside => exact each _ below node inside

/-- A map and an intersection: what they read is not what they are given. -/
def transforms : Descriptor → Bool
  | .map .. | .intersection _ => true
  | _ => false

/-- A node whose readings need not come from the input. -/
def invents : Descriptor → Bool
  | .pure _ => true
  | d => d.transforms

/-- The keys of an object shape in a descriptor. -/
def Declares (d : Descriptor) (keys : List String) : Prop :=
  ∃ fields, d.Contains (.object fields) ∧ Entries.keys fields = keys

/-- A key of some object shape in a descriptor. -/
def DeclaresKey (d : Descriptor) (key : String) : Prop := ∃ keys, d.Declares keys ∧ key ∈ keys

/-- A node that, where it is an object shape, declares each key once. -/
def DeclaresOnce : Descriptor → Prop
  | .object fields => Entries.Distinct fields
  | _ => True

instance : DecidablePred DeclaresOnce := fun d => by
  cases d <;> unfold DeclaresOnce <;> infer_instance

/-- Every object shape in a descriptor declares each key once. -/
abbrev Keyed (d : Descriptor) : Prop := d.EachNode DeclaresOnce

end Descriptor
end Readings
