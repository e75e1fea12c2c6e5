import Readings.Proofs.Document.References
import Readings.Proofs.Json.Settled
import Readings.Proofs.Value.Reordering

/-!
Schema documents and their spelling. What JSON data spells which node is told by `Spells`, one rule
for each form of a node, and decoding is exactly this relation (`of_json_iff`). Every node has a
spelling of its own, from which it is decoded again when its tables and payloads have each key once;
so do documents.
-/
namespace Readings
namespace Node

/-- An object with one key. -/
abbrev under (key : String) (payload : Json) : Json := .object [(key, payload)]

/-- The nodes with one part, by their keys. -/
def singles : List (String × (Node → Node)) :=
  [("array", .array), ("record", .record), ("nullable", .nullable), ("optional", .optional)]

/-- The nodes with a list of parts, by their keys. -/
def severals : List (String × (List Node → Node)) :=
  [("tuple", .tuple), ("union", .union), ("intersection", .intersection)]

/-- The payloads of a map: its two fields in either order, or the two in an array. -/
def mapPayloads (morphism : String) (inner : Json) : List Json :=
  [.object [("morphism", .string morphism), ("of", inner)],
    .object [("of", inner), ("morphism", .string morphism)], .array [.string morphism, inner]]

/-- JSON data that spells a node: a string, or an object with one key that names the form of the
node and whose payload has the shape of that form. -/
inductive Spells : Json → Node → Prop where
  | atom : Spells (.string name) (.atom name)
  | single (form : (key, wrap) ∈ singles) (part : Spells payload item) :
      Spells (under key payload) (wrap item)
  | several (form : (key, wrap) ∈ severals) (parts : List.Forall₂ Spells payloads items) :
      Spells (under key (.array payloads)) (wrap items)
  | object {members : Entries Json} {fields : Entries Node}
      (keys : Entries.keys members = Entries.keys fields)
      (parts : List.Forall₂ Spells (Entries.values members) (Entries.values fields)) :
      Spells (under "object" (.object members)) (.object (Entries.ofPairs fields))
  | enumeration : Spells (under "enum" (.array literals)) (.enumeration (literals.map Json.settled))
  | pure : Spells (under "pure" payload) (.pure payload.settled)
  | map {inner : Json} (form : payload ∈ mapPayloads morphism inner) (part : Spells inner item) :
      Spells (under "map" payload) (.map morphism item)
  | reference : Spells (under "ref" (.string name)) (.reference name)

theorem of_items_iff {items : List Json} :
    ofItems? items = some results ↔
      List.Forall₂ (fun item node => ofJson? item = some node) items results := by
  induction items generalizing results with
  | nil => simp [ofItems?, eq_comm]
  | cons item rest ih =>
    simp only [ofItems?, Option.bind_eq_bind, Option.bind_eq_some_iff, Option.some.injEq, ih,
      List.forall₂_cons_left_iff]
    constructor
    · rintro ⟨first, head, others, tail, rfl⟩
      exact ⟨first, others, head, tail, rfl⟩
    · rintro ⟨first, others, head, tail, rfl⟩
      exact ⟨first, head, others, tail, rfl⟩

theorem of_members_iff {members : Entries Json} {fields : Entries Node} :
    ofMembers? members = some fields ↔ Entries.keys members = Entries.keys fields ∧
      List.Forall₂ (fun part node => ofJson? part = some node)
        (Entries.values members) (Entries.values fields) := by
  rw [← Entries.alike_iff]
  induction members generalizing fields with
  | nil => simp [ofMembers?, eq_comm]
  | cons member rest ih =>
    simp only [ofMembers?, Option.bind_eq_bind, Option.bind_eq_some_iff, Option.some.injEq, ih,
      List.forall₂_cons_left_iff]
    constructor
    · rintro ⟨first, head, others, tail, rfl⟩
      exact ⟨(member.1, first), others, ⟨rfl, head⟩, tail, rfl⟩
    · rintro ⟨⟨key, first⟩, others, ⟨rfl, head⟩, tail, rfl⟩
      exact ⟨first, head, others, tail, rfl⟩

/-! ## Decoding -/

/-- What is decoded as a node spells it. -/
theorem spells_of_json {json : Json} (read : ofJson? json = some node) : Spells json node := by
  have single : ∀ {key payload wrap}, (key, wrap) ∈ singles → sizeOf payload < sizeOf json →
      (ofJson? payload).map wrap = some node → Spells (under key payload) node := by
    intro key payload wrap form _smaller read
    obtain ⟨item, inside, rfl⟩ := Option.map_eq_some_iff.mp read
    exact .single form (spells_of_json inside)
  have several : ∀ {key items wrap}, (key, wrap) ∈ severals → sizeOf items < sizeOf json →
      (ofItems? items).map wrap = some node → Spells (under key (.array items)) node := by
    intro key items wrap form smaller read
    obtain ⟨results, inside, rfl⟩ := Option.map_eq_some_iff.mp read
    refine .several form ((partners_listed (of_items_iff.mp inside)).imp ?_)
    rintro item node ⟨listed, read⟩
    have _smaller := Nat.lt_trans (List.sizeOf_lt_of_mem listed) smaller
    exact spells_of_json read
  have fieldwise : ∀ {members : Entries Json}, sizeOf members < sizeOf json →
      (ofMembers? members).map (fun fields => .object (Entries.ofPairs fields)) = some node →
        Spells (under "object" (.object members)) node := by
    intro members smaller read
    obtain ⟨fields, inside, rfl⟩ := Option.map_eq_some_iff.mp read
    obtain ⟨keys, parts⟩ := of_members_iff.mp inside
    refine .object keys ((partners_listed parts).imp ?_)
    rintro part node ⟨listed, read⟩
    have _smaller := Nat.lt_trans (Json.size_of_value_lt listed) smaller
    exact spells_of_json read
  have mapped : ∀ {morphism inner payload}, payload ∈ mapPayloads morphism inner →
      sizeOf inner < sizeOf json → (ofJson? inner).map (.map morphism) = some node →
        Spells (under "map" payload) node := by
    intro morphism inner payload form _smaller read
    obtain ⟨item, inside, rfl⟩ := Option.map_eq_some_iff.mp read
    exact .map form (spells_of_json inside)
  unfold ofJson? at read
  split at read
  · cases read
    exact .atom
  · split at read
    · exact single (.head _) (by simp; omega) read
    · exact single (.tail _ (.head _)) (by simp; omega) read
    · exact single (.tail _ (.tail _ (.head _))) (by simp; omega) read
    · exact single (.tail _ (.tail _ (.tail _ (.head _)))) (by simp; omega) read
    · cases read
      exact .pure
    · split at read
      · exact several (.head _) (by simp; omega) read
      · cases read
    · split at read
      · exact several (.tail _ (.head _)) (by simp; omega) read
      · cases read
    · split at read
      · exact several (.tail _ (.tail _ (.head _))) (by simp; omega) read
      · cases read
    · split at read
      · cases read
        rw [Json.settled_items_eq]
        exact .enumeration
      · cases read
    · split at read
      · exact fieldwise (by simp; omega) read
      · cases read
    · split at read
      · cases read
        exact .reference
      · cases read
    · split at read
      · exact mapped (.tail _ (.tail _ (.head _))) (by simp; omega) read
      · exact mapped (.head _) (by simp; omega) read
      · exact mapped (.tail _ (.head _)) (by simp; omega) read
      · cases read
    · cases read
  · cases read
termination_by sizeOf json
decreasing_by all_goals assumption

/-- JSON data is decoded as the node that it spells. -/
theorem of_json_of_spells {json : Json} (spells : Spells json node) : ofJson? json = some node := by
  cases spells with
  | atom | enumeration | pure | reference => simp only [ofJson?, Json.settled_items_eq]
  | @single key wrap payload item form part =>
    have _smaller : sizeOf payload < sizeOf (under key payload) := by simp; omega
    have inside := of_json_of_spells part
    simp only [singles, List.mem_cons, List.not_mem_nil, or_false, Prod.mk.injEq] at form
    rcases form with ⟨rfl, rfl⟩ | ⟨rfl, rfl⟩ | ⟨rfl, rfl⟩ | ⟨rfl, rfl⟩ <;>
      simp only [ofJson?, inside, Option.map_some]
  | @several key wrap payloads items form parts =>
    have each : ofItems? payloads = some items := by
      refine of_items_iff.mpr ((partners_listed parts).imp ?_)
      rintro payload item ⟨listed, part⟩
      have _smaller : sizeOf payload < sizeOf (under key (.array payloads)) :=
        Nat.lt_trans (List.sizeOf_lt_of_mem listed) (by simp; omega)
      exact of_json_of_spells part
    simp only [severals, List.mem_cons, List.not_mem_nil, or_false, Prod.mk.injEq] at form
    rcases form with ⟨rfl, rfl⟩ | ⟨rfl, rfl⟩ | ⟨rfl, rfl⟩ <;>
      simp only [ofJson?, each, Option.map_some]
  | @object members fields keys parts =>
    have each : ofMembers? members = some fields := by
      refine of_members_iff.mpr ⟨keys, (partners_listed parts).imp ?_⟩
      rintro payload field ⟨listed, part⟩
      have _smaller : sizeOf payload < sizeOf (under "object" (.object members)) :=
        Nat.lt_trans (Json.size_of_value_lt listed) (by simp; omega)
      exact of_json_of_spells part
    simp only [ofJson?, each, Option.map_some]
  | @map morphism payload item inner form part =>
    simp only [mapPayloads, List.mem_cons, List.not_mem_nil, or_false] at form
    have _smaller : sizeOf inner < sizeOf (under "map" payload) := by
      rcases form with rfl | rfl | rfl <;> simp <;> omega
    have inside := of_json_of_spells part
    rcases form with rfl | rfl | rfl <;> simp only [ofJson?, inside, Option.map_some]
termination_by sizeOf json
decreasing_by all_goals assumption

theorem of_json_iff {json : Json} : ofJson? json = some node ↔ Spells json node :=
  ⟨spells_of_json, of_json_of_spells⟩

/-- The keys that name the form of a node. -/
def forms : List String :=
  ["array", "tuple", "record", "object", "enum", "union", "intersection", "nullable", "optional",
    "pure", "map", "ref"]

/-- Only a string spells a node, or an object with one key, which names a form. -/
theorem Spells.form (spells : Spells json node) :
    (∃ name, json = .string name) ∨ ∃ key ∈ forms, ∃ payload, json = under key payload := by
  cases spells with
  | atom => exact .inl ⟨_, rfl⟩
  | @single key wrap _ _ form =>
    have named : ∀ single ∈ singles, single.1 ∈ forms := by simp [singles, forms]
    exact .inr ⟨key, named _ form, _, rfl⟩
  | @several key wrap _ _ form =>
    have named : ∀ several ∈ severals, several.1 ∈ forms := by simp [severals, forms]
    exact .inr ⟨key, named _ form, _, rfl⟩
  | object | enumeration | pure | map | reference =>
    exact .inr ⟨_, by simp [forms], _, rfl⟩

/-! ## Spelling -/

mutual
/-- The JSON data that a node is written as. -/
def spelled : Node → Json
  | .atom name => .string name
  | .array item => under "array" item.spelled
  | .tuple items => under "tuple" (.array (spelledItems items))
  | .record item => under "record" item.spelled
  | .object fields => under "object" (.object (spelledFields fields))
  | .enumeration literals => under "enum" (.array literals)
  | .union members => under "union" (.array (spelledItems members))
  | .intersection members => under "intersection" (.array (spelledItems members))
  | .nullable inner => under "nullable" inner.spelled
  | .optional inner => under "optional" inner.spelled
  | .pure value => under "pure" value
  | .map morphism inner =>
    under "map" (.object [("morphism", .string morphism), ("of", inner.spelled)])
  | .reference name => under "ref" (.string name)

def spelledItems : List Node → List Json
  | [] => []
  | item :: rest => item.spelled :: spelledItems rest

def spelledFields : List (String × Node) → List (String × Json)
  | [] => []
  | (key, item) :: rest => (key, item.spelled) :: spelledFields rest
end

theorem spelled_items_eq (items : List Node) : spelledItems items = items.map spelled :=
  map_of_steps rfl (fun _ _ => rfl) items

theorem spelled_fields_eq (fields : Entries Node) :
    spelledFields fields = Entries.mapValues spelled fields :=
  Entries.map_values_of_steps rfl (fun _ _ _ => rfl) fields

/-- The JSON data that a node holds as it is. -/
def payloads : Node → List Json
  | .pure value => [value]
  | .enumeration literals => literals
  | _ => []

/-- The tables of a node have each key once, and so do the payloads in it. -/
structure Tidy (node : Node) : Prop where
  keyed : ∀ inner ∈ node.nodes, inner.DeclaresOnce
  payloads : ∀ inner ∈ node.nodes, ∀ payload ∈ inner.payloads, payload.Keyed

theorem Tidy.child {node child : Node} (tidy : node.Tidy) (below : child ∈ node.children) :
    child.Tidy where
  keyed := fun inner inside => tidy.keyed inner (mem_nodes_child below inside)
  payloads := fun inner inside => tidy.payloads inner (mem_nodes_child below inside)

/-- The spelling of a tidy node spells it. -/
theorem spells_spelled (node : Node) (tidy : node.Tidy) : Spells node.spelled node := by
  induction node using child_induction with
  | step node ih =>
    have each : ∀ child ∈ node.children, Spells child.spelled child :=
      fun child below => ih child below (tidy.child below)
    have several : ∀ {items}, items = node.children →
        List.Forall₂ Spells (spelledItems items) items := by
      rintro items rfl
      rw [spelled_items_eq]
      exact List.forall₂_map_left_iff.mpr (List.forall₂_same.mpr each)
    have own := tidy.payloads node (mem_nodes_self node)
    cases node with
    | atom | reference => constructor
    | array | record | nullable | optional =>
      exact .single (by simp [singles]) (each _ List.mem_cons_self)
    | tuple | union | intersection => exact .several (by simp [severals]) (several rfl)
    | object fields =>
      have distinct : Entries.Distinct fields := tidy.keyed _ (mem_nodes_self _)
      have spells : Spells (under "object" (.object (Entries.mapValues spelled fields)))
          (.object (Entries.ofPairs fields)) := by
        refine .object (Entries.keys_map_values _ _) ?_
        rw [Entries.values_map_values]
        exact List.forall₂_map_left_iff.mpr (List.forall₂_same.mpr each)
      rw [spelled, spelled_fields_eq]
      rwa [Entries.of_pairs_distinct distinct] at spells
    | enumeration literals =>
      have same : literals.map Json.settled = literals :=
        (List.map_congr_left fun literal listed => Json.settled_of_keyed (own literal listed)).trans
          (List.map_id' literals)
      have spells : Spells (under "enum" (.array literals)) _ := .enumeration
      rwa [same] at spells
    | pure value =>
      have spells : Spells (under "pure" value) _ := .pure
      rwa [Json.settled_of_keyed (own value List.mem_cons_self)] at spells
    | map => exact .map List.mem_cons_self (each _ List.mem_cons_self)

/-- What spells a node has spellings of its children in it. The fields and the payloads of the node
itself have each key once: fields are only ever built by writing one key after the other. -/
theorem Spells.level (spells : Spells json node) :
    node.DeclaresOnce ∧ (∀ payload ∈ node.payloads, payload.Keyed) ∧
      ∀ child ∈ node.children, ∃ part, Spells part child := by
  have among : ∀ {payloads items}, List.Forall₂ Spells payloads items →
      ∀ child ∈ items, ∃ part, Spells part child := by
    intro payloads items parts child below
    obtain ⟨part, _, spells⟩ := partner_of_right parts below
    exact ⟨part, spells⟩
  cases spells with
  | atom | reference => exact ⟨trivial, nofun, nofun⟩
  | single form part =>
    simp only [singles, List.mem_cons, List.not_mem_nil, or_false, Prod.mk.injEq] at form
    rcases form with ⟨rfl, rfl⟩ | ⟨rfl, rfl⟩ | ⟨rfl, rfl⟩ | ⟨rfl, rfl⟩ <;>
      exact ⟨trivial, nofun, List.forall_mem_singleton.mpr ⟨_, part⟩⟩
  | several form parts =>
    simp only [severals, List.mem_cons, List.not_mem_nil, or_false, Prod.mk.injEq] at form
    rcases form with ⟨rfl, rfl⟩ | ⟨rfl, rfl⟩ | ⟨rfl, rfl⟩ <;> exact ⟨trivial, nofun, among parts⟩
  | object keys parts =>
    refine ⟨Entries.distinct_of_pairs _, nofun, fun child below => ?_⟩
    obtain ⟨field, written, rfl⟩ := List.mem_map.mp below
    exact among parts field.2 (List.mem_map_of_mem (Entries.mem_of_pairs written))
  | enumeration =>
    refine ⟨trivial, fun payload listed => ?_, nofun⟩
    obtain ⟨literal, _, rfl⟩ := List.mem_map.mp listed
    exact Json.keyed_settled literal
  | pure => exact ⟨trivial, List.forall_mem_singleton.mpr (Json.keyed_settled _), nofun⟩
  | map _ part => exact ⟨trivial, nofun, List.forall_mem_singleton.mpr ⟨_, part⟩⟩

/-- Every node in a node that is spelled is spelled itself. -/
theorem Spells.nodes (spells : Spells json node) :
    ∀ inner ∈ node.nodes, ∃ part, Spells part inner := by
  induction node using child_induction generalizing json with
  | step node ih =>
    intro inner inside
    rw [nodes_below] at inside
    rcases List.mem_cons.mp inside with rfl | inside
    · exact ⟨json, spells⟩
    · obtain ⟨child, below, inside⟩ := List.mem_flatMap.mp inside
      obtain ⟨part, spells⟩ := spells.level.2.2 child below
      exact ih child below spells inner inside

/-- What is spelled is tidy. -/
theorem tidy_of_spells (spells : Spells json node) : node.Tidy where
  keyed := fun inner inside => by
    obtain ⟨_, spells⟩ := spells.nodes inner inside
    exact spells.level.1
  payloads := fun inner inside => by
    obtain ⟨_, spells⟩ := spells.nodes inner inside
    exact spells.level.2.1

end Node

namespace Document

/-- The JSON data that a document is written as. -/
def spelled (document : Document) : Json :=
  .object [("root", document.root.spelled),
    ("definitions", .object (Entries.mapValues Node.spelled document.definitions))]

/-- The table of definitions that JSON data spells. -/
def definitionsOfJson? : Json → Option (Entries Node)
  | .object members => (Node.ofMembers? members).map Entries.ofPairs
  | _ => none

/-- The document that JSON data spells: an object with a root and maybe definitions, in either
order and with no other key, or an array of the two. -/
def ofJson? : Json → Option Document
  | .object [("root", root)] | .array [root] => (Node.ofJson? root).map fun root => ⟨root, []⟩
  | .object [("root", root), ("definitions", definitions)]
  | .object [("definitions", definitions), ("root", root)]
  | .array [root, definitions] => do
    some ⟨← Node.ofJson? root, ← definitionsOfJson? definitions⟩
  | _ => none

/-- The tables of a document have each key once, and so do the payloads in it. -/
structure Tidy (document : Document) : Prop where
  root : document.root.Tidy
  names : Entries.Distinct document.definitions
  bodies : ∀ body ∈ Entries.values document.definitions, body.Tidy

theorem of_json_spelled {document : Document} (tidy : document.Tidy) :
    ofJson? document.spelled = some document := by
  have definitions : definitionsOfJson?
      (.object (Entries.mapValues Node.spelled document.definitions)) =
        some document.definitions := by
    have each : Node.ofMembers? (Entries.mapValues Node.spelled document.definitions) =
        some document.definitions := by
      refine Node.of_members_iff.mpr ⟨Entries.keys_map_values _ _, ?_⟩
      rw [Entries.values_map_values]
      exact List.forall₂_map_left_iff.mpr (List.forall₂_same.mpr fun body listed =>
        Node.of_json_of_spells (Node.spells_spelled body (tidy.bodies body listed)))
    rw [definitionsOfJson?, each, Option.map_some, Entries.of_pairs_distinct tidy.names]
  have root := Node.of_json_of_spells (Node.spells_spelled document.root tidy.root)
  rw [spelled, ofJson?, root, definitions]
  rfl

theorem tidy_definitions {json : Json} (read : definitionsOfJson? json = some table) :
    Entries.Distinct table ∧ ∀ body ∈ Entries.values table, body.Tidy := by
  cases json with
  | object members =>
    obtain ⟨fields, inside, rfl⟩ := Option.map_eq_some_iff.mp read
    refine ⟨Entries.distinct_of_pairs fields, fun body listed => ?_⟩
    obtain ⟨field, written, rfl⟩ := List.mem_map.mp listed
    obtain ⟨part, _, spelled⟩ := partner_of_right (Node.of_members_iff.mp inside).2
      (List.mem_map_of_mem (Entries.mem_of_pairs written))
    exact Node.tidy_of_spells (Node.spells_of_json spelled)
  | _ => cases read

/-- What is decoded is tidy. -/
theorem tidy_of_json {json : Json} (read : ofJson? json = some document) : document.Tidy := by
  unfold ofJson? at read
  have lone : ∀ {json : Json}, (Node.ofJson? json).map (fun root => ⟨root, []⟩) = some document →
      document.Tidy := by
    intro json read
    obtain ⟨root, spelled, rfl⟩ := Option.map_eq_some_iff.mp read
    exact ⟨Node.tidy_of_spells (Node.spells_of_json spelled), List.nodup_nil, nofun⟩
  have both : ∀ {json definitions : Json},
      (do some (⟨← Node.ofJson? json, ← definitionsOfJson? definitions⟩ : Document)) =
        some document → document.Tidy := by
    intro json definitions read
    obtain ⟨root, spelled, read⟩ := Option.bind_eq_some_iff.mp read
    obtain ⟨table, told, ⟨⟩⟩ := Option.bind_eq_some_iff.mp read
    obtain ⟨names, bodies⟩ := tidy_definitions told
    exact ⟨Node.tidy_of_spells (Node.spells_of_json spelled), names, bodies⟩
  split at read
  · exact lone read
  · exact lone read
  · exact both read
  · exact both read
  · exact both read
  · cases read

end Document
end Readings
