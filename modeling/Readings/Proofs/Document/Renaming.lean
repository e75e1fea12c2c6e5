import Readings.Proofs.Closure.Renaming
import Readings.Proofs.Document.Acceptance

/-!
What a compilation does not depend on. The symbols that a document draws stand for its names, and
nothing is done with them but to tell them apart: drawn from another serial, they give the same
errors and, up to a renaming, the same descriptors (`compile_renamed`). Names that a node does not
refer to do not matter to it either (`lower_frame`).
-/
namespace Readings

/-- A table of descriptors with other symbols in them. -/
def renamedTable (rename : Renaming) (table : Entries Descriptor) : Entries Descriptor :=
  Entries.mapValues (Descriptor.renamed rename) table

def Schema.renamed (rename : Renaming) (schema : Schema) : Schema :=
  ⟨schema.root.renamed rename, renamedTable rename schema.definitions⟩

/-- Names with other symbols. -/
def renamedSymbols (rename : Renaming) (symbols : Entries Symbol) : Entries Symbol :=
  Entries.mapValues rename symbols

/-- Tables of different symbols for the same names, each shown as its name, are a renaming apart. -/
theorem Renaming.between_tables {symbols others : Entries Symbol}
    (same : Entries.keys symbols = Entries.keys others)
    (distinct : (Entries.values symbols).Nodup) (apart : (Entries.values others).Nodup)
    (shown : ∀ entry ∈ symbols ++ others, entry.2.description = entry.1) :
    ∃ rename : Renaming, renamedSymbols rename symbols = others := by
  have alike : List.Forall₂ (fun one other => one.description = other.description)
      (Entries.values symbols) (Entries.values others) := by
    have keys := same
    rw [← List.forall₂_eq_eq_eq] at keys
    have pairs := List.forall₂_map_left_iff.mp (List.forall₂_map_right_iff.mp keys)
    refine List.forall₂_map_left_iff.mpr (List.forall₂_map_right_iff.mpr ?_)
    refine (partners_listed (partners_listed pairs).flip).flip.imp ?_
    rintro one other ⟨right, left, named⟩
    rw [shown one (List.mem_append_left _ left), shown other (List.mem_append_right _ right), named]
  obtain ⟨rename, moved⟩ := Renaming.between distinct apart alike
  refine ⟨rename, ?_⟩
  rw [← Entries.zip_keys_values others, ← same, ← moved, ← Entries.keys_map_values rename symbols,
    ← Entries.values_map_values rename symbols]
  exact (Entries.zip_keys_values _).symm

variable {rename : Renaming}

namespace Descriptor

theorem map_with_renamed (morphism : Morphism) (inner : Descriptor) :
    (mapWith morphism inner).renamed rename = mapWith morphism (inner.renamed rename) := by
  cases inner <;> rfl

theorem object_renamed (fields : Entries Descriptor) :
    (object fields).renamed rename = object (Entries.mapValues (renamed rename) fields) := by
  rw [renamed_plain rfl]
  exact congrArg object ((congrArg _ (Entries.values_map_values _ fields).symm).trans <|
    (congrArg₂ _ (Entries.keys_map_values _ fields).symm rfl).trans (Entries.zip_keys_values _))

theorem of_fields_renamed (fields : Entries Descriptor) : (ofFields fields).renamed rename =
    ofFields (Entries.mapValues (renamed rename) fields) := by
  rw [ofFields, ofFields, object_renamed, Entries.of_pairs_map_values]

theorem of_atom_renamed (name : String) :
    ((ofAtom name).toOption.getD .never).renamed rename = (ofAtom name).toOption.getD .never := by
  unfold ofAtom
  split
  · rfl
  · split
    · rfl
    · cases PrimitiveKind.ofName name <;> rfl

end Descriptor

namespace Node
variable {symbols others : Entries Symbol}

/-- Raising a node goes through with renamed symbols. -/
private theorem raised_renamed {node : Node} (sound : node.Sound (Entries.keys symbols))
    (same : shapes.length = node.children.length) :
    node.raised (renamedSymbols rename symbols) (shapes.map (Descriptor.renamed rename)) =
      (node.raised symbols shapes).renamed rename := by
  cases node with
  | atom name =>
    obtain rfl := List.length_eq_zero_iff.mp same
    exact (Descriptor.of_atom_renamed name).symm
  | array | record | nullable | optional =>
    obtain ⟨shape, rfl⟩ := List.length_eq_one_iff.mp same
    rfl
  | map name inner =>
    obtain ⟨shape, rfl⟩ := List.length_eq_one_iff.mp same
    obtain ⟨builtin, named⟩ := Builtin.named_iff.mp sound
    simp only [raised, named, List.map_cons, List.map_nil]
    exact (Descriptor.map_with_renamed _ shape).symm
  | tuple => exact (Descriptor.renamed_plain (d := .tuple shapes) rfl).symm
  | union => exact (Descriptor.renamed_plain (d := .union shapes) rfl).symm
  | intersection => exact (Descriptor.renamed_plain (d := .intersection shapes) rfl).symm
  | object fields =>
    have zipped : (Entries.keys fields).zip (shapes.map (Descriptor.renamed rename)) =
        Entries.mapValues (Descriptor.renamed rename) ((Entries.keys fields).zip shapes) :=
      List.zip_map_right
    rw [raised, raised, zipped, Descriptor.of_fields_renamed]
  | enumeration | pure => rfl
  | reference name =>
    have found : Entries.find? symbols name ≠ none := fun none =>
      Entries.find_eq_none_iff.mp none sound
    obtain ⟨symbol, found⟩ := Option.ne_none_iff_exists'.mp found
    simp [raised, renamedSymbols, Entries.find_map_values, found, Descriptor.renamed]

/-- Lowering over renamed symbols fails alike, or gives the renamed descriptor. -/
theorem lower_renamed (symbols : Entries Symbol) (node : Node) :
    node.lower (renamedSymbols rename symbols) =
      (node.lower symbols).map (Descriptor.renamed rename) := by
  induction node using child_induction with
  | step node ih =>
    have keys : Entries.keys (renamedSymbols rename symbols) = Entries.keys symbols :=
      Entries.keys_map_values rename symbols
    have each : (node.children.map id).mapM (lower (renamedSymbols rename symbols)) =
        (node.children.mapM (lower symbols)).map (List.map (Descriptor.renamed rename)) :=
      map_alike ih
    rw [List.map_id] at each
    rw [lower_eq, lower_eq, keys, each]
    cases fault : node.fault? (Entries.keys symbols) with
    | some error => rfl
    | none =>
      cases below : node.children.mapM (lower symbols) with
      | error error => rfl
      | ok shapes =>
        have counted := (map_ok_iff.mp below).length_eq.symm
        exact congrArg Except.ok (raised_renamed (fault_eq_none_iff.mp fault) counted)

private theorem fault_frame {node : Node} (own : ∀ name, node = .reference name →
    Entries.find? symbols name = Entries.find? others name) :
    node.fault? (Entries.keys symbols) = node.fault? (Entries.keys others) := by
  cases node with
  | reference name =>
    have known : name ∈ Entries.keys symbols ↔ name ∈ Entries.keys others := by
      rw [← not_iff_not, ← Entries.find_eq_none_iff, ← Entries.find_eq_none_iff, own name rfl]
    rw [fault?, fault?, if_congr known rfl rfl]
  | _ => rfl

private theorem raised_frame {node : Node} (own : ∀ name, node = .reference name →
    Entries.find? symbols name = Entries.find? others name) (shapes : List Descriptor) :
    node.raised symbols shapes = node.raised others shapes := by
  unfold raised
  split
  case h_13 name => rw [own name rfl]
  all_goals rfl

/-- A node is lowered by the symbols of the names that it refers to. -/
theorem lower_frame {node : Node}
    (same : ∀ name, .reference name ∈ node.nodes →
      Entries.find? symbols name = Entries.find? others name) :
    node.lower symbols = node.lower others := by
  induction node using child_induction with
  | step node ih =>
    have below : node.children.mapM (lower symbols) = node.children.mapM (lower others) :=
      map_congr fun child listed => ih child listed fun name inside =>
        same name (mem_nodes_child listed inside)
    have own : ∀ name, node = .reference name →
        Entries.find? symbols name = Entries.find? others name := by
      rintro name rfl
      exact same name (mem_nodes_self _)
    rw [lower_eq, lower_eq, below, fault_frame own, funext fun shapes => raised_frame own shapes]

end Node

namespace Group
variable {group : Group}

theorem close_named_renamed (group : Group) (symbols : Entries Symbol) :
    (group.renamed rename).closeNamed (renamedSymbols rename symbols) =
      (group.closeNamed symbols).map (renamedTable rename) := by
  refine map_alike fun entry _ => ?_
  change (do .ok (entry.1, ← (group.renamed rename).closeType
    ((Descriptor.reference entry.2).renamed rename))) =
    Except.map _ (do .ok (entry.1, ← group.closeType (.reference entry.2)))
  rw [close_type_renamed]
  cases group.closeType (.reference entry.2) <;> rfl

end Group

namespace Document
variable {document : Document}

theorem symbols_renamed (serial other : Nat) (document : Document) :
    ∃ rename : Renaming, renamedSymbols rename (document.symbols serial) = document.symbols other := by
  refine Renaming.between_tables ?_ (numbered_nodup serial _) (numbered_nodup other _) ?_
  · rw [keys_symbols, keys_symbols]
  · intro entry listed
    rcases List.mem_append.mp listed with listed | listed <;>
      obtain ⟨⟨name, index⟩, _, rfl⟩ := List.mem_map.mp listed <;> rfl

theorem Lowered.renamed (lowered : document.Lowered serial bodies)
    (moved : renamedSymbols rename (document.symbols serial) = document.symbols other) :
    document.Lowered other (bodies.map (Descriptor.renamed rename)) := by
  refine List.forall₂_map_right_iff.mpr (lowered.imp fun entry body ran => ?_)
  rw [← moved, Node.lower_renamed, ran]
  rfl

theorem group_renamed (serial : Nat) (bodies : List Descriptor) :
    (document.group serial bodies).renamed rename =
      ⟨(Entries.values (renamedSymbols rename (document.symbols serial))).zip
        (bodies.map (Descriptor.renamed rename))⟩ := by
  rw [renamedSymbols, Entries.values_map_values]
  exact congrArg Group.mk List.zip_map.symm

/-- Drawn from another serial, the symbols of a document lead to the same error, or to renamed
descriptors. -/
theorem compile_renamed
    (moved : renamedSymbols rename (document.symbols serial) = document.symbols other) :
    document.compile other = (document.compile serial).map (Schema.renamed rename) := by
  cases fault : document.definitionFault? with
  | some error =>
    rw [compile_of_definition_fault fault, compile_of_definition_fault fault]
    rfl
  | none =>
    obtain ⟨bodies, lowered⟩ := lowered_of_no_fault fault serial
    have same : document.group other (bodies.map (Descriptor.renamed rename)) =
        (document.group serial bodies).renamed rename := by
      rw [group_renamed, moved]
      rfl
    rw [compile_of_lowered lowered, compile_of_lowered (lowered.renamed moved), same, ← moved,
      Group.close_named_renamed, Node.lower_renamed]
    cases (document.group serial bodies).closeNamed (document.symbols serial) with
    | error error => rfl
    | ok definitions =>
      cases document.root.lower (document.symbols serial) with
      | error error => rfl
      | ok raw =>
        change (do .ok (Schema.mk (← ((document.group serial bodies).renamed rename).closeType
          (raw.renamed rename)) (renamedTable rename definitions))) = _
        rw [Group.close_type_renamed]
        change _ = Except.map _ (do .ok (Schema.mk (← (document.group serial bodies).closeType raw)
          definitions))
        cases (document.group serial bodies).closeType raw <;> rfl

end Document
end Readings
