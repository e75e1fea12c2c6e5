import Readings.Proofs.Closure.FreeSymbols
import Mathlib.Logic.Equiv.Basic

/-!
Descriptors up to the identity of their symbols. Two runs that draw their own symbols for the same
names build descriptors that differ by a renaming: one to one, and with every description kept, so
that no text shows it. Any two lists of different symbols with the same descriptions are such a
renaming apart (`Renaming.between`).
-/
namespace Readings

/-- Other symbols for symbols, one to one and with the same descriptions. -/
structure Renaming where
  symbols : Equiv.Perm Symbol
  description : ∀ symbol, (symbols symbol).description = symbol.description

namespace Renaming

instance : CoeFun Renaming fun _ => Symbol → Symbol := ⟨fun rename => rename.symbols⟩

theorem injective (rename : Renaming) : Function.Injective rename := rename.symbols.injective

def nothing : Renaming := ⟨Equiv.refl Symbol, fun _ => rfl⟩

/-- One renaming after the other. -/
def andThen (first second : Renaming) : Renaming where
  symbols := first.symbols.trans second.symbols
  description symbol := (second.description _).trans (first.description symbol)

/-- Two symbols of one description change places. -/
def swap (one other : Symbol) (same : one.description = other.description) : Renaming where
  symbols := Equiv.swap one other
  description symbol := by
    rw [Equiv.swap_apply_def]
    split
    · rename_i own
      rw [own, same]
    · split
      · rename_i own
        rw [own, same]
      · rfl

/-- Lists of different symbols with the same descriptions are renamed into each other. -/
theorem between {symbols others : List Symbol} (distinct : symbols.Nodup) (apart : others.Nodup)
    (same : List.Forall₂ (fun one other => one.description = other.description) symbols others) :
    ∃ rename : Renaming, symbols.map rename = others := by
  induction same with
  | nil => exact ⟨nothing, rfl⟩
  | @cons one other symbols others alike _ ih =>
    obtain ⟨fresh, distinct⟩ := List.nodup_cons.mp distinct
    obtain ⟨new, apart⟩ := List.nodup_cons.mp apart
    obtain ⟨rename, rfl⟩ := ih distinct apart
    have shown : (rename one).description = other.description :=
      (rename.description one).trans alike
    refine ⟨rename.andThen (swap (rename one) other shown), ?_⟩
    -- the swap moves nothing of the tail: its symbols come from other ones, and are not the new one
    have kept : ∀ symbol ∈ symbols, Equiv.swap (rename one) other (rename symbol) = rename symbol := by
      intro symbol listed
      refine Equiv.swap_apply_of_ne_of_ne ?_ ?_
      · exact fun moved => fresh (rename.injective moved ▸ listed)
      · exact fun moved => new (moved ▸ List.mem_map_of_mem listed)
    rw [List.map_cons]
    refine congrArg₂ List.cons (Equiv.swap_apply_left _ _) ?_
    exact List.map_congr_left kept

end Renaming

namespace Descriptor

mutual
/-- The descriptor with other symbols in its references and binders. -/
def renamed (rename : Renaming) : Descriptor → Descriptor
  | .reference symbol => .reference (rename symbol)
  | .recursive symbol body => .recursive (rename symbol) (body.renamed rename)
  | .array item => .array (item.renamed rename)
  | .record item => .record (item.renamed rename)
  | .map composition inner => .map composition (inner.renamed rename)
  | .tuple items => .tuple (renamedAll rename items)
  | .union members => .union (renamedAll rename members)
  | .intersection members => .intersection (renamedAll rename members)
  | .object fields => .object (renamedFields rename fields)
  | .unknown => .unknown
  | .never => .never
  | .primitive kind => .primitive kind
  | .enumeration members => .enumeration members
  | .pure value => .pure value

def renamedAll (rename : Renaming) : List Descriptor → List Descriptor
  | [] => []
  | item :: rest => item.renamed rename :: renamedAll rename rest

def renamedFields (rename : Renaming) : List (String × Descriptor) → List (String × Descriptor)
  | [] => []
  | (key, item) :: rest => (key, item.renamed rename) :: renamedFields rename rest
end

variable {rename : Renaming}

private theorem renamed_all (items : List Descriptor) :
    renamedAll rename items = items.map (renamed rename) :=
  map_of_steps rfl (fun _ _ => rfl) items

private theorem renamed_fields (fields : List (String × Descriptor)) :
    renamedFields rename fields =
      (Entries.keys fields).zip ((Entries.values fields).map (renamed rename)) := by
  rw [← Entries.values_map_values, ← Entries.keys_map_values (renamed rename) fields,
    Entries.zip_keys_values]
  exact Entries.map_values_of_steps rfl (fun _ _ _ => rfl) fields

/-- A plain node keeps its form and has its children renamed. -/
theorem renamed_plain {d : Descriptor} (plain : d.plain = true) :
    d.renamed rename = d.withChildren (d.children.map (renamed rename)) := by
  cases d with
  | reference | recursive => cases plain
  | tuple | union | intersection => simp [renamed, renamed_all, withChildren, children]
  | object fields => simp [renamed, renamed_fields, withChildren, children]
  | _ => rfl

theorem children_renamed (d : Descriptor) :
    (d.renamed rename).children = d.children.map (renamed rename) := by
  cases kind : d.plain with
  | true =>
    rw [renamed_plain kind]
    exact children_with_children d (List.length_map _)
  | false =>
    cases d with
    | reference | recursive => rfl
    | _ => cases kind

theorem plain_renamed (d : Descriptor) : (d.renamed rename).plain = d.plain := by
  cases d <;> rfl

theorem with_children_again {d : Descriptor} (first : shapes.length = d.children.length)
    (second : others.length = d.children.length) :
    (d.withChildren shapes).withChildren others = d.withChildren others := by
  cases d with
  | array | record | map | recursive =>
    obtain ⟨shape, rfl⟩ := List.length_eq_one_iff.mp first
    obtain ⟨other, rfl⟩ := List.length_eq_one_iff.mp second
    rfl
  | object fields =>
    have counted : (Entries.keys fields).length ≤ shapes.length := by
      simp [first, children, Entries.values, Entries.keys]
    simp only [withChildren]
    rw [Entries.keys, List.map_fst_zip counted]
  | _ => rfl

/-- Renaming goes through a node that was put around other children. -/
theorem renamed_with_children {d : Descriptor} (plain : d.plain = true)
    (same : shapes.length = d.children.length) :
    (d.withChildren shapes).renamed rename =
      (d.renamed rename).withChildren (shapes.map (renamed rename)) := by
  have kind : (d.withChildren shapes).plain = true := by rwa [plain_with_children]
  rw [renamed_plain kind, renamed_plain plain, children_with_children d same,
    with_children_again same (by simpa using same),
    with_children_again (List.length_map _) (by simpa using same)]

theorem size_renamed (d : Descriptor) : (d.renamed rename).size = d.size := by
  induction d using child_induction with
  | node d ih =>
    rw [size_children, size_children, children_renamed, List.map_map]
    exact congrArg (1 + List.sum ·) (List.map_congr_left ih)

/-- A renamed descriptor has the references of the original, under their new symbols. -/
theorem occurs_free_renamed (stable : ∀ d shapes, passes (withChildren d shapes) = passes d)
    (d : Descriptor) : (d.renamed rename).OccursFree passes (rename symbol) ↔
      d.OccursFree passes symbol := by
  induction d using child_induction with
  | node d ih =>
    cases kind : d.plain with
    | true =>
      rw [free_plain ((plain_renamed d).trans kind), free_plain kind, children_renamed,
        renamed_plain kind, stable]
      simp only [List.mem_map, exists_exists_and_eq_and]
      exact and_congr_right fun _ => exists_congr fun child => and_congr_right (ih child)
    | false =>
      cases d with
      | reference other =>
        rw [renamed, free_reference, free_reference, rename.injective.eq_iff]
      | recursive bound body =>
        rw [renamed, free_recursive, free_recursive, rename.injective.ne_iff,
          ih body (List.mem_singleton_self _)]
      | _ => cases kind

theorem reaches_unguarded_renamed (d : Descriptor) :
    (d.renamed rename).reachesUnguarded (rename symbol) = d.reachesUnguarded symbol := by
  rw [Bool.eq_iff_iff, reaches_unguarded_iff, reaches_unguarded_iff]
  exact occurs_free_renamed transparent_with_children d

end Descriptor
end Readings
