import Readings.Morphism.Builtin
import Readings.Proofs.Entries

/-!
Merging as a fold. An array is merged by writing the entries of its objects in turn, so all that
counts is these entries, one object's behind the other's (`merged_eq`). The result is therefore told
by first appearances for the keys and last ones for the values, and merging what was merged before
makes no difference (`merge_regroups`).
-/
namespace Readings

/-- The entries of an object; no other value has any. -/
def Value.ownEntries : Value → Entries Value
  | .object entries => entries
  | _ => []

namespace Builtin

theorem merge_item_eq (table : Entries Value) (item : Value) :
    mergeItem table item = Entries.extend table item.ownEntries := by
  cases item <;> rfl

theorem merged_eq (items : List Value) :
    merged (.array items) = .ofPairs (items.flatMap Value.ownEntries) := by
  have written : items.foldl mergeItem [] = Entries.ofPairs (items.flatMap Value.ownEntries) := by
    rw [Entries.ofPairs, Entries.extend, List.foldl_flatMap]
    simp only [funext₂ merge_item_eq, Entries.extend]
  exact congrArg Value.object written

/-- Of the entries of several values, those under a key end with the ones in the last value that has
the key. -/
theorem find_in_last {items : List Value}
    (distinct : ∀ item ∈ items, Entries.Distinct item.ownEntries) (key : String) :
    Entries.find? (items.flatMap Value.ownEntries).reverse key =
      items.reverse.findSome? fun item => Entries.find? item.ownEntries key := by
  induction items with
  | nil => rfl
  | cons item rest ih =>
    have later := ih fun other listed => distinct other (List.mem_cons_of_mem _ listed)
    have own := Entries.find_reverse (distinct item List.mem_cons_self) key
    simp only [Entries.find?] at later own ⊢
    rw [List.flatMap_cons, List.reverse_append, List.lookup_append, later, own,
      List.reverse_cons, List.findSome?_append]
    simp

/-- Written tables may be written again, one behind the other. -/
theorem of_pairs_regroup (front back : Entries α) :
    Entries.ofPairs (Entries.ofPairs front ++ Entries.ofPairs back) =
      Entries.ofPairs (front ++ back) := by
  refine Entries.eq_of_find (Entries.distinct_of_pairs _) ?_ fun key => ?_
  · have keys (one other : Entries α) : Entries.keys (one ++ other) =
        Entries.keys one ++ Entries.keys other := List.map_append
    rw [Entries.keys_of_pairs_eq, Entries.keys_of_pairs_eq, keys, keys, Entries.keys_of_pairs_eq,
      Entries.keys_of_pairs_eq, Entries.erase_dups_parts]
  · have turned (one other : Entries α) : Entries.find? (one ++ other).reverse key =
        (Entries.find? other.reverse key).or (Entries.find? one.reverse key) := by
      rw [List.reverse_append]
      exact List.lookup_append
    rw [Entries.find_of_pairs, Entries.find_of_pairs, turned, turned,
      Entries.find_reverse (Entries.distinct_of_pairs front),
      Entries.find_reverse (Entries.distinct_of_pairs back), Entries.find_of_pairs,
      Entries.find_of_pairs]

/-- A merge is an object. It has each key of the objects among the items once, in the order in which
the keys first appear, and under it the value of the last object that has the key. Merging the
merges of two parts is merging the whole. -/
theorem merge_regroups (xs ys : List Value) :
    (∃ entries, merge.morphism (.array xs) = .object entries ∧
      Entries.Distinct entries ∧
      Entries.keys entries = (xs.flatMap fun x => Entries.keys x.ownEntries).eraseDups ∧
      ((∀ x ∈ xs, Entries.Distinct x.ownEntries) → ∀ key, Entries.find? entries key =
        xs.reverse.findSome? fun x => Entries.find? x.ownEntries key)) ∧
    merge.morphism (.array [merge.morphism (.array xs), merge.morphism (.array ys)]) =
      merge.morphism (.array (xs ++ ys)) := by
  have fold : merge.morphism = merged := rfl
  rw [fold, merged_eq, merged_eq, merged_eq, merged_eq]
  refine ⟨⟨_, rfl, Entries.distinct_of_pairs _, ?_, fun distinct key => ?_⟩, ?_⟩
  · rw [Entries.keys_of_pairs_eq, Entries.keys, List.map_flatMap]
    rfl
  · rw [Entries.find_of_pairs, find_in_last distinct]
  · rw [List.flatMap_append]
    simpa [Value.ownEntries, Value.ofPairs] using of_pairs_regroup _ _

/-- The second object writes a key of the first: it stays in front, with the new value. -/
theorem shared_key_keeps_its_place :
    let xs : List Value := [.object [("b", .null), ("a", .bool true)], .null,
      .object [("c", .null), ("b", .bool false)]]
    (∀ x ∈ xs, Entries.Distinct x.ownEntries) ∧ ∃ entries,
      merge.morphism (.array xs) = .object entries ∧ Entries.keys entries = ["b", "a", "c"] ∧
        Entries.find? entries "b" = some (.bool false) := by
  intro xs
  have distinct : ∀ x ∈ xs, Entries.Distinct x.ownEntries := by
    simp [xs, Value.ownEntries, Entries.Distinct, Entries.keys]
  obtain ⟨⟨entries, merges, -, keys, found⟩, -⟩ := merge_regroups xs []
  exact ⟨distinct, entries, merges, keys.trans rfl, (found distinct "b").trans rfl⟩

end Builtin
end Readings
