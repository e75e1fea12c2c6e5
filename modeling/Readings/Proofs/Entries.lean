import Readings.Json.Basic
import Mathlib.Data.List.Induction
import Mathlib.Data.List.Nodup

/-!
Tables, looked into and written. A table that has each key once answers a key with the value it has
under it, so what was paired with the keys in order is found again by key. Writing keeps every key
there once, which is how all tables of the library come to be so.

A function on trees goes down the lists and tables in them by functions of their own; what such a
function does in one step is what it does to the whole list (`map_of_steps` and its like).
-/
namespace Readings

/-! ## Lists taken step by step -/

theorem map_of_steps {whole : List α → List β} {one : α → β} (empty : whole [] = [])
    (step : ∀ item rest, whole (item :: rest) = one item :: whole rest) (items : List α) :
    whole items = items.map one := by
  induction items with
  | nil => exact empty
  | cons item rest ih => rw [step, ih, List.map_cons]

theorem flat_map_of_steps {whole : List α → List β} {one : α → List β} (empty : whole [] = [])
    (step : ∀ item rest, whole (item :: rest) = one item ++ whole rest) (items : List α) :
    whole items = items.flatMap one := by
  induction items with
  | nil => exact empty
  | cons item rest ih => rw [step, ih, List.flatMap_cons]

/-! ## Looking -/

/-- What is listed under a key is found under it, where each key is there once. -/
theorem lookup_of_mem [BEq κ] [LawfulBEq κ] {table : List (κ × α)}
    (distinct : (table.map Prod.fst).Nodup) (listed : (key, value) ∈ table) :
    table.lookup key = some value := by
  induction table with
  | nil => cases listed
  | cons entry rest ih =>
    obtain ⟨fresh, distinct⟩ := List.nodup_cons.mp distinct
    rcases List.mem_cons.mp listed with rfl | listed
    · exact List.lookup_cons_self
    · have other : key ≠ entry.1 := fun same => fresh (same ▸ List.mem_map_of_mem listed)
      rw [List.lookup_cons, beq_eq_false_iff_ne.mpr other]
      exact ih distinct listed

theorem mem_of_lookup [BEq κ] [LawfulBEq κ] {table : List (κ × α)}
    (found : table.lookup key = some value) : (key, value) ∈ table := by
  obtain ⟨before, after, rfl, _⟩ := List.lookup_eq_some_iff.mp found
  exact List.mem_append_right _ List.mem_cons_self

namespace Entries

instance (entries : Entries α) : Decidable (Entries.Distinct entries) :=
  inferInstanceAs (Decidable (List.Nodup _))

theorem keys_zip {keys : List String} {row : List α} (same : keys.length = row.length) :
    Entries.keys (keys.zip row) = keys :=
  List.map_fst_zip (Nat.le_of_eq same)

theorem values_zip {keys : List String} {row : List α} (same : keys.length = row.length) :
    Entries.values (keys.zip row) = row :=
  List.map_snd_zip (Nat.le_of_eq same.symm)

theorem zip_keys_values (entries : Entries α) :
    (Entries.keys entries).zip (Entries.values entries) = entries := by
  simp only [Entries.keys, Entries.values, List.zip_map', List.map_id']

theorem find_eq_none_iff {entries : Entries α} :
    Entries.find? entries key = none ↔ key ∉ Entries.keys entries := by
  simp only [Entries.find?, Entries.keys, List.lookup_eq_none_iff, List.mem_map, not_exists,
    not_and, bne_iff_ne]
  exact forall₂_congr fun _ _ => ne_comm

theorem mem_of_find {entries : Entries α} (found : Entries.find? entries key = some value) :
    (key, value) ∈ entries :=
  mem_of_lookup found

theorem find_of_mem {entries : Entries α} (distinct : Entries.Distinct entries)
    (listed : (key, value) ∈ entries) : Entries.find? entries key = some value :=
  lookup_of_mem distinct listed

/-! ## Writing -/

theorem mem_insert {entries : Entries α} (listed : entry ∈ insert entries key value) :
    entry ∈ entries ∨ entry = (key, value) := by
  induction entries with
  | nil => exact .inr (List.mem_singleton.mp listed)
  | cons first rest ih =>
    simp only [insert] at listed
    split at listed
    · rename_i known
      rcases List.mem_cons.mp listed with rfl | listed
      · rw [known]
        exact .inr rfl
      · exact .inl (List.mem_cons_of_mem _ listed)
    · rcases List.mem_cons.mp listed with rfl | listed
      · exact .inl List.mem_cons_self
      · exact (ih listed).imp (List.mem_cons_of_mem _) id

theorem mem_extend {entries : Entries α} (listed : entry ∈ extend entries more) :
    entry ∈ entries ∨ entry ∈ more := by
  induction more generalizing entries with
  | nil => exact .inl listed
  | cons pair more ih =>
    rcases ih listed with known | new
    · rcases mem_insert known with known | rfl
      · exact .inl known
      · exact .inr List.mem_cons_self
    · exact .inr (List.mem_cons_of_mem _ new)

theorem mem_of_pairs {pairs : Entries α} (listed : entry ∈ ofPairs pairs) : entry ∈ pairs :=
  (mem_extend listed).resolve_left List.not_mem_nil

/-- Writing adds no key but the one written, and that one at the end. -/
theorem keys_insert (entries : Entries α) (key : String) (value : α) :
    Entries.keys (insert entries key value) =
      if key ∈ Entries.keys entries then Entries.keys entries else Entries.keys entries ++ [key] := by
  induction entries with
  | nil => rfl
  | cons first rest ih =>
    obtain ⟨known, old⟩ := first
    have keys : Entries.keys ((known, old) :: rest) = known :: Entries.keys rest := rfl
    by_cases same : known = key
    · subst same
      simp [insert, Entries.keys]
    · have other : key ∈ Entries.keys ((known, old) :: rest) ↔ key ∈ Entries.keys rest := by
        simp [keys, Ne.symm same]
      have below : Entries.keys (insert ((known, old) :: rest) key value) =
          known :: Entries.keys (insert rest key value) := by
        simp [insert, same, Entries.keys]
      rw [below, ih, if_congr other rfl rfl, keys]
      split <;> rfl

theorem distinct_insert {entries : Entries α} (distinct : Entries.Distinct entries) (key : String)
    (value : α) : Entries.Distinct (insert entries key value) := by
  rw [Entries.Distinct, keys_insert]
  split
  · exact distinct
  · rename_i fresh
    refine List.nodup_append.mpr ⟨distinct, List.nodup_singleton key, ?_⟩
    rintro known listed _ written rfl
    exact fresh (List.mem_singleton.mp written ▸ listed)

theorem distinct_extend {entries : Entries α} (distinct : Entries.Distinct entries)
    (more : Entries α) : Entries.Distinct (extend entries more) := by
  induction more generalizing entries with
  | nil => exact distinct
  | cons pair more ih => exact ih (distinct_insert distinct pair.1 pair.2)

/-! ## Other values under the same keys -/

/-- The table with every value changed. -/
def mapValues (f : α → β) (entries : Entries α) : Entries β :=
  entries.map fun entry => (entry.1, f entry.2)

theorem map_values_of_steps {whole : Entries α → Entries β} {one : α → β} (empty : whole [] = [])
    (step : ∀ key value rest, whole ((key, value) :: rest) = (key, one value) :: whole rest)
    (entries : Entries α) : whole entries = mapValues one entries :=
  map_of_steps empty (fun entry rest => step entry.1 entry.2 rest) entries

theorem keys_map_values (f : α → β) (entries : Entries α) :
    Entries.keys (mapValues f entries) = Entries.keys entries := by
  simp [Entries.keys, mapValues]

theorem values_map_values (f : α → β) (entries : Entries α) :
    Entries.values (mapValues f entries) = (Entries.values entries).map f := by
  simp [Entries.values, mapValues]

theorem map_values_congr {f g : α → β} {entries : Entries α}
    (each : ∀ value ∈ Entries.values entries, f value = g value) :
    mapValues f entries = mapValues g entries :=
  List.map_congr_left fun entry listed =>
    congrArg (Prod.mk entry.1) (each entry.2 (List.mem_map_of_mem listed))

theorem map_values_twice (f : α → β) (g : β → γ) (entries : Entries α) :
    mapValues g (mapValues f entries) = mapValues (fun value => g (f value)) entries :=
  List.map_map

theorem map_values_self (entries : Entries α) : mapValues (fun value => value) entries = entries :=
  List.map_id' entries

theorem find_map_values (f : α → β) (entries : Entries α) (key : String) :
    Entries.find? (mapValues f entries) key = (Entries.find? entries key).map f := by
  induction entries with
  | nil => rfl
  | cons entry rest ih =>
    obtain ⟨known, value⟩ := entry
    simp only [Entries.find?, mapValues, List.map_cons, List.lookup_cons] at ih ⊢
    cases key == known with
    | true => rfl
    | false => exact ih

theorem insert_map_values (f : α → β) (entries : Entries α) (key : String) (value : α) :
    insert (mapValues f entries) key (f value) = mapValues f (insert entries key value) := by
  induction entries with
  | nil => rfl
  | cons entry rest ih =>
    obtain ⟨known, old⟩ := entry
    have head : mapValues f ((known, old) :: rest) = (known, f old) :: mapValues f rest := rfl
    rw [head, insert, insert]
    split
    · rfl
    · rw [ih]
      rfl

theorem of_pairs_map_values (f : α → β) (pairs : Entries α) :
    ofPairs (mapValues f pairs) = mapValues f (ofPairs pairs) := by
  have grown : ∀ table : Entries α,
      extend (mapValues f table) (mapValues f pairs) = mapValues f (extend table pairs) := by
    induction pairs with
    | nil => exact fun _ => rfl
    | cons pair rest ih =>
      intro table
      have first := insert_map_values f table pair.1 pair.2
      simp only [extend, mapValues, List.map_cons, List.foldl_cons] at first ih ⊢
      rw [first]
      exact ih (insert table pair.1 pair.2)
  exact grown []

/-! ## Distinct keys -/

/-- A key that is not in the first part of a table is written in the rest. -/
theorem insert_append {entries : Entries α} (fresh : key ∉ Entries.keys entries)
    (tail : Entries α) (value : α) :
    insert (entries ++ tail) key value = entries ++ insert tail key value := by
  induction entries with
  | nil => rfl
  | cons first rest ih =>
    obtain ⟨known, old⟩ := first
    simp only [Entries.keys, List.map_cons, List.mem_cons, not_or] at fresh
    rw [List.cons_append, insert, if_neg (Ne.symm fresh.1), ih fresh.2, List.cons_append]

/-- A new key goes to the end. -/
theorem insert_fresh {entries : Entries α} (fresh : key ∉ Entries.keys entries) (value : α) :
    insert entries key value = entries ++ [(key, value)] := by
  simpa [insert] using insert_append fresh [] value

/-- Writing new keys, each once, appends them. -/
theorem extend_fresh {entries more : Entries α}
    (distinct : Entries.Distinct (entries ++ more)) : extend entries more = entries ++ more := by
  induction more generalizing entries with
  | nil => exact (List.append_nil entries).symm
  | cons pair more ih =>
    have rejoined : entries ++ pair :: more = (entries ++ [pair]) ++ more := by simp
    have fresh : pair.1 ∉ Entries.keys entries := by
      rw [Entries.Distinct, Entries.keys, List.map_append] at distinct
      intro known
      exact (List.nodup_append.mp distinct).2.2 _ known _ List.mem_cons_self rfl
    rw [rejoined] at distinct ⊢
    rw [extend, List.foldl_cons, insert_fresh fresh]
    exact ih distinct

/-- A table with each key once is what writing its own pairs leaves. -/
theorem of_pairs_distinct {pairs : Entries α} (distinct : Entries.Distinct pairs) :
    ofPairs pairs = pairs :=
  extend_fresh distinct

/-- Whatever is written into an empty table, each key is there once. -/
theorem distinct_of_pairs (pairs : Entries α) : Entries.Distinct (ofPairs pairs) :=
  have none : Entries.Distinct ([] : Entries α) := List.nodup_nil
  distinct_extend none pairs

/-! ## Tables without a common key -/

/-- Keys that a table does not have are written behind it as if it were not there. -/
theorem extend_apart {entries more : Entries α}
    (apart : (Entries.keys entries).Disjoint (Entries.keys more)) :
    extend entries more = entries ++ ofPairs more := by
  have behind : ∀ tail, extend (entries ++ tail) more = entries ++ extend tail more := by
    induction more with
    | nil => exact fun _ => rfl
    | cons pair more ih =>
      intro tail
      have fresh : pair.1 ∉ Entries.keys entries := fun known => apart known List.mem_cons_self
      have later : (Entries.keys entries).Disjoint (Entries.keys more) :=
        fun key known listed => apart known (List.mem_cons_of_mem _ listed)
      rw [extend, List.foldl_cons, insert_append fresh]
      exact ih later (insert tail pair.1 pair.2)
  simpa [ofPairs] using behind []

theorem keys_of_pairs {pairs : Entries α} (listed : key ∈ Entries.keys (ofPairs pairs)) :
    key ∈ Entries.keys pairs := by
  obtain ⟨entry, member, rfl⟩ := List.mem_map.mp listed
  exact List.mem_map_of_mem (mem_of_pairs member)

/-- Lists of pairs without a common key may be written one by one. -/
theorem of_pairs_flatten {lists : List (Entries α)}
    (apart : lists.Pairwise fun one other => (Entries.keys one).Disjoint (Entries.keys other)) :
    ofPairs lists.flatten = (lists.map ofPairs).flatten := by
  induction lists with
  | nil => rfl
  | cons first rest ih =>
    obtain ⟨head, tail⟩ := List.pairwise_cons.mp apart
    have outside : (Entries.keys (ofPairs first)).Disjoint (Entries.keys rest.flatten) := by
      intro key known listed
      obtain ⟨entry, member, rfl⟩ := List.mem_map.mp listed
      obtain ⟨list, below, member⟩ := List.mem_flatten.mp member
      exact head list below (keys_of_pairs known) (List.mem_map_of_mem member)
    have joined : ofPairs (first :: rest).flatten = extend (ofPairs first) rest.flatten := by
      simp [ofPairs, extend, List.foldl_append]
    rw [joined, extend_apart outside, ih tail, List.map_cons, List.flatten_cons]

/-! ## What writing leaves -/

private theorem erase_dups_concat [DecidableEq α] (items : List α) (item : α) :
    (items ++ [item]).eraseDups =
      if item ∈ items then items.eraseDups else items.eraseDups ++ [item] := by
  rw [List.eraseDups_append]
  by_cases known : item ∈ items <;> simp [List.removeAll, known, List.eraseDups_cons]

/-- Only first appearances count, so each part may be cut down to them before. -/
theorem erase_dups_parts [DecidableEq α] (front back : List α) :
    (front.eraseDups ++ back.eraseDups).eraseDups = (front ++ back).eraseDups := by
  have behind (front back : List α) :
      (front ++ back.eraseDups).eraseDups = (front ++ back).eraseDups := by
    induction back using List.reverseRecOn with
    | nil => rfl
    | append_singleton back item ih =>
      rw [erase_dups_concat back, ← List.append_assoc, erase_dups_concat (front ++ back)]
      by_cases known : item ∈ back
      · rw [if_pos known, if_pos (List.mem_append_right front known), ih]
      · rw [if_neg known, ← List.append_assoc, erase_dups_concat]
        simp only [List.mem_append, List.mem_eraseDups, ih]
  rw [behind]
  induction back using List.reverseRecOn with
  | nil => simpa using behind [] front
  | append_singleton back item ih =>
    rw [← List.append_assoc, ← List.append_assoc, erase_dups_concat, erase_dups_concat, ih]
    simp only [List.mem_append, List.mem_eraseDups]

theorem of_pairs_concat (pairs : Entries α) (pair : String × α) :
    ofPairs (pairs ++ [pair]) = insert (ofPairs pairs) pair.1 pair.2 := by
  simp [ofPairs, extend, List.foldl_append]

/-- The keys of a written table are those of the pairs, in the order in which they first came. -/
theorem keys_of_pairs_eq (pairs : Entries α) :
    Entries.keys (ofPairs pairs) = (Entries.keys pairs).eraseDups := by
  induction pairs using List.reverseRecOn with
  | nil => rfl
  | append_singleton pairs pair ih =>
    have keys : Entries.keys (pairs ++ [pair]) = Entries.keys pairs ++ [pair.1] :=
      List.map_append
    rw [of_pairs_concat, keys_insert, ih, keys, erase_dups_concat]
    simp only [List.mem_eraseDups]

theorem find_cons (known : String) (old : α) (rest : Entries α) (key : String) :
    Entries.find? ((known, old) :: rest) key =
      if key = known then some old else Entries.find? rest key := by
  rw [Entries.find?, List.lookup_cons]
  by_cases same : key = known
  · rw [if_pos same, beq_iff_eq.mpr same]
  · rw [if_neg same, beq_eq_false_iff_ne.mpr same]
    rfl

/-- Writing a key changes what is found under it, and nothing else. -/
theorem find_insert (entries : Entries α) (key : String) (value : α) (asked : String) :
    Entries.find? (insert entries key value) asked =
      if asked = key then some value else Entries.find? entries asked := by
  induction entries with
  | nil => exact find_cons key value [] asked
  | cons first rest ih =>
    obtain ⟨known, old⟩ := first
    rw [insert]
    split
    · rename_i written
      subst written
      rw [find_cons, find_cons]
      split <;> rfl
    · rename_i other
      rw [find_cons, find_cons, ih]
      by_cases same : asked = known
      · rw [if_pos same, if_pos same, if_neg (same ▸ other)]
      · rw [if_neg same, if_neg same]

/-- Under a key there is what was written to it last. -/
theorem find_of_pairs (pairs : Entries α) (key : String) :
    Entries.find? (ofPairs pairs) key = Entries.find? pairs.reverse key := by
  induction pairs using List.reverseRecOn with
  | nil => rfl
  | append_singleton pairs pair ih =>
    rw [of_pairs_concat, find_insert, ih, List.reverse_concat, find_cons]

/-- Where each key is there once, it does not matter from which end a table is searched. -/
theorem find_reverse {entries : Entries α} (distinct : Entries.Distinct entries) (key : String) :
    Entries.find? entries.reverse key = Entries.find? entries key := by
  have turned : Entries.Distinct entries.reverse := by
    rw [Entries.Distinct, Entries.keys, List.map_reverse]
    exact List.nodup_reverse.mpr distinct
  refine Option.ext fun value => ⟨fun found => ?_, fun found => ?_⟩
  · exact find_of_mem distinct (List.mem_reverse.mp (mem_of_find found))
  · exact find_of_mem turned (List.mem_reverse.mpr (mem_of_find found))

/-- A table that has each key once is read off its keys. -/
theorem found_by_keys {entries : Entries α} (distinct : Entries.Distinct entries) :
    (Entries.keys entries).map (fun key => (Entries.find? entries key).map (Prod.mk key)) =
      entries.map some := by
  rw [Entries.keys, List.map_map]
  refine List.map_congr_left fun entry listed => ?_
  rw [Function.comp_apply, find_of_mem distinct listed]
  rfl

/-- Tables that have each key once are equal if their keys are, in order, and what is found under
them. -/
theorem eq_of_find {entries others : Entries α} (distinct : Entries.Distinct entries)
    (keys : Entries.keys entries = Entries.keys others)
    (found : ∀ key, Entries.find? entries key = Entries.find? others key) : entries = others := by
  have also : Entries.Distinct others := by rwa [Entries.Distinct, ← keys]
  have same : entries.map some = others.map some := by
    rw [← found_by_keys distinct, ← found_by_keys also, keys]
    simp only [found]
  exact List.map_injective_iff.mpr (fun _ _ => Option.some.inj) same

end Entries
end Readings
