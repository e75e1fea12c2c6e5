import Readings.Cast.Basic
import Mathlib.Algebra.BigOperators.Group.List.Basic
import Mathlib.Data.List.Sublists

/-!
Choices side by side, without the step that continues a single row in place: `rowsOf` is the plain
product in dictionary order, and `choices_eq_rows` says that the shortcut never changes it. The
product is associative (`rows_flatten`): rows may be chosen group by group. The digits of its index
tell what stands where in a row (`row_at_index`).
-/
namespace Readings

/-- All rows that choose one candidate from each column, in dictionary order: the first column is
the slowest. -/
def rowsOf : List (List α) → List (List α)
  | [] => [[]]
  | column :: rest => column.flatMap fun candidate => (rowsOf rest).map (candidate :: ·)

/-- Continuing a single row in place is one case of continuing every row by every candidate. -/
theorem extend_rows_eq (rows : List (List α)) (column : List α) :
    extendRows rows column =
      rows.flatMap fun row => column.map fun candidate => row ++ [candidate] := by
  unfold extendRows
  split <;> rfl

/-- Extending column by column appends the rows of the columns still to come to each row so far. -/
theorem extend_all_rows (columns : List (List α)) (rows : List (List α)) :
    columns.foldl extendRows rows = rows.flatMap fun row => (rowsOf columns).map (row ++ ·) := by
  induction columns generalizing rows with
  | nil => simp [rowsOf]
  | cons column rest ih =>
    rw [List.foldl_cons, ih, extend_rows_eq]
    simp [rowsOf, List.flatMap_assoc, List.flatMap_map, List.map_flatMap, Function.comp_def]

theorem choices_eq_rows (columns : List (List α)) : choices columns = rowsOf columns := by
  simp [choices, extend_all_rows]

theorem length_rows (columns : List (List α)) :
    (rowsOf columns).length = (columns.map List.length).prod := by
  induction columns with
  | nil => rfl
  | cons column rest ih => simp [rowsOf, List.length_flatMap, ih]

theorem rows_eq_nil_iff {columns : List (List α)} : rowsOf columns = [] ↔ [] ∈ columns := by
  induction columns with
  | nil => simp [rowsOf]
  | cons column rest ih =>
    cases column with
    | nil => simp [rowsOf]
    | cons candidate column =>
      simp only [rowsOf, List.flatMap_cons, List.append_eq_nil_iff, List.map_eq_nil_iff, ih,
        List.flatMap_eq_nil_iff, List.mem_cons, reduceCtorEq, false_or]
      exact ⟨And.left, fun inside => ⟨inside, fun _ _ => inside⟩⟩

theorem mem_rows_iff {columns : List (List α)} {row : List α} :
    row ∈ rowsOf columns ↔ List.Forall₂ (· ∈ ·) row columns := by
  induction columns generalizing row with
  | nil => simp [rowsOf]
  | cons column rest ih =>
    simp only [rowsOf, List.mem_flatMap, List.mem_map, List.forall₂_cons_right_iff, ih]
    constructor
    · rintro ⟨candidate, listed, tail, chosen, rfl⟩
      exact ⟨candidate, tail, listed, chosen, rfl⟩
    · rintro ⟨candidate, tail, listed, chosen, rfl⟩
      exact ⟨candidate, listed, tail, chosen, rfl⟩

/-- A row chooses one of the candidates that each item offers. -/
theorem mem_rows_map_iff {offer : α → List β} {items : List α} {row : List β} :
    row ∈ rowsOf (items.map offer) ↔
      List.Forall₂ (fun item choice => choice ∈ offer item) items row := by
  rw [mem_rows_iff, List.forall₂_map_right_iff]
  exact ⟨List.Forall₂.flip, List.Forall₂.flip⟩

/-- A row of more columns is a row of the first ones followed by a row of the others. -/
theorem rows_append (left right : List (List α)) :
    rowsOf (left ++ right) = (rowsOf left).flatMap fun row => (rowsOf right).map (row ++ ·) := by
  induction left with
  | nil => simp [rowsOf]
  | cons column rest ih =>
    simp [rowsOf, ih, List.flatMap_assoc, List.flatMap_map, List.map_flatMap, Function.comp_def]

/-- Rows may be chosen group by group: a row of each group, in dictionary order again, joined. -/
theorem rows_flatten (groups : List (List (List α))) :
    rowsOf groups.flatten = (rowsOf (groups.map rowsOf)).map List.flatten := by
  induction groups with
  | nil => rfl
  | cons group rest ih =>
    rw [List.flatten_cons, rows_append, ih]
    simp [rowsOf, List.map_flatMap, Function.comp_def]

/-- Changing the candidates of every column changes the rows position by position. -/
theorem rows_map (offer : ι → List α) (change : ι → α → β) (items : List ι) :
    rowsOf (items.map fun item => (offer item).map (change item)) =
      (rowsOf (items.map offer)).map (items.zipWith change) := by
  induction items with
  | nil => rfl
  | cons item rest ih =>
    simp [rowsOf, ih, List.map_flatMap, List.flatMap_map, Function.comp_def]

/-- Larger lists and more of them, in an order that is kept, leave the old members in order. -/
theorem flat_map_sublist {f : α → List γ} {g : β → List γ}
    (grown : List.SublistForall₂ (fun item other => (f item).Sublist (g other)) items others) :
    (items.flatMap f).Sublist (others.flatMap g) := by
  induction grown with
  | nil => exact List.nil_sublist _
  | cons head _ ih => exact head.append ih
  | cons_right _ ih => exact List.sublist_append_of_sublist_right ih

/-- Candidates added to the columns leave the old rows in their order. -/
theorem rows_sublist {columns others : List (List α)}
    (grown : List.Forall₂ List.Sublist columns others) :
    (rowsOf columns).Sublist (rowsOf others) := by
  induction grown with
  | nil => exact .refl _
  | @cons column other columns others head _ ih =>
    have continued : List.Forall₂ (fun candidate next =>
        ((rowsOf columns).map (candidate :: ·)).Sublist ((rowsOf others).map (next :: ·)))
        column column :=
      List.forall₂_same.mpr fun candidate _ => ih.map _
    exact flat_map_sublist (List.sublistForall₂_iff.mpr ⟨column, continued, head⟩)

/-! ## Rows by their index -/

/-- The rows so far, each continued by each candidate of one more column, however many there are. -/
def continueRows (rows : List (List α)) (column : List α) : List (List α) :=
  rows.flatMap fun row => column.map fun candidate => row ++ [candidate]

/-- How many rows there are for the columns behind a position. An index counts these whole, so this
is the weight of its digit there. -/
def weight (columns : List (List α)) (position : Nat) : Nat :=
  ((columns.drop (position + 1)).map List.length).prod

/-- Where all blocks have one length, an index is that of a block and that of an item in it. -/
theorem get_of_blocks {block : α → List β} (long : 0 < n) (same : ∀ item, (block item).length = n)
    (items : List α) (index : Nat) :
    (items.flatMap block)[index]? = items[index / n]?.bind fun item => (block item)[index % n]? := by
  induction items generalizing index with
  | nil => simp
  | cons item rest ih =>
    rw [List.flatMap_cons, List.getElem?_append, same]
    by_cases inside : index < n
    · rw [if_pos inside, Nat.div_eq_of_lt inside, Nat.mod_eq_of_lt inside]
      rfl
    · obtain ⟨beyond, rfl⟩ := Nat.exists_eq_add_of_le' (Nat.le_of_not_lt inside)
      rw [if_neg inside, Nat.add_sub_cancel, ih, Nat.add_div_right _ long, Nat.add_mod_right]
      rfl

/-- What is beyond the weight of a position and its column does not change the digit there. -/
theorem digit_of_remainder {columns : List (List α)} (there : columns[position]? = some column)
    (index : Nat) :
    index % (columns.map List.length).prod / weight columns position % column.length =
      index / weight columns position % column.length := by
  obtain ⟨bound, rfl⟩ := List.getElem?_eq_some_iff.mp there
  have split : (columns.map List.length).prod = weight columns position *
      (columns[position].length * ((columns.take position).map List.length).prod) := by
    rw [← List.prod_take_mul_prod_drop _ position, ← List.map_take, ← List.map_drop,
      List.drop_eq_getElem_cons bound, List.map_cons, List.prod_cons, weight]
    ac_rfl
  rw [split, Nat.mod_mul_right_div_self, Nat.mod_mul_right_mod]

/-- A row has, at each position, the candidate that the digit of its index selects there. -/
theorem row_at_index {columns : List (List α)} (listed : (rowsOf columns)[index]? = some row)
    (there : columns[position]? = some column) :
    row[position]? = column[index / weight columns position % column.length]? := by
  induction columns generalizing index row position with
  | nil => simp at there
  | cons first rest ih =>
    have count : (rowsOf rest).length = (rest.map List.length).prod := length_rows rest
    have some : 0 < (rest.map List.length).prod := by
      rw [← count, List.length_pos_iff]
      intro none
      simp [rowsOf, none] at listed
    rw [rowsOf, get_of_blocks some fun candidate => by rw [List.length_map, count]] at listed
    obtain ⟨candidate, chosen, behind⟩ := Option.bind_eq_some_iff.mp listed
    rw [List.getElem?_map] at behind
    obtain ⟨tail, below, rfl⟩ := Option.map_eq_some_iff.mp behind
    cases position with
    | zero =>
      obtain rfl : first = column := by simpa using there
      obtain ⟨bound, -⟩ := List.getElem?_eq_some_iff.mp chosen
      have own : weight (first :: rest) 0 = (rest.map List.length).prod := rfl
      rw [own, Nat.mod_eq_of_lt bound, chosen]
      rfl
    | succ position =>
      have later : weight (first :: rest) (position + 1) = weight rest position := rfl
      rw [List.getElem?_cons_succ] at there ⊢
      rw [ih below there, digit_of_remainder there, later]

/-- Continuing a single row in place never shows: from any rows so far, and so from none, the columns
give what continuing every row by every candidate gives. The choices are the product in dictionary
order. There are as many as the lengths of the columns multiplied, and the row at an index has at
each position the candidate that the digit of the index selects there, in the mixed radix of these
lengths with the first position the most significant. -/
theorem choices_follow_the_digits (columns : List (List α)) :
    (∀ rows, columns.foldl extendRows rows = columns.foldl continueRows rows) ∧
      choices columns = rowsOf columns ∧
      (choices columns).length = (columns.map List.length).prod ∧
      ∀ index row, (choices columns)[index]? = some row → row.length = columns.length ∧
        ∀ position column, columns[position]? = some column →
          row[position]? = column[index / weight columns position % column.length]? := by
  have step : extendRows (α := α) = continueRows := funext₂ extend_rows_eq
  rw [step, choices_eq_rows]
  refine ⟨fun _ => rfl, rfl, length_rows columns, fun index row listed => ⟨?_, ?_⟩⟩
  · exact (mem_rows_iff.mp (List.mem_of_getElem? listed)).length_eq
  · exact fun position column there => row_at_index listed there

/-- The row at index 4 of six, after a column that is continued in place: the digits of 4 are 0, 1, 0
and 1. -/
theorem row_four_has_its_digits :
    let columns : List (List Nat) := [[7], [1, 2], [3], [4, 5, 6]]
    (choices columns)[4]? = some [7, 2, 3, 5] ∧
      weight columns 1 = 3 ∧ [7, 2, 3, 5][1]? = [1, 2][4 / weight columns 1 % 2]? := by
  intro columns
  have listed : (choices columns)[4]? = some [7, 2, 3, 5] := rfl
  obtain ⟨-, -, -, digits⟩ := choices_follow_the_digits columns
  exact ⟨listed, by simp [weight, columns], (digits 4 _ listed).2 1 [1, 2] rfl⟩

end Readings
