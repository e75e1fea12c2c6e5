import Mathlib
import Readings.Proofs.Double.Exact
import Readings.Proofs.Value.Reordering

/-!
The JSON view of values. A number is written as an integer where that integer is the number, and as
a double otherwise, with one exception: `2 ^ 63` passes for a signed word and is written as the
largest one, which is one less (`views_keep_all_but_the_word_bound`). Nothing of this is seen by
who reads the view back into values: the largest word rounds to `2 ^ 63` again, so that JSON-like
values come back as they were, with one zero for the two (`json_like_values_read_back`).

The library is imported as a whole because only so it has `Int.toInt?_repr`, by which a big integer
is kept in its digits.
-/
namespace Readings

/-- The rational number that JSON data is. -/
def Json.number? : Json → Option Rat
  | .integer n => some n
  | .float x => x.value?
  | _ => none

theorem Json.signed_limit_ne : signedLimit ≠ 0 := by
  decide +kernel

/-- JSON data that is the same number as a double, or null where the double is no number. -/
def Double.SaidBy (x : Double) (json : Json) : Prop :=
  if x.isFinite then json.number? = x.value? else json = .null

/-- The double `2 ^ 63`, one past the largest signed word. -/
@[irreducible]
def Double.wordBound : Double := .ofInt Json.signedLimit

namespace Double

theorem word_bound_eq : wordBound = ofInt Json.signedLimit := by
  unfold wordBound
  rfl

theorem to_int_word_bound : wordBound.toInt? = some (Json.signedLimit : Int) := by
  decide +kernel

theorem word_bound_finite : wordBound.isFinite = true := by
  decide +kernel

/-- The largest signed word is read as the double past it. -/
theorem of_int_largest_word : ofInt (Json.signedLimit - 1) = wordBound := by
  decide +kernel

theorem plain_zero_word_bound : wordBound.plainZero = wordBound := by
  decide +kernel

theorem to_int_of_zero {x : Double} (none : x.isZero = true) : x.toInt? = some 0 := by
  cases x with
  | finite negative magnitude =>
    have nothing : magnitude.units = 0 := eq_of_beq none
    simp only [toInt?, nothing, Nat.zero_mod, Nat.zero_div, if_true]
    cases negative <;> rfl
  | _ => cases none

theorem plain_zero_of_nonzero {x : Double} (some : x.isZero = false) : x.plainZero = x := by
  rw [plainZero, some]
  rfl

/-- An integer other than zero is equal to one double only. -/
theorem eq_of_to_int {x : Double} (exact : x.toInt? = some n) (nonzero : n ≠ 0) : x = ofInt n := by
  cases sign : x.isZero with
  | true =>
    rw [to_int_of_zero sign] at exact
    exact absurd (Option.some.inj exact).symm nonzero
  | false => rw [of_int_of_to_int exact, plain_zero_of_nonzero sign]

end Double

namespace Value

/-! ## Numbers -/

/-- The double past the words is written as the largest word. -/
theorem number_json_word_bound : numberJson .wordBound = .integer (Json.signedLimit - 1) := by
  unfold numberJson
  rw [Double.to_int_word_bound]
  dsimp only
  rw [Int.natAbs_natCast, if_pos (Nat.le_refl _), min_eq_right (by omega)]

/-- A double is written as the integer that it is, as the largest word where it is one past it, and
as itself where it is no zero. -/
theorem number_json_cases (x : Double) :
    (∃ n, x.toInt? = some n ∧ numberJson x = .integer n) ∨ x = .wordBound ∨
      (x.isZero = false ∧ numberJson x = .ofDouble x) := by
  unfold numberJson
  cases exact : x.toInt? with
  | none =>
    refine .inr (.inr ⟨?_, rfl⟩)
    by_contra zero
    rw [Bool.not_eq_false] at zero
    rw [Double.to_int_of_zero zero] at exact
    cases exact
  | some n =>
    dsimp only
    split
    · rename_i small
      rcases (show n ≤ Json.signedLimit by omega).lt_or_eq with below | rfl
      · refine .inl ⟨n, rfl, ?_⟩
        rw [min_eq_left (by omega)]
      · have nonzero := Int.natCast_ne_zero.mpr Json.signed_limit_ne
        rw [Double.word_bound_eq]
        exact .inr (.inl (Double.eq_of_to_int exact nonzero))
    · rename_i large
      refine .inr (.inr ⟨?_, rfl⟩)
      by_contra zero
      rw [Bool.not_eq_false] at zero
      rw [Double.to_int_of_zero zero] at exact
      cases exact
      exact large (Nat.zero_le _)

/-- What is written for a finite double is read back as that double, with one zero for the two. -/
theorem of_json_number {x : Double} (finite : x.isFinite = true) :
    ofJson (numberJson x) = .number x.plainZero := by
  rcases number_json_cases x with ⟨n, exact, written⟩ | rfl | ⟨nonzero, written⟩
  · rw [written, ofJson, Double.of_int_of_to_int exact]
  · rw [number_json_word_bound, ofJson, Double.of_int_largest_word, Double.plain_zero_word_bound]
  · rw [written, Json.ofDouble, if_pos finite, ofJson, Double.plain_zero_of_nonzero nonzero]

/-- What is written for a double says what it is, except for the double past the words. -/
theorem number_said_iff (x : Double) : x.SaidBy (numberJson x) ↔ x ≠ .wordBound := by
  constructor
  · rintro said rfl
    rw [Double.SaidBy, if_pos Double.word_bound_finite, number_json_word_bound, Json.number?,
      Double.value_of_to_int Double.to_int_word_bound, Option.some.injEq, Int.cast_inj] at said
    omega
  · intro other
    rcases number_json_cases x with ⟨n, exact, written⟩ | same | ⟨_, written⟩
    · have finite := Double.finite_of_to_int exact
      rw [Double.SaidBy, if_pos finite, written, Json.number?, Double.value_of_to_int exact]
    · exact absurd same other
    · rw [Double.SaidBy, written, Json.ofDouble]
      split <;> rfl

/-! ## Parts -/

theorem to_json_items_eq (items : List Value) : toJsonItems items = items.map toJson :=
  map_of_steps rfl (fun _ _ => rfl) items

theorem to_json_entries_eq (entries : Entries Value) :
    toJsonEntries entries = Entries.mapValues toJson entries :=
  Entries.map_values_of_steps rfl (fun _ _ _ => rfl) entries

theorem of_json_items_eq (items : List Json) : ofJsonItems items = items.map ofJson :=
  map_of_steps rfl (fun _ _ => rfl) items

theorem of_json_members_eq (members : Entries Json) :
    ofJsonMembers members = Entries.mapValues ofJson members :=
  Entries.map_values_of_steps rfl (fun _ _ _ => rfl) members

/-! ## What the view says -/

/-- JSON data that says what a value says, at any depth, where the doubles in it are said as told.
A big integer is the same number, possibly in decimal digits; what JSON has no word for is null or
text. -/
inductive KeptBy (said : Double → Json → Prop) : Value → Json → Prop where
  | undefined : KeptBy said .undefined .null
  | null : KeptBy said .null .null
  | bool : KeptBy said (.bool b) (.bool b)
  | number (same : said x json) : KeptBy said (.number x) json
  | bigint : KeptBy said (.bigint n) (.integer n)
  | decimal (same : String.toInt? digits = some n) : KeptBy said (.bigint n) (.string digits)
  | string {chars : String} : KeptBy said (.string chars) (.string chars)
  | symbol : KeptBy said (.symbol handle) (.string handle.text)
  | array (each : List.Forall₂ (KeptBy said) items parts) :
      KeptBy said (.array items) (.array parts)
  | object {entries : Entries Value} {members : Entries Json}
      (keys : Entries.keys entries = Entries.keys members)
      (each : List.Forall₂ (KeptBy said) (Entries.values entries) (Entries.values members)) :
      KeptBy said (.object entries) (.object members)

/-- A scalar that stands in a value, at any depth. -/
inductive Leaf (leaf : Value) : Value → Prop where
  | self (kind : Literal.ofValue? leaf = some literal) : Leaf leaf leaf
  | item (listed : item ∈ items) (inside : Leaf leaf item) : Leaf leaf (.array items)
  | entry (listed : value ∈ Entries.values entries) (inside : Leaf leaf value) :
      Leaf leaf (.object entries)

theorem leaf_of_scalar {actual : Value} (kind : Literal.ofValue? actual = some literal) :
    Leaf leaf actual ↔ leaf = actual := by
  constructor
  · intro inside
    cases inside with
    | self => rfl
    | _ => cases kind
  · rintro rfl
    exact .self kind

theorem leaf_of_array {items : List Value} :
    Leaf leaf (.array items) ↔ ∃ item ∈ items, Leaf leaf item := by
  constructor
  · intro inside
    cases inside with
    | self kind => cases kind
    | item listed inside => exact ⟨_, listed, inside⟩
  · rintro ⟨item, listed, inside⟩
    exact .item listed inside

theorem leaf_of_object {entries : Entries Value} :
    Leaf leaf (.object entries) ↔ ∃ value ∈ Entries.values entries, Leaf leaf value := by
  constructor
  · intro inside
    cases inside with
    | self kind => cases kind
    | entry listed inside => exact ⟨_, listed, inside⟩
  · rintro ⟨value, listed, inside⟩
    exact .entry listed inside

theorem kept_number_iff : (number x).KeptBy said json ↔ said x json := by
  constructor
  · intro kept
    cases kept with
    | number same => exact same
  · exact .number

theorem kept_array_iff :
    (array items).KeptBy said (.array parts) ↔ List.Forall₂ (KeptBy said) items parts := by
  constructor
  · intro kept
    cases kept with
    | array each => exact each
  · exact .array

theorem kept_object_iff {entries : Entries Value} {members : Entries Json} :
    (object entries).KeptBy said (.object members) ↔
      Entries.keys entries = Entries.keys members ∧
        List.Forall₂ (KeptBy said) (Entries.values entries) (Entries.values members) := by
  constructor
  · intro kept
    cases kept with
    | object keys each => exact ⟨keys, each⟩
  · rintro ⟨keys, each⟩
    exact .object keys each

/-- A big integer is the number that is written for it, in a word or in digits. -/
theorem bigint_kept (n : Int) : (bigint n).KeptBy said (bigint n).toJson := by
  rw [toJson]
  split
  · exact .bigint
  · refine .decimal ?_
    rw [Int.toString_eq_repr, Int.toInt?_repr]

/-- The view of a value keeps it when it keeps every double in it. -/
theorem view_kept_iff (actual : Value) :
    actual.KeptBy said actual.toJson ↔ ∀ x, Leaf (.number x) actual → said x (numberJson x) := by
  induction actual using part_induction with
  | scalar actual literal kind =>
    simp only [leaf_of_scalar kind]
    cases actual with
    | number x =>
      rw [toJson, kept_number_iff]
      simp
    | bigint n => exact iff_of_true (bigint_kept n) (by simp)
    | undefined => exact iff_of_true .undefined (by simp)
    | null => exact iff_of_true .null (by simp)
    | bool => exact iff_of_true .bool (by simp)
    | string => exact iff_of_true .string (by simp)
    | symbol => exact iff_of_true .symbol (by simp)
    | array | object => cases kind
  | array items ih =>
    rw [toJson, to_json_items_eq, kept_array_iff, List.forall₂_map_right_iff, List.forall₂_same,
      forall₂_congr ih]
    simp only [leaf_of_array, forall_exists_index, and_imp]
    exact ⟨fun each x item listed => each item listed x,
      fun each item listed x => each x item listed⟩
  | object entries ih =>
    rw [toJson, to_json_entries_eq, kept_object_iff, Entries.keys_map_values,
      Entries.values_map_values, List.forall₂_map_right_iff, List.forall₂_same, forall₂_congr ih]
    simp only [leaf_of_object, forall_exists_index, and_imp, true_and]
    exact ⟨fun each x value listed => each value listed x,
      fun each value listed x => each x value listed⟩

/-- The JSON view keeps every number at any depth, with one exception: it is the same number unless
the double past the words stands in the value, and that one is written as the largest word. -/
theorem views_keep_all_but_the_word_bound (actual : Value) :
    (actual.KeptBy Double.SaidBy actual.toJson ↔ ¬ Leaf (.number .wordBound) actual) ∧
      actual.KeptBy (fun x json =>
        x.SaidBy json ∨ x = .wordBound ∧ json = .integer (Json.signedLimit - 1)) actual.toJson := by
  constructor
  · simp only [view_kept_iff, number_said_iff]
    constructor
    · intro each inside
      exact each _ inside rfl
    · rintro none _ inside rfl
      exact none inside
  · refine (view_kept_iff actual).mpr fun x _ => ?_
    by_cases bound : x = .wordBound
    · subst bound
      exact .inr ⟨rfl, number_json_word_bound⟩
    · exact .inl ((number_said_iff x).mpr bound)

/-- The double `2 ^ 63` is written as an integer that it is not. -/
theorem word_bound_is_written_less :
    let bound : Double := .wordBound
    bound.value? = some 9223372036854775808 ∧
      (Value.number bound).toJson = .integer 9223372036854775807 ∧
      ¬ (Value.number bound).KeptBy Double.SaidBy (Value.number bound).toJson := by
  intro bound
  refine ⟨Double.value_of_to_int Double.to_int_word_bound, number_json_word_bound, ?_⟩
  rw [toJson, kept_number_iff, number_said_iff]
  exact fun other => other rfl

/-! ## Reading the view back -/

/-- A value that JSON data stands for: its numbers are finite, each key of an object is there once,
and nothing in it is undefined, a big integer or a symbol. -/
inductive JsonLike : Value → Prop where
  | null : JsonLike .null
  | bool : JsonLike (.bool b)
  | number (finite : x.isFinite = true) : JsonLike (.number x)
  | string {chars : String} : JsonLike (.string chars)
  | array (each : ∀ item ∈ items, JsonLike item) : JsonLike (.array items)
  | object (distinct : Entries.Distinct entries)
      (each : ∀ value ∈ Entries.values entries, JsonLike value) : JsonLike (.object entries)

mutual
/-- The same value, with one zero for the two. -/
def plainZeros : Value → Value
  | .number x => .number x.plainZero
  | .array items => .array (plainZerosItems items)
  | .object entries => .object (plainZerosEntries entries)
  | .undefined => .undefined
  | .null => .null
  | .bool b => .bool b
  | .bigint n => .bigint n
  | .string text => .string text
  | .symbol handle => .symbol handle

def plainZerosItems : List Value → List Value
  | [] => []
  | item :: rest => item.plainZeros :: plainZerosItems rest

def plainZerosEntries : List (String × Value) → List (String × Value)
  | [] => []
  | (key, value) :: rest => (key, value.plainZeros) :: plainZerosEntries rest
end

theorem plain_zeros_items_eq (items : List Value) :
    plainZerosItems items = items.map plainZeros :=
  map_of_steps rfl (fun _ _ => rfl) items

theorem plain_zeros_entries_eq (entries : Entries Value) :
    plainZerosEntries entries = Entries.mapValues plainZeros entries :=
  Entries.map_values_of_steps rfl (fun _ _ _ => rfl) entries

/-- JSON-like values come back from their JSON view, with the keys of every object in their order
and every number the same double, where the two zeros count as one. -/
theorem json_like_values_read_back {actual : Value} (like : actual.JsonLike) :
    ofJson actual.toJson = actual.plainZeros := by
  induction like with
  | null | bool | string => rfl
  | number finite => rw [toJson, of_json_number finite, plainZeros]
  | array each ih =>
    rw [toJson, ofJson, plainZeros, to_json_items_eq, of_json_items_eq, plain_zeros_items_eq,
      List.map_map]
    exact congrArg Value.array (List.map_congr_left ih)
  | @object entries distinct each ih =>
    rw [toJson, ofJson, plainZeros, to_json_entries_eq, of_json_members_eq, plain_zeros_entries_eq,
      Entries.map_values_twice, Entries.map_values_congr ih, ofPairs, Entries.of_pairs_distinct]
    rwa [Entries.Distinct, Entries.keys_map_values]

/-- The double past the words and the negative zero, in an object whose keys are not in
alphabetical order. -/
theorem bounds_and_zeros_read_back :
    let actual : Value := .object
      [("z", .number .wordBound), ("a", .array [.number Double.zero.neg, .number (.ofInt (-3))])]
    actual.JsonLike ∧ ofJson actual.toJson = .object
      [("z", .number .wordBound), ("a", .array [.number .zero, .number (.ofInt (-3))])] := by
  intro actual
  have like : actual.JsonLike := by
    have items : ∀ item ∈ [Value.number Double.zero.neg, .number (.ofInt (-3))], item.JsonLike :=
      List.forall_mem_cons.mpr ⟨.number rfl,
        List.forall_mem_singleton.mpr (.number (by decide +kernel))⟩
    exact .object (by decide) (List.forall_mem_cons.mpr ⟨.number Double.word_bound_finite,
      List.forall_mem_singleton.mpr (.array items)⟩)
  refine ⟨like, (json_like_values_read_back like).trans ?_⟩
  have plain : (Double.ofInt (-3)).plainZero = .ofInt (-3) := by decide +kernel
  simp only [actual, plainZeros, plainZerosEntries, plainZerosItems, Double.plain_zero_word_bound,
    plain]
  rfl

end Value
end Readings
