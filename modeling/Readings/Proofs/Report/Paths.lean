import Readings.Proofs.Report.Issues

/-!
What the path of an issue tells. A path is the texts of the steps to a leaf problem, one after the
other, with keys as they are. The number of an item, a variant or a member ends at its bracket, and
no step's text starts inside such a text, so the steps can be read back from a path as far as the
first key. A key can hold the text of a step itself: two places share a path only where they part
at two keys of which one goes on, after the other, with the text of a step.
-/
namespace Readings
namespace Step

/-- The characters of a step's text. -/
def chars (step : Step) : List Char := step.text.toList

/-- The characters of the texts of steps, one after the other. -/
def spelling (steps : List Step) : List Char := steps.flatMap chars

/-- Steps that part at two keys, of which the second goes on, after the first, with the text of a
step. -/
inductive PartAtKeys : List Step → List Step → Prop where
  | here (inside : Step) (goesOn : longer = key ++ (inside.text ++ tail)) :
      PartAtKeys (.property key :: steps) (.property longer :: others)
  | later (part : PartAtKeys steps others) : PartAtKeys (step :: steps) (step :: others)

theorem spelling_cons (step : Step) (steps : List Step) :
    spelling (step :: steps) = step.chars ++ spelling steps := rfl

/-! ## The texts of steps -/

@[simp] theorem chars_item (index : Nat) :
    (item index).chars = "[".toList ++ (Nat.toDigits 10 index ++ [']']) := by
  simp [chars, text]

@[simp] theorem chars_property (key : String) : (property key).chars = '.' :: key.toList := by
  simp [chars, text]

@[simp] theorem chars_variant (index : Nat) :
    (variant index).chars = " <variant ".toList ++ (Nat.toDigits 10 index ++ ['>']) := by
  simp [chars, text]

@[simp] theorem chars_member (index : Nat) :
    (member index).chars = " <member ".toList ++ (Nat.toDigits 10 index ++ ['>']) := by
  simp [chars, text]

private theorem digit_of_number {c : Char} (listed : c ∈ Nat.toDigits 10 index) :
    c.isDigit = true :=
  Nat.isDigit_of_mem_toDigits (by decide) (by decide) listed

/-- A number ends where a bracket closes it. -/
theorem number_ends {close : Char} (closes : close.isDigit = false)
    (same : (mark ++ (Nat.toDigits 10 index ++ [close])) ++ rest =
      (mark ++ (Nat.toDigits 10 other ++ [close])) ++ more) :
    index = other ∧ rest = more := by
  have cut (number : Nat) (after : List Char) :
      (Nat.toDigits 10 number ++ close :: after).takeWhile Char.isDigit =
        Nat.toDigits 10 number := by
    rw [List.takeWhile_append_of_pos fun _ => digit_of_number,
      List.takeWhile_cons_of_neg (by simp [closes]), List.append_nil]
  simp only [List.append_assoc, List.singleton_append, List.append_cancel_left_eq] at same
  have digits : Nat.toDigits 10 index = Nat.toDigits 10 other := by
    rw [← cut index rest, same, cut]
  have numbers := congrArg (Nat.ofDigitChars 10 · 0) digits
  simp only [Nat.ofDigitChars_ten_toDigits] at numbers
  rw [digits] at same
  exact ⟨numbers, (List.cons.inj (List.append_cancel_left same)).2⟩

/-- The first step of a spelling can be read back, unless it may be either of two keys. -/
theorem first_step {one other : Step} (same : one.chars ++ rest = other.chars ++ more) :
    (one = other ∧ rest = more) ∨
      ∃ key longer, one = property key ∧ other = property longer ∧ key ≠ longer ∧
        key.toList ++ rest = longer.toList ++ more := by
  cases one with
  | item index =>
    cases other with
    | item again =>
      rw [chars_item, chars_item] at same
      have ⟨number, after⟩ := number_ends (by decide) same
      exact .inl ⟨congrArg item number, after⟩
    | _ => simp at same
  | property key =>
    cases other with
    | property longer =>
      have keys : key.toList ++ rest = longer.toList ++ more := by simpa using same
      by_cases equal : key = longer
      · cases equal
        exact .inl ⟨rfl, List.append_cancel_left keys⟩
      · exact .inr ⟨key, longer, rfl, rfl, equal, keys⟩
    | _ => simp at same
  | variant index =>
    cases other with
    | variant again =>
      rw [chars_variant, chars_variant] at same
      have ⟨number, after⟩ := number_ends (by decide) same
      exact .inl ⟨congrArg variant number, after⟩
    | _ => simp at same
  | member index =>
    cases other with
    | member again =>
      rw [chars_member, chars_member] at same
      have ⟨number, after⟩ := number_ends (by decide) same
      exact .inl ⟨congrArg member number, after⟩
    | _ => simp at same

/-! ## No step starts inside a numbered one -/

/-- Whether a step's text can begin with a character. -/
def IsMark (c : Char) : Prop := c = '[' ∨ c = '.' ∨ c = ' '
deriving Decidable

/-- Characters that begin like the text of a step. -/
inductive Begins : List Char → Prop where
  | item : Begins ('[' :: rest)
  | property : Begins ('.' :: rest)
  | alternative : Begins (' ' :: '<' :: rest)

theorem Begins.mark (begins : Begins (c :: rest)) : IsMark c := by
  cases begins <;> decide

theorem Begins.second (begins : Begins (' ' :: c :: rest)) : c = '<' := by
  cases begins
  rfl

theorem begins (step : Step) (rest : List Char) : Begins (step.chars ++ rest) := by
  cases step with
  | item =>
    rw [chars_item]
    exact .item
  | property =>
    rw [chars_property]
    exact .property
  | variant =>
    rw [chars_variant]
    exact .alternative
  | member =>
    rw [chars_member]
    exact .alternative

/-- No step's text begins at one of the characters, whatever comes after them. -/
def Quiet (inner : List Char) : Prop :=
  ∀ back, back <:+ inner → back ≠ [] → ∀ rest, ¬Begins (back ++ rest)

theorem Quiet.cons {inner : List Char} (head : ∀ rest, ¬Begins (c :: (inner ++ rest)))
    (quiet : Quiet inner) : Quiet (c :: inner) := by
  intro back ends some rest
  rcases List.suffix_cons_iff.mp ends with rfl | ends
  · exact head rest
  · exact quiet back ends some rest

theorem Quiet.append {front inner : List Char} (plain : ∀ c ∈ front, ¬IsMark c)
    (quiet : Quiet inner) : Quiet (front ++ inner) := by
  induction front with
  | nil => exact quiet
  | cons c front ih =>
    have ⟨first, others⟩ := List.forall_mem_cons.mp plain
    exact .cons (fun _ begins => first begins.mark) (ih others)

private theorem number_unmarked {c : Char} (listed : c ∈ Nat.toDigits 10 index) : ¬IsMark c := by
  have digit := digit_of_number listed
  rintro (rfl | rfl | rfl) <;> simp at digit

theorem quiet_number {close : Char} (closes : ¬IsMark close) :
    Quiet (Nat.toDigits 10 index ++ [close]) := by
  refine .append (fun _ => number_unmarked) (.cons (fun _ begins => closes begins.mark) ?_)
  exact fun _ ends some => absurd (List.suffix_nil.mp ends) some

/-- The blank before a number is not the blank before a variant or a member. -/
theorem quiet_alternative (word : List Char) (plain : ∀ c ∈ word, ¬IsMark c) :
    Quiet (word ++ ' ' :: (Nat.toDigits 10 index ++ ['>'])) := by
  refine .append plain (.cons (fun rest begins => ?_) (quiet_number (by decide)))
  obtain ⟨digit, digits, number⟩ := List.exists_cons_of_ne_nil (Nat.toDigits_ne_nil (n := index))
  have listed : digit ∈ Nat.toDigits 10 index := number ▸ .head _
  rw [number] at begins
  cases begins.second
  exact absurd (digit_of_number listed) (by decide)

/-- After its first character, the text of a step that is not a key is quiet. -/
theorem quiet_inside (step : Step) :
    (∃ key, step = property key) ∨ ∃ mark inner, step.chars = mark :: inner ∧ Quiet inner := by
  cases step with
  | item index => exact .inr ⟨_, _, chars_item index, quiet_number (by decide)⟩
  | property key => exact .inl ⟨key, rfl⟩
  | variant index =>
    exact .inr ⟨_, _, chars_variant index, quiet_alternative "<variant".toList (by simp [IsMark])⟩
  | member index =>
    exact .inr ⟨_, _, chars_member index, quiet_alternative "<member".toList (by simp [IsMark])⟩

/-! ## Equal paths -/

/-- What a key has more than another, where the rest of both spellings is the same, begins with the
text of a step. -/
theorem more_begins_with_step {steps others : List Step} (some : extra ≠ [])
    (same : spelling steps = extra ++ spelling others) :
    ∃ (step : Step) (tail : List Char), extra = step.chars ++ tail := by
  cases steps with
  | nil => exact absurd (List.append_eq_nil_iff.mp same.symm).1 some
  | cons step steps =>
    rw [spelling_cons] at same
    rcases List.append_eq_append_iff.mp same with ⟨tail, whole, _⟩ | ⟨back, cut, onward⟩
    · exact ⟨step, tail, whole⟩
    obtain ⟨mark, inner, rfl⟩ := List.exists_cons_of_ne_nil some
    rcases quiet_inside step with ⟨key, rfl⟩ | ⟨_, _, shape, quiet⟩
    · -- a key cut short is a key
      rw [chars_property] at cut
      obtain ⟨rfl, _⟩ := List.cons.inj cut
      exact ⟨property (String.ofList inner), [], by simp⟩
    · rw [shape] at cut
      obtain ⟨rfl, rfl⟩ := List.cons.inj cut
      cases back with
      | nil => exact ⟨step, [], by simp [shape]⟩
      | cons c back =>
        cases others with
        | nil => cases onward
        | cons other others =>
          have begun := begins other (spelling others)
          rw [← spelling_cons, onward] at begun
          have ends := List.suffix_append inner (c :: back)
          exact absurd begun (quiet _ ends (List.cons_ne_nil c back) _)

private theorem goes_on {key longer : String} {extra : List Char} {steps others : List Step}
    (differ : key ≠ longer) (more : longer.toList = key.toList ++ extra)
    (same : spelling steps = extra ++ spelling others) :
    PartAtKeys (property key :: steps) (property longer :: others) := by
  have some : extra ≠ [] := by
    rintro rfl
    rw [List.append_nil] at more
    exact differ (String.toList_inj.mp more).symm
  obtain ⟨inside, tail, rfl⟩ := more_begins_with_step some same
  have goesOn : longer = key ++ (inside.text ++ String.ofList tail) := by
    apply String.toList_inj.mp
    simpa only [String.toList_append, String.toList_ofList, chars] using more
  exact .here inside goesOn

/-- Different steps with one spelling part at keys. -/
theorem equal_spellings {steps others : List Step} (differ : steps ≠ others)
    (same : spelling steps = spelling others) :
    PartAtKeys steps others ∨ PartAtKeys others steps := by
  induction steps generalizing others with
  | nil =>
    cases others with
    | nil => exact absurd rfl differ
    | cons other others =>
      have begun := begins other (spelling others)
      rw [← spelling_cons, ← same] at begun
      cases begun
  | cons step steps ih =>
    cases others with
    | nil =>
      have begun := begins step (spelling steps)
      rw [← spelling_cons, same] at begun
      cases begun
    | cons other others =>
      rw [spelling_cons, spelling_cons] at same
      rcases first_step same with ⟨rfl, onward⟩ | ⟨key, longer, rfl, rfl, apart, keys⟩
      · have differ : steps ≠ others := fun equal => differ (congrArg _ equal)
        exact (ih differ onward).imp .later .later
      · -- one of the two keys is the start of the other
        rcases List.append_eq_append_iff.mp keys with ⟨_, more, onward⟩ | ⟨_, more, onward⟩
        · exact .inl (goes_on apart more onward)
        · exact .inr (goes_on apart.symm more onward)

/-- Steps through keys that do not hold the text of a step. -/
def Plain (steps : List Step) : Prop :=
  ∀ key, property key ∈ steps → ∀ before inside after,
    key ≠ before ++ (Step.text inside ++ after)

/-- A key without a blank, a dot or a square bracket holds no text of a step. -/
theorem plain_of_unmarked {steps : List Step}
    (unmarked : ∀ key, property key ∈ steps → ∀ c ∈ key.toList, ¬IsMark c) : Plain steps := by
  rintro key listed before inside after rfl
  have begun := begins inside []
  rw [List.append_nil] at begun
  cases spelled : inside.chars with
  | nil => exact nomatch spelled ▸ begun
  | cons c inner =>
    rw [spelled] at begun
    refine unmarked _ listed c ?_ begun.mark
    rw [String.toList_append, String.toList_append, ← chars, spelled]
    exact List.mem_append_right _ (.head _)

theorem PartAtKeys.not_plain (part : PartAtKeys steps others) : ¬Plain others := by
  intro plain
  induction part with
  | here inside goesOn => exact plain _ (.head _) _ inside _ goesOn
  | later _ ih => exact ih fun key listed => plain key (.tail _ listed)

end Step

open Step Outcome

/-- Places with one path have one spelling. -/
theorem Place.spelling_of_path {one other : Place} (same : one.issue.path = other.issue.path) :
    spelling one.steps = spelling other.steps := by
  have chars (place : Place) : place.issue.path.toList = '$' :: spelling place.steps := by
    simp only [Place.issue, Place.issueFrom, String.toList_append, String.toList_join,
      List.flatMap_map]
    rfl
  have spelled := congrArg String.toList same
  rw [chars, chars] at spelled
  exact (List.cons.inj spelled).2

/-- Two leaf problems of a cast with different steps have different paths, unless the steps part at
two keys of which one goes on, after the other, with the text of a step. So with each key there
once, no two issues have one path where no key on the way to a leaf problem holds the text of a
step. -/
theorem equal_paths_part_at_keys {d : Descriptor}
    (ran : castWithin depth [] d actual = some outcome) :
    (∀ one ∈ outcome.leaves, ∀ other ∈ outcome.leaves, one.steps ≠ other.steps →
      one.issue.path = other.issue.path →
        PartAtKeys one.steps other.steps ∨ PartAtKeys other.steps one.steps) ∧
      (d.Keyed → actual.Keyed → (∀ place ∈ outcome.leaves, Plain place.steps) →
        (outcome.issues.map Issue.path).Nodup) := by
  have part (one other : Place) (differ : one.steps ≠ other.steps)
      (same : one.issue.path = other.issue.path) :=
    equal_spellings differ (Place.spelling_of_path same)
  refine ⟨fun one _ other _ => part one other, fun distinct keyed plain => ?_⟩
  have once : (outcome.leaves.map Place.steps).Nodup :=
    (List.filter_sublist.map Place.steps).nodup (cast_places_once distinct keyed ran)
  rw [issues_eq, List.map_map, List.Nodup, List.pairwise_map]
  refine (List.pairwise_map.mp once).imp_of_mem fun {one other} oneIn otherIn differ same => ?_
  rcases part one other differ same with parted | parted
  · exact parted.not_plain (plain other otherIn)
  · exact parted.not_plain (plain one oneIn)

/-- A key that holds a dot: it is there twice in the paths, once as one key and once as two. -/
theorem dotted_key_shares_a_path :
    let shape : Descriptor := .object
      [("a.b", .primitive .number), ("a", .object [("b", .primitive .number)])]
    let input : Value := .object [("a.b", .null), ("a", .object [("b", .null)])]
    ∃ outcome one other, castWithin 3 [] shape input = some outcome ∧
      one ∈ outcome.leaves ∧ other ∈ outcome.leaves ∧ one.steps ≠ other.steps ∧
        one.issue.path = "$.a.b" ∧ other.issue.path = "$.a.b" := by
  intro shape input
  let node : Outcome := .mismatch (.primitive .number) [] .null
  have ran : castWithin 3 [] shape input = some (.mismatch .object
      [(.property "a.b", node),
        (.property "a", .mismatch .object [(.property "b", node)] (.object [("b", .null)]))]
      input) := rfl
  exact ⟨_, ⟨[.property "a.b"], node⟩, ⟨[.property "a", .property "b"], node⟩, ran, .head _,
    .tail _ (.head _), by decide, rfl, rfl⟩

/-- A key that is the start of another, with numbers and a nested key after them: each problem has
its own path. -/
theorem plain_keys_have_their_own_paths :
    let choice : Descriptor := .union [.primitive .number, .primitive .boolean]
    let shape : Descriptor := .object [("a", .object [("b", .primitive .number)]), ("ab", choice)]
    let input : Value := .object [("a", .object [("b", .null)]), ("ab", .null)]
    ∃ outcome, castWithin 3 [] shape input = some outcome ∧
      outcome.issues.map Issue.path = ["$.a.b", "$.ab <variant 0>", "$.ab <variant 1>"] ∧
      (∀ place ∈ outcome.leaves, Plain place.steps) ∧
      (outcome.issues.map Issue.path).Nodup := by
  intro choice shape input
  let number : Outcome := .mismatch (.primitive .number) [] .null
  let boolean : Outcome := .mismatch (.primitive .boolean) [] .null
  have ran : castWithin 3 [] shape input = some (.mismatch .object
      [(.property "a", .mismatch .object [(.property "b", number)] (.object [("b", .null)])),
        (.property "ab", .mismatch .union [(.variant 0, number), (.variant 1, boolean)] .null)]
      input) := rfl
  have distinct : shape.Keyed := by decide
  have keyed : input.Keyed := by
    refine .object (by decide) (List.forall_mem_cons.mpr ⟨.object (by decide) ?_, ?_⟩)
    · exact List.forall_mem_singleton.mpr (.scalar rfl)
    · exact List.forall_mem_singleton.mpr (.scalar rfl)
  obtain ⟨_, once⟩ := equal_paths_part_at_keys ran
  have letters : ∀ key ∈ ["a", "b", "ab"], ∀ c ∈ key.toList, ¬IsMark c := by
    simp [IsMark]
  have plain : ∀ steps ∈ ([[.property "a", .property "b"], [.property "ab", .variant 0],
      [.property "ab", .variant 1]] : List (List Step)), Plain steps := by
    intro steps listed
    refine plain_of_unmarked fun key met => letters key ?_
    grind
  refine ⟨_, ran, rfl, ?plain, once distinct keyed ?plain⟩
  exact fun place listed => plain _ (List.mem_map_of_mem (f := Place.steps) listed)

end Readings
