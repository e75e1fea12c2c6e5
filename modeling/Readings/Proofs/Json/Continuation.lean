import Readings.Proofs.Json.Locality
import Readings.Proofs.Json.Settled

/-!
The value in front of a text. It is read without regard to what follows, but for one byte behind a
value that is no container. So a container is read in front of every other text just the same, and a
whole text is read as data when only blanks follow its first value.
-/
namespace Readings.Json

variable {head : Option UInt8} {ahead : α → Bool}

@[simp]
theorem within_ok_iff {reading : Except Fault (Read α)} :
    within step reading = .ok answer ↔ reading = .ok answer :=
  map_error_ok_iff

theorem local_within {reader : Cursor → Except Fault (Read α)} (here : LocalAt head ahead reader) :
    LocalAt head ahead fun cursor => within step (reader cursor) :=
  local_congr (fun _ _ _ => within_ok_iff) here

/-! ## Separators -/

theorem local_next_item (isFirst : Bool) : Local (fun _ => true) (nextItem isFirst) :=
  local_blanks <| local_peek (local_fail_ahead id _) fun _ =>
    local_ite (fun _ => local_done _) fun _ =>
    local_ite (fun _ => local_done _) fun _ =>
    local_ite (fun _ => local_advance <| local_blanks <|
      local_peek (local_fail_ahead id _) fun _ =>
        local_ite (fun _ => local_fail_ahead id _) fun _ => local_done _)
      fun _ => local_fail_ahead id _

theorem local_next_key (isFirst : Bool) : Local (fun _ => true) (nextKey isFirst) :=
  local_blanks <| local_peek (local_fail_ahead id _) fun _ =>
    local_ite (fun _ => local_done _) fun _ =>
    local_ite (fun _ => local_ite (fun _ => local_done _) fun _ => local_fail_ahead id _) fun _ =>
    local_ite (fun _ => local_advance <| local_blanks <|
      local_peek (local_fail_ahead id _) fun _ =>
        local_ite (fun _ => local_done _) fun _ =>
        local_ite (fun _ => local_fail_ahead id _) fun _ => local_fail_ahead id _)
      fun _ => local_fail_ahead id _

theorem local_key : LocalAt (some byte) (fun _ => false) readKey := local_advance local_string

theorem local_colon : Local (fun _ => true) readColon :=
  local_blanks <| local_peek (local_fail_ahead id _) fun _ =>
    local_ite (fun _ => local_take _) fun _ => local_fail_ahead id _

/-- What comes next in an array: its closing bracket, or an item, which has a comma in front of it
unless it is the first. -/
theorem next_item_cases (ran : nextItem isFirst cursor = .ok (more, behind)) :
    (more = false ∧ behind = cursor.skipBlanks ∧ behind.rest.head? = some 93) ∨
      more = true ∧ (isFirst = true ∧ behind = cursor.skipBlanks ∨ isFirst = false ∧
        cursor.skipBlanks.rest.head? = some 44 ∧
          behind = (cursor.skipBlanks.advance 1).skipBlanks) := by
  simp only [nextItem] at ran
  split at ran
  · cases ran
  · rename_i starts
    split at ran
    · rename_i bracket
      cases ran
      exact .inl ⟨rfl, rfl, by rw [starts, bracket]; rfl⟩
    · split at ran
      · rename_i first
        cases ran
        exact .inr ⟨rfl, .inl ⟨first, rfl⟩⟩
      · rename_i later
        split at ran
        · rename_i comma
          split at ran
          · cases ran
          · split at ran
            · cases ran
            · cases ran
              exact .inr ⟨rfl, .inr ⟨by simpa using later, by rw [starts, comma]; rfl, rfl⟩⟩
        · cases ran

/-- What comes next in an object: the quote of a key or the closing brace. -/
theorem next_key_head (ran : nextKey isFirst cursor = .ok (more, behind)) :
    behind.rest.head? = some (if more then 34 else 125) := by
  simp only [nextKey] at ran
  split at ran
  · cases ran
  · rename_i starts
    split at ran
    · rename_i brace
      cases ran
      rw [starts, brace]
      rfl
    · split at ran
      · split at ran
        · rename_i quote
          cases ran
          rw [starts, quote]
          rfl
        · cases ran
      · split at ran
        · split at ran
          · cases ran
          · rename_i starts
            split at ran
            · rename_i quote
              cases ran
              rw [starts, quote]
              rfl
            · split at ran <;> cases ran
        · cases ran

/-! ## Containers -/

/-- An array ends here, after blanks; `behind` stands behind its bracket. -/
def ArrayEnds (isFirst : Bool) (cursor behind : Cursor) : Prop :=
  ∃ bracket, nextItem isFirst cursor = .ok (false, bracket) ∧ bracket.advance 1 = behind

theorem array_ends_iff : ArrayEnds isFirst cursor behind ↔
    cursor.skipBlanks.rest.head? = some 93 ∧ cursor.skipBlanks.advance 1 = behind := by
  constructor
  · rintro ⟨bracket, next, rfl⟩
    rcases next_item_cases next with ⟨-, rfl, closes⟩ | ⟨opens, -⟩
    · exact ⟨closes, rfl⟩
    · cases opens
  · rintro ⟨closes, rfl⟩
    obtain ⟨rest, parted⟩ := List.head?_eq_some_iff.mp closes
    refine ⟨_, ?_, rfl⟩
    simp only [nextItem, parted, ↓reduceIte]

/-- An object ends here, after blanks; `behind` stands behind its brace. -/
def ObjectEnds (isFirst : Bool) (cursor behind : Cursor) : Prop :=
  ∃ brace, nextKey isFirst cursor = .ok (false, brace) ∧ brace.advance 1 = behind

/-- An object goes on here with a member of this key, the value of which stands at `place`. -/
def MemberAt (isFirst : Bool) (cursor : Cursor) (key : String) (place : Cursor) : Prop :=
  ∃ quote colon, nextKey isFirst cursor = .ok (true, quote) ∧ readKey quote = .ok (key, colon) ∧
    readColon colon = .ok ((), place)

section
variable {item : Cursor → Except Fault (Read Json)}

theorem read_no_items_iff : readItems item (fuel + 1) index cursor = .ok ([], behind) ↔
    ArrayEnds (index == 0) cursor behind := by
  rw [readItems, bind_ok_iff]
  constructor
  · rintro ⟨⟨more, bracket⟩, next, ran⟩
    cases more with
    | false =>
      cases ran
      exact ⟨bracket, next, rfl⟩
    | true =>
      obtain ⟨_, _, ran⟩ := bind_ok_iff.mp ran
      obtain ⟨_, _, ran⟩ := bind_ok_iff.mp ran
      cases ran
  · rintro ⟨bracket, next, rfl⟩
    exact ⟨_, next, rfl⟩

theorem read_more_items_iff :
    readItems item (fuel + 1) index cursor = .ok (value :: items, behind) ↔
      ∃ place after, nextItem (index == 0) cursor = .ok (true, place) ∧
        item place = .ok (value, after) ∧
          readItems item fuel (index + 1) after = .ok (items, behind) := by
  rw [readItems, bind_ok_iff]
  constructor
  · rintro ⟨⟨more, place⟩, next, ran⟩
    cases more with
    | false => cases ran
    | true =>
      obtain ⟨⟨_, after⟩, inside, ran⟩ := bind_ok_iff.mp ran
      obtain ⟨_, onward, ran⟩ := bind_ok_iff.mp ran
      cases ran
      exact ⟨place, after, next, within_ok_iff.mp inside, onward⟩
  · rintro ⟨place, after, next, inside, onward⟩
    exact ⟨_, next, bind_ok_iff.mpr ⟨_, within_ok_iff.mpr inside, bind_ok_iff.mpr ⟨_, onward, rfl⟩⟩⟩

theorem read_no_members_iff : readMembers item (fuel + 1) isFirst cursor = .ok ([], behind) ↔
    ObjectEnds isFirst cursor behind := by
  rw [readMembers, bind_ok_iff]
  constructor
  · rintro ⟨⟨more, brace⟩, next, ran⟩
    cases more with
    | false =>
      cases ran
      exact ⟨brace, within_ok_iff.mp next, rfl⟩
    | true =>
      obtain ⟨_, _, ran⟩ := bind_ok_iff.mp ran
      obtain ⟨_, _, ran⟩ := bind_ok_iff.mp ran
      obtain ⟨_, _, ran⟩ := bind_ok_iff.mp ran
      obtain ⟨_, _, ran⟩ := bind_ok_iff.mp ran
      cases ran
  · rintro ⟨brace, next, rfl⟩
    exact ⟨_, within_ok_iff.mpr next, rfl⟩

theorem read_more_members_iff :
    readMembers item (fuel + 1) isFirst cursor = .ok ((key, value) :: members, behind) ↔
      ∃ place after, MemberAt isFirst cursor key place ∧ item place = .ok (value, after) ∧
        readMembers item fuel false after = .ok (members, behind) := by
  rw [readMembers, bind_ok_iff]
  constructor
  · rintro ⟨⟨more, quote⟩, next, ran⟩
    cases more with
    | false => cases ran
    | true =>
      obtain ⟨⟨_, colon⟩, named, ran⟩ := bind_ok_iff.mp ran
      obtain ⟨⟨_, place⟩, told, ran⟩ := bind_ok_iff.mp ran
      obtain ⟨⟨_, after⟩, inside, ran⟩ := bind_ok_iff.mp ran
      obtain ⟨_, onward, ran⟩ := bind_ok_iff.mp ran
      cases ran
      exact ⟨place, after, ⟨quote, colon, within_ok_iff.mp next, within_ok_iff.mp named, told⟩,
        within_ok_iff.mp inside, onward⟩
  · rintro ⟨place, after, ⟨quote, colon, next, named, told⟩, inside, onward⟩
    exact ⟨_, within_ok_iff.mpr next, bind_ok_iff.mpr ⟨_, within_ok_iff.mpr named,
      bind_ok_iff.mpr ⟨_, told, bind_ok_iff.mpr ⟨_, within_ok_iff.mpr inside,
        bind_ok_iff.mpr ⟨_, onward, rfl⟩⟩⟩⟩⟩

/-- The key of a member takes some bytes. -/
theorem MemberAt.lt (member : MemberAt isFirst cursor key place) :
    place.rest.length < cursor.rest.length := by
  obtain ⟨quote, colon, next, named, told⟩ := member
  have parted := (local_next_key _ _).le rfl next
  have separated := (local_colon _).le rfl told
  have quoted := local_key.lt (next_key_head next) named
  omega

variable {ahead : Json → Bool}

theorem local_items (each : Local ahead item) (fuel index : Nat) :
    Local (fun _ => false) (readItems item fuel index) := by
  induction fuel generalizing index with
  | zero => exact fun _ => local_fail_ahead id .endOfList
  | succ fuel ih =>
    intro head
    show LocalAt head _ fun cursor => readItems item (fuel + 1) index cursor
    unfold readItems
    refine local_bind (local_next_item _ _) fun _ more _ ran => ?_
    cases more with
    | false =>
      rcases next_item_cases ran with ⟨-, -, closes⟩ | ⟨opens, -⟩
      · rw [closes]
        exact local_take _
      · cases opens
    | true =>
      refine local_bind (local_within ((each _).widen fun _ _ => rfl)) fun _ value _ _ => ?_
      exact local_map (fun _ _ => rfl) (ih _ _)

theorem local_members (each : Local ahead item) (fuel : Nat) (isFirst : Bool) :
    Local (fun _ => false) (readMembers item fuel isFirst) := by
  induction fuel generalizing isFirst with
  | zero => exact fun _ => local_fail_ahead id .endOfObject
  | succ fuel ih =>
    intro head
    show LocalAt head _ fun cursor => readMembers item (fuel + 1) isFirst cursor
    unfold readMembers
    refine local_bind (local_within (local_next_key _ _)) fun _ more _ ran => ?_
    rw [next_key_head (within_ok_iff.mp ran)]
    cases more with
    | false => exact local_take _
    | true =>
      refine local_bind (local_within (local_key.widen nofun)) fun _ key _ _ => ?_
      refine local_bind (local_colon _) fun _ _ _ _ => ?_
      refine local_bind (local_within ((each _).widen fun _ _ => rfl)) fun _ value _ _ => ?_
      exact local_map (fun _ _ => rfl) (ih _ _)

/-- An item that is not the first has a comma in front of it. -/
theorem next_item_lt (ran : nextItem false cursor = .ok (true, behind)) :
    behind.rest.length < cursor.rest.length := by
  rcases next_item_cases ran with ⟨closes, -⟩ | ⟨-, ⟨first, -⟩ | ⟨-, comma, rfl⟩⟩
  · cases closes
  · cases first
  · calc (cursor.skipBlanks.advance 1).skipBlanks.rest.length
        ≤ (cursor.skipBlanks.advance 1).rest.length := blanks_le _
      _ < cursor.skipBlanks.rest.length := (local_take ()).lt comma rfl
      _ ≤ cursor.rest.length := blanks_le cursor

/-- The items of an array are found whatever number of them may be read, if it is not below the
number of bytes that they take. -/
theorem items_enough (each : Local ahead item)
    (ran : readItems item fuel index cursor = .ok (items, behind))
    (enough : cursor.rest.length < behind.rest.length + limit + if index = 0 then 0 else 1) :
    readItems item limit index cursor = .ok (items, behind) := by
  have shorter := (local_items each fuel index _).lt rfl ran
  induction items generalizing fuel limit index cursor with
  | nil =>
    obtain _ | fuel := fuel
    · cases ran
    · obtain _ | limit := limit
      · split at enough <;> omega
      · exact read_no_items_iff.mpr (read_no_items_iff.mp ran)
  | cons value items ih =>
    obtain _ | fuel := fuel
    · cases ran
    · obtain _ | limit := limit
      · split at enough <;> omega
      · obtain ⟨place, after, next, inside, onward⟩ := read_more_items_iff.mp ran
        have parted := (local_next_item _ _).le rfl next
        have used := (each _).le rfl inside
        have later := (local_items each fuel _ _).lt rfl onward
        refine read_more_items_iff.mpr ⟨place, after, next, inside, ih onward ?_ later⟩
        rw [if_neg (Nat.succ_ne_zero index)]
        cases index with
        | zero =>
          rw [if_pos rfl] at enough
          omega
        | succ index =>
          have comma := next_item_lt next
          rw [if_neg (Nat.succ_ne_zero index)] at enough
          omega

/-- The members of an object are found whatever number of them may be read, if it is not below the
number of bytes that they take. -/
theorem members_enough (each : Local ahead item)
    (ran : readMembers item fuel isFirst cursor = .ok (members, behind))
    (enough : cursor.rest.length ≤ behind.rest.length + limit) :
    readMembers item limit isFirst cursor = .ok (members, behind) := by
  have shorter := (local_members each fuel isFirst _).lt rfl ran
  induction members generalizing fuel limit isFirst cursor with
  | nil =>
    obtain _ | fuel := fuel
    · cases ran
    · obtain _ | limit := limit
      · omega
      · exact read_no_members_iff.mpr (read_no_members_iff.mp ran)
  | cons member members ih =>
    obtain _ | fuel := fuel
    · cases ran
    · obtain _ | limit := limit
      · omega
      · obtain ⟨place, after, member, inside, onward⟩ := read_more_members_iff.mp ran
        have named := member.lt
        have used := (each _).le rfl inside
        have later := (local_members each fuel _ _).lt rfl onward
        exact read_more_members_iff.mpr
          ⟨place, after, member, inside, ih onward (by omega) later⟩

/-- An array is read up to its bracket in front of any text: what is left of a text bounds how many
items may be read, and that is never too few. -/
theorem local_array (each : Local ahead item) :
    LocalAt (some byte) (fun json => !isContainer json) fun cursor => (do
      let (items, cursor) ← readItems item cursor.rest.length 0 (cursor.advance 1)
      .ok (.array items, cursor)) := by
  rintro ⟨_ | ⟨first, rest⟩, offset⟩ json behind starts ran
  · cases starts
  · obtain ⟨⟨items, after⟩, run, ran⟩ := bind_ok_iff.mp ran
    cases ran
    obtain ⟨used, rejoined, -, again⟩ := local_items each _ _ _ rfl run
    refine ⟨first :: used, congrArg (List.cons first) rejoined, by simp, fun tail _ => ?_⟩
    refine bind_ok_iff.mpr ⟨_, items_enough each (again tail nofun) ?_, rfl⟩
    show (used ++ tail).length < tail.length + (first :: (used ++ tail)).length + 0
    rw [List.length_cons]
    omega

theorem local_object (each : Local ahead item) :
    LocalAt (some byte) (fun json => !isContainer json) fun cursor => (do
      let (members, cursor) ← readMembers item cursor.rest.length true (cursor.advance 1)
      .ok (.object members, cursor)) := by
  rintro ⟨_ | ⟨first, rest⟩, offset⟩ json behind starts ran
  · cases starts
  · obtain ⟨⟨members, after⟩, run, ran⟩ := bind_ok_iff.mp ran
    cases ran
    obtain ⟨used, rejoined, -, again⟩ := local_members each _ _ _ rfl run
    refine ⟨first :: used, congrArg (List.cons first) rejoined, by simp, fun tail _ => ?_⟩
    refine bind_ok_iff.mpr ⟨_, members_enough each (again tail nofun) ?_, rfl⟩
    show (used ++ tail).length ≤ tail.length + (first :: (used ++ tail)).length
    rw [List.length_cons]
    omega

end

/-! ## Scalars -/

theorem word_read (ran : readWord value letters cursor = .ok (json, behind)) : json = value := by
  induction letters generalizing cursor with
  | nil =>
    cases ran
    rfl
  | cons letter letters ih =>
    rw [readWord] at ran
    split at ran
    · cases ran
    · split at ran
      · exact ih ran
      · cases ran

theorem finished_plain
    (ran : finishFloat negative significand exponent cursor = .ok (json, behind)) :
    json.isContainer = false := by
  unfold finishFloat at ran
  split at ran <;> cases ran
  rfl

theorem exponent_plain
    (ran : readExponent negative significand exponent cursor = .ok (json, behind)) :
    json.isContainer = false := by
  replace ran := read_exponent_ok_iff.mp ran
  unfold readUnsignedExponent finishExponent at ran
  split at ran
  · cases ran
  · split at ran
    · split at ran
      · exact finished_plain ran
      · split at ran <;> cases ran
        rfl
    · cases ran

theorem scale_plain (ran : readScale negative significand exponent cursor = .ok (json, behind)) :
    json.isContainer = false := by
  unfold readScale at ran
  split at ran
  · split at ran
    · exact exponent_plain ran
    · exact finished_plain ran
  · exact finished_plain ran

theorem fraction_plain
    (ran : readFraction negative significand exponent cursor = .ok (json, behind)) :
    json.isContainer = false := by
  simp only [readFraction] at ran
  split at ran
  · cases ran
  · exact scale_plain ran

theorem word_plain {excess : Nat}
    (ran : (if excess = 0 then .ok (wordJson negative n, cursor)
      else finishFloat negative n excess cursor) = .ok (json, behind)) :
    json.isContainer = false := by
  split at ran
  · cases ran
    unfold wordJson
    split
    · rfl
    · split <;> rfl
  · exact finished_plain ran

theorem number_plain (ran : readNumber negative cursor = .ok (json, behind)) :
    json.isContainer = false := by
  simp only [readNumber] at ran
  split at ran
  · cases ran
  · split at ran
    · cases ran
    · split at ran
      · exact word_plain ran
      · split at ran
        · cases ran
        · split at ran
          · exact fraction_plain ran
          · split at ran
            · exact exponent_plain ran
            · exact word_plain ran

theorem local_scalar (byte : UInt8) : LocalAt (some byte) (fun _ => true) (readScalar byte) :=
  local_ite (fun _ => local_advance (local_word _ _)) fun _ =>
  local_ite (fun _ => local_advance (local_word _ _)) fun _ =>
  local_ite (fun _ => local_advance (local_word _ _)) fun _ =>
  local_ite (fun _ => local_advance (local_number _)) fun _ =>
  local_ite (fun _ => local_number _ _) fun _ =>
  local_ite (fun _ => local_map (fun _ _ => rfl) (local_key.widen nofun)) fun _ =>
  local_fail_ahead id _

/-- A value that does not start with a bracket or a brace is no container. -/
theorem scalar_plain (ran : readScalar byte cursor = .ok (json, behind)) :
    json.isContainer = false := by
  unfold readScalar at ran
  simp only at ran
  split at ran
  · rw [word_read ran]
    rfl
  · split at ran
    · rw [word_read ran]
      rfl
    · split at ran
      · rw [word_read ran]
        rfl
      · split at ran
        · exact number_plain ran
        · split at ran
          · exact number_plain ran
          · split at ran
            · obtain ⟨_, _, ran⟩ := bind_ok_iff.mp ran
              cases ran
              rfl
            · cases ran

/-- The value in front of a text is read without a look at what follows, but for one byte behind a
value that is no container. -/
theorem local_value (levels : Nat) :
    Local (fun json => !json.isContainer) (readValue levels) := by
  induction levels with
  | zero => exact fun _ => local_fail_ahead id .recursionLimit
  | succ levels ih =>
    have scalar : ∀ byte, LocalAt (some byte) (fun json => !json.isContainer) (readScalar byte) :=
      fun byte => (local_scalar byte).widen fun ran _ => by rw [scalar_plain ran]; rfl
    show Local _ fun cursor => readValue (levels + 1) cursor
    unfold readValue
    exact local_blanks <| local_peek (local_fail_ahead id .endOfValue) fun byte =>
      local_ite (fun _ => local_ite (fun _ => local_fail_ahead id _) fun _ => local_array ih)
        fun _ => local_ite
          (fun _ => local_ite (fun _ => local_fail_ahead id _) fun _ => local_object ih)
          fun _ => scalar byte

/-- What is read from a place is told by the byte that stands there: an array, an object, or a value
that is no container. -/
theorem read_value_iff {levels : Nat} : readValue (levels + 2) cursor = .ok (json, behind) ↔
    ∃ byte, cursor.skipBlanks.rest.head? = some byte ∧
      if byte = 91 then ∃ items, readItems (readValue (levels + 1)) cursor.skipBlanks.rest.length 0
          (cursor.skipBlanks.advance 1) = .ok (items, behind) ∧ json = .array items
      else if byte = 123 then ∃ members, readMembers (readValue (levels + 1))
          cursor.skipBlanks.rest.length true (cursor.skipBlanks.advance 1) =
            .ok (members, behind) ∧ json = .object members
      else readScalar byte cursor.skipBlanks = .ok (json, behind) := by
  rw [readValue]
  simp only [Nat.succ_ne_zero, ↓reduceIte]
  cases starts : cursor.skipBlanks.rest with
  | nil => simp [Cursor.failAhead]
  | cons byte rest =>
    simp only [List.head?_cons, Option.some.injEq, exists_eq_left']
    split
    · rw [bind_ok_iff]
      constructor
      · rintro ⟨⟨items, after⟩, run, ⟨⟩⟩
        exact ⟨items, run, rfl⟩
      · rintro ⟨items, run, rfl⟩
        exact ⟨_, run, rfl⟩
    · split
      · rw [bind_ok_iff]
        constructor
        · rintro ⟨⟨members, after⟩, run, ⟨⟩⟩
          exact ⟨members, run, rfl⟩
        · rintro ⟨members, run, rfl⟩
          exact ⟨_, run, rfl⟩
      · rfl

/-- A container in front of a text is read in front of every other text. -/
theorem container_continues (ran : readValue levels cursor = .ok (json, behind))
    (container : json.isContainer = true) : ∃ front, cursor.rest = front ++ behind.rest ∧
      ∀ tail, readValue levels ⟨front ++ tail, cursor.offset⟩ =
        .ok (json, ⟨tail, behind.offset⟩) := by
  obtain ⟨front, rejoined, -, again⟩ := local_value levels _ rfl ran
  refine ⟨front, rejoined, fun tail => again tail fun looked => ?_⟩
  simp only [container, Bool.not_true, Bool.false_eq_true] at looked

/-! ## Whole texts -/

theorem skip_blanks_rest (cursor : Cursor) :
    cursor.skipBlanks.rest = cursor.rest.dropWhile isBlank := by
  obtain ⟨rest, offset⟩ := cursor
  have parted := List.takeWhile_append_dropWhile (p := isBlank) (l := rest)
  have skipped := Cursor.advance_append (rest.takeWhile isBlank) (rest.dropWhile isBlank) offset
  rw [parted] at skipped
  exact congrArg Cursor.rest skipped

/-- A text is read when only blanks follow the value in front of it. -/
theorem read_bytes_of_value (ran : readValue nestingLimit (.start bytes) = .ok (json, behind)) :
    readBytes bytes = if behind.rest.all isBlank then .ok json
      else behind.skipBlanks.failAhead .trailingCharacters := by
  have blank : behind.skipBlanks.rest.isEmpty = behind.rest.all isBlank := by
    rw [skip_blanks_rest, Bool.eq_iff_iff, List.isEmpty_iff, List.dropWhile_eq_nil_iff,
      List.all_eq_true]
  rw [readBytes, ran, ← blank]
  rfl

theorem read_bytes_ok_iff : readBytes bytes = .ok json ↔
    ∃ behind, readValue nestingLimit (.start bytes) = .ok (json, behind) ∧
      behind.rest.all isBlank = true := by
  constructor
  · intro ran
    obtain ⟨⟨value, behind⟩, read, _⟩ := bind_ok_iff.mp ran
    rw [read_bytes_of_value read] at ran
    split at ran
    · cases ran
      exact ⟨behind, read, by assumption⟩
    · cases ran
  · rintro ⟨behind, read, blank⟩
    rw [read_bytes_of_value read, if_pos blank]

end Readings.Json
