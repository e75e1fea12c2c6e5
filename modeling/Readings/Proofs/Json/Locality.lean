import Mathlib.Data.List.TakeWhile
import Readings.Json.Reader
import Readings.Proofs.Failures

/-!
What a reader of JSON text looks at. A reader that succeeds has used a front part of the text, and
of the rest it has seen one byte at most: whatever is put in place of the rest, as long as it begins
with the same byte, the reader answers the same. A reader that ends behind a byte of its own, such
as a closing quote, does not even look at that one. Words, numbers and strings are read so.
-/
namespace Readings.Json

namespace Cursor

theorem advance_append (front rest : List UInt8) (offset : Nat) :
    advance front.length ⟨front ++ rest, offset⟩ = ⟨rest, offset + front.length⟩ := by
  induction front generalizing offset with
  | nil => rfl
  | cons byte front ih =>
    rw [List.length_cons, List.cons_append, advance, ih]
    simp only [Nat.add_comm, Nat.add_left_comm]

end Cursor

/-- A reader that succeeds at a place with this next byte has used some bytes, and does the same on
every text that goes on after them with the same byte. Where it did not look `ahead` for its answer,
it has used a byte at least, and the text may go on in any way. -/
def LocalAt (head : Option UInt8) (ahead : α → Bool) (reader : Cursor → Except Fault (Read α)) :
    Prop :=
  ∀ ⦃cursor value behind⦄, cursor.rest.head? = head → reader cursor = .ok (value, behind) →
    ∃ used, cursor.rest = used ++ behind.rest ∧ (ahead value = false → used ≠ []) ∧
      ∀ tail, (ahead value = true → tail.head? = behind.rest.head?) →
        reader ⟨used ++ tail, cursor.offset⟩ = .ok (value, ⟨tail, behind.offset⟩)

/-- The same at every place. -/
def Local (ahead : α → Bool) (reader : Cursor → Except Fault (Read α)) : Prop :=
  ∀ head, LocalAt head ahead reader

/-- Going on differently keeps the next byte. -/
theorem head_kept {used rest tail : List UInt8} (nonempty : ahead = false → used ≠ [])
    (same : ahead = true → tail.head? = rest.head?) :
    (used ++ tail).head? = (used ++ rest).head? := by
  cases used with
  | cons byte used => rfl
  | nil =>
    cases ahead with
    | true => exact same rfl
    | false => exact absurd rfl (nonempty rfl)

variable {head : Option UInt8} {ahead : α → Bool}

/-! ## One step after the other -/

theorem local_fail (place : Cursor → Cursor) (cause : Cause) :
    LocalAt head ahead fun cursor => (place cursor).fail cause :=
  fun _ _ _ _ ran => nomatch ran

theorem local_fail_ahead (place : Cursor → Cursor) (cause : Cause) :
    LocalAt head ahead fun cursor => (place cursor).failAhead cause :=
  fun _ _ _ _ ran => nomatch ran

theorem local_done (value : α) :
    LocalAt head (fun _ => true) fun cursor => .ok (value, cursor) := by
  rintro cursor _ _ _ ⟨⟩
  exact ⟨[], rfl, by simp, fun tail _ => rfl⟩

theorem local_take (value : α) :
    LocalAt (some byte) ahead fun cursor => .ok (value, cursor.advance 1) := by
  rintro ⟨_ | ⟨first, rest⟩, offset⟩ _ _ starts ⟨⟩
  · cases starts
  · exact ⟨[first], rfl, by simp, fun tail _ => rfl⟩

theorem local_advance {reader : Cursor → Except Fault (Read α)} (here : Local ahead reader) :
    LocalAt (some byte) ahead fun cursor => reader (cursor.advance 1) := by
  rintro ⟨_ | ⟨first, rest⟩, offset⟩ value behind starts ran
  · cases starts
  · obtain ⟨used, rejoined, _, again⟩ := here _ rfl ran
    refine ⟨first :: used, ?_, by simp, fun tail same => again tail same⟩
    exact congrArg (List.cons first) rejoined

theorem local_bind {reader : Cursor → Except Fault (Read β)}
    {next : Read β → Except Fault (Read α)} (first : LocalAt head (fun _ => true) reader)
    (second : ∀ ⦃cursor value behind⦄, reader cursor = .ok (value, behind) →
      LocalAt behind.rest.head? ahead fun cursor => next (value, cursor)) :
    LocalAt head ahead fun cursor => reader cursor >>= next := by
  intro cursor value behind starts ran
  obtain ⟨⟨middle, between⟩, run, ran⟩ := bind_ok_iff.mp ran
  obtain ⟨front, rejoined, _, again⟩ := first starts run
  obtain ⟨used, parted, nonempty, onward⟩ := second run rfl ran
  refine ⟨front ++ used, by rw [rejoined, parted, List.append_assoc], ?_, fun tail same => ?_⟩
  · exact fun closed => List.append_ne_nil_of_right_ne_nil _ (nonempty closed)
  · have kept := again (used ++ tail) fun _ => parted ▸ head_kept nonempty same
    rw [← List.append_assoc] at kept
    exact bind_ok_iff.mpr ⟨_, kept, onward tail same⟩

/-- What was read is put into something larger. -/
theorem local_map {reader : Cursor → Except Fault (Read β)}
    {next : Read β → Except Fault (Read α)} {wrap : β → α}
    (done : ∀ value cursor, next (value, cursor) = .ok (wrap value, cursor))
    (here : LocalAt head (fun value => ahead (wrap value)) reader) :
    LocalAt head ahead fun cursor => reader cursor >>= next := by
  intro cursor value behind starts ran
  obtain ⟨⟨part, between⟩, run, ran⟩ := bind_ok_iff.mp ran
  obtain ⟨rfl, rfl⟩ : wrap part = value ∧ between = behind := by simpa [done] using ran
  obtain ⟨used, rejoined, nonempty, again⟩ := here starts run
  exact ⟨used, rejoined, nonempty, fun tail same =>
    bind_ok_iff.mpr ⟨_, again tail same, done _ _⟩⟩

/-- A reader may be taken to look ahead for more answers than it does. -/
theorem LocalAt.widen {wider : α → Bool} {reader : Cursor → Except Fault (Read α)}
    (here : LocalAt head ahead reader)
    (more : ∀ {cursor value behind}, reader cursor = .ok (value, behind) →
      ahead value = true → wider value = true) : LocalAt head wider reader := by
  intro cursor value behind starts ran
  obtain ⟨used, rejoined, nonempty, again⟩ := here starts ran
  refine ⟨used, rejoined, fun closed => nonempty ?_, fun tail same =>
    again tail fun looked => same (more ran looked)⟩
  exact Bool.eq_false_iff.mpr fun looked => Bool.eq_false_iff.mp closed (more ran looked)

theorem local_ite {condition : Prop} [Decidable condition]
    {reader other : Cursor → Except Fault (Read α)}
    (met : condition → LocalAt head ahead reader) (unmet : ¬ condition → LocalAt head ahead other) :
    LocalAt head ahead fun cursor => if condition then reader cursor else other cursor := by
  by_cases holds : condition
  · simpa only [if_pos holds] using met holds
  · simpa only [if_neg holds] using unmet holds

/-- Of readers that succeed alike in front of this byte, one is local where the other is. -/
theorem local_congr {reader other : Cursor → Except Fault (Read α)}
    (alike : ∀ cursor, cursor.rest.head? = head →
      ∀ answer, reader cursor = .ok answer ↔ other cursor = .ok answer)
    (here : LocalAt head ahead other) : LocalAt head ahead reader := by
  intro cursor value behind starts ran
  obtain ⟨used, rejoined, nonempty, again⟩ := here starts ((alike _ starts _).mp ran)
  refine ⟨used, rejoined, nonempty, fun tail same => (alike _ ?_ _).mpr (again tail same)⟩
  rw [head_kept nonempty same, ← rejoined, starts]

theorem local_peek {stop : Cursor → Except Fault (Read α)}
    {reader : UInt8 → Cursor → Except Fault (Read α)} (ended : LocalAt none ahead stop)
    (some : ∀ byte, LocalAt (some byte) ahead (reader byte)) :
    Local ahead fun cursor => match cursor.rest with
      | [] => stop cursor
      | byte :: _ => reader byte cursor := by
  intro head
  cases head with
  | none =>
    refine local_congr (fun cursor starts answer => ?_) ended
    rw [List.head?_eq_none_iff.mp starts]
  | some byte =>
    refine local_congr (fun cursor starts answer => ?_) (some byte)
    obtain ⟨rest, parted⟩ := List.head?_eq_some_iff.mp starts
    rw [parted]

theorem take_while_stopped {kind : UInt8 → Bool} {bytes : List UInt8}
    (stops : ∀ byte, bytes.head? = some byte → kind byte = false) : bytes.takeWhile kind = [] := by
  cases bytes with
  | nil => rfl
  | cons byte rest => rw [List.takeWhile_cons, stops byte rfl]; rfl

/-- A reader that goes on behind all bytes of a kind. -/
theorem local_run (kind : UInt8 → Bool) {reader : List UInt8 → Cursor → Except Fault (Read α)}
    (each : ∀ run, Local ahead (reader run)) :
    Local ahead fun cursor => reader (cursor.rest.takeWhile kind)
      (cursor.advance (cursor.rest.takeWhile kind).length) := by
  rintro _ ⟨rest, offset⟩ value behind _ ran
  have all : ∀ byte ∈ rest.takeWhile kind, kind byte = true := fun _ => List.mem_takeWhile_imp
  have stops : ∀ byte, (rest.dropWhile kind).head? = some byte → kind byte = false := by
    intro byte starts
    simpa only [starts, Bool.not_eq_true] using List.head?_dropWhile_not kind rest
  have parted := List.takeWhile_append_dropWhile (p := kind) (l := rest)
  -- from here on the text is a run of the kind with the rest behind it, however it was found
  change reader (rest.takeWhile kind) (Cursor.advance (rest.takeWhile kind).length ⟨rest, offset⟩) =
    .ok (value, behind) at ran
  generalize rest.takeWhile kind = run at all parted ran
  generalize rest.dropWhile kind = left at stops parted
  subst parted
  rw [Cursor.advance_append] at ran
  obtain ⟨used, rejoined, nonempty, again⟩ := each run _ rfl ran
  have left_eq : left = used ++ behind.rest := rejoined
  refine ⟨run ++ used, by rw [left_eq, List.append_assoc], fun closed => ?_, fun tail same => ?_⟩
  · exact List.append_ne_nil_of_right_ne_nil _ (nonempty closed)
  · have kept := head_kept nonempty same
    rw [← left_eq] at kept
    -- what goes on behind the run starts as before, so that the run does not get longer
    have front : (run ++ (used ++ tail)).takeWhile kind = run := by
      rw [List.takeWhile_append_of_pos all, take_while_stopped (kept ▸ stops), List.append_nil]
    rw [List.append_assoc]
    change reader ((run ++ (used ++ tail)).takeWhile kind)
      (Cursor.advance ((run ++ (used ++ tail)).takeWhile kind).length ⟨_, offset⟩) = _
    rw [front, Cursor.advance_append]
    exact again tail same

theorem local_blanks {reader : Cursor → Except Fault (Read α)} (here : Local ahead reader) :
    Local ahead fun cursor => reader cursor.skipBlanks :=
  local_run isBlank fun _ => here

theorem LocalAt.le {reader : Cursor → Except Fault (Read α)} (here : LocalAt head ahead reader)
    (starts : cursor.rest.head? = head) (ran : reader cursor = .ok (value, behind)) :
    behind.rest.length ≤ cursor.rest.length := by
  obtain ⟨used, rejoined, -⟩ := here starts ran
  rw [rejoined, List.length_append]
  omega

theorem LocalAt.lt {reader : Cursor → Except Fault (Read α)}
    (here : LocalAt head (fun _ => false) reader) (starts : cursor.rest.head? = head)
    (ran : reader cursor = .ok (value, behind)) :
    behind.rest.length < cursor.rest.length := by
  obtain ⟨used, rejoined, nonempty, -⟩ := here starts ran
  have positive := List.length_pos_iff.mpr (nonempty rfl)
  rw [rejoined, List.length_append]
  omega

theorem blanks_le (cursor : Cursor) : cursor.skipBlanks.rest.length ≤ cursor.rest.length :=
  (local_blanks (fun _ => local_done ()) _).le rfl rfl

theorem digit_run_eq (bytes : List UInt8) :
    digitRun bytes = (bytes.takeWhile isDigit).map fun byte => byte.toNat - 48 := by
  induction bytes with
  | nil => rfl
  | cons byte rest ih =>
    rw [digitRun, List.takeWhile_cons]
    split
    · rw [List.map_cons, ih]
    · rfl

theorem local_digits {reader : List Nat → Cursor → Except Fault (Read α)}
    (each : ∀ digits, Local ahead (reader digits)) :
    Local ahead fun cursor => reader (digitRun cursor.rest)
      (cursor.advance (digitRun cursor.rest).length) := by
  have values : ∀ run : List UInt8, Local ahead (reader (run.map fun byte => byte.toNat - 48)) :=
    fun run => each _
  have run := local_run isDigit values
  simp only [digit_run_eq, List.length_map]
  exact run

/-! ## Words, numbers and strings -/

theorem local_word (value : Json) (letters : List UInt8) :
    Local (fun _ => true) (readWord value letters) := by
  induction letters with
  | nil => exact fun _ => local_done value
  | cons letter letters ih =>
    exact local_peek (local_fail _ _) fun byte =>
      local_ite (fun _ => local_advance ih) fun _ => local_fail _ _

theorem local_finish (negative : Bool) (significand : Nat) (exponent : Int) :
    Local (fun _ => true) (finishFloat negative significand exponent) := by
  intro head
  unfold finishFloat
  cases scaled significand exponent with
  | none => exact local_fail _ _
  | some x => exact local_done _

/-- Whether an exponent has a minus, and the cursor behind its sign. -/
def exponentSign (cursor : Cursor) : Bool × Cursor :=
  match cursor.rest with
  | byte :: _ => if byte = 43 then (false, cursor.advance 1)
    else if byte = 45 then (true, cursor.advance 1) else (false, cursor)
  | [] => (false, cursor)

/-- A number with the digits of its exponent; `behind` stands behind them. -/
def finishExponent (negative : Bool) (significand : Nat) (start : Int) (down : Bool)
    (digits : List Nat) (behind : Cursor) : Except Fault (Read Json) :=
  match exponentValue 0 0 digits with
  | .ok e => finishFloat negative significand (if down then start - e else start + e) behind
  | .error _ =>
    if significand ≠ 0 ∧ ¬ down then behind.fail .numberOutOfRange
    else .ok (withSign negative .zero, behind)

/-- The exponent of a number behind its sign. -/
def readUnsignedExponent (negative : Bool) (significand : Nat) (start : Int) (down : Bool)
    (cursor : Cursor) : Except Fault (Read Json) :=
  match cursor.rest with
  | [] => cursor.fail .endOfValue
  | byte :: _ =>
    if isDigit byte then
      finishExponent negative significand start down (digitRun cursor.rest)
        (cursor.advance (digitRun cursor.rest).length)
    else (cursor.advance 1).fail .invalidNumber

/-- An exponent is read in these steps, but for where a fault in it is placed. -/
theorem read_exponent_ok_iff : readExponent negative significand start cursor = .ok answer ↔
    readUnsignedExponent negative significand start (exponentSign cursor).1
      (exponentSign cursor).2 = .ok answer := by
  have sign : readExponent negative significand start cursor =
      (fun (down : Bool) (cursor : Cursor) => match cursor.rest with
        | [] => cursor.fail .endOfValue
        | byte :: _ =>
          if isDigit byte then
            match exponentValue 0 0 (digitRun cursor.rest) with
            | .ok e => finishFloat negative significand (if down then start - e else start + e)
                (cursor.advance (digitRun cursor.rest).length)
            | .error read =>
              if significand ≠ 0 ∧ ¬ down then (cursor.advance read).fail .numberOutOfRange
              else .ok (withSign negative .zero, cursor.advance (digitRun cursor.rest).length)
          else (cursor.advance 1).fail .invalidNumber)
        (exponentSign cursor).1 (exponentSign cursor).2 := rfl
  rw [sign]
  simp only [readUnsignedExponent, finishExponent]
  split
  · rfl
  · split
    · split
      · rfl
      · split <;> simp [Cursor.fail]
    · rfl

theorem local_finish_exponent (negative : Bool) (significand : Nat) (start : Int) (down : Bool)
    (digits : List Nat) :
    Local (fun _ => true) (finishExponent negative significand start down digits) := by
  intro head
  unfold finishExponent
  cases exponentValue 0 0 digits with
  | ok e => exact local_finish _ _ _ _
  | error read => exact local_ite (fun _ => local_fail id _) fun _ => local_done _

theorem local_unsigned_exponent (negative : Bool) (significand : Nat) (start : Int) (down : Bool) :
    Local (fun _ => true) (readUnsignedExponent negative significand start down) :=
  local_peek (local_fail id _) fun _ =>
    local_ite (fun _ => local_digits (local_finish_exponent _ _ _ _) _) fun _ => local_fail _ _

theorem local_exponent (negative : Bool) (significand : Nat) (start : Int) :
    Local (fun _ => true) (readExponent negative significand start) := by
  have behind := local_unsigned_exponent negative significand start
  intro head
  refine local_congr (fun cursor starts answer => read_exponent_ok_iff) ?_
  cases head with
  | none =>
    refine local_congr (fun cursor starts answer => ?_) (behind false none)
    rw [exponentSign, List.head?_eq_none_iff.mp starts]
  | some byte =>
    refine local_congr (fun cursor starts answer => ?_)
      (local_ite (fun _ : byte = 43 => local_advance (behind false)) fun _ =>
        local_ite (fun _ : byte = 45 => local_advance (behind true)) fun _ => behind false _)
    obtain ⟨rest, parted⟩ := List.head?_eq_some_iff.mp starts
    rw [exponentSign, parted]
    by_cases plus : byte = 43
    · simp only [if_pos plus]
    · by_cases minus : byte = 45
      · simp only [if_neg plus, if_pos minus]
      · simp only [if_neg plus, if_neg minus]

theorem local_scale (negative : Bool) (significand : Nat) (exponent : Int) :
    Local (fun _ => true) (readScale negative significand exponent) := by
  intro head
  cases head with
  | none =>
    refine local_congr (fun cursor starts answer => ?_)
      (local_finish negative significand exponent none)
    rw [readScale, List.head?_eq_none_iff.mp starts]
  | some byte =>
    refine local_congr (fun cursor starts answer => ?_)
      (local_ite (fun _ : byte = 101 ∨ byte = 69 =>
          local_advance (local_exponent negative significand exponent))
        fun _ => local_finish negative significand exponent _)
    obtain ⟨rest, parted⟩ := List.head?_eq_some_iff.mp starts
    rw [readScale, parted]

theorem local_fraction (negative : Bool) (significand : Nat) (exponent : Int) :
    Local (fun _ => true) (readFraction negative significand exponent) := by
  have behind : ∀ digits, Local (fun _ => true) fun behind =>
      if digits.isEmpty then behind.fail .invalidNumber
      else readScale negative (gather significand digits).1
        (exponent - (digits.length - (gather significand digits).2 : Nat)) behind :=
    fun digits _ => local_ite (fun _ => local_fail id _) fun _ => local_scale _ _ _ _
  intro head
  refine local_congr (fun cursor starts answer => ?_) (local_digits behind head)
  unfold readFraction
  by_cases empty : (digitRun cursor.rest).isEmpty = true
  · simp [empty, Cursor.fail, Cursor.failAhead]
  · simp only [if_neg empty]

/-- A number that starts with a byte, behind its first digits. -/
def readBehindDigits (negative : Bool) (byte : UInt8) (digits : List Nat) (behind : Cursor) :
    Except Fault (Read Json) :=
  let (significand, excess) := gather 0 digits
  match behind.rest with
  | [] => if excess = 0 then .ok (wordJson negative significand, behind)
    else finishFloat negative significand excess behind
  | next :: _ =>
    if byte = 48 ∧ isDigit next then behind.failAhead .invalidNumber
    else if next = 46 then readFraction negative significand excess (behind.advance 1)
    else if next = 101 ∨ next = 69 then
      readExponent negative significand excess (behind.advance 1)
    else if excess = 0 then .ok (wordJson negative significand, behind)
    else finishFloat negative significand excess behind

theorem local_number (negative : Bool) : Local (fun _ => true) (readNumber negative) := by
  have word : ∀ {head} significand (excess : Nat), LocalAt head (fun _ => true) fun behind =>
      if excess = 0 then .ok (wordJson negative significand, behind)
      else finishFloat negative significand excess behind := fun significand excess =>
    local_ite (fun _ => local_done _) fun _ => local_finish _ _ _ _
  have behind : ∀ byte digits, Local (fun _ => true) (readBehindDigits negative byte digits) :=
    fun byte digits => local_peek (word _ _) fun _ =>
      local_ite (fun _ => local_fail_ahead id _) fun _ =>
      local_ite (fun _ => local_advance (local_fraction _ _ _)) fun _ =>
      local_ite (fun _ => local_advance (local_exponent _ _ _)) fun _ => word _ _
  refine local_peek (local_fail id _) fun byte =>
    local_ite (fun _ => local_fail _ _) fun _ => ?_
  by_cases zero : byte = 48
  · simp only [if_pos zero]
    exact local_advance (behind byte [0])
  · simp only [if_neg zero]
    exact local_digits (behind byte) _

/-- A string goes on behind bytes that were read, so that it ends where the rest of it does. -/
theorem string_bytes_behind {behind : Cursor} (front : List UInt8)
    (onward : ∃ used, rest = used ++ behind.rest ∧ used ≠ [] ∧ ∀ tail,
      stringBytes done' offset' (used ++ tail) = .ok (found, ⟨tail, behind.offset⟩))
    (step : ∀ rest, stringBytes done offset (front ++ rest) = stringBytes done' offset' rest) :
    ∃ used, front ++ rest = used ++ behind.rest ∧ used ≠ [] ∧ ∀ tail,
      stringBytes done offset (used ++ tail) = .ok (found, ⟨tail, behind.offset⟩) := by
  obtain ⟨used, rejoined, nonempty, again⟩ := onward
  refine ⟨front ++ used, by rw [rejoined, List.append_assoc],
    List.append_ne_nil_of_right_ne_nil _ nonempty, fun tail => ?_⟩
  rw [List.append_assoc, step, again]

/-- The bytes of a string are read up to its quote, in front of any text. -/
theorem string_bytes_used {done offset}
    (ran : stringBytes done offset bytes = .ok (found, behind)) :
    ∃ used, bytes = used ++ behind.rest ∧ used ≠ [] ∧ ∀ tail,
      stringBytes done offset (used ++ tail) = .ok (found, ⟨tail, behind.offset⟩) := by
  fun_induction stringBytes done offset bytes with
  | case2 =>
    cases ran
    exact ⟨[34], rfl, by simp, fun tail => by simp [stringBytes.eq_def]⟩
  | case4 done offset byte rest quote control plain ih =>
    refine string_bytes_behind [byte] (ih ran) fun rest => ?_
    rw [List.singleton_append, stringBytes.eq_def]
    simp only [if_neg quote, if_neg control, if_pos plain]
  | case6 done offset byte quote control slash letter rest plain known ih =>
    refine string_bytes_behind [byte, letter] (ih ran) fun rest => ?_
    simp only [List.cons_append, List.nil_append]
    rw [stringBytes.eq_def]
    simp only [if_neg quote, if_neg control, if_neg slash, known]
  | case10 done offset byte quote control slash letter unknown unicode a b c d rest unit four
      trailing leading ih =>
    refine string_bytes_behind [byte, letter, a, b, c, d] (ih ran) fun rest => ?_
    simp only [List.cons_append, List.nil_append]
    rw [stringBytes.eq_def]
    simp only [if_neg quote, if_neg control, if_neg slash, unknown, if_neg unicode, four,
      if_neg trailing, if_pos leading]
  | case16 done offset byte quote control slash letter unknown unicode a b c d unit four trailing
      leading slash' slashed letter' unicode' a' b' c' d' rest second four' closing ih =>
    refine string_bytes_behind [byte, letter, a, b, c, d, slash', letter', a', b', c', d'] (ih ran)
      fun rest => ?_
    simp only [List.cons_append, List.nil_append]
    rw [stringBytes.eq_def]
    simp only [if_neg quote, if_neg control, if_neg slash, unknown, if_neg unicode, four,
      if_neg trailing, if_neg leading, if_neg slashed, if_neg unicode', four', if_pos closing]
  | _ => cases ran

/-- The text of a string, whose bytes are decoded only when it has been read. -/
theorem read_string_ok_iff : readString cursor = .ok (text, behind) ↔ ∃ bytes,
    stringBytes [] cursor.offset cursor.rest = .ok (bytes, behind) ∧
      Text.Utf8.decode bytes = .ok text := by
  unfold readString
  rw [bind_ok_iff]
  constructor
  · rintro ⟨⟨bytes, between⟩, run, ran⟩
    simp only at ran
    split at ran
    · cases ran
      exact ⟨bytes, run, by assumption⟩
    · split at ran <;> cases ran
  · rintro ⟨bytes, run, decoded⟩
    refine ⟨(bytes, behind), run, ?_⟩
    simp only [decoded]

theorem local_string : Local (fun _ => false) readString := by
  rintro _ cursor value behind _ ran
  obtain ⟨bytes, run, decoded⟩ := read_string_ok_iff.mp ran
  obtain ⟨used, rejoined, nonempty, again⟩ := string_bytes_used run
  exact ⟨used, rejoined, fun _ => nonempty, fun tail _ =>
    read_string_ok_iff.mpr ⟨bytes, again tail, decoded⟩⟩

end Readings.Json
