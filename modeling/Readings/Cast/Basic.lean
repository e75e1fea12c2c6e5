import Readings.Cast.Outcome

/-!
Casting: a value is checked against a descriptor and every reading the descriptor allows is rebuilt.
Ambiguity is kept. A union has the readings of all members that fit, and a composite has every
combination of its parts' readings, with the first part varying slowest.

A recursion binder is not unfolded in the text of the descriptor: its body goes into the scope, and
a reference continues with the body found there. A malformed descriptor can therefore go on for ever
on one input, so the interpreter takes a budget for its depth and answers nothing when that runs
out.
-/
namespace Readings

/-- The bodies bound by the enclosing binders, innermost first. -/
abbrev Scope := List (Symbol × Descriptor)

/-- The rows so far, each continued by each candidate of one more column. A single row with a single
candidate is continued in place. -/
def extendRows {α : Type} (rows : List (List α)) (column : List α) : List (List α) :=
  match rows, column with
  | [row], [candidate] => [row ++ [candidate]]
  | _, _ => rows.flatMap fun row => column.map fun candidate => row ++ [candidate]

/-- All rows that choose one candidate from each column. -/
def choices {α : Type} (columns : List (List α)) : List (List α) := columns.foldl extendRows [[]]

/-- All answers, if each is there. -/
def collect {α : Type} : List (Option α) → Option (List α)
  | [] => some []
  | none :: _ => none
  | some answer :: rest => (collect rest).map (answer :: ·)

namespace Outcome

/-- The candidates at each position when every part succeeded. -/
def columns? (outcomes : List Outcome) : Option (List (List Value)) :=
  collect (outcomes.map readings?)

/-- Outcomes in order, each below the step that its place gives. -/
def placed (step : Nat → Step) (outcomes : List Outcome) : List (Step × Outcome) :=
  outcomes.zipIdx.map fun (outcome, index) => (step index, outcome)

/-- A sequence of parts: every combination of their readings as an array, or a mismatch. -/
def ofSequence (demand : Demand) (step : Nat → Step) (actual : Value) (outcomes : List Outcome) :
    Outcome :=
  match columns? outcomes with
  | some columns => .success ((choices columns).map .array)
  | none => .mismatch demand (placed step outcomes) actual

/-- Parts under keys: every combination of their readings as an object, or a mismatch. -/
def ofKeyed (demand : Demand) (actual : Value) (keys : List String) (outcomes : List Outcome) :
    Outcome :=
  match columns? outcomes with
  | some columns => .success ((choices columns).map fun row => .object (keys.zip row))
  | none => .mismatch demand ((keys.map .property).zip outcomes) actual

/-- Alternatives: the readings of all that succeeded, in order, or a mismatch when none did. -/
def ofVariants (actual : Value) (outcomes : List Outcome) : Outcome :=
  if outcomes.any isSuccess then .success (outcomes.flatMap readings)
  else .mismatch .union (placed .variant outcomes) actual

/-- Each reading of a success transformed; another outcome is kept. -/
def mapReadings (morphism : Morphism) : Outcome → Outcome
  | .success readings => .success (readings.map morphism)
  | other => other

end Outcome

/-- Casts to a depth of `budget` descriptors; none when the depth is not enough. -/
def castWithin : (budget : Nat) → Scope → Descriptor → Value → Option Outcome
  | 0, _, _, _ => none
  | budget + 1, scope, descriptor, actual =>
    match descriptor with
    | .unknown => some (.success [actual])
    | .never => some (.mismatch .never [] actual)
    | .primitive kind =>
      some (if kind.admits actual then .success [actual] else .mismatch (.primitive kind) [] actual)
    | .array item =>
      match actual with
      | .array values =>
        (collect (values.map (castWithin budget scope item))).map (.ofSequence .array .item actual)
      | _ => some (.mismatch .array [] actual)
    | .tuple items =>
      match actual with
      | .array values =>
        if values.length = items.length then
          (collect (items.zipWith (castWithin budget scope) values)).map
            (.ofSequence (.tuple items.length) .item actual)
        else some (.mismatch (.tuple items.length) [] actual)
      | _ => some (.mismatch (.tuple items.length) [] actual)
    | .record item =>
      match actual with
      | .object entries =>
        (collect ((Entries.values entries).map (castWithin budget scope item))).map
          (.ofKeyed .record actual (Entries.keys entries))
      | _ => some (.mismatch .record [] actual)
    | .object fields =>
      match actual with
      | .object entries =>
        (collect (fields.map fun (key, field) =>
          castWithin budget scope field ((Entries.find? entries key).getD .undefined))).map
          (.ofKeyed .object actual (Entries.keys fields))
      | _ => some (.mismatch .object [] actual)
    | .enumeration members =>
      some (match Literal.ofValue? actual with
        | some literal =>
          if literal.isIn members then .success [actual]
          else .mismatch (.enumeration members) [] actual
        | none => .mismatch (.enumeration members) [] actual)
    | .union members =>
      (collect (members.map (castWithin budget scope · actual))).map (.ofVariants actual)
    | .intersection members =>
      (collect (members.map (castWithin budget scope · actual))).map
        (.ofSequence .intersection .member actual)
    | .pure value => some (.success [value])
    | .map composition inner =>
      (castWithin budget scope inner actual).map (.mapReadings composition.apply)
    | .reference symbol =>
      match scope.lookup symbol with
      | some body => castWithin budget scope body actual
      | none => some (.unbound symbol)
    | .recursive symbol body => castWithin budget ((symbol, body) :: scope) body actual

/-- A depth that suffices for every descriptor whose recursion passes through containers: on each
level of the input a cast visits no node of the descriptor twice under the same binders. -/
def castBudget (descriptor : Descriptor) (value : Value) : Nat :=
  (value.height + 2) * ((descriptor.size + 1) * (descriptor.size + 1))

/-- Casts a value against a descriptor that stands on its own. There is no answer when the
descriptor re-enters itself on one input for ever. -/
def Descriptor.cast (descriptor : Descriptor) (value : Value) : Option Outcome :=
  castWithin (castBudget descriptor value) [] descriptor value

end Readings
