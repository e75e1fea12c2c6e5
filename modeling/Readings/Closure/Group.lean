import Readings.Descriptor.Basic

/-!
Closing groups of mutually recursive bodies. A group binds symbols to raw bodies that mention each
other by reference. Closing walks a descriptor and puts a binder exactly where a cycle closes:

- a reference to a group symbol that is not being expanded becomes the walked body of the symbol,
  walked with the symbol marked as being expanded;
- a reference to a symbol that is being expanded stays, and is free;
- a walked body in which its own symbol is still free is wrapped in a binder for it; any other is
  left as it is.

So a symbol that only looks up another one without a cycle gets no binder. A binder whose symbol is
reachable through unions, intersections and maps alone is refused: a cast would re-enter it on the
same input for ever.
-/
namespace Readings

/-- Raw bodies under the symbols that references to them use, in order of binding. -/
structure Group where
  bodies : List (Symbol × Descriptor)
deriving Inhabited

/-- A walked descriptor and the symbols it leaves free, each once, in the order they were met. -/
structure Walked where
  descriptor : Descriptor
  free : List Symbol

namespace Descriptor

mutual
/-- Whether a symbol occurs with no array, tuple, record or object above it. -/
def reachesUnguarded (symbol : Symbol) : Descriptor → Bool
  | .reference other => other == symbol
  | .union members => anyReachesUnguarded symbol members
  | .intersection members => anyReachesUnguarded symbol members
  | .map _ inner => reachesUnguarded symbol inner
  | .recursive bound body => bound != symbol && reachesUnguarded symbol body
  | .unknown | .never | .primitive _ | .enumeration _ | .pure _
  | .array _ | .tuple _ | .record _ | .object _ => false

def anyReachesUnguarded (symbol : Symbol) : List Descriptor → Bool
  | [] => false
  | member :: rest => reachesUnguarded symbol member || anyReachesUnguarded symbol rest
end

end Descriptor

namespace Walked

/-- A descriptor that leaves nothing free. -/
def closed (descriptor : Descriptor) : Walked := ⟨descriptor, []⟩

/-- A reference that stays. -/
def loose (symbol : Symbol) : Walked := ⟨.reference symbol, [symbol]⟩

/-- The same free symbols under a changed descriptor. -/
def rewrap (wrap : Descriptor → Descriptor) (walked : Walked) : Walked :=
  ⟨wrap walked.descriptor, walked.free⟩

/-- The symbols of `more` that are new, behind those of `free`. -/
def join (free more : List Symbol) : List Symbol := free ++ more.filter (· ∉ free)

/-- The walked body of a symbol: bound where the symbol is still free in it, refused when the binder
would be unguarded. -/
def bindCycle (symbol : Symbol) (walked : Walked) : Except SchemaError Walked :=
  if symbol ∈ walked.free then
    if walked.descriptor.reachesUnguarded symbol then
      .error (.unguardedRecursion symbol.description)
    else .ok ⟨.recursive symbol walked.descriptor, walked.free.erase symbol⟩
  else .ok walked

end Walked

/-- A pair whose first part does not grow and whose second part shrinks is smaller. -/
theorem lex_of_le {a b c d : Nat} (first : a ≤ c) (second : b < d) :
    Prod.Lex (· < ·) (· < ·) (a, b) (c, d) := by
  rcases Nat.lt_or_eq_of_le first with less | rfl
  · exact .left _ _ less
  · exact .right _ second

namespace Group

def empty : Group := ⟨[]⟩

/-- The body of a symbol. -/
def body? (group : Group) (symbol : Symbol) : Option Descriptor := group.bodies.lookup symbol

/-- Binds a symbol to its body; a symbol is bound once. -/
def bind (group : Group) (symbol : Symbol) (body : Descriptor) : Except SchemaError Group :=
  if (group.body? symbol).isSome then .error (.duplicateName symbol.description)
  else .ok ⟨group.bodies ++ [(symbol, body)]⟩

/-- How many bodies belong to symbols that are not being expanded. -/
def unexpanded (group : Group) (expanding : List Symbol) : Nat :=
  group.bodies.countP fun entry => entry.1 ∉ expanding

theorem unexpanded_cons_le (group : Group) (expanding : List Symbol) (symbol : Symbol) :
    group.unexpanded (symbol :: expanding) ≤ group.unexpanded expanding := by
  refine List.countP_mono_left fun entry _ outside => ?_
  simp only [List.mem_cons, not_or, decide_eq_true_eq] at outside ⊢
  exact outside.2

/-- Expanding a group symbol leaves fewer bodies to expand. -/
theorem unexpanded_cons_lt {group : Group} {expanding : List Symbol} {symbol : Symbol}
    {body : Descriptor} (found : group.body? symbol = some body) (fresh : symbol ∉ expanding) :
    group.unexpanded (symbol :: expanding) < group.unexpanded expanding := by
  obtain ⟨before, after, split, _⟩ := List.lookup_eq_some_iff.mp found
  have left := unexpanded_cons_le ⟨before⟩ expanding symbol
  have right := unexpanded_cons_le ⟨after⟩ expanding symbol
  unfold unexpanded at left right ⊢
  rw [split, List.countP_append, List.countP_append, List.countP_cons, List.countP_cons,
    if_neg (by simp), if_pos (by simpa using fresh)]
  dsimp only at left right
  omega

mutual
/-- Walks a descriptor while the symbols of `expanding` are being expanded. A symbol of the group is
expanded at most once on any path, so the bodies left and then the descriptor get smaller. -/
def walk (group : Group) (expanding : List Symbol) : Descriptor → Except SchemaError Walked
  | .unknown => .ok (.closed .unknown)
  | .never => .ok (.closed .never)
  | .primitive kind => .ok (.closed (.primitive kind))
  | .enumeration members => .ok (.closed (.enumeration members))
  | .pure value => .ok (.closed (.pure value))
  | .array item => do .ok ((← group.walk expanding item).rewrap .array)
  | .record item => do .ok ((← group.walk expanding item).rewrap .record)
  | .map composition inner => do .ok ((← group.walk expanding inner).rewrap (.map composition))
  | .tuple items => do
    let (items, free) ← group.walkAll expanding [] items
    .ok ⟨.tuple items, free⟩
  | .union members => do
    let (members, free) ← group.walkAll expanding [] members
    .ok ⟨.union members, free⟩
  | .intersection members => do
    let (members, free) ← group.walkAll expanding [] members
    .ok ⟨.intersection members, free⟩
  | .object fields => do
    let (fields, free) ← group.walkFields expanding [] fields
    .ok ⟨.object fields, free⟩
  | .reference symbol =>
    match _found : group.body? symbol with
    | some body =>
      if _expanded : symbol ∈ expanding then .ok (.loose symbol)
      else do (← group.walk (symbol :: expanding) body).bindCycle symbol
    | none => .ok (.loose symbol)
  | .recursive symbol body => do (← group.walk (symbol :: expanding) body).bindCycle symbol
termination_by descriptor => (group.unexpanded expanding, sizeOf descriptor)
decreasing_by
  all_goals first
    | exact Prod.Lex.left _ _ (unexpanded_cons_lt _found _expanded)
    | exact lex_of_le (unexpanded_cons_le ..) (by decreasing_tactic)
    | decreasing_tactic

/-- Walks descriptors in order, behind those whose free symbols are given. -/
def walkAll (group : Group) (expanding free : List Symbol) :
    List Descriptor → Except SchemaError (List Descriptor × List Symbol)
  | [] => .ok ([], free)
  | item :: rest => do
    let walked ← group.walk expanding item
    let (rest, free) ← group.walkAll expanding (Walked.join free walked.free) rest
    .ok (walked.descriptor :: rest, free)
termination_by items => (group.unexpanded expanding, sizeOf items)

/-- Walks the shapes of fields in order, behind those whose free symbols are given. -/
def walkFields (group : Group) (expanding free : List Symbol) :
    List (String × Descriptor) → Except SchemaError (List (String × Descriptor) × List Symbol)
  | [] => .ok ([], free)
  | (key, item) :: rest => do
    let walked ← group.walk expanding item
    let (rest, free) ← group.walkFields expanding (Walked.join free walked.free) rest
    .ok ((key, walked.descriptor) :: rest, free)
termination_by fields => (group.unexpanded expanding, sizeOf fields)
end

/-- The closed form of a descriptor over the group. What is free afterwards dangles. -/
def closeType (group : Group) (descriptor : Descriptor) : Except SchemaError Descriptor := do
  let walked ← group.walk [] descriptor
  match walked.free with
  | [] => .ok walked.descriptor
  | symbol :: _ => .error (.danglingReference symbol.description)

/-- The closed form of a member of the group. -/
def close (group : Group) (symbol : Symbol) : Except SchemaError Descriptor :=
  group.closeType (.reference symbol)

end Group
end Readings
