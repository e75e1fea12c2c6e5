import Readings.Closure.Group

/-!
Systems of named definitions. Every body is built from placeholders, one for each name of the
system; the system is then closed as a group. A repeated name is refused before any body is built,
an error while a body is built stops the rest, and names asked for in vain are refused once all
bodies are there.
-/
namespace Readings

/-- The names of a system, each with the symbol its placeholder refers to. -/
structure Placeholders where
  symbols : Entries Symbol

/-- A body under construction: the descriptor so far, and the names it asked for in vain. -/
structure Draft where
  descriptor : Descriptor
  missing : List String

namespace Placeholders

/-- Draws symbols for more names, behind those drawn already. -/
def drawMore (serial : Nat) (symbols : Entries Symbol) :
    List String → Except SchemaError Placeholders
  | [] => .ok ⟨symbols⟩
  | name :: rest =>
    if (Entries.find? symbols name).isSome then .error (.duplicateName name)
    else drawMore (serial + 1) (symbols ++ [(name, ⟨serial, name⟩)]) rest

/-- One symbol for each name, with serials counted up from `serial`; a repeated name is refused. -/
def draw (serial : Nat) (names : List String) : Except SchemaError Placeholders :=
  drawMore serial [] names

def names (placeholders : Placeholders) : List String := Entries.keys placeholders.symbols

/-- The placeholder of a name. A name outside the system leaves a stray reference and is recorded. -/
def get (placeholders : Placeholders) (name : String) : Draft :=
  match Entries.find? placeholders.symbols name with
  | some symbol => ⟨.reference symbol, []⟩
  | none => ⟨.reference ⟨0, name⟩, [name]⟩

/-- Closes bodies given in the order of the names. -/
def close (placeholders : Placeholders) (drafts : List Draft) :
    Except SchemaError (Entries Descriptor) :=
  match drafts.flatMap Draft.missing with
  | name :: _ => .error (.undefinedName name)
  | [] =>
    let group : Group := ⟨(Entries.values placeholders.symbols).zip (drafts.map Draft.descriptor)⟩
    placeholders.symbols.mapM fun (name, symbol) => do .ok (name, ← group.close symbol)

end Placeholders

/-- A named body, built from the placeholders of its system in a setting where errors can arise. -/
structure Definition (m : Type → Type) where
  name : String
  body : Placeholders → m Draft

/-- Builds and closes a system of definitions, in order. -/
def fix {m : Type → Type} [Monad m] [MonadExceptOf SchemaError m] (serial : Nat)
    (definitions : List (Definition m)) : m (Entries Descriptor) := do
  let placeholders ← liftExcept (Placeholders.draw serial (definitions.map Definition.name))
  let drafts ← definitions.mapM fun definition => definition.body placeholders
  liftExcept (placeholders.close drafts)
where
  /-- An answer or an error, raised where it stands. -/
  liftExcept {α : Type} : Except SchemaError α → m α
    | .ok answer => pure answer
    | .error error => throw error

/-- Closes a single body that refers to itself by its symbol. -/
def fixOne (me : Symbol) (body : Descriptor) : Except SchemaError Descriptor :=
  Group.close ⟨[(me, body)]⟩ me

end Readings
