import Readings.Json.Printer

/-!
Schema documents: the descriptor grammar written as data. An atom is a bare string; every other node
is an object with one key, which names its constructor. Definitions are closed together, so they may
refer to each other freely, and the root may refer to any of them.
-/
namespace Readings

inductive Node
  | atom (name : String)
  | array (item : Node)
  | tuple (items : List Node)
  | record (item : Node)
  | object (fields : List (String × Node))
  | enumeration (literals : List Json)
  | union (members : List Node)
  | intersection (members : List Node)
  | nullable (inner : Node)
  | optional (inner : Node)
  | pure (value : Json)
  | map (morphism : String) (inner : Node)
  | reference (name : String)
deriving Inhabited

/-- A root and named definitions. -/
structure Document where
  root : Node
  definitions : Entries Node
deriving Inhabited

namespace Node

mutual
/-- The node that JSON data spells. The payload of a map is an object with exactly the keys
`morphism` and `of`, or an array of the two. -/
def ofJson? : Json → Option Node
  | .string name => some (.atom name)
  | .object [(key, payload)] =>
    match key with
    | "array" => (ofJson? payload).map .array
    | "record" => (ofJson? payload).map .record
    | "nullable" => (ofJson? payload).map .nullable
    | "optional" => (ofJson? payload).map .optional
    | "pure" => some (.pure payload.settled)
    | "tuple" =>
      match payload with
      | .array items => (ofItems? items).map .tuple
      | _ => none
    | "union" =>
      match payload with
      | .array items => (ofItems? items).map .union
      | _ => none
    | "intersection" =>
      match payload with
      | .array items => (ofItems? items).map .intersection
      | _ => none
    | "enum" =>
      match payload with
      | .array items => some (.enumeration (Json.settledItems items))
      | _ => none
    | "object" =>
      match payload with
      | .object members => (ofMembers? members).map fun fields => .object (Entries.ofPairs fields)
      | _ => none
    | "ref" =>
      match payload with
      | .string name => some (.reference name)
      | _ => none
    | "map" =>
      match payload with
      | .array [.string morphism, inner] => (ofJson? inner).map (.map morphism)
      | .object [("morphism", .string morphism), ("of", inner)]
      | .object [("of", inner), ("morphism", .string morphism)] =>
        (ofJson? inner).map (.map morphism)
      | _ => none
    | _ => none
  | _ => none

def ofItems? : List Json → Option (List Node)
  | [] => some []
  | item :: rest => do some ((← ofJson? item) :: (← ofItems? rest))

def ofMembers? : List (String × Json) → Option (List (String × Node))
  | [] => some []
  | (key, value) :: rest => do some ((key, ← ofJson? value) :: (← ofMembers? rest))
end

end Node
end Readings
