/-!
Text as bytes. Encoding writes each character in one to four bytes; decoding accepts exactly the
well-formed sequences (no overlong form, no surrogate, nothing past the last code point) and
otherwise tells where the first ill-formed one starts.
-/
namespace Readings.Text.Utf8

/-- The bytes of a text. -/
def encode (text : String) : List UInt8 := text.toList.flatMap String.utf8EncodeChar

/-- The six bits a continuation byte carries. -/
def payload? (byte : UInt8) : Option Nat :=
  if 0x80 ≤ byte ∧ byte ≤ 0xBF then some (byte.toNat - 0x80) else none

/-- The code point a two-byte sequence stands for. -/
def pair? (a b : UInt8) : Option Nat := do
  let low ← payload? b
  if 0xC2 ≤ a ∧ a ≤ 0xDF then some ((a.toNat - 0xC0) * 64 + low) else none

/-- The code point a three-byte sequence stands for. -/
def triple? (a b c : UInt8) : Option Nat := do
  let middle ← payload? b
  let low ← payload? c
  let point := (a.toNat - 0xE0) * 4096 + middle * 64 + low
  if 0xE0 ≤ a ∧ a ≤ 0xEF ∧ 0x800 ≤ point ∧ point.isValidChar then some point else none

/-- The code point a four-byte sequence stands for. -/
def quadruple? (a b c d : UInt8) : Option Nat := do
  let high ← payload? b
  let middle ← payload? c
  let low ← payload? d
  let point := (a.toNat - 0xF0) * 262144 + high * 4096 + middle * 64 + low
  if 0xF0 ≤ a ∧ a ≤ 0xF4 ∧ 0x10000 ≤ point ∧ point.isValidChar then some point else none

/-- Decodes bytes that start at an offset, after the characters decoded so far in reverse. -/
def decodeFrom (offset : Nat) (done : List Char) : List UInt8 → Except Nat (List Char)
  | [] => .ok done.reverse
  | a :: rest =>
    if a < 0x80 then decodeFrom (offset + 1) (Char.ofNat a.toNat :: done) rest
    else
      match rest with
      | [] => .error offset
      | b :: rest =>
        match pair? a b with
        | some point => decodeFrom (offset + 2) (Char.ofNat point :: done) rest
        | none =>
          match rest with
          | [] => .error offset
          | c :: rest =>
            match triple? a b c with
            | some point => decodeFrom (offset + 3) (Char.ofNat point :: done) rest
            | none =>
              match rest with
              | [] => .error offset
              | d :: rest =>
                match quadruple? a b c d with
                | some point => decodeFrom (offset + 4) (Char.ofNat point :: done) rest
                | none => .error offset

/-- The text that bytes spell, or the offset of the first ill-formed sequence. -/
def decode (bytes : List UInt8) : Except Nat String := (decodeFrom 0 [] bytes).map String.ofList

end Readings.Text.Utf8
