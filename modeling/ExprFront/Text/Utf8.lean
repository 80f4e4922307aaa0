import ExprFront.Text.Hex

/-!
# Bytes as text

The contents of a file are UTF-8. Decoding reads one byte at a time and keeps what it has seen of
the character under way; the first byte that cannot continue it ends the decoding with the bytes
at fault. Line ends of every convention are then made line feeds.
-/

namespace ExprFront.Utf8

/-- Why some bytes are no character. -/
inductive Reason where
  | invalidStart
  | invalidContinuation
  | unexpectedEnd
  deriving DecidableEq

/-- Bytes that are no character: where they begin, the first of them and how many they are. -/
structure Fault where
  offset : Nat
  byte : UInt8
  count : Nat
  reason : Reason
  deriving DecidableEq

/-- A character under way: where it began and with what, the bytes seen and still needed, the bits
so far, and the range in which the next byte has to lie. -/
structure Partial where
  offset : Nat
  byte : UInt8
  seen : Nat
  needed : Nat
  bits : Nat
  least : UInt8 := 0x80
  greatest : UInt8 := 0xBF

namespace Partial

/-- The bytes seen so far, as a fault. -/
def fault (p : Partial) (reason : Reason) : Fault :=
  { offset := p.offset, byte := p.byte, count := p.seen, reason }

/-- The character begun by a byte outside ASCII. The second byte is restricted after four first
bytes, which keeps out overlong forms, surrogates and code points beyond the last. -/
def start? (offset : Nat) (byte : UInt8) : Option Partial :=
  let begun (needed bits : Nat) : Partial := { offset, byte, seen := 1, needed, bits }
  let low := byte.toNat
  if low < 0xC2 then none
  else if low < 0xE0 then some (begun 1 (low - 0xC0))
  else if low < 0xF0 then
    let p := begun 2 (low - 0xE0)
    some (if low = 0xE0 then { p with least := 0xA0 }
      else if low = 0xED then { p with greatest := 0x9F } else p)
  else if low < 0xF5 then
    let p := begun 3 (low - 0xF0)
    some (if low = 0xF0 then { p with least := 0x90 }
      else if low = 0xF4 then { p with greatest := 0x8F } else p)
  else none

/-- The bits with those of a further byte. -/
def pushBits (p : Partial) (byte : UInt8) : Nat :=
  p.bits * 64 + (byte.toNat - 0x80)

/-- The character with a further byte that does not end it. -/
def push (p : Partial) (byte : UInt8) : Partial :=
  { p with seen := p.seen + 1, needed := p.needed - 1, bits := p.pushBits byte,
           least := 0x80, greatest := 0xBF }

end Partial

/-- Decodes the bytes from an offset on, `pending` being the character under way. -/
def decodeFrom (offset : Nat) (pending : Option Partial) : List UInt8 → Except Fault (List Char)
  | [] =>
    match pending with
    | none => .ok []
    | some p => .error (p.fault .unexpectedEnd)
  | byte :: rest =>
    match pending with
    | none =>
      if byte < 0x80 then
        (decodeFrom (offset + 1) none rest).map (Char.ofNat byte.toNat :: ·)
      else
        match Partial.start? offset byte with
        | none => .error { offset, byte, count := 1, reason := .invalidStart }
        | some p => decodeFrom (offset + 1) (some p) rest
    | some p =>
      if byte < p.least ∨ p.greatest < byte then .error (p.fault .invalidContinuation)
      else if p.needed = 1 then
        (decodeFrom (offset + 1) none rest).map (Char.ofNat (p.pushBits byte) :: ·)
      else decodeFrom (offset + 1) (some (p.push byte)) rest

/-- The text that bytes encode, or the first fault in them. -/
def decode (bytes : List UInt8) : Except Fault (List Char) :=
  decodeFrom 0 none bytes

/-- The wording of a reason. -/
def Reason.text : Reason → String
  | .invalidStart => "invalid start byte"
  | .invalidContinuation => "invalid continuation byte"
  | .unexpectedEnd => "unexpected end of data"

/-- The wording of a fault: a single byte is shown, several are located. -/
def Fault.message (fault : Fault) : String :=
  let reason := fault.reason.text
  if fault.count = 1 then
    let byte := String.ofList (hex 2 fault.byte.toNat)
    s!"'utf-8' codec can't decode byte 0x{byte} in position {fault.offset}: {reason}"
  else
    let last := fault.offset + fault.count - 1
    s!"'utf-8' codec can't decode bytes in position {fault.offset}-{last}: {reason}"

/-- A text with each line end, also a carriage return alone or before a line feed, as a line feed. -/
def unifyNewlines : List Char → List Char
  | [] => []
  | '\r' :: '\n' :: rest => '\n' :: unifyNewlines rest
  | c :: rest => (if c = '\r' then '\n' else c) :: unifyNewlines rest

end ExprFront.Utf8
