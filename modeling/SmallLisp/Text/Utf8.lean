/-
# Decoding UTF-8

Bytes read as UTF-8 text. A character is a lead byte and up to three more, each from a range that
the lead fixes, so that no character has two spellings and no surrogate has one. What does not
fit is a fault, placed at the start of the character and as long as the part of it that fits.
Line ends are unified afterwards: each carriage return becomes a line feed, together with a line
feed that follows it.

Key definitions: `Utf8.Fault`, `Utf8.decode`, `Utf8.unifyLineEnds`.
-/
import SmallLisp.Text.Quoted

namespace SmallLisp
namespace Utf8

/-- Why bytes are not UTF-8. -/
inductive Reason where
  | invalidStart
  | invalidContinuation
  | unexpectedEnd
  deriving DecidableEq

/-- A place where bytes are not UTF-8: the position and value of the first byte of a character,
and how many bytes from there on might have begun one. -/
structure Fault where
  position : Nat
  lead : UInt8
  count : Nat
  reason : Reason
  deriving DecidableEq

/-- The bytes that may follow a lead byte, as ranges, and the bits that the lead contributes. -/
def follow? (lead : UInt8) : Option (List (UInt8 × UInt8) × Nat) :=
  let tail : UInt8 × UInt8 := (0x80, 0xbf)
  if lead < 0x80 then some ([], lead.toNat)
  else if lead < 0xc2 then none
  else if lead < 0xe0 then some ([tail], lead.toNat - 0xc0)
  else if lead = 0xe0 then some ([(0xa0, 0xbf), tail], 0)
  else if lead = 0xed then some ([(0x80, 0x9f), tail], 0xd)
  else if lead < 0xf0 then some ([tail, tail], lead.toNat - 0xe0)
  else if lead = 0xf0 then some ([(0x90, 0xbf), tail, tail], 0)
  else if lead < 0xf4 then some ([tail, tail, tail], lead.toNat - 0xf0)
  else if lead = 0xf4 then some ([(0x80, 0x8f), tail, tail], 4)
  else none

/-- A character of which some bytes are still to come: where and with which byte it began, how
many bytes of it are read, the ranges of the bytes to come, and the code point so far. -/
structure Partial where
  position : Nat
  lead : UInt8
  count : Nat
  ranges : List (UInt8 × UInt8)
  codePoint : Nat

def Partial.fault (p : Partial) (reason : Reason) : Fault := ⟨p.position, p.lead, p.count, reason⟩

/-- Reads on from a position, within a character if one is begun. -/
def decodeFrom (position : Nat) : Option Partial → List UInt8 → Except Fault (List Char)
  | none, [] => .ok []
  | some p, [] => .error (p.fault .unexpectedEnd)
  | none, b :: bytes =>
    match follow? b with
    | none => .error ⟨position, b, 1, .invalidStart⟩
    | some ([], n) => (decodeFrom (position + 1) none bytes).map (Char.ofNat n :: ·)
    | some (ranges, n) => decodeFrom (position + 1) (some ⟨position, b, 1, ranges, n⟩) bytes
  | some p, b :: bytes =>
    let codePoint := p.codePoint * 0x40 + (b.toNat - 0x80)
    match p.ranges with
    | [] => .error (p.fault .invalidContinuation)
    | (low, high) :: ranges =>
      if low ≤ b ∧ b ≤ high then
        if ranges.isEmpty then
          (decodeFrom (position + 1) none bytes).map (Char.ofNat codePoint :: ·)
        else decodeFrom (position + 1) (some ⟨p.position, p.lead, p.count + 1, ranges, codePoint⟩) bytes
      else .error (p.fault .invalidContinuation)

/-- The text that bytes spell in UTF-8. -/
def decode (bytes : List UInt8) : Except Fault (List Char) := decodeFrom 0 none bytes

/-- The text with every line end written as a line feed. -/
def unifyLineEnds : List Char → List Char
  | [] => []
  | '\r' :: '\n' :: cs => '\n' :: unifyLineEnds cs
  | c :: cs => (if c = '\r' then '\n' else c) :: unifyLineEnds cs

def Reason.message : Reason → String
  | .invalidStart => "invalid start byte"
  | .invalidContinuation => "invalid continuation byte"
  | .unexpectedEnd => "unexpected end of data"

def Fault.message (f : Fault) : String :=
  let subject :=
    if f.count = 1 then
      "byte 0x" ++ String.ofList (Text.hexDigits 2 f.lead.toNat) ++ " in position " ++ toString f.position
    else
      "bytes in position " ++ toString f.position ++ "-" ++ toString (f.position + f.count - 1)
  "'utf-8' codec can't decode " ++ subject ++ ": " ++ f.reason.message

end Utf8
end SmallLisp
