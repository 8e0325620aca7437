import Chronomap.Text.Hexadecimal

/-!
# JSON strings

A string is written between quotes, with the quote, the backslash and the control characters
escaped.  It is read with every escape of JSON; a surrogate outside a pair, or a control character
that is not escaped, is refused.
-/

namespace Chronomap.Json

/-! ## Writing -/

/-- A character as it stands between quotes. -/
def escaped (c : Char) : List Char :=
  match c with
  | '"' => ['\\', '"']
  | '\\' => ['\\', '\\']
  | '\x08' => ['\\', 'b']
  | '\x0c' => ['\\', 'f']
  | '\n' => ['\\', 'n']
  | '\r' => ['\\', 'r']
  | '\t' => ['\\', 't']
  | c =>
    if c.toNat < 32 then
      ['\\', 'u', '0', '0', Hexadecimal.digit (c.toNat / 16), Hexadecimal.digit (c.toNat % 16)]
    else [c]

def quoted (s : String) : List Char := '"' :: (s.toList.flatMap escaped ++ ['"'])

/-! ## Reading -/

/-- The character after a backslash, `u` apart. -/
def escape? : Char → Option Char
  | '"' => some '"'
  | '\\' => some '\\'
  | '/' => some '/'
  | 'b' => some '\x08'
  | 'f' => some '\x0c'
  | 'n' => some '\n'
  | 'r' => some '\r'
  | 't' => some '\t'
  | _ => none

/-- A code unit that must be followed by the second half of a pair. -/
def isHighSurrogate (u : Nat) : Bool := 0xD800 ≤ u && u < 0xDC00

/-- A code unit that must follow the first half of a pair. -/
def isLowSurrogate (u : Nat) : Bool := 0xDC00 ≤ u && u < 0xE000

/-- The character that a pair of code units encodes. -/
def pairChar (high low : Nat) : Char :=
  Char.ofNat (0x10000 + (high - 0xD800) * 0x400 + (low - 0xDC00))

/-- What follows an opening quote: the characters up to the closing one, and the rest. -/
def contents? : List Char → Option (List Char × List Char)
  | [] => none
  | '"' :: rest => some ([], rest)
  | '\\' :: 'u' :: a :: b :: c :: d :: rest =>
    match Hexadecimal.value? [a, b, c, d] with
    | none => none
    | some u =>
      if isHighSurrogate u then
        match rest with
        | '\\' :: 'u' :: e :: f :: g :: h :: rest =>
          match Hexadecimal.value? [e, f, g, h] with
          | none => none
          | some v =>
            if isLowSurrogate v then (contents? rest).map fun (s, r) => (pairChar u v :: s, r)
            else none
        | _ => none
      else if isLowSurrogate u then none
      else (contents? rest).map fun (s, r) => (Char.ofNat u :: s, r)
  | '\\' :: e :: rest =>
    match escape? e with
    | none => none
    | some c => (contents? rest).map fun (s, r) => (c :: s, r)
  | c :: rest => if c.toNat < 32 then none else (contents? rest).map fun (s, r) => (c :: s, r)

end Chronomap.Json
