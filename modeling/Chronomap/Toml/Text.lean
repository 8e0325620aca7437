import Chronomap.Text.Hexadecimal

/-!
# Strings and blanks of TOML

Basic strings know escapes, literal strings do not; both may run over several lines between
tripled quotes, where a line break right after the opening quotes is left out.
-/

namespace Chronomap.Toml

/-! ## Blanks -/

/-- Leaves out spaces and tabs. -/
def skipSpaces (cs : List Char) : List Char := cs.dropWhile fun c => c == ' ' || c == '\t'

/-- Characters of comments and of strings: none of the control characters but the tab. -/
def isTextChar (c : Char) : Bool := c == '\t' || (32 ≤ c.toNat && c.toNat != 127)

/-- What follows a line break. -/
def newline? : List Char → Option (List Char)
  | '\n' :: cs => some cs
  | '\r' :: '\n' :: cs => some cs
  | _ => none

def skipComment : List Char → List Char
  | '#' :: cs => cs.dropWhile isTextChar
  | cs => cs

/-- What follows the line, of which only blanks and a comment may be left. -/
def lineEnd? (cs : List Char) : Option (List Char) :=
  match skipComment (skipSpaces cs) with
  | [] => some []
  | cs => newline? cs

/-- Leaves out spaces, line breaks and comments; there is no answer when a comment holds a control
character. -/
def skipGaps? : (inComment : Bool) → List Char → Option (List Char)
  | _, [] => some []
  | _, '\n' :: cs => skipGaps? false cs
  | _, '\r' :: '\n' :: cs => skipGaps? false cs
  | true, c :: cs => if isTextChar c then skipGaps? true cs else none
  | false, ' ' :: cs => skipGaps? false cs
  | false, '\t' :: cs => skipGaps? false cs
  | false, '#' :: cs => skipGaps? true cs
  | false, cs => some cs

/-! ## Escapes -/

/-- The character whose code is the next `digits` hexadecimal digits. -/
def codePoint? (digits : Nat) (cs : List Char) : Option (Char × List Char) :=
  if (cs.take digits).length = digits then
    match Hexadecimal.value? (cs.take digits) with
    | some n => if n.isValidChar then some (Char.ofNat n, cs.drop digits) else none
    | none => none
  else none

def escape? : List Char → Option (Char × List Char)
  | 'b' :: cs => some ('\x08', cs)
  | 't' :: cs => some ('\t', cs)
  | 'n' :: cs => some ('\n', cs)
  | 'f' :: cs => some ('\x0c', cs)
  | 'r' :: cs => some ('\r', cs)
  | 'e' :: cs => some ('\x1b', cs)
  | '"' :: cs => some ('"', cs)
  | '\\' :: cs => some ('\\', cs)
  | 'x' :: cs => codePoint? 2 cs
  | 'u' :: cs => codePoint? 4 cs
  | 'U' :: cs => codePoint? 8 cs
  | _ => none

/-- Leaves out spaces and line breaks. -/
def skipBlankLines : List Char → List Char
  | ' ' :: cs => skipBlankLines cs
  | '\t' :: cs => skipBlankLines cs
  | '\n' :: cs => skipBlankLines cs
  | '\r' :: '\n' :: cs => skipBlankLines cs
  | cs => cs

/-- What follows a backslash at the end of a line, without the blanks and line breaks after
it. -/
def continuation? (cs : List Char) : Option (List Char) :=
  (newline? (skipSpaces cs)).map skipBlankLines

/-! ## Strings -/

/-- The quotes that end a text in tripled quotes: up to two more belong to the text. -/
def closing? (quote : Char) (cs : List Char) : Option (List Char × List Char) :=
  let quotes := (cs.take 5).takeWhile (· == quote)
  if 3 ≤ quotes.length then some (quotes.drop 3, cs.drop quotes.length) else none

/-- The text of a basic string after its opening quote; `fuel` is as long as the text. -/
def basic? : (fuel : Nat) → List Char → Option (List Char × List Char)
  | 0, _ => none
  | fuel + 1, cs =>
    match cs with
    | [] => none
    | '"' :: cs => some ([], cs)
    | '\\' :: cs =>
      (escape? cs).bind fun (c, cs) => (basic? fuel cs).map fun (s, cs) => (c :: s, cs)
    | c :: cs =>
      if isTextChar c then (basic? fuel cs).map fun (s, cs) => (c :: s, cs) else none

def literal? : List Char → Option (List Char × List Char)
  | [] => none
  | '\'' :: cs => some ([], cs)
  | c :: cs => if isTextChar c then (literal? cs).map fun (s, cs) => (c :: s, cs) else none

/-- The text after tripled quotes; `escapes` says whether a backslash means anything in it. -/
def multiline? (quote : Char) (escapes : Bool) :
    (fuel : Nat) → List Char → Option (List Char × List Char)
  | 0, _ => none
  | fuel + 1, cs =>
    match closing? quote cs with
    | some done => some done
    | none =>
      match cs with
      | [] => none
      | '\n' :: cs => (multiline? quote escapes fuel cs).map fun (s, cs) => ('\n' :: s, cs)
      | '\r' :: '\n' :: cs =>
        (multiline? quote escapes fuel cs).map fun (s, cs) => ('\r' :: '\n' :: s, cs)
      | c :: cs =>
        if c = '\\' ∧ escapes then
          match continuation? cs with
          | some cs => multiline? quote escapes fuel cs
          | none =>
            (escape? cs).bind fun (c, cs) =>
              (multiline? quote escapes fuel cs).map fun (s, cs) => (c :: s, cs)
        else if isTextChar c then
          (multiline? quote escapes fuel cs).map fun (s, cs) => (c :: s, cs)
        else none

/-- The text after tripled quotes, without the line break that it starts with. -/
def multilineText? (quote : Char) (escapes : Bool) (cs : List Char) :
    Option (List Char × List Char) :=
  let cs := (newline? cs).getD cs
  multiline? quote escapes (cs.length + 1) cs

/-- A string of one of the four kinds; there is no answer when there is none. -/
def string? : List Char → Option (List Char × List Char)
  | '"' :: '"' :: '"' :: cs => multilineText? '"' true cs
  | '"' :: cs => basic? (cs.length + 1) cs
  | '\'' :: '\'' :: '\'' :: cs => multilineText? '\'' false cs
  | '\'' :: cs => literal? cs
  | _ => none

/-! ## Keys -/

/-- Characters of a key without quotes. -/
def isBareKeyChar (c : Char) : Bool := c.isAlphanum || c == '_' || c == '-'

/-- One part of a key: bare, or a string on one line. -/
def keyPart? : List Char → Option (String × List Char)
  | '"' :: cs => (basic? (cs.length + 1) cs).map fun (s, cs) => (String.ofList s, cs)
  | '\'' :: cs => (literal? cs).map fun (s, cs) => (String.ofList s, cs)
  | cs =>
    if cs.takeWhile isBareKeyChar = [] then none
    else some (String.ofList (cs.takeWhile isBareKeyChar), cs.dropWhile isBareKeyChar)

/-- The parts of a key between dots: those before the last, the last one, and the rest after
blanks. -/
def keyParts? : (fuel : Nat) → List Char → Option (List String × String × List Char)
  | 0, _ => none
  | fuel + 1, cs =>
    (keyPart? cs).bind fun (part, cs) =>
      match skipSpaces cs with
      | '.' :: cs =>
        (keyParts? fuel (skipSpaces cs)).map fun (path, last, cs) => (part :: path, last, cs)
      | cs => some ([], part, cs)

/-- How many parts a key may have, and how deep the arrays and tables of a value may nest. -/
def depthLimit : Nat := 80

/-- A key: its parts before the last, the last part, and the rest after blanks. -/
def key? (cs : List Char) : Option (List String × String × List Char) :=
  (keyParts? (cs.length + 1) cs).filter fun (path, _) => path.length < depthLimit

end Chronomap.Toml
