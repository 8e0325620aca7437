import Chronomap.Toml.Text
import Chronomap.Toml.Scalar
import Chronomap.Toml.Table

/-!
# Documents of TOML

A document is read line by line into the table of its entries.
-/

namespace Chronomap.Toml

/-! ## Values -/

/-- What follows the bracket that opens an array; an item may be followed by a comma or by the
end. -/
def items? (value? : List Char → Option (Value × List Char)) :
    (fuel : Nat) → List Char → Option (List Value × List Char)
  | 0, _ => none
  | fuel + 1, cs =>
    (skipGaps? false cs).bind fun cs =>
      match cs with
      | ']' :: cs => some ([], cs)
      | cs =>
        (value? cs).bind fun (v, cs) =>
          (skipGaps? false cs).bind fun cs =>
            match cs with
            | ',' :: cs => (items? value? fuel cs).map fun (vs, cs) => (v :: vs, cs)
            | ']' :: cs => some ([v], cs)
            | _ => none

/-- A key, the sign of equality and a value; `skip?` leaves out what may stand on either side of
the sign. -/
def keyValue? (skip? : List Char → Option (List Char))
    (value? : List Char → Option (Value × List Char)) (cs : List Char) :
    Option ((List String × String × Value) × List Char) :=
  (key? cs).bind fun (path, key, cs) =>
    (skip? cs).bind fun cs =>
      match cs with
      | '=' :: cs =>
        (skip? cs).bind fun cs => (value? cs).map fun (v, cs) => ((path, key, v), cs)
      | _ => none

/-- What follows the brace that opens a table, added to the entries read so far. -/
def braceEntries? (value? : List Char → Option (Value × List Char)) :
    (fuel : Nat) → Entries → List Char → Option (Entries × List Char)
  | 0, _, _ => none
  | fuel + 1, entries, cs =>
    (skipGaps? false cs).bind fun cs =>
      match cs with
      | '}' :: cs => some (entries, cs)
      | cs =>
        (keyValue? (skipGaps? false) value? cs).bind fun ((path, key, v), cs) =>
          (entries.add? path key v .braces).bind fun entries =>
            (skipGaps? false cs).bind fun cs =>
              match cs with
              | ',' :: cs => braceEntries? value? fuel entries cs
              | '}' :: cs => some (entries, cs)
              | _ => none

/-- A value that nests at most `depth` arrays and tables. -/
def value? : (depth : Nat) → List Char → Option (Value × List Char)
  | depth, cs =>
    match cs with
    | '[' :: cs =>
      match depth with
      | 0 => none
      | depth + 1 =>
        (items? (value? depth) (cs.length + 1) cs).map fun (vs, cs) => (.array vs, cs)
    | '{' :: cs =>
      match depth with
      | 0 => none
      | depth + 1 =>
        (braceEntries? (value? depth) (cs.length + 1) [] cs).map fun (es, cs) =>
          (.table .braces es, cs)
    | cs =>
      match string? cs with
      | some (s, cs) => some (.text (String.ofList s), cs)
      | none =>
        let (word, rest) := scalarText cs
        if isScalar word then some (.scalar, rest) else none

/-! ## Lines -/

def header? (cs : List Char) : Option (List String × String × List Char) :=
  (key? (skipSpaces cs)).bind fun (path, key, cs) =>
    match cs with
    | ']' :: cs => some (path, key, cs)
    | _ => none

/-- The entries of a document, added to those read so far; `header` is the table they belong to,
and `fuel` is as long as the text. -/
def lines? : (fuel : Nat) → (header : List String) → Entries → List Char → Option Entries
  | 0, _, _, _ => none
  | fuel + 1, header, entries, cs =>
    match skipSpaces cs with
    | [] => some entries
    | '[' :: '[' :: cs =>
      (header? cs).bind fun (path, key, cs) =>
        match cs with
        | ']' :: cs =>
          (entries.openNext? path key).bind fun entries =>
            (lineEnd? cs).bind fun cs => lines? fuel (path ++ [key]) entries cs
        | _ => none
    | '[' :: cs =>
      (header? cs).bind fun (path, key, cs) =>
        (entries.openTable? path key).bind fun entries =>
          (lineEnd? cs).bind fun cs => lines? fuel (path ++ [key]) entries cs
    | c :: cs =>
      if c = '#' ∨ c = '\n' ∨ c = '\r' then
        (lineEnd? (c :: cs)).bind fun cs => lines? fuel header entries cs
      else
        (keyValue? (some ∘ skipSpaces) (value? depthLimit) (c :: cs)).bind
          fun ((path, key, v), cs) =>
          (entries.addUnder? header path key v).bind fun entries =>
            (lineEnd? cs).bind fun cs => lines? fuel header entries cs

/-- The entries of the document that a text spells; a byte order mark before it is left out. -/
def parse? (text : String) : Option Entries :=
  let cs := text.toList
  let cs := if cs.head? = some '\uFEFF' then cs.drop 1 else cs
  lines? (cs.length + 1) [] [] cs

end Chronomap.Toml
