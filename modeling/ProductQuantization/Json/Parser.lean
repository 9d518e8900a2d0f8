import ProductQuantization.Json.Basic

/-!
# Reading JSON

The grammar is the strict one: no comments, no trailing commas, no leading zeros, no control
characters inside texts, and nothing but blanks around the value.

Every reader takes the characters that are left and gives back what it read together with the
characters after it.  The fuel bounds the nesting of calls; `Json.parse?` starts with one unit more
than there are characters, and each call consumes a character.
-/

set_option autoImplicit false

namespace ProductQuantization
namespace Json
namespace Parser

/-- The blanks that may stand between tokens. -/
def isBlank (c : Char) : Bool := c = ' ' || c = '\t' || c = '\n' || c = '\r'

/-- Drop blanks. -/
def skipBlanks (cs : List Char) : List Char := cs.dropWhile isBlank

/-- The value of a hexadecimal digit of either case. -/
def hexDigit? (c : Char) : Option Nat :=
  if '0' ≤ c ∧ c ≤ '9' then some (c.toNat - 48)
  else if 'a' ≤ c ∧ c ≤ 'f' then some (c.toNat - 87)
  else if 'A' ≤ c ∧ c ≤ 'F' then some (c.toNat - 55)
  else none

/-- Four hexadecimal digits. -/
def hexUnit? (a b c d : Char) : Option Nat := do
  let a ← hexDigit? a
  let b ← hexDigit? b
  let c ← hexDigit? c
  let d ← hexDigit? d
  some (((a * 16 + b) * 16 + c) * 16 + d)

/-- The character that an escape letter stands for. -/
def escape? : Char → Option Char
  | '"' => some '"'
  | '\\' => some '\\'
  | '/' => some '/'
  | 'b' => some '\x08'
  | 'f' => some '\x0c'
  | 'n' => some '\n'
  | 'r' => some '\r'
  | 't' => some '\t'
  | _ => none

/-- A code unit that opens a surrogate pair. -/
def isHighSurrogate (u : Nat) : Bool := 0xD800 ≤ u && u < 0xDC00

/-- A code unit that closes a surrogate pair. -/
def isLowSurrogate (u : Nat) : Bool := 0xDC00 ≤ u && u < 0xE000

/-- The character that a surrogate pair stands for. -/
def joinSurrogates (high low : Nat) : Char :=
  Char.ofNat (0x10000 + (high - 0xD800) * 0x400 + (low - 0xDC00))

/-- The rest of a text after its opening quote.  `read` holds the characters so far, last first;
`whole` says that no stray surrogate half was met; `high` is the half that the last escape left
open. -/
def textFrom (read : List Char) (whole : Bool) (high : Option Nat) :
    List Char → Option (Text × List Char)
  | [] => none
  | '"' :: rest =>
    some (if whole && high.isNone then some (String.ofList read.reverse) else none, rest)
  | '\\' :: 'u' :: a :: b :: c :: d :: rest =>
    match hexUnit? a b c d with
    | none => none
    | some u =>
      if isLowSurrogate u then
        match high with
        | some h => textFrom (joinSurrogates h u :: read) whole none rest
        | none => textFrom read false none rest
      else if isHighSurrogate u then textFrom read (whole && high.isNone) (some u) rest
      else textFrom (Char.ofNat u :: read) (whole && high.isNone) none rest
  | '\\' :: c :: rest =>
    match escape? c with
    | some c => textFrom (c :: read) (whole && high.isNone) none rest
    | none => none
  | c :: rest =>
    if c.toNat < 0x20 then none else textFrom (c :: read) (whole && high.isNone) none rest

/-- The exponent of a number, if one follows. -/
def exponentFrom : List Char → Option (Option Int × List Char)
  | c :: rest =>
    if c = 'e' ∨ c = 'E' then
      let (negative, rest) := match rest with
        | '-' :: rest => (true, rest)
        | '+' :: rest => (false, rest)
        | rest => (false, rest)
      match takeDigits rest with
      | ([], _) => none
      | (ds, rest) =>
        some (some (if negative then -(natOfDigits ds : Int) else natOfDigits ds), rest)
    else some (none, c :: rest)
  | [] => some (none, [])

/-- The digits after the point of a number, if a point follows. -/
def fractionFrom : List Char → Option (List Digit × List Char)
  | '.' :: rest =>
    match takeDigits rest with
    | ([], _) => none
    | (ds, rest) => some (ds, rest)
  | rest => some ([], rest)

/-- A number without its sign.  A leading zero stands alone. -/
def numberFrom (negative : Bool) (cs : List Char) : Option (Number × List Char) := do
  match takeDigits cs with
  | ([], _) => none
  | (d :: ds, rest) =>
    if d = 0 ∧ ds ≠ [] then none
    let (fraction, rest) ← fractionFrom rest
    let (exponent, rest) ← exponentFrom rest
    some (⟨negative, d :: ds, fraction, exponent⟩, rest)

mutual

/-- A value, blanks in front of it allowed. -/
def value : Nat → List Char → Option (Json × List Char)
  | 0, _ => none
  | fuel + 1, cs =>
    match skipBlanks cs with
    | 'n' :: 'u' :: 'l' :: 'l' :: rest => some (.null, rest)
    | 't' :: 'r' :: 'u' :: 'e' :: rest => some (.bool true, rest)
    | 'f' :: 'a' :: 'l' :: 's' :: 'e' :: rest => some (.bool false, rest)
    | '"' :: rest => (textFrom [] true none rest).map fun (s, rest) => (.text s, rest)
    | '[' :: rest =>
      match skipBlanks rest with
      | ']' :: rest => some (.array [], rest)
      | rest => items fuel [] rest
    | '{' :: rest =>
      match skipBlanks rest with
      | '}' :: rest => some (.object [], rest)
      | rest => members fuel [] rest
    | '-' :: rest => (numberFrom true rest).map fun (n, rest) => (.number n, rest)
    | rest => (numberFrom false rest).map fun (n, rest) => (.number n, rest)

/-- The items of an array that has at least one more.  `read` holds the items so far, last
first. -/
def items : Nat → List Json → List Char → Option (Json × List Char)
  | 0, _, _ => none
  | fuel + 1, read, cs =>
    match value fuel cs with
    | none => none
    | some (v, rest) =>
      match skipBlanks rest with
      | ',' :: rest => items fuel (v :: read) rest
      | ']' :: rest => some (.array (v :: read).reverse, rest)
      | _ => none

/-- The members of an object that has at least one more. -/
def members : Nat → List (Text × Json) → List Char → Option (Json × List Char)
  | 0, _, _ => none
  | fuel + 1, read, cs =>
    match skipBlanks cs with
    | '"' :: rest =>
      match textFrom [] true none rest with
      | none => none
      | some (k, rest) =>
        match skipBlanks rest with
        | ':' :: rest =>
          match value fuel rest with
          | none => none
          | some (v, rest) =>
            match skipBlanks rest with
            | ',' :: rest => members fuel ((k, v) :: read) rest
            | '}' :: rest => some (.object ((k, v) :: read).reverse, rest)
            | _ => none
        | _ => none
    | _ => none

end

end Parser

/-- The value that a text spells, if it spells exactly one. -/
def parse? (text : String) : Option Json :=
  let cs := text.toList
  match Parser.value (cs.length + 1) cs with
  | some (v, rest) => if (Parser.skipBlanks rest).isEmpty then some v else none
  | none => none

end Json
end ProductQuantization
