import Headroom.Json.Number
import Headroom.Text.Bytes

/-!
The tokens of a JSON text. A token that is not well formed is the last one, since nothing after it
is looked at. Some texts are well formed for a reader that skips over them and not for one that
wants their value; a token says what each of the two finds.
-/

namespace Headroom.Json

/-- A token. A number without a value is too large; a string without one has half of a surrogate
pair in it. -/
inductive Token where
  | beginArray
  | endArray
  | beginObject
  | endObject
  | comma
  | colon
  | null
  | bool (b : Bool)
  | number (n : Option Number)
  | string (s : Option String)
  | brokenString (whenRead whenSkipped : Flaw)
  | broken (whenRead whenSkipped : Flaw)
  deriving DecidableEq

def isSpace (c : Char) : Bool := c == ' ' || c == '\n' || c == '\t' || c == '\r'

def hexValue? (c : Char) : Option Nat :=
  if c.isDigit then some (c.toNat - '0'.toNat)
  else if 'a' ≤ c ∧ c ≤ 'f' then some (c.toNat - 'a'.toNat + 10)
  else if 'A' ≤ c ∧ c ≤ 'F' then some (c.toNat - 'A'.toNat + 10)
  else none

def hexValue4? (a b c d : Char) : Option Nat := do
  return (((← hexValue? a) * 16 + (← hexValue? b)) * 16 + (← hexValue? c)) * 16 + (← hexValue? d)

/-- The character of an escape that is a single letter. -/
def escaped? : Char → Option Char
  | '"' => some '"'
  | '\\' => some '\\'
  | '/' => some '/'
  | 'b' => some '\x08'
  | 'f' => some '\x0c'
  | 'n' => some '\n'
  | 'r' => some '\r'
  | 't' => some '\t'
  | _ => none

/-- A part of a string: a character, or an escaped code unit, which may be half of a pair. -/
inductive CodeUnit where
  | char (c : Char)
  | code (n : Nat)

/-- Where the parts of a string end: before its closing quote, or before a flaw. -/
inductive StringEnd where
  | closed (rest : List Char)
  | flawed (flaw : Flaw)

/-- The parts of a string whose opening quote has been read. An escape by code point with fewer
than four bytes after it ends early. -/
def units : List Char → List CodeUnit × StringEnd
  | [] | ['\\'] => ([], .flawed .endsEarly)
  | '"' :: rest => ([], .closed rest)
  | '\\' :: 'u' :: a :: b :: c :: d :: rest =>
    match hexValue4? a b c d with
    | some n => let (us, e) := units rest; (.code n :: us, e)
    | none => ([], .flawed .malformed)
  | '\\' :: 'u' :: rest =>
    ([], .flawed (if Text.byteLength rest < 4 then .endsEarly else .malformed))
  | '\\' :: c :: rest =>
    match escaped? c with
    | some c => let (us, e) := units rest; (.char c :: us, e)
    | none => ([], .flawed .malformed)
  | c :: rest =>
    if c.toNat < 0x20 then ([], .flawed .malformed)
    else let (us, e) := units rest; (.char c :: us, e)

/-- A code unit that begins a pair. -/
def isLeading (n : Nat) : Bool := 0xD800 ≤ n && n ≤ 0xDBFF

/-- A code unit that ends a pair. -/
def isTrailing (n : Nat) : Bool := 0xDC00 ≤ n && n ≤ 0xDFFF

/-- The character that a pair of code units stands for. -/
def pairChar (leading trailing : Nat) : Char :=
  Char.ofNat (0x10000 + (leading - 0xD800) * 0x400 + (trailing - 0xDC00))

/-- The text of parts that follow a leading unit, if one is given. There is none when half of a
pair stands alone. -/
def textOf? : Option Nat → List CodeUnit → Option (List Char)
  | none, [] => some []
  | none, .char c :: rest => (textOf? none rest).map (c :: ·)
  | none, .code n :: rest =>
    if isLeading n then textOf? (some n) rest
    else if isTrailing n then none
    else (textOf? none rest).map (Char.ofNat n :: ·)
  | some n, .code m :: rest =>
    if isTrailing m then (textOf? none rest).map (pairChar n m :: ·) else none
  | some _, _ => none

/-- No half of a pair stands alone in the parts, whatever comes after them. -/
def isPaired (parts : List CodeUnit) : Bool :=
  (textOf? none parts).isSome || (textOf? none (parts ++ [.code 0xDC00])).isSome

/-- The string whose opening quote has been read, and what follows it. -/
def stringToken (text : List Char) : Token × List Char :=
  match units text with
  | (parts, .closed rest) => (.string ((textOf? none parts).map .ofList), rest)
  | (parts, .flawed flaw) =>
    (.brokenString (if isPaired parts then flaw else .malformed) flaw, [])

/-- Goes over the rest of a word that a token is spelt with. -/
def word (token : Token) : List Char → List Char → Token × List Char
  | [], rest => (token, rest)
  | _ :: _, [] => (.broken .endsEarly .endsEarly, [])
  | c :: cs, d :: rest =>
    if c = d then word token cs rest else (.broken .malformed .malformed, [])

/-- The token that begins with a character, and what follows it. -/
def tokenAt (c : Char) (rest : List Char) : Token × List Char :=
  match c with
  | '[' => (.beginArray, rest)
  | ']' => (.endArray, rest)
  | '\x7b' => (.beginObject, rest)
  | '\x7d' => (.endObject, rest)
  | ',' => (.comma, rest)
  | ':' => (.colon, rest)
  | 'n' => word .null "ull".toList rest
  | 't' => word (.bool true) "rue".toList rest
  | 'f' => word (.bool false) "alse".toList rest
  | '"' => stringToken rest
  | c =>
    if c = '-' ∨ c.isDigit then
      match Literal.scan (c :: rest) with
      | .ok (literal, rest) => (.number literal.number?, rest)
      | .error (whenRead, whenSkipped) => (.broken whenRead whenSkipped, [])
    else (.broken .malformed .malformed, [])

/-- The tokens of a text of at most so many characters. -/
def tokensWithin : Nat → List Char → List Token
  | 0, _ => []
  | _ + 1, [] => []
  | size + 1, c :: rest =>
    if isSpace c then tokensWithin size rest
    else
      let (token, rest) := tokenAt c rest
      token :: tokensWithin size rest

def tokens (text : List Char) : List Token := tokensWithin text.length text

end Headroom.Json
