import Headroom.Toml.Reader

/-!
The four kinds of strings: with or without escapes, in one line or over several. A line break in a
string is kept as a single character however it is written, except right after the opening
quotes.
-/

namespace Headroom.Toml

def hexDigit? (c : Char) : Option Nat :=
  if c.isDigit then some (c.toNat - '0'.toNat)
  else if 'a' ≤ c ∧ c ≤ 'f' then some (c.toNat - 'a'.toNat + 10)
  else if 'A' ≤ c ∧ c ≤ 'F' then some (c.toNat - 'A'.toNat + 10)
  else none

/-- The character of a code point in digits of base 16; a surrogate is none. -/
def codePoint? (digits : List Char) : Option Char := do
  let n := (← digits.mapM hexDigit?).foldl (fun n d => 16 * n + d) 0
  if n.isValidChar then some (Char.ofNat n) else none

/-- The character of an escape that is a single letter. -/
def escaped? : Char → Option Char
  | 'b' => some '\x08'
  | 'f' => some '\x0c'
  | 'n' => some '\n'
  | 'r' => some '\r'
  | 't' => some '\t'
  | '"' => some '"'
  | '\\' => some '\\'
  | _ => none

/-- The character of an escape whose backslash has been read. -/
def escape : Reader Char
  | 'u' :: a :: b :: c :: d :: rest => do return (← codePoint? [a, b, c, d], rest)
  | 'U' :: a :: b :: c :: d :: e :: f :: g :: h :: rest => do
    return (← codePoint? [a, b, c, d, e, f, g, h], rest)
  | c :: rest => do return (← escaped? c, rest)
  | [] => none

/-- A backslash that ends a line, with all blanks and line breaks after it. -/
def lineContinuation : Reader Unit := do
  char '\\'
  blanks
  newline
  let blank : Reader Unit := do discard (oneOf [' ', '\t'])
  discard (many (blank <|> newline) (← get).length)

/-- Runs of characters that stand for themselves, escapes and other parts, joined. -/
def joined (parts : Reader (List Char)) : Reader (List Char) := do
  return (← many parts (← get).length).flatten

def plain (p : Char → Bool) : Reader (List Char) := do
  let cs ← run p
  check !cs.isEmpty
  return cs

def basicString : Reader (List Char) := do
  char '"'
  let cs ← joined (plain (fun c => isText c && c != '"' && c != '\\') <|>
    (do char '\\'; return [← escape]))
  char '"'
  return cs

def literalString : Reader (List Char) := do
  char '\''
  let cs ← run fun c => isText c && c != '\''
  char '\''
  return cs

/-- The quotes that end a string over several lines: three that close it, after up to two that
belong to it. -/
def closingQuotes (quote : Char) : Reader (List Char) := do
  let quotes ← run (· == quote)
  check (3 ≤ quotes.length && quotes.length ≤ 5)
  return quotes.drop 3

/-- One or two quotes inside a string over several lines. -/
def innerQuotes (quote : Char) : Reader (List Char) := do
  let quotes ← run (· == quote)
  check (1 ≤ quotes.length && quotes.length ≤ 2)
  return quotes

def innerBreak : Reader (List Char) := do
  newline
  return ['\n']

/-- A string over several lines whose characters pass a test, between triple quotes. -/
def longString (quote : Char) (p : Char → Bool) (part : Reader (List Char)) :
    Reader (List Char) := do
  exactly [quote, quote, quote]
  discard (optional? newline)
  let cs ← joined (plain (fun c => isText c && c != quote && p c) <|> part <|> innerBreak <|>
    innerQuotes quote)
  return cs ++ (← closingQuotes quote)

def text : Reader String := do
  let cs ← longString '"' (· != '\\')
      ((do lineContinuation; return []) <|> (do char '\\'; return [← escape])) <|>
    longString '\'' (fun _ => true) failure <|> basicString <|> literalString
  return .ofList cs

end Headroom.Toml
