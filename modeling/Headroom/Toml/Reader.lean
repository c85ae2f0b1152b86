/-!
Readers of a text from its front. A reader that fails has read nothing, so another can be tried in
its place.
-/

namespace Headroom.Toml

/-- A reader of a value at the front of a text. -/
abbrev Reader := StateT (List Char) Option

/-- The first character that is still to be read. -/
def peek? : Reader (Option Char) := fun text => some (text.head?, text)

def char (c : Char) : Reader Unit
  | d :: rest => if c = d then some ((), rest) else none
  | [] => none

def exactly : List Char → Reader Unit
  | [] => return ()
  | c :: rest => do char c; exactly rest

def oneOf (accepted : List Char) : Reader Char
  | c :: rest => if c ∈ accepted then some (c, rest) else none
  | [] => none

/-- The characters up to the first that fails a test. -/
def run (p : Char → Bool) : Reader (List Char) :=
  fun text => some (text.takeWhile p, text.dropWhile p)

def optional? {α : Type} (reader : Reader α) : Reader (Option α) :=
  (some <$> reader) <|> pure none

def check (condition : Bool) : Reader Unit := if condition then pure () else failure

/-- As many values as can be read one after another, at most so many. -/
def many {α : Type} (reader : Reader α) : Nat → Reader (List α)
  | 0 => return []
  | count + 1 => do
    match ← optional? reader with
    | none => return []
    | some a => return a :: (← many reader count)

/-- Values between which separators stand. A separator that no value follows is not read. -/
def separated {α : Type} (separator : Reader Unit) (reader : Reader α) : Reader (List α) := do
  match ← optional? reader with
  | none => return []
  | some a => return a :: (← many (do separator; reader) (← get).length)

def isBlankInLine (c : Char) : Bool := c == ' ' || c == '\t'

def blanks : Reader Unit := do discard (run isBlankInLine)

def newline : Reader Unit
  | '\n' :: rest | '\r' :: '\n' :: rest => some ((), rest)
  | _ => none

def atEnd : Reader Unit := fun text => if text.isEmpty then some ((), text) else none

/-- A character that is no control character; the tab is none. -/
def isText (c : Char) : Bool := c == '\t' || (0x20 ≤ c.toNat && c != '\x7f')

def comment : Reader Unit := do
  char '#'
  discard (run isText)

/-- What may stand after the last part of a line, and the end of the line. -/
def lineEnd : Reader Unit := do
  blanks
  discard (optional? comment)
  newline <|> atEnd

def space : Reader Unit := do
  let blank : Reader Unit := do discard (oneOf [' ', '\t'])
  discard (many (blank <|> newline <|> comment) (← get).length)

end Headroom.Toml
