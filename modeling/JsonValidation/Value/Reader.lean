import JsonValidation.Value.Basic
import JsonValidation.Number.Reader

/-!
# Reading JSON text

A text is read in two passes, each one step of a machine per character or token. The scanner cuts
the text into tokens; the builder puts the tokens together, keeping the containers that are still
open on a stack. Objects keep the order of their entries; of two entries with one key the first
gives the place and the last the value.

* `Token.scan?`: the tokens of a text;
* `Value.ofText?`: the value a text spells.
-/

namespace JsonValidation

/-- The parts of a JSON text. A word is a number or one of the three named values. -/
inductive Token where
  | openArray
  | closeArray
  | openObject
  | closeObject
  | comma
  | colon
  | word (chars : List Char)
  | string (s : String)

namespace Token

/-! ## Strings -/

/-- The number that four hexadecimal digits spell. -/
def hex? (a b c d : Char) : Option Nat :=
  [a, b, c, d].foldlM (fun n digit =>
    if digit.isDigit then some (16 * n + (digit.toNat - '0'.toNat))
    else if 'a' ≤ digit && digit ≤ 'f' then some (16 * n + 10 + (digit.toNat - 'a'.toNat))
    else if 'A' ≤ digit && digit ≤ 'F' then some (16 * n + 10 + (digit.toNat - 'A'.toNat))
    else none) 0

/-- The character that two halves of a surrogate pair stand for. -/
def surrogatePair (high low : Nat) : Char :=
  Char.ofNat (0x10000 + (high - 0xd800) * 0x400 + (low - 0xdc00))

/-- The character of a one-letter escape. -/
def letterEscape? (c : Char) : Option Char :=
  if c = '"' || c = '\\' || c = '/' then some c
  else if c = 'n' then some '\n'
  else if c = 'r' then some '\r'
  else if c = 't' then some '\t'
  else if c = 'b' then some '\x08'
  else if c = 'f' then some '\x0c'
  else none

/-- The characters that the text between two quotes stands for, after the first half of a surrogate
pair if one is `pending`. Halves have to come in pairs, and control characters have to be escaped.
-/
def unescape? : Option Nat → List Char → Option (List Char)
  | none, [] => some []
  | pending, '\\' :: 'u' :: a :: b :: c :: d :: rest => do
    let code ← hex? a b c d
    let isLow := 0xdc00 ≤ code && code < 0xe000
    match pending with
    | some high => if isLow then (unescape? none rest).map (surrogatePair high code :: ·) else none
    | none =>
      if isLow then none
      else if 0xd800 ≤ code && code < 0xdc00 then unescape? (some code) rest
      else (unescape? none rest).map (Char.ofNat code :: ·)
  | none, '\\' :: c :: rest => do
    let escaped ← letterEscape? c
    (unescape? none rest).map (escaped :: ·)
  | none, c :: rest =>
    if c.toNat < 0x20 || c = '\\' then none else (unescape? none rest).map (c :: ·)
  | some _, _ => none

/-! ## The scanner -/

/-- Where the scanner stands: between tokens, inside a word, inside a string, or after a backslash
inside a string. Characters of the token being read come newest first. -/
inductive Mode where
  | between
  | inWord (chars : List Char)
  | inString (chars : List Char)
  | afterBackslash (chars : List Char)

/-- The scanner: its mode and the tokens read so far, newest first. -/
structure Scanner where
  mode : Mode
  tokens : List Token

/-- The token of a character that is a token by itself. -/
def punctuation? (c : Char) : Option Token :=
  if c = '[' then some .openArray
  else if c = ']' then some .closeArray
  else if c = '\x7b' then some .openObject
  else if c = '\x7d' then some .closeObject
  else if c = ',' then some .comma
  else if c = ':' then some .colon
  else none

/-- Whether a character is blank between tokens. -/
def isBlank (c : Char) : Bool := c = ' ' || c = '\n' || c = '\r' || c = '\t'

/-- Starts on a character between tokens. -/
def Scanner.start (tokens : List Token) (c : Char) : Scanner :=
  if isBlank c then ⟨.between, tokens⟩
  else if c = '"' then ⟨.inString [], tokens⟩
  else match punctuation? c with
    | some token => ⟨.between, token :: tokens⟩
    | none => ⟨.inWord [c], tokens⟩

/-- Reads one character. -/
def Scanner.step (s : Scanner) (c : Char) : Option Scanner :=
  match s.mode with
  | .between => some (start s.tokens c)
  | .inWord chars =>
    if isBlank c || c = '"' || (punctuation? c).isSome then
      some (start (.word chars.reverse :: s.tokens) c)
    else some ⟨.inWord (c :: chars), s.tokens⟩
  | .inString chars =>
    if c = '"' then
      (unescape? none chars.reverse).map fun text =>
        ⟨.between, .string (String.ofList text) :: s.tokens⟩
    else if c = '\\' then some ⟨.afterBackslash (c :: chars), s.tokens⟩
    else some ⟨.inString (c :: chars), s.tokens⟩
  | .afterBackslash chars => some ⟨.inString (c :: chars), s.tokens⟩

/-- The tokens of a text. -/
def scan? (chars : List Char) : Option (List Token) :=
  match chars.foldlM Scanner.step ⟨.between, []⟩ with
  | some ⟨.between, tokens⟩ => some tokens.reverse
  | some ⟨.inWord chars, tokens⟩ => some (.word chars.reverse :: tokens).reverse
  | _ => none

end Token

namespace Value

/-! ## The builder -/

/-- A container that is still open: the parts read so far, newest first, and for an object the key
whose value is being read. -/
inductive Frame where
  | array (items : List Value)
  | object (entries : List (String × Value)) (key : String)

/-- What the builder waits for: a value, the first element or the end of an array, a key (or, right
after the opening brace, the end of an object), the colon after a key, or what follows a value. -/
inductive Builder where
  | value (stack : List Frame)
  | firstItem (stack : List Frame)
  | key (entries : List (String × Value)) (mayClose : Bool) (stack : List Frame)
  | colon (entries : List (String × Value)) (key : String) (stack : List Frame)
  | complete (v : Value) (stack : List Frame)

/-- Adds an entry to entries that come newest first, in the place of one with the same key. -/
def addEntry (key : String) (v : Value) (entries : List (String × Value)) :
    List (String × Value) :=
  if entries.any (·.1 == key) then entries.map fun e => if e.1 == key then (key, v) else e
  else (key, v) :: entries

/-- The value of a word. -/
def ofWord? (chars : List Char) : Option Value :=
  if chars = "null".toList then some .null
  else if chars = "true".toList then some (.boolean true)
  else if chars = "false".toList then some (.boolean false)
  else (Number.ofChars? chars).map .number

/-- Reads a token where a value has to start. -/
def Builder.start? (stack : List Frame) : Token → Option Builder
  | .openArray => some (.firstItem stack)
  | .openObject => some (.key [] true stack)
  | .word chars => (ofWord? chars).map (.complete · stack)
  | .string s => some (.complete (.string s) stack)
  | _ => none

/-- Reads one token. -/
def Builder.step : Builder → Token → Option Builder
  | .value stack, token => start? stack token
  | .firstItem stack, .closeArray => some (.complete (.array []) stack)
  | .firstItem stack, token => start? (.array [] :: stack) token
  | .key entries _ stack, .string s => some (.colon entries s stack)
  | .key _ true stack, .closeObject => some (.complete (.object []) stack)
  | .colon entries name stack, .colon => some (.value (.object entries name :: stack))
  | .complete v (.array items :: stack), .comma => some (.value (.array (v :: items) :: stack))
  | .complete v (.array items :: stack), .closeArray =>
    some (.complete (.array (v :: items).reverse) stack)
  | .complete v (.object entries name :: stack), .comma =>
    some (.key (addEntry name v entries) false stack)
  | .complete v (.object entries name :: stack), .closeObject =>
    some (.complete (.object (addEntry name v entries).reverse) stack)
  | _, _ => none

/-- The value that a text spells. -/
def ofText? (text : String) : Option Value := do
  let tokens ← Token.scan? text.toList
  match ← tokens.foldlM Builder.step (.value []) with
  | .complete v [] => some v
  | _ => none

end Value

end JsonValidation
