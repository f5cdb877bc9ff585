import Dialogue.Json.Numeral

/-!
# Tokens of a document

The text of a document is cut into tokens: brackets, commas, colons, strings and bare words. Words
and numerals are taken together as *bare* runs, since neither can follow the other directly in a
document. `Json.tokens?` walks over the characters once; at each of them it is in one of the modes
of `Mode`.

A string keeps an escape such as `\u00e9` as a code unit until its end. There the units are
decoded, two surrogates to one character; a surrogate without its partner leaves the string
without a text, which matters only where the text is asked for.
-/

namespace Dialogue.Json

/-- A token of a document. -/
inductive Token where
  | openArray
  | closeArray
  | openObject
  | closeObject
  | comma
  | colon
  | null
  | bool (b : Bool)
  | number (n : Numeral)
  /-- A string with its text, if it has one. -/
  | string (text : Option String)
deriving Repr, DecidableEq

/-! ## Strings -/

/-- What stands between the quotes of a string: a character, or a code unit that was written in
hexadecimal. -/
inductive StringUnit where
  | char (c : Char)
  | code (n : Nat)
deriving Repr, DecidableEq

/-- Is `n` the first half of a character outside the basic plane? -/
def isHighSurrogate (n : Nat) : Bool := 0xD800 ≤ n && n < 0xDC00

/-- Is `n` the second half of a character outside the basic plane? -/
def isLowSurrogate (n : Nat) : Bool := 0xDC00 ≤ n && n < 0xE000

/-- The text of some units, if every surrogate has its partner. -/
def decode? : List StringUnit → Option (List Char)
  | [] => some []
  | .char c :: rest => (decode? rest).map (c :: ·)
  | .code hi :: .code lo :: rest =>
    if isHighSurrogate hi && isLowSurrogate lo then
      (decode? rest).map (Char.ofNat (0x10000 + (hi - 0xD800) * 0x400 + (lo - 0xDC00)) :: ·)
    else if isHighSurrogate hi || isLowSurrogate hi then none
    else (decode? (.code lo :: rest)).map (Char.ofNat hi :: ·)
  | .code n :: rest =>
    if isHighSurrogate n || isLowSurrogate n then none
    else (decode? rest).map (Char.ofNat n :: ·)

/-- What a backslash and `c` stand for. -/
def escaped? : Char → Option Char
  | '"' => some '"'
  | '\\' => some '\\'
  | '/' => some '/'
  | 'b' => some '\x08'
  | 'f' => some '\x0c'
  | 'n' => some '\n'
  | 'r' => some '\r'
  | 't' => some '\t'
  | _ => none

/-- The value of a hexadecimal digit. -/
def hexDigit? (c : Char) : Option Nat :=
  if '0' ≤ c ∧ c ≤ '9' then some (c.toNat - '0'.toNat)
  else if 'a' ≤ c ∧ c ≤ 'f' then some (c.toNat - 'a'.toNat + 10)
  else if 'A' ≤ c ∧ c ≤ 'F' then some (c.toNat - 'A'.toNat + 10)
  else none

/-! ## The walk over the characters -/

/-- Where the walk stands. What has been read of the current token is kept in reverse. -/
inductive Mode where
  /-- Between two tokens. -/
  | between
  /-- In a run of letters, digits, signs and points. -/
  | bare (run : List Char)
  /-- In a string. -/
  | quoted (units : List StringUnit)
  /-- In a string, behind a backslash. -/
  | escape (units : List StringUnit)
  /-- In a string, in an escape that still needs `missing + 1` hexadecimal digits. -/
  | hex (units : List StringUnit) (missing : Nat) (code : Nat)
deriving Repr, DecidableEq

/-- The white space of a document. -/
def isSpace (c : Char) : Bool := c == ' ' || c == '\t' || c == '\n' || c == '\r'

/-- May `c` stand in a word or a numeral? -/
def isBare (c : Char) : Bool := c.isAlphanum || c == '+' || c == '-' || c == '.'

/-- The token that a run of bare characters is. -/
def bareToken? (run : List Char) : Option Token :=
  if run = "null".toList then some .null
  else if run = "true".toList then some (.bool true)
  else if run = "false".toList then some (.bool false)
  else (Numeral.ofChars? run).map .number

/-- A character between tokens: the token that it is, if it is one, and the mode behind it. -/
def start? (c : Char) : Option (List Token × Mode) :=
  match c with
  | '[' => some ([.openArray], .between)
  | ']' => some ([.closeArray], .between)
  | '\x7b' => some ([.openObject], .between)
  | '\x7d' => some ([.closeObject], .between)
  | ',' => some ([.comma], .between)
  | ':' => some ([.colon], .between)
  | '"' => some ([], .quoted [])
  | c =>
    if isSpace c then some ([], .between)
    else if isBare c then some ([], .bare [c])
    else none

/-- A character in some mode: the tokens that it completes, and the mode behind it. -/
def Mode.step? : Mode → Char → Option (List Token × Mode)
  | between, c => start? c
  | bare run, c =>
    if isBare c then some ([], bare (c :: run))
    else do
      let token ← bareToken? run.reverse
      let (tokens, mode) ← start? c
      return (token :: tokens, mode)
  | quoted units, c =>
    if c == '"' then some ([.string ((decode? units.reverse).map String.ofList)], between)
    else if c == '\\' then some ([], escape units)
    else if c.toNat < 0x20 then none
    else some ([], quoted (.char c :: units))
  | escape units, c =>
    if c == 'u' then some ([], hex units 3 0)
    else (escaped? c).map fun d ↦ ([], quoted (.char d :: units))
  | hex units missing code, c => do
    let code := code * 16 + (← hexDigit? c)
    match missing with
    | 0 => return ([], quoted (.code code :: units))
    | missing + 1 => return ([], hex units missing code)

/-- The tokens that the end of the text completes. A text does not end inside a string. -/
def Mode.finish? : Mode → Option (List Token)
  | between => some []
  | bare run => (bareToken? run.reverse).map ([·])
  | _ => none

/-- The tokens of a text that is read in some mode. -/
def tokensFrom? : Mode → List Char → Option (List Token)
  | mode, [] => mode.finish?
  | mode, c :: s => do
    let (tokens, mode) ← mode.step? c
    return tokens ++ (← tokensFrom? mode s)

/-- The tokens of a text. -/
def tokens? (s : List Char) : Option (List Token) := tokensFrom? .between s

end Dialogue.Json
