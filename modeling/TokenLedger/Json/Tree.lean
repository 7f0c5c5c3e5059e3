import TokenLedger.Json.Numeral

/-! Documents as they are written: members keep their order and may repeat, and numbers keep their
spelling. Characters are read one after another by a machine whose mode says what has begun. Reading
never fails; where a text is no document, a `fault` stands and nothing after it is read. -/
namespace TokenLedger
namespace Json

inductive Token
  | openObject | closeObject | openArray | closeArray | comma | colon
  | null
  | bool (b : Bool)
  | number (n : Numeral)
  /-- None where an escape stands for half a character. -/
  | string (s : Option String)
  | junk
  deriving DecidableEq

/-- A string while it is read. -/
structure Scanned where
  /-- The characters, last first. -/
  chars : List Char
  /-- No half of a character has lost its other half. -/
  sound : Bool
  /-- A first half that waits for its second. -/
  half : Option Nat
  deriving DecidableEq

namespace Scanned

def empty : Scanned := ⟨[], true, none⟩

def put (s : Scanned) (c : Char) : Scanned := ⟨c :: s.chars, s.sound && s.half.isNone, none⟩

def isFirstHalf (u : Nat) : Bool := 0xd800 ≤ u && u < 0xdc00
def isSecondHalf (u : Nat) : Bool := 0xdc00 ≤ u && u < 0xe000

def putUnit (s : Scanned) (u : Nat) : Scanned :=
  match s.half with
  | some h =>
    if isSecondHalf u then
      ⟨Char.ofNat (0x10000 + (h - 0xd800) * 0x400 + (u - 0xdc00)) :: s.chars, s.sound, none⟩
    else ⟨s.chars, false, none⟩
  | none =>
    if isFirstHalf u then ⟨s.chars, s.sound, some u⟩
    else if isSecondHalf u then ⟨s.chars, false, none⟩
    else s.put (Char.ofNat u)

def text? (s : Scanned) : Option String :=
  if s.sound ∧ s.half = none then some (String.ofList s.chars.reverse) else none

end Scanned

/-- What has begun. Characters of a word or a numeral are held last first. -/
inductive Mode
  | between
  | word (letters : List Char)
  | numeral (chars : List Char)
  | text (s : Scanned)
  | escape (s : Scanned)
  /-- Hexadecimal digits: how many are still to come, and the number so far. -/
  | hex (s : Scanned) (left value : Nat)
  deriving DecidableEq

structure Lexer where
  mode : Mode
  /-- The tokens, last first. -/
  tokens : List Token
  deriving DecidableEq

namespace Lexer

def isSpace (c : Char) : Bool := c = ' ' || c = '\t' || c = '\n' || c = '\r'

def isNumeralChar (c : Char) : Bool :=
  c.isDigit || c = '-' || c = '+' || c = '.' || c = 'e' || c = 'E'

def wordToken (letters : List Char) : Token :=
  if letters = ['n', 'u', 'l', 'l'] then .null
  else if letters = ['t', 'r', 'u', 'e'] then .bool true
  else if letters = ['f', 'a', 'l', 's', 'e'] then .bool false
  else .junk

def numeralToken (cs : List Char) : Token :=
  match Numeral.read? cs with
  | some n => .number n
  | none => .junk

def mark? (c : Char) : Option Token :=
  if c = '\x7b' then some .openObject
  else if c = '\x7d' then some .closeObject
  else if c = '[' then some .openArray
  else if c = ']' then some .closeArray
  else if c = ',' then some .comma
  else if c = ':' then some .colon
  else none

def start (tokens : List Token) (c : Char) : Lexer :=
  match mark? c with
  | some t => ⟨.between, t :: tokens⟩
  | none =>
    if isSpace c then ⟨.between, tokens⟩
    else if c = '"' then ⟨.text .empty, tokens⟩
    else if c.isDigit ∨ c = '-' then ⟨.numeral [c], tokens⟩
    else if c.isAlpha then ⟨.word [c], tokens⟩
    else ⟨.between, .junk :: tokens⟩

def escaped? (c : Char) : Option Char :=
  if c = '"' ∨ c = '\\' ∨ c = '/' then some c
  else if c = 'b' then some '\x08'
  else if c = 'f' then some '\x0c'
  else if c = 'n' then some '\n'
  else if c = 'r' then some '\r'
  else if c = 't' then some '\t'
  else none

def hexValue? (c : Char) : Option Nat :=
  if c.isDigit then some (c.toNat - '0'.toNat)
  else if 'a' ≤ c ∧ c ≤ 'f' then some (c.toNat - 'a'.toNat + 10)
  else if 'A' ≤ c ∧ c ≤ 'F' then some (c.toNat - 'A'.toNat + 10)
  else none

def push (l : Lexer) (c : Char) : Lexer :=
  match l.mode with
  | .between => start l.tokens c
  | .word letters =>
    if c.isAlpha then ⟨.word (c :: letters), l.tokens⟩
    else start (wordToken letters.reverse :: l.tokens) c
  | .numeral chars =>
    if isNumeralChar c then ⟨.numeral (c :: chars), l.tokens⟩
    else start (numeralToken chars.reverse :: l.tokens) c
  | .text s =>
    if c = '"' then ⟨.between, .string s.text? :: l.tokens⟩
    else if c = '\\' then ⟨.escape s, l.tokens⟩
    else if c.toNat < 0x20 then ⟨.between, .junk :: l.tokens⟩
    else ⟨.text (s.put c), l.tokens⟩
  | .escape s =>
    if c = 'u' then ⟨.hex s 4 0, l.tokens⟩
    else match escaped? c with
      | some d => ⟨.text (s.put d), l.tokens⟩
      | none => ⟨.between, .junk :: l.tokens⟩
  | .hex s left value =>
    match hexValue? c with
    | some d =>
      if left ≤ 1 then ⟨.text (s.putUnit (16 * value + d)), l.tokens⟩
      else ⟨.hex s (left - 1) (16 * value + d), l.tokens⟩
    | none => ⟨.between, .junk :: l.tokens⟩

def finish (l : Lexer) : List Token :=
  match l.mode with
  | .between => l.tokens
  | .word letters => wordToken letters.reverse :: l.tokens
  | .numeral chars => numeralToken chars.reverse :: l.tokens
  | .text _ | .escape _ | .hex _ _ _ => .junk :: l.tokens

end Lexer

def tokens (cs : List Char) : List Token := (cs.foldl Lexer.push ⟨.between, []⟩).finish.reverse

inductive Tree
  | null
  | bool (b : Bool)
  | number (n : Numeral)
  | string (s : Option String)
  | array (items : List Tree)
  | object (members : List (Option String × Tree))
  | fault

/-- A container that is still open, with what has been read of it, last first. -/
inductive Frame
  | items (done : List Tree)
  /-- The value of the key is being read. -/
  | member (done : List (Option String × Tree)) (key : Option String)

/-- What may come next, inside the open containers. -/
inductive Reader
  | value (outer : List Frame)
  | firstItem (outer : List Frame)
  | firstKey (outer : List Frame)
  | key (done : List (Option String × Tree)) (outer : List Frame)
  | colon (done : List (Option String × Tree)) (key : Option String) (outer : List Frame)
  | after (tree : Tree) (outer : List Frame)
  | stopped (tree : Tree)

/-- The outcome of reading: the document, and whether the text is that document and no more. -/
structure Reading where
  tree : Tree
  complete : Bool

namespace Reader

/-- The document around a place, each container closed after it. -/
def close : Tree → List Frame → Tree
  | t, [] => t
  | t, .items done :: outer => close (.array (t :: done).reverse) outer
  | t, .member done k :: outer => close (.object ((k, t) :: done).reverse) outer

def brokenObject (done : List (Option String × Tree)) : Tree :=
  .object ((none, .fault) :: done).reverse

def start (outer : List Frame) : Token → Reader
  | .null => .after .null outer
  | .bool b => .after (.bool b) outer
  | .number n => .after (.number n) outer
  | .string s => .after (.string s) outer
  | .openArray => .firstItem outer
  | .openObject => .firstKey outer
  | _ => .stopped (close .fault outer)

def push : Reader → Token → Reader
  | .value outer, t => start outer t
  | .firstItem outer, .closeArray => .after (.array []) outer
  | .firstItem outer, t => start (.items [] :: outer) t
  | .firstKey outer, .closeObject => .after (.object []) outer
  | .firstKey outer, .string k => .colon [] k outer
  | .firstKey outer, _ => .stopped (close (brokenObject []) outer)
  | .key done outer, .string k => .colon done k outer
  | .key done outer, _ => .stopped (close (brokenObject done) outer)
  | .colon done k outer, .colon => .value (.member done k :: outer)
  | .colon done _ outer, _ => .stopped (close (brokenObject done) outer)
  | .after t (.items done :: outer), .comma => .value (.items (t :: done) :: outer)
  | .after t (.items done :: outer), .closeArray => .after (.array (t :: done).reverse) outer
  | .after t (.items done :: outer), _ => .stopped (close .fault (.items (t :: done) :: outer))
  | .after t (.member done k :: outer), .comma => .key ((k, t) :: done) outer
  | .after t (.member done k :: outer), .closeObject =>
    .after (.object ((k, t) :: done).reverse) outer
  | .after t (.member done k :: outer), _ =>
    .stopped (close (brokenObject ((k, t) :: done)) outer)
  | .after t [], _ => .stopped t
  | .stopped t, _ => .stopped t

def finish : Reader → Reading
  | .after t [] => ⟨t, true⟩
  | .stopped t => ⟨t, false⟩
  | .value outer => ⟨close .fault outer, false⟩
  | .firstItem outer => ⟨close (.array [.fault]) outer, false⟩
  | .firstKey outer => ⟨close (brokenObject []) outer, false⟩
  | .key done outer | .colon done _ outer => ⟨close (brokenObject done) outer, false⟩
  | .after t (.items done :: outer) => ⟨close .fault (.items (t :: done) :: outer), false⟩
  | .after t (.member done k :: outer) => ⟨close (brokenObject ((k, t) :: done)) outer, false⟩

end Reader

def readList (cs : List Char) : Reading := ((tokens cs).foldl Reader.push (.value [])).finish

def read (s : String) : Reading := readList s.toList
end Json
end TokenLedger
