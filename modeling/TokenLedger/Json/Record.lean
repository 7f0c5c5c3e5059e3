import Std.Data.ExtTreeMap
import TokenLedger.Amount
import TokenLedger.Json.Tree

/-! Values of documents, the one text each is written as, and records with known members. A value is
a document without faults: its strings are texts, its numbers are in range, and where it was read
from a document its members are in the order of their names, the last of several with one name
counting. -/
namespace TokenLedger
namespace Json

inductive Value
  | null
  | bool (b : Bool)
  | number (n : Number)
  | string (s : String)
  | array (items : List Value)
  | object (members : List (String × Value))

namespace Value

def natural (n : Nat) : Value := .number (.natural n)

/-- The member of an object; an object without it and any other value have none. -/
def get? : Value → String → Option Value
  | object members, name => members.lookup name
  | _, _ => none

def string? : Value → Option String
  | string s => some s
  | _ => none

/-- The members in the order of their names, the last of several with one name. -/
def sortMembers (members : List (String × Value)) : List (String × Value) :=
  (members.foldl (fun m kv => m.insert kv.1 kv.2) (∅ : Std.ExtTreeMap String Value)).toList

mutual

/-- The value of a document in which at most `depth` containers lie within each other. -/
def ofTree? : Nat → Tree → Option Value
  | _, .null => some .null
  | _, .bool b => some (.bool b)
  | _, .number n => n.value?.map .number
  | _, .string s => s.map .string
  | 0, .array _ => none
  | 0, .object _ => none
  | depth + 1, .array items => (ofItems? depth items).map .array
  | depth + 1, .object members => (ofMembers? depth members).map fun ms => .object (sortMembers ms)
  | _, .fault => none

def ofItems? (depth : Nat) : List Tree → Option (List Value)
  | [] => some []
  | t :: ts => (ofTree? depth t).bind fun v => (ofItems? depth ts).map (v :: ·)

def ofMembers? (depth : Nat) : List (Option String × Tree) → Option (List (String × Value))
  | [] => some []
  | (k, t) :: ms => k.bind fun k => (ofTree? depth t).bind fun v =>
      (ofMembers? depth ms).map ((k, v) :: ·)

end

/-- Quotes and backslashes follow a backslash; controls have names or numbers. -/
def escapeChar (c : Char) : List Char :=
  if c = '"' then ['\\', '"']
  else if c = '\\' then ['\\', '\\']
  else if c.toNat = 0x08 then ['\\', 'b']
  else if c.toNat = 0x09 then ['\\', 't']
  else if c.toNat = 0x0a then ['\\', 'n']
  else if c.toNat = 0x0c then ['\\', 'f']
  else if c.toNat = 0x0d then ['\\', 'r']
  else if c.toNat < 0x20 then
    ['\\', 'u', '0', '0', Nat.digitChar (c.toNat / 16), Nat.digitChar (c.toNat % 16)]
  else [c]

def stringChars (s : String) : List Char := '"' :: s.toList.flatMap escapeChar ++ ['"']

mutual

def chars : Value → List Char
  | .null => ['n', 'u', 'l', 'l']
  | .bool true => ['t', 'r', 'u', 'e']
  | .bool false => ['f', 'a', 'l', 's', 'e']
  | .number n => n.text
  | .string s => stringChars s
  | .array [] => ['[', ']']
  | .array (v :: vs) => '[' :: v.chars ++ itemChars vs
  | .object [] => ['\x7b', '\x7d']
  | .object ((k, v) :: ms) => '\x7b' :: stringChars k ++ ':' :: v.chars ++ memberChars ms

def itemChars : List Value → List Char
  | [] => [']']
  | v :: vs => ',' :: v.chars ++ itemChars vs

def memberChars : List (String × Value) → List Char
  | [] => ['\x7d']
  | (k, v) :: ms => ',' :: stringChars k ++ ':' :: v.chars ++ memberChars ms

end

def render (v : Value) : String := String.ofList v.chars

end Value

/-- The value of a text, with at most 127 containers within each other. -/
def Reading.value? (r : Reading) : Option Value :=
  if r.complete then Value.ofTree? 127 r.tree else none

inductive DecodeError
  /-- The document has another shape than what it is read as. -/
  | shape
  | decimal (e : DecimalError)
  deriving DecidableEq

abbrev Decoder (α : Type) := Tree → Except DecodeError α

namespace Decoder

def text : Decoder String
  | .string (some s) => .ok s
  | _ => .error .shape

def flag : Decoder Bool
  | .bool b => .ok b
  | _ => .error .shape

def below (limit : Nat) : Decoder Nat
  | .number n => match n.nat? with
    | some k => if k < limit then .ok k else .error .shape
    | none => .error .shape
  | _ => .error .shape

def word64 : Decoder UInt64 := fun t => (below UInt64.size t).map Nat.toUInt64
def word32 : Decoder UInt32 := fun t => (below UInt32.size t).map Nat.toUInt32
def word8 : Decoder UInt8 := fun t => (below UInt8.size t).map Nat.toUInt8

def amount : Decoder Amount := fun t => do
  let raw ← text t
  match Amount.ofDecimal raw with
  | .ok a => .ok a
  | .error e => .error (.decimal e)

/-- A value, or nothing where `null` stands. -/
def optional {α : Type} (d : Decoder α) : Decoder (Option α)
  | .null => .ok none
  | t => (d t).map some

def list {α : Type} (d : Decoder α) : Decoder (List α)
  | .array items => items.mapM d
  | _ => .error .shape

/-- Any value with at most `depth` containers within each other. -/
def value (depth : Nat) : Decoder Value := fun t =>
  match Value.ofTree? depth t with
  | some v => .ok v
  | none => .error .shape

/-- One of several named things, given by its name or by an object with `null` under it. -/
def named {α : Type} (all : List α) (name : α → String) : Decoder α := fun t =>
  let find := fun s => match all.find? fun a => name a = s with
    | some a => .ok a
    | none => .error .shape
  match t with
  | .string (some s) => find s
  | .object [(some s, .null)] => find s
  | _ => .error .shape

end Decoder

/-- The fields of a record in order. A missing member is read as `absent` if that is given, and an
array that ends before the field as `short`. -/
inductive Fields : Type → Type 1
  | done : Fields Unit
  | field {α β : Type} (name : String) (decode : Decoder α) (absent short : Option α)
      (rest : Fields β) : Fields (α × β)

namespace Fields

variable {α β τ : Type}

def required (name : String) (d : Decoder α) (rest : Fields β) : Fields (α × β) :=
  .field name d none none rest

/-- A field that may be missing from an object, but not from an array. -/
def optional (name : String) (d : Decoder α) (rest : Fields β) : Fields (Option α × β) :=
  .field name d.optional (some none) none rest

/-- A field with a value for where it is missing. -/
def defaulted (name : String) (d : Decoder α) (value : α) (rest : Fields β) : Fields (α × β) :=
  .field name d (some value) (some value) rest

def Slots : {τ : Type} → Fields τ → Type
  | _, .done => Unit
  | _, @field α _ _ _ _ _ rest => Option α × rest.Slots

def noSlots : {τ : Type} → (f : Fields τ) → f.Slots
  | _, .done => ()
  | _, .field _ _ _ _ rest => (none, rest.noSlots)

/-- Reads one member into its field, which must not have been read before. -/
def offer (key : String) (t : Tree) : {τ : Type} → (f : Fields τ) → f.Slots →
    Except DecodeError f.Slots
  | _, .done, slots => .ok slots
  | _, @field α _ name d _ _ rest, slots =>
    let (slot, others) : Option α × rest.Slots := slots
    if key = name then
      match slot with
      | some _ => .error .shape
      | none => (d t).map fun a => (some a, others)
    else (rest.offer key t others).map fun s => (slot, s)

def collect : {τ : Type} → (f : Fields τ) → f.Slots → Except DecodeError τ
  | _, .done, _ => .ok ()
  | _, @field α _ _ _ absent _ rest, slots =>
    let (slot, others) : Option α × rest.Slots := slots
    match slot <|> absent with
    | some a => (rest.collect others).map fun b => (a, b)
    | none => .error .shape

def ofMembers (f : Fields τ) : List (Option String × Tree) → f.Slots → Except DecodeError τ
  | [], slots => f.collect slots
  | (some k, t) :: ms, slots => do f.ofMembers ms (← f.offer k t slots)
  | (none, _) :: _, _ => .error .shape

def ofItems : {τ : Type} → Fields τ → List Tree → Except DecodeError τ
  | _, .done, [] => .ok ()
  | _, .done, _ :: _ => .error .shape
  | _, .field _ _ _ short rest, [] =>
    match short with
    | some a => (rest.ofItems []).map fun b => (a, b)
    | none => .error .shape
  | _, .field _ d _ _ rest, t :: ts => do
    let a ← d t
    let b ← rest.ofItems ts
    return (a, b)

def decode (f : Fields τ) : Decoder τ
  | .array items => f.ofItems items
  | .object members => f.ofMembers members f.noSlots
  | _ => .error .shape

end Fields

/-- What a text is read as. A text that is no complete document is refused, unless something before
the fault is wrong already. -/
def Reading.decode {α : Type} (d : Decoder α) (r : Reading) : Except DecodeError α := do
  let a ← d r.tree
  if r.complete then return a else throw .shape
end Json
end TokenLedger
