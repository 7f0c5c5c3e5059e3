import TokenLedger.Json.Record
import TokenLedger.Rejection

/-! Inscriptions: the documents that ask for operations of one of nine kinds. The members `p` and
`op` choose the kind, and the kind has a body of string members. Numbers stay texts here, so that a
bad one is a verdict on the operation and not a fault of the document. -/
namespace TokenLedger

inductive Kind
  | deploy | mint | transfer
  | create | add | remove | swap
  | deposit | withdraw
  deriving DecidableEq

namespace Kind

def all : List Kind :=
  [.deploy, .mint, .transfer, .create, .add, .remove, .swap, .deposit, .withdraw]

def protocol : Kind → String
  | .deploy | .mint | .transfer => "drc-20"
  | .create | .add | .remove | .swap => "pair-v1"
  | .deposit | .withdraw => "wdoge"

def name : Kind → String
  | .deploy => "deploy"
  | .mint => "mint"
  | .transfer => "transfer"
  | .create => "create"
  | .add => "add"
  | .remove => "remove"
  | .swap => "swap"
  | .deposit => "deposit"
  | .withdraw => "withdraw"

end Kind

structure DeployBody where
  tick : String
  max : String
  lim : Option String
  dec : Option String
  burn : Option String
  func : Option String
  deriving DecidableEq

structure AmountBody where
  tick : String
  amt : String
  deriving DecidableEq

structure PairBody where
  tick0 : String
  tick1 : String
  amt0 : String
  amt1 : String
  amt0Min : String
  amt1Min : String
  deriving DecidableEq

structure RemoveBody where
  tick0 : String
  tick1 : String
  liquidity : String
  deriving DecidableEq

structure SwapBody where
  tick0 : String
  tick1 : String
  amt0 : String
  amt1 : String
  amt1Min : String
  deriving DecidableEq

inductive Inscription
  | deploy (body : DeployBody)
  | mint (body : AmountBody)
  | transfer (body : AmountBody)
  | create (body : PairBody)
  | add (body : PairBody)
  | remove (body : RemoveBody)
  | swap (body : SwapBody)
  | deposit (body : AmountBody)
  | withdraw (body : AmountBody)
  deriving DecidableEq

def Inscription.kind : Inscription → Kind
  | deploy _ => .deploy
  | mint _ => .mint
  | transfer _ => .transfer
  | create _ => .create
  | add _ => .add
  | remove _ => .remove
  | swap _ => .swap
  | deposit _ => .deposit
  | withdraw _ => .withdraw

namespace Inscription

def protocol : Inscription → String
  | deploy _ | mint _ | transfer _ => "drc-20"
  | create _ | add _ | remove _ | swap _ => "pair-v1"
  | deposit _ | withdraw _ => "wdoge"

def op : Inscription → String
  | deploy _ => "deploy"
  | mint _ => "mint"
  | transfer _ => "transfer"
  | create _ => "create"
  | add _ => "add"
  | remove _ => "remove"
  | swap _ => "swap"
  | deposit _ => "deposit"
  | withdraw _ => "withdraw"

theorem protocol_eq (i : Inscription) : i.protocol = i.kind.protocol := by cases i <;> rfl

theorem op_eq (i : Inscription) : i.op = i.kind.name := by cases i <;> rfl

end Inscription

/-- The names of operations that have a schema, by protocol. -/
def supportedOperations : List (String × List String) :=
  [("drc-20", ["deploy", "mint", "transfer"]), ("pair-v1", ["create", "add", "remove", "swap"]),
   ("wdoge", ["deposit", "withdraw"])]

def isSupported (protocol name : String) : Bool :=
  supportedOperations.any fun o => o.1 == protocol && o.2.contains name

/-- The values of `p` and `op` in the documents of a kind. -/
def Kind.tags : Kind → String × String
  | deploy => ("drc-20", "deploy")
  | mint => ("drc-20", "mint")
  | transfer => ("drc-20", "transfer")
  | create => ("pair-v1", "create")
  | add => ("pair-v1", "add")
  | remove => ("pair-v1", "remove")
  | swap => ("pair-v1", "swap")
  | deposit => ("wdoge", "deposit")
  | withdraw => ("wdoge", "withdraw")

/-- The kinds whose documents have a value of `p`, in order. -/
def Kind.underTag (p : String) : List Kind := all.filter fun k => k.tags.1 = p

/-- The kind that the tags of a document choose. -/
def Kind.ofTags? (p op : String) : Option Kind := (underTag p).find? fun k => k.tags.2 = op

/-- What a member of a body must be: a string, a string or nothing or `null`, or a string or
nothing, which then is the empty one. -/
inductive Presence
  | required | optional | defaulted
  deriving DecidableEq

/-- The members of a kind's body, in the order in which they are written. -/
def Kind.fields : Kind → List (String × Presence)
  | deploy => [("tick", .required), ("max", .required), ("lim", .optional), ("dec", .optional),
      ("burn", .optional), ("func", .optional)]
  | mint | transfer | deposit | withdraw => [("tick", .required), ("amt", .required)]
  | create | add => [("tick0", .required), ("tick1", .required), ("amt0", .required),
      ("amt1", .required), ("amt0_min", .defaulted), ("amt1_min", .defaulted)]
  | remove => [("tick0", .required), ("tick1", .required), ("liquidity", .required)]
  | swap => [("tick0", .required), ("tick1", .required), ("amt0", .required),
      ("amt1", .defaulted), ("amt1_min", .defaulted)]

/-- What stands where a string should. -/
inductive Found
  | null
  | bool (b : Bool)
  | number (n : Json.Number)
  | array
  | object
  deriving DecidableEq

def Found.describe : Found → String
  | null => "null"
  | bool b => "boolean `" ++ toString b ++ "`"
  | number (.natural n) => "integer `" ++ String.ofList (Json.Number.natural n).text ++ "`"
  | number (.negative n) => "integer `" ++ String.ofList (Json.Number.negative n).text ++ "`"
  | number (.double s x) => "floating point `" ++ String.ofList (Json.Number.double s x).text ++ "`"
  | array => "sequence"
  | object => "map"

inductive InscriptionError
  | notJson
  | unsupported (p op : String)
  /-- A pair of the schema that no kind has as its tags. There is none. -/
  | unknownVariant (name : String)
  | wrongType (found : Found)
  | missing (name : String)
  deriving DecidableEq

namespace InscriptionError

def detail : InscriptionError → String
  | notJson => "no JSON document"
  | unsupported p op => "unsupported operation: p=" ++ Text.quote p ++ " op=" ++ Text.quote op
  | unknownVariant name => "unknown variant `" ++ name ++ "`"
  | wrongType found => "invalid type: " ++ found.describe ++ ", expected a string"
  | missing name => "missing field `" ++ name ++ "`"

def message : InscriptionError → String
  | unsupported p op => (unsupported p op).detail
  | e => "malformed inscription: " ++ e.detail

def reason : InscriptionError → Reason
  | unsupported _ _ => .unsupportedOperation
  | _ => .malformedInscription

def rejection (e : InscriptionError) : Rejection := .because e.reason e.detail

end InscriptionError

namespace Json.Value

/-- A string member; a missing one and one that is no string are empty. -/
def text (v : Value) (name : String) : String := ((v.get? name).bind string?).getD ""

def text? (v : Value) (name : String) : Option String := (v.get? name).bind string?

def found? : Value → Option Found
  | null => some .null
  | bool b => some (.bool b)
  | number n => some (.number n)
  | string _ => none
  | array _ => some .array
  | object _ => some .object

end Json.Value

/-- What is wrong with a member, if it is there and not what it must be. -/
def Presence.fault? : Presence → Option Json.Value → Option Found
  | optional, some .null => none
  | _, member => member.bind Json.Value.found?

namespace Inscription

open Json

/-- The first member with a wrong type in the order of names. -/
def wrongType? (k : Kind) (v : Value) : Option Found :=
  (k.fields.mergeSort fun x y => x.1 ≤ y.1).findSome? fun f => f.2.fault? (v.get? f.1)

/-- The first required member that is missing in the order of the body. -/
def missing? (k : Kind) (v : Value) : Option String :=
  (k.fields.find? fun f => f.2 = .required ∧ (v.get? f.1).isNone = true).map Prod.fst

/-- The inscription of a kind with the members of a document. -/
def build (v : Value) : Kind → Inscription
  | .deploy => deploy ⟨v.text "tick", v.text "max", v.text? "lim", v.text? "dec", v.text? "burn",
      v.text? "func"⟩
  | .mint => mint ⟨v.text "tick", v.text "amt"⟩
  | .transfer => transfer ⟨v.text "tick", v.text "amt"⟩
  | .create => create ⟨v.text "tick0", v.text "tick1", v.text "amt0", v.text "amt1",
      v.text "amt0_min", v.text "amt1_min"⟩
  | .add => add ⟨v.text "tick0", v.text "tick1", v.text "amt0", v.text "amt1",
      v.text "amt0_min", v.text "amt1_min"⟩
  | .remove => remove ⟨v.text "tick0", v.text "tick1", v.text "liquidity"⟩
  | .swap => swap ⟨v.text "tick0", v.text "tick1", v.text "amt0", v.text "amt1",
      v.text "amt1_min"⟩
  | .deposit => deposit ⟨v.text "tick", v.text "amt"⟩
  | .withdraw => withdraw ⟨v.text "tick", v.text "amt"⟩

def ofBody (k : Kind) (v : Value) : Except InscriptionError Inscription :=
  match wrongType? k v with
  | some found => .error (.wrongType found)
  | none =>
    match missing? k v with
    | some name => .error (.missing name)
    | none => .ok (build v k)

/-- The inscription that a document is. Its tags are looked up in the schema first. -/
def ofValue (v : Value) : Except InscriptionError Inscription :=
  let p := v.text "p"
  let op := v.text "op"
  if isSupported p op then
    match Kind.ofTags? p op with
    | none => .error (.unknownVariant op)
    | some k => ofBody k v
  else .error (.unsupported p op)

def ofJson (text : String) : Except InscriptionError Inscription :=
  match (Json.read text).value? with
  | some v => ofValue v
  | none => .error .notJson

def optionalMember (name : String) : Option String → List (String × Value)
  | some s => [(name, .string s)]
  | none => []

def bodyMembers : Inscription → List (String × Value)
  | deploy b => [("tick", .string b.tick), ("max", .string b.max)] ++ optionalMember "lim" b.lim ++
      optionalMember "dec" b.dec ++ optionalMember "burn" b.burn ++ optionalMember "func" b.func
  | mint b | transfer b | deposit b | withdraw b =>
    [("tick", .string b.tick), ("amt", .string b.amt)]
  | create b | add b => [("tick0", .string b.tick0), ("tick1", .string b.tick1),
      ("amt0", .string b.amt0), ("amt1", .string b.amt1), ("amt0_min", .string b.amt0Min),
      ("amt1_min", .string b.amt1Min)]
  | remove b => [("tick0", .string b.tick0), ("tick1", .string b.tick1),
      ("liquidity", .string b.liquidity)]
  | swap b => [("tick0", .string b.tick0), ("tick1", .string b.tick1), ("amt0", .string b.amt0),
      ("amt1", .string b.amt1), ("amt1_min", .string b.amt1Min)]

def toValue (i : Inscription) : Value :=
  .object (("p", .string i.kind.tags.1) :: ("op", .string i.kind.tags.2) :: i.bodyMembers)

/-- The kind that a record names. There `op` may also be a number, which is the place of the
operation in its protocol. -/
def recordKind? (v : Value) : Option Kind :=
  match v.get? "op" with
  | some (.number (.natural place)) => (Kind.underTag (v.text "p"))[place]?
  | _ => Kind.ofTags? (v.text "p") (v.text "op")

/-- Reads an inscription as a record, where no member that it knows may repeat. -/
def decoder (depth : Nat) : Decoder Inscription
  | .object members => do
    let v ← Decoder.value depth (.object members)
    match recordKind? v with
    | none => throw .shape
    | some k =>
      let known := "p" :: "op" :: k.fields.map Prod.fst
      match ofBody k v with
      | .error _ => throw .shape
      | .ok i =>
        if ((members.filterMap Prod.fst).filter (· ∈ known)).Nodup then return i else throw .shape
  | _ => .error .shape

end Inscription
end TokenLedger
