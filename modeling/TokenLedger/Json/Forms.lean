import TokenLedger.Inquiry
import TokenLedger.Inscription
import TokenLedger.Json.Record
import TokenLedger.Ledger
import TokenLedger.Operation
import TokenLedger.Pool
import TokenLedger.Rejection
import TokenLedger.Ticker

/-! What records of the ledger, rejections and approvals are in documents. -/
namespace TokenLedger

open Json

def Amount.toValue (a : Amount) : Value := .string (toString a)

namespace Ticker

def toValue (t : Ticker) : Value := .string t.text

def decoder : Decoder Ticker := fun t => (Decoder.text t).map ofText

end Ticker

namespace Address

def toValue (a : Address) : Value := .string a.text

def decoder : Decoder Address := fun t => (Decoder.text t).map mk

end Address

namespace PoolKey

def toValue (k : PoolKey) : Value := .object [("ticker_a", k.a.toValue), ("ticker_b", k.b.toValue)]

/-- The key as it is written, in either order. -/
def decoder : Decoder PoolKey := fun t => do
  let (a, b, ()) ← (Fields.required "ticker_a" Ticker.decoder <|
    Fields.required "ticker_b" Ticker.decoder .done).decode t
  return ⟨a, b⟩

end PoolKey

namespace Pool

def toValue (k : PoolKey) (p : Pool) : Value :=
  .object [("key", k.toValue), ("reserve_a", p.reserveA.toValue), ("reserve_b", p.reserveB.toValue),
    ("liquidity_total", p.liquidity.toValue), ("reserves_owner", p.owner.toValue)]

def decoder : Decoder (PoolKey × Pool) := fun t => do
  let (key, reserveA, reserveB, liquidity, owner, ()) ←
    (Fields.required "key" PoolKey.decoder <|
      Fields.required "reserve_a" Decoder.amount <|
      Fields.required "reserve_b" Decoder.amount <|
      Fields.required "liquidity_total" Decoder.amount <|
      Fields.required "reserves_owner" Address.decoder .done).decode t
  return (key, ⟨reserveA, reserveB, liquidity, owner⟩)

end Pool

namespace Supply

def toValue (s : Supply) : Value :=
  .object [("minted_sum", s.minted.toValue), ("max_supply", s.max.toValue),
    ("per_mint_limit", s.limit.toValue)]

def decoder : Decoder Supply := fun t => do
  let (minted, max, limit, ()) ← (Fields.required "minted_sum" Decoder.amount <|
    Fields.required "max_supply" Decoder.amount <|
    Fields.required "per_mint_limit" Decoder.amount .done).decode t
  return ⟨minted, max, limit⟩

end Supply

namespace Token

def toValue (r : Token) : Value :=
  .object [("supply", r.supply.toValue), ("decimals", .natural r.decimals.toNat),
    ("deployer", match r.deployer with
      | some a => a.toValue
      | none => .null)]

def decoder : Decoder Token := fun t => do
  let (supply, decimals, deployer, ()) ← (Fields.required "supply" Supply.decoder <|
    Fields.required "decimals" Decoder.word8 <|
    Fields.optional "deployer" Address.decoder .done).decode t
  return ⟨supply, decimals, deployer⟩

end Token

namespace Direction

def all : List Direction := [.credit, .debit]

def name : Direction → String
  | credit => "credit"
  | debit => "debit"

def toValue (d : Direction) : Value := .string d.name

def decoder : Decoder Direction := Decoder.named all name

end Direction

namespace Movement

def toValue (m : Movement) : Value :=
  .object [("ticker", m.ticker.toValue), ("address", m.holder.toValue),
    ("direction", m.direction.toValue), ("amount", m.amount.toValue)]

def decoder : Decoder Movement := fun t => do
  let (ticker, holder, direction, amount, ()) ← (Fields.required "ticker" Ticker.decoder <|
    Fields.required "address" Address.decoder <|
    Fields.required "direction" Direction.decoder <|
    Fields.required "amount" Decoder.amount .done).decode t
  return ⟨ticker, holder, direction, amount⟩

end Movement

namespace Kind

def toValue (k : Kind) : Value := .string k.name

def decoder : Decoder Kind := Decoder.named all name

end Kind

namespace Reason

def toValue (r : Reason) : Value := .string r.code

def decoder : Decoder Reason := Decoder.named all code

end Reason

namespace Rejection

/-- A detail that is missing is left out. -/
def toValue (r : Rejection) : Value :=
  .object (("reason", r.reason.toValue) :: match r.detail with
    | some detail => [("detail", .string detail)]
    | none => [])

def decoder : Decoder Rejection := fun t => do
  let (reason, detail, ()) ← (Fields.required "reason" Reason.decoder <|
    Fields.defaulted "detail" Decoder.text.optional none .done).decode t
  return ⟨reason, detail⟩

end Rejection

namespace Approval

def members : Approval → List (String × Value)
  | deploy t max limit decimals deployer =>
    [("kind", .string "deploy"), ("ticker", t.toValue), ("max_supply", max.toValue),
     ("per_mint_limit", limit.toValue), ("decimals", .natural decimals.toNat),
     ("deployer", deployer.toValue)]
  | mint t recipient total =>
    [("kind", .string "mint"), ("ticker", t.toValue), ("recipient", recipient.toValue),
     ("total", total.toValue)]
  | transfer t sender recipients each total =>
    [("kind", .string "transfer"), ("ticker", t.toValue), ("from", sender.toValue),
     ("recipients", .array (recipients.map Address.toValue)), ("amount_each", each.toValue),
     ("total", total.toValue)]
  | createPool k holder a b =>
    [("kind", .string "create_pool"), ("key", k.toValue), ("holder", holder.toValue),
     ("amount_a", a.toValue), ("amount_b", b.toValue)]
  | addLiquidity k holder a b first =>
    [("kind", .string "add_liquidity"), ("key", k.toValue), ("holder", holder.toValue),
     ("amount_a", a.toValue), ("amount_b", b.toValue), ("first_liquidity", .bool first)]
  | removeLiquidity k holder liquidity =>
    [("kind", .string "remove_liquidity"), ("key", k.toValue), ("holder", holder.toValue),
     ("liquidity", liquidity.toValue)]
  | swap k holder tickerIn tickerOut amountIn fee amountOut owner =>
    [("kind", .string "swap"), ("key", k.toValue), ("holder", holder.toValue),
     ("ticker_in", tickerIn.toValue), ("ticker_out", tickerOut.toValue),
     ("amount_in", amountIn.toValue), ("fee", fee.toValue), ("amount_out", amountOut.toValue),
     ("reserves_owner", owner.toValue)]
  | deposit holder amount =>
    [("kind", .string "deposit"), ("holder", holder.toValue), ("amount", amount.toValue)]
  | withdraw holder amount =>
    [("kind", .string "withdraw"), ("holder", holder.toValue), ("amount", amount.toValue)]

def toValue (a : Approval) : Value := .object a.members

def formDecoder : String → Decoder Approval
  | "deploy", t => do
    let (ticker, max, limit, decimals, deployer, ()) ←
      (Fields.required "ticker" Ticker.decoder <|
        Fields.required "max_supply" Decoder.amount <|
        Fields.required "per_mint_limit" Decoder.amount <|
        Fields.required "decimals" Decoder.word8 <|
        Fields.required "deployer" Address.decoder .done).decode t
    return .deploy ticker max limit decimals deployer
  | "mint", t => do
    let (ticker, recipient, total, ()) ←
      (Fields.required "ticker" Ticker.decoder <|
        Fields.required "recipient" Address.decoder <|
        Fields.required "total" Decoder.amount .done).decode t
    return .mint ticker recipient total
  | "transfer", t => do
    let (ticker, sender, recipients, each, total, ()) ←
      (Fields.required "ticker" Ticker.decoder <|
        Fields.required "from" Address.decoder <|
        Fields.required "recipients" (Decoder.list Address.decoder) <|
        Fields.required "amount_each" Decoder.amount <|
        Fields.required "total" Decoder.amount .done).decode t
    return .transfer ticker sender recipients each total
  | "create_pool", t => do
    let (key, holder, a, b, ()) ←
      (Fields.required "key" PoolKey.decoder <|
        Fields.required "holder" Address.decoder <|
        Fields.required "amount_a" Decoder.amount <|
        Fields.required "amount_b" Decoder.amount .done).decode t
    return .createPool key holder a b
  | "add_liquidity", t => do
    let (key, holder, a, b, first, ()) ←
      (Fields.required "key" PoolKey.decoder <|
        Fields.required "holder" Address.decoder <|
        Fields.required "amount_a" Decoder.amount <|
        Fields.required "amount_b" Decoder.amount <|
        Fields.required "first_liquidity" Decoder.flag .done).decode t
    return .addLiquidity key holder a b first
  | "remove_liquidity", t => do
    let (key, holder, liquidity, ()) ←
      (Fields.required "key" PoolKey.decoder <|
        Fields.required "holder" Address.decoder <|
        Fields.required "liquidity" Decoder.amount .done).decode t
    return .removeLiquidity key holder liquidity
  | "swap", t => do
    let (key, holder, tickerIn, tickerOut, amountIn, fee, amountOut, owner, ()) ←
      (Fields.required "key" PoolKey.decoder <|
        Fields.required "holder" Address.decoder <|
        Fields.required "ticker_in" Ticker.decoder <|
        Fields.required "ticker_out" Ticker.decoder <|
        Fields.required "amount_in" Decoder.amount <|
        Fields.required "fee" Decoder.amount <|
        Fields.required "amount_out" Decoder.amount <|
        Fields.required "reserves_owner" Address.decoder .done).decode t
    return .swap key holder tickerIn tickerOut amountIn fee amountOut owner
  | "deposit", t => do
    let (holder, amount, ()) ←
      (Fields.required "holder" Address.decoder <|
        Fields.required "amount" Decoder.amount .done).decode t
    return .deposit holder amount
  | "withdraw", t => do
    let (holder, amount, ()) ←
      (Fields.required "holder" Address.decoder <|
        Fields.required "amount" Decoder.amount .done).decode t
    return .withdraw holder amount
  | _, _ => .error .shape

/-- The document as a whole is read before its fields are. -/
def decoder : Decoder Approval
  | .object members => do
    let _ ← Decoder.value 127 (.object members)
    match members.filter fun m => m.1 = some "kind" with
    | [(_, .string (some name))] =>
      formDecoder name (.object (members.filter fun m => m.1 ≠ some "kind"))
    | _ => .error .shape
  | _ => .error .shape

end Approval
end TokenLedger
