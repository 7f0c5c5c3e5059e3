import TokenLedger.Inquiry
import TokenLedger.Operation
import TokenLedger.Pool

/-! The verdict on an operation, by the rules for tokens, for pools and for the bridge. What an
operation shows by itself is checked before the ledger is asked, apart from the amount of a mint. -/
namespace TokenLedger

/-- The reasons for a missing balance and for one that is too small. -/
structure Shortfall where
  missing : Reason
  short : Reason
  deriving DecidableEq

namespace Shortfall

def balance : Shortfall := ⟨.balanceNotFound, .insufficientBalance⟩
def liquidity : Shortfall := ⟨.insufficientLiquidity, .insufficientLiquidity⟩
def reserves : Shortfall := ⟨.insufficientReserves, .insufficientReserves⟩

end Shortfall

namespace Inquiry

def requireTickerSize (t : Ticker) : Inquiry Unit :=
  if t.HasValidSize then done ()
  else rejectFor .invalidTickerLength
    ("Ticker(" ++ Text.quote t.text ++ ") has " ++ toString t.size ++ " bytes")

def requirePositive (amount : Amount) (reason : Reason) (name : String) : Inquiry Unit :=
  if amount = .zero then rejectFor reason (name ++ " is zero") else done ()

/-- Requires a holder to have an amount, which may be too large for any balance. -/
def requireBalance (t : Ticker) (holder : Address) (required : Nat) (s : Shortfall) :
    Inquiry Amount := do
  match ← balance t holder with
  | none => rejectFor s.missing s!"{holder} holds no {t}"
  | some held =>
    match Amount.ofNat? required with
    | some amount =>
      if amount ≤ held then return amount
      else rejectFor s.short s!"{holder} needs {required} {t}, has {held}"
    | none => rejectFor s.short s!"{holder} needs {required} {t}, has {held}"

end Inquiry

namespace TokenOperation

open Inquiry

def deploy (op : TokenOperation) : Inquiry Approval := do
  requireTickerSize op.ticker
  requirePositive op.maxSupply .nonPositiveMaxSupply "max"
  requirePositive op.mintLimit .nonPositiveMintLimit "lim"
  if op.maxSupply < op.mintLimit then
    rejectFor .limitExceedsMaxSupply s!"lim {op.mintLimit} > max {op.maxSupply}"
  else
    match ← supply op.ticker with
    | some _ => rejectFor .alreadyDeployed op.ticker.text
    | none => return .deploy op.ticker op.maxSupply op.mintLimit op.decimals op.sender

/-- The amount times the repetitions, within what may still be minted. -/
def mintTotal? (op : TokenOperation) (s : Supply) : Option Amount :=
  let total := op.amount.product (.ofUInt64 op.repeats)
  if total + s.minted.val ≤ s.max.val then Amount.ofNat? total else none

def mint (op : TokenOperation) : Inquiry Approval := do
  requireTickerSize op.ticker
  match ← supply op.ticker with
  | none => rejectFor .notDeployed op.ticker.text
  | some s =>
    requirePositive op.amount .nonPositiveAmount "amt"
    if s.limit < op.amount then
      rejectFor .exceedsMintLimit s!"amt {op.amount} > lim {s.limit}"
    else
      match op.mintTotal? s with
      | some total => return .mint op.ticker op.mintRecipient total
      | none =>
        rejectFor .exceedsMaxSupply
          s!"minted {s.minted} + {op.amount} x {op.repeats} > max {s.max}"

def transfer (op : TokenOperation) : Inquiry Approval := do
  requirePositive op.amount .nonPositiveAmount "amt"
  if op.recipients = [] then reject ⟨.missingRecipient, none⟩
  else
    let required := op.amount.val * op.recipients.length
    let total ← requireBalance op.ticker op.sender required .balance
    return .transfer op.ticker op.sender op.recipients op.amount total

def verdict (op : TokenOperation) : Inquiry Approval :=
  match op.kind with
  | .deploy => op.deploy
  | .mint => op.mint
  | .transfer => op.transfer
  | other => rejectFor .unsupportedOperation s!"{other.name} is not a drc-20 operation"

end TokenOperation

namespace PairOperation

open Inquiry

def existingPool (op : PairOperation) : Inquiry Pool := do
  match ← pool op.poolKey with
  | some p => return p
  | none => rejectFor .poolNotFound (toString op.poolKey)

def cover (op : PairOperation) (amountA amountB : Nat) : Inquiry (Amount × Amount) := do
  let a ← requireBalance op.sides.tickerA op.holder amountA .balance
  let b ← requireBalance op.sides.tickerB op.holder amountB .balance
  return (a, b)

def create (op : PairOperation) : Inquiry Approval := do
  requirePositive op.sides.amountA .nonPositiveAmount "amt0"
  requirePositive op.sides.amountB .nonPositiveAmount "amt1"
  match ← pool op.poolKey with
  | some _ => rejectFor .poolAlreadyExists (toString op.poolKey)
  | none =>
    let (a, b) ← op.cover op.sides.amountA.val op.sides.amountB.val
    return .createPool op.poolKey op.holder a b

/-- A first deposit takes what is offered, and a later one what keeps the price. -/
def add (op : PairOperation) : Inquiry Approval := do
  let s := op.sides
  let p ← op.existingPool
  if p.liquidity = .zero then
    let (a, b) ← op.cover s.amountA.val s.amountB.val
    return .addLiquidity op.poolKey op.holder a b true
  else
    match planAdd? s.amountA s.amountB s.minA s.minB p.reserveA p.reserveB with
    | none => rejectFor .emptyReserves (toString op.poolKey)
    | some (.slippage bestA bestB) =>
      rejectFor .slippageExceeded
        s!"b_optimal {bestB} < {s.minB} and a_optimal {bestA} < {s.minA}"
    | some (.keepA a b) =>
      let (a, b) ← op.cover a.val b
      return .addLiquidity op.poolKey op.holder a b false
    | some (.keepB a b) =>
      let (a, b) ← op.cover a b.val
      return .addLiquidity op.poolKey op.holder a b false

def remove (op : PairOperation) : Inquiry Approval := do
  requirePositive op.liquidity .nonPositiveLiquidity "liquidity"
  let p ← op.existingPool
  if p.liquidity < op.liquidity then
    rejectFor .exceedsPoolLiquidity s!"{op.liquidity} > {p.liquidity}"
  else
    let liquidity ← requireBalance op.poolKey.shareTicker op.holder op.liquidity.val .liquidity
    return .removeLiquidity op.poolKey op.holder liquidity

def swap (op : PairOperation) : Inquiry Approval := do
  let s := op.sides
  let p ← op.existingPool
  let (reserveIn, reserveOut) := p.reservesFor op.poolKey s.tickerA
  if reserveIn = .zero ∨ reserveOut = .zero then
    rejectFor .emptyReserves (toString op.poolKey)
  else
    match quote? s.amountA reserveIn reserveOut with
    | none => rejectFor .emptyReserves (toString op.poolKey)
    | some q =>
      if q.out.val < s.minB.val then
        rejectFor .slippageExceeded s!"amount_out {q.out} < amt1_min {s.minB}"
      else
        let amountIn ← requireBalance s.tickerA op.holder s.amountA.val .balance
        let _ ← requireBalance s.tickerB p.owner q.out.val .reserves
        return .swap op.poolKey op.holder s.tickerA s.tickerB amountIn q.fee q.out p.owner

def verdict (op : PairOperation) : Inquiry Approval :=
  if op.sides.tickerA = op.sides.tickerB then
    rejectFor .identicalTickers op.sides.tickerA.text
  else
    match op.kind with
    | .create => op.create
    | .add => op.add
    | .remove => op.remove
    | .swap => op.swap
    | other => rejectFor .unsupportedOperation s!"{other.name} is not a pair-v1 operation"

end PairOperation

/-- Switches of the rules. -/
structure Rules where
  /-- A withdrawal needs a balance that covers it. -/
  coverWithdrawals : Bool
  deriving DecidableEq

namespace BridgeOperation

open Inquiry

def deposit (op : BridgeOperation) : Inquiry Approval := do
  requirePositive op.amount .nonPositiveAmount "amt"
  return .deposit op.holder op.amount

/-- Without the switch the ledger alone judges the balance. -/
def withdraw (rules : Rules) (op : BridgeOperation) : Inquiry Approval := do
  if rules.coverWithdrawals then
    let _ ← requireBalance op.ticker op.holder op.amount.val .balance
  return .withdraw op.holder op.amount

def verdict (rules : Rules) (op : BridgeOperation) : Inquiry Approval :=
  if op.ticker ≠ .wrapped then rejectFor .invalidTicker op.ticker.text
  else
    match op.kind with
    | .deposit => op.deposit
    | .withdraw => op.withdraw rules
    | other => rejectFor .unsupportedOperation s!"{other.name} is not a wdoge operation"

end BridgeOperation

def Operation.verdict (rules : Rules) : Operation → Inquiry Approval
  | token op => op.verdict
  | pair op => op.verdict
  | bridge op => op.verdict rules
end TokenLedger
