import TokenLedger.Amount

/-! Rejections: the final verdict that an operation breaks a rule, with the cause from a closed list
and the particulars as a text. -/
namespace TokenLedger

/-- The causes, in the order in which reports list them. -/
inductive Reason
  | invalidAmount | invalidTickerLength | invalidTicker | identicalTickers
  | nonPositiveMaxSupply | nonPositiveMintLimit | exceedsNumericCeiling | limitExceedsMaxSupply
  | alreadyDeployed | notDeployed | nonPositiveAmount | exceedsMintLimit | exceedsMaxSupply
  | missingRecipient | balanceNotFound | insufficientBalance
  | poolAlreadyExists | poolNotFound | emptyReserves | slippageExceeded
  | nonPositiveLiquidity | exceedsPoolLiquidity | insufficientLiquidity | insufficientReserves
  | unsupportedOperation | malformedInscription
  deriving DecidableEq

namespace Reason

def all : List Reason :=
  [.invalidAmount, .invalidTickerLength, .invalidTicker, .identicalTickers,
   .nonPositiveMaxSupply, .nonPositiveMintLimit, .exceedsNumericCeiling, .limitExceedsMaxSupply,
   .alreadyDeployed, .notDeployed, .nonPositiveAmount, .exceedsMintLimit, .exceedsMaxSupply,
   .missingRecipient, .balanceNotFound, .insufficientBalance,
   .poolAlreadyExists, .poolNotFound, .emptyReserves, .slippageExceeded,
   .nonPositiveLiquidity, .exceedsPoolLiquidity, .insufficientLiquidity, .insufficientReserves,
   .unsupportedOperation, .malformedInscription]

theorem mem_all (r : Reason) : r ∈ all := by cases r <;> decide

theorem nodup_all : all.Nodup := by decide

def code : Reason → String
  | invalidAmount => "invalid_amount"
  | invalidTickerLength => "invalid_ticker_length"
  | invalidTicker => "invalid_ticker"
  | identicalTickers => "identical_tickers"
  | nonPositiveMaxSupply => "non_positive_max_supply"
  | nonPositiveMintLimit => "non_positive_mint_limit"
  | exceedsNumericCeiling => "exceeds_numeric_ceiling"
  | limitExceedsMaxSupply => "limit_exceeds_max_supply"
  | alreadyDeployed => "already_deployed"
  | notDeployed => "not_deployed"
  | nonPositiveAmount => "non_positive_amount"
  | exceedsMintLimit => "exceeds_mint_limit"
  | exceedsMaxSupply => "exceeds_max_supply"
  | missingRecipient => "missing_recipient"
  | balanceNotFound => "balance_not_found"
  | insufficientBalance => "insufficient_balance"
  | poolAlreadyExists => "pool_already_exists"
  | poolNotFound => "pool_not_found"
  | emptyReserves => "empty_reserves"
  | slippageExceeded => "slippage_exceeded"
  | nonPositiveLiquidity => "non_positive_liquidity"
  | exceedsPoolLiquidity => "exceeds_pool_liquidity"
  | insufficientLiquidity => "insufficient_liquidity"
  | insufficientReserves => "insufficient_reserves"
  | unsupportedOperation => "unsupported_operation"
  | malformedInscription => "malformed_inscription"

/-- How often each reason occurs, in the order of `all`, without those that do not. -/
def tally (rs : List Reason) : List (Reason × Nat) :=
  (all.map fun r => (r, rs.count r)).filter fun rc => rc.2 ≠ 0

end Reason

structure Rejection where
  reason : Reason
  detail : Option String
  deriving DecidableEq

namespace Rejection

def because (reason : Reason) (detail : String) : Rejection := ⟨reason, some detail⟩

def message (r : Rejection) : String :=
  match r.detail with
  | some detail => r.reason.code ++ ": " ++ detail
  | none => r.reason.code

end Rejection

/-- An amount above the ceiling has a reason of its own. -/
def DecimalError.reason : DecimalError → Reason
  | amountOverflow _ => .exceedsNumericCeiling
  | invalidAmount _ | invalidDecimals _ => .invalidAmount

def DecimalError.rejection (e : DecimalError) : Rejection := .because e.reason e.message

end TokenLedger
