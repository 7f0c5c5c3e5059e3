import TokenLedger.Envelope
import TokenLedger.Inscription
import TokenLedger.Pool

/-! Operations: what inscriptions ask for, with numbers for texts and tickers in normal form. Pools
are named by their sides in ascending order, apart from swaps, whose first side is the one given. An
approval is what an accepted operation may do to the ledger, with the very amounts that were
checked. -/
namespace TokenLedger

structure TokenOperation where
  kind : Kind
  ticker : Ticker
  decimals : UInt8
  maxSupply : Amount
  mintLimit : Amount
  amount : Amount
  burnPolicy : Option String
  funcPolicy : Option String
  sender : Address
  recipients : List Address
  repeats : UInt64
  deriving DecidableEq

structure PairOperation where
  kind : Kind
  sides : Sides
  liquidity : Amount
  holder : Address
  deriving DecidableEq

structure BridgeOperation where
  kind : Kind
  ticker : Ticker
  amount : Amount
  holder : Address
  deriving DecidableEq

inductive Operation
  | token (op : TokenOperation)
  | pair (op : PairOperation)
  | bridge (op : BridgeOperation)
  deriving DecidableEq

/-- The kind that a protocol and a name denote; a pair that denotes none is rejected. -/
def Kind.route (protocol name : String) : Except Rejection Kind :=
  match protocol, name with
  | "drc-20", "deploy" => .ok deploy
  | "drc-20", "mint" => .ok mint
  | "drc-20", "transfer" => .ok transfer
  | "pair-v1", "create" => .ok create
  | "pair-v1", "add" => .ok add
  | "pair-v1", "remove" => .ok remove
  | "pair-v1", "swap" => .ok swap
  | "wdoge", "deposit" => .ok deposit
  | "wdoge", "withdraw" => .ok withdraw
  | p, op => .error (.because .unsupportedOperation s!"p={p} op={op}")

/-- Who a mint credits: the first recipient, or else the sender. -/
def TokenOperation.mintRecipient (op : TokenOperation) : Address := op.recipients.headD op.sender

def PairOperation.poolKey (op : PairOperation) : PoolKey :=
  .ofPair op.sides.tickerA op.sides.tickerB

namespace Operation

def kind : Operation → Kind
  | token op => op.kind
  | pair op => op.kind
  | bridge op => op.kind

/-- An amount under its name in the inscription. -/
def amountField (name raw : String) : Except Rejection Amount :=
  match Amount.ofDecimal raw with
  | .ok a => .ok a
  | .error e => .error (.because e.reason (name ++ ": " ++ e.message))

def boundField (name raw : String) : Except Rejection Bound :=
  match Bound.ofDecimal raw with
  | .ok b => .ok b
  | .error e => .error (.because .invalidAmount (name ++ ": " ++ e.message))

def blankToken (e : Envelope) (kind : Kind) (tick : String) : TokenOperation where
  kind
  ticker := .ofText tick
  decimals := defaultDecimals
  maxSupply := .zero
  mintLimit := .zero
  amount := .zero
  burnPolicy := none
  funcPolicy := none
  sender := e.sender
  recipients := e.recipients
  repeats := if e.repeats = 0 then 1 else e.repeats

def ofDeploy (e : Envelope) (b : DeployBody) : Except Rejection TokenOperation := do
  let maxSupply ← amountField "max" b.max
  let mintLimit ← match b.lim with
    | none => pure maxSupply
    | some raw => if raw = "" then pure maxSupply else amountField "lim" raw
  let decimals ← (decimalsOfText b.dec).mapError DecimalError.rejection
  return { blankToken e .deploy b.tick with
    maxSupply
    mintLimit
    decimals := decimalsOrDefault decimals
    burnPolicy := b.burn
    funcPolicy := b.func }

def ofAmount (e : Envelope) (kind : Kind) (b : AmountBody) : Except Rejection TokenOperation := do
  let amount ← amountField "amt" b.amt
  return { blankToken e kind b.tick with amount }

/-- The creation of a pool, or a deposit into one. -/
def ofPairBody (e : Envelope) (kind : Kind) (b : PairBody) : Except Rejection PairOperation := do
  let amountA ← amountField "amt0" b.amt0
  let amountB ← amountField "amt1" b.amt1
  let minA ← boundField "amt0_min" b.amt0Min
  let minB ← boundField "amt1_min" b.amt1Min
  let sides : Sides := ⟨.ofText b.tick0, .ofText b.tick1, amountA, amountB, minA, minB⟩
  return ⟨kind, sides.sorted, .zero, e.sender⟩

def ofRemove (e : Envelope) (b : RemoveBody) : Except Rejection PairOperation := do
  let liquidity ← amountField "liquidity" b.liquidity
  let sides : Sides := ⟨.ofText b.tick0, .ofText b.tick1, .zero, .zero, .zero, .zero⟩
  return ⟨.remove, sides.sorted, liquidity, e.sender⟩

/-- A swap keeps its direction. No rule reads its second amount, of which the form alone counts. -/
def ofSwap (e : Envelope) (b : SwapBody) : Except Rejection PairOperation := do
  let amountA ← amountField "amt0" b.amt0
  let amountB ← boundField "amt1" b.amt1
  let minB ← boundField "amt1_min" b.amt1Min
  let sides : Sides := ⟨.ofText b.tick0, .ofText b.tick1, amountA,
    (Amount.ofNat? amountB.val).getD .max, .zero, minB⟩
  return ⟨.swap, sides, .zero, e.sender⟩

def ofBridge (e : Envelope) (kind : Kind) (b : AmountBody) : Except Rejection BridgeOperation := do
  let amount ← amountField "amt" b.amt
  return ⟨kind, .ofText b.tick, amount, e.sender⟩

/-- The operation that an envelope asks for. -/
def ofEnvelope (e : Envelope) : Except Rejection Operation :=
  match e.inscription with
  | .deploy b => (ofDeploy e b).map token
  | .mint b => (ofAmount e .mint b).map token
  | .transfer b => (ofAmount e .transfer b).map token
  | .create b => (ofPairBody e .create b).map pair
  | .add b => (ofPairBody e .add b).map pair
  | .remove b => (ofRemove e b).map pair
  | .swap b => (ofSwap e b).map pair
  | .deposit b => (ofBridge e .deposit b).map bridge
  | .withdraw b => (ofBridge e .withdraw b).map bridge

end Operation

inductive Approval
  | deploy (ticker : Ticker) (max limit : Amount) (decimals : UInt8) (deployer : Address)
  | mint (ticker : Ticker) (recipient : Address) (total : Amount)
  | transfer (ticker : Ticker) (sender : Address) (recipients : List Address) (each total : Amount)
  | createPool (key : PoolKey) (holder : Address) (amountA amountB : Amount)
  | addLiquidity (key : PoolKey) (holder : Address) (amountA amountB : Amount) (first : Bool)
  | removeLiquidity (key : PoolKey) (holder : Address) (liquidity : Amount)
  | swap (key : PoolKey) (holder : Address) (tickerIn tickerOut : Ticker)
      (amountIn fee amountOut : Amount) (owner : Address)
  | deposit (holder : Address) (amount : Amount)
  | withdraw (holder : Address) (amount : Amount)
  deriving DecidableEq

def Approval.kind : Approval → Kind
  | deploy .. => .deploy
  | mint .. => .mint
  | transfer .. => .transfer
  | createPool .. => .create
  | addLiquidity .. => .add
  | removeLiquidity .. => .remove
  | swap .. => .swap
  | deposit .. => .deposit
  | withdraw .. => .withdraw
end TokenLedger
