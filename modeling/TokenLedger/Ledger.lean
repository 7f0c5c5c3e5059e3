import Std.Data.ExtTreeMap
import TokenLedger.Inquiry
import TokenLedger.Operation
import TokenLedger.Pool

/-! The ledger: tokens, balances and pools, each table ordered by its key. Two ledgers with the same
records are equal. An approval is carried out as a whole or refused as a whole, and the journal
lists the balance changes in the order in which they are made. -/
namespace TokenLedger

/-- Where a balance is recorded. -/
@[ext] structure Slot where
  ticker : Ticker
  holder : Address
  deriving DecidableEq

instance : Keyed Slot where
  key s := [s.ticker.text, s.holder.text]
  key_injective h := by
    simp only [List.cons.injEq, and_true] at h
    exact Slot.ext (Ticker.ext h.1) (Address.ext h.2)

structure Ledger where
  tokens : Std.ExtTreeMap Ticker Token
  balances : Std.ExtTreeMap Slot Amount
  pools : Std.ExtTreeMap PoolKey Pool

namespace Ledger

def empty : Ledger := ⟨∅, ∅, ∅⟩

@[ext] theorem ext {l m : Ledger} (ht : ∀ t : Ticker, l.tokens[t]? = m.tokens[t]?)
    (hb : ∀ s : Slot, l.balances[s]? = m.balances[s]?)
    (hp : ∀ k : PoolKey, l.pools[k]? = m.pools[k]?) : l = m := by
  cases l; cases m
  simp only [mk.injEq]
  exact ⟨Std.ExtTreeMap.ext_getElem? ht, Std.ExtTreeMap.ext_getElem? hb,
    Std.ExtTreeMap.ext_getElem? hp⟩

def token? (l : Ledger) (t : Ticker) : Option Token := l.tokens[t]?

def balance? (l : Ledger) (t : Ticker) (a : Address) : Option Amount := l.balances[(⟨t, a⟩ : Slot)]?

def pool? (l : Ledger) (k : PoolKey) : Option Pool := l.pools[k]?

/-- The balance, which is zero where none is recorded. -/
def held (l : Ledger) (t : Ticker) (a : Address) : Amount := (l.balance? t a).getD .zero

def setToken (l : Ledger) (t : Ticker) (r : Token) : Ledger :=
  { l with tokens := l.tokens.insert t r }

def setBalance (l : Ledger) (t : Ticker) (a : Address) (x : Amount) : Ledger :=
  { l with balances := l.balances.insert ⟨t, a⟩ x }

def setPool (l : Ledger) (k : PoolKey) (p : Pool) : Ledger :=
  { l with pools := l.pools.insert k p }

@[simp] theorem token?_setToken (l : Ledger) (t u : Ticker) (r : Token) :
    (l.setToken t r).token? u = if t = u then some r else l.token? u := by
  simp [token?, setToken, Std.ExtTreeMap.getElem?_insert]

@[simp] theorem balance?_setBalance (l : Ledger) (t u : Ticker) (a b : Address) (x : Amount) :
    (l.setBalance t a x).balance? u b = if t = u ∧ a = b then some x else l.balance? u b := by
  simp [balance?, setBalance, Std.ExtTreeMap.getElem?_insert]

@[simp] theorem pool?_setPool (l : Ledger) (k m : PoolKey) (p : Pool) :
    (l.setPool k p).pool? m = if k = m then some p else l.pool? m := by
  simp [pool?, setPool, Std.ExtTreeMap.getElem?_insert]

@[simp] theorem token?_setBalance (l : Ledger) (t u : Ticker) (a : Address) (x : Amount) :
    (l.setBalance t a x).token? u = l.token? u := rfl

@[simp] theorem token?_setPool (l : Ledger) (k : PoolKey) (p : Pool) (u : Ticker) :
    (l.setPool k p).token? u = l.token? u := rfl

@[simp] theorem balance?_setToken (l : Ledger) (t u : Ticker) (r : Token) (b : Address) :
    (l.setToken t r).balance? u b = l.balance? u b := rfl

@[simp] theorem balance?_setPool (l : Ledger) (k : PoolKey) (p : Pool) (u : Ticker) (b : Address) :
    (l.setPool k p).balance? u b = l.balance? u b := rfl

@[simp] theorem pool?_setToken (l : Ledger) (t : Ticker) (r : Token) (m : PoolKey) :
    (l.setToken t r).pool? m = l.pool? m := rfl

@[simp] theorem pool?_setBalance (l : Ledger) (t : Ticker) (a : Address) (x : Amount)
    (m : PoolKey) : (l.setBalance t a x).pool? m = l.pool? m := rfl

def holders (l : Ledger) (t : Ticker) : List (Address × Amount) :=
  (l.balances.toList.filter fun b => b.1.ticker = t).map fun b => (b.1.holder, b.2)

def circulating (l : Ledger) (t : Ticker) : Nat :=
  (l.holders t).foldr (fun h sum => h.2.val + sum) 0

def answer (l : Ledger) : (q : Query) → q.Answer
  | .supply t => (l.token? t).map Token.supply
  | .balance t a => l.balance? t a
  | .pool k => l.pool? k

end Ledger

inductive Direction
  | credit | debit
  deriving DecidableEq

structure Movement where
  ticker : Ticker
  holder : Address
  direction : Direction
  amount : Amount
  deriving DecidableEq

abbrev Journal := List Movement

/-- A number that would leave its range. -/
inductive Excess
  | balance (ticker : Ticker) (holder : Address)
  | reserveA
  | reserveB
  | liquidityTotal
  | wrappedSupply
  | liquidityMinted (key : PoolKey)
  deriving DecidableEq

def Excess.describe : Excess → String
  | balance t a => s!"{t} balance of {a}"
  | reserveA => "reserve_a"
  | reserveB => "reserve_b"
  | liquidityTotal => "liquidity_total"
  | wrappedSupply => "wrapped supply"
  | liquidityMinted k => s!"liquidity minted for {k}"

/-- Why the ledger does not carry out an approval. -/
inductive Refusal
  | insufficient (ticker : Ticker) (holder : Address) (available required : Amount)
  | notDeployed (ticker : Ticker)
  | alreadyDeployed (ticker : Ticker)
  | poolNotFound (key : PoolKey)
  | poolExists (key : PoolKey)
  | emptyReserves (key : PoolKey)
  | supplyExceeded (ticker : Ticker) (minted amount max : Amount)
  | overflow (what : Excess)
  deriving DecidableEq

def Refusal.message : Refusal → String
  | insufficient t a available required =>
    s!"insufficient {t} at {a}: has {available}, needs {required}"
  | notDeployed t => s!"ticker not deployed: {t}"
  | alreadyDeployed t => s!"ticker already deployed: {t}"
  | poolNotFound k => s!"pool not found: {k}"
  | poolExists k => s!"pool already exists: {k}"
  | emptyReserves k => s!"pool has empty reserves: {k}"
  | supplyExceeded t minted amount max => s!"supply exceeded for {t}: {minted} + {amount} > {max}"
  | overflow what => "amount overflow in " ++ what.describe

/-- A ledger with the changes made to it so far. -/
structure Draft where
  ledger : Ledger
  journal : Journal

namespace Draft

def record (d : Draft) (m : Movement) (balance : Amount) : Draft :=
  ⟨d.ledger.setBalance m.ticker m.holder balance, d.journal ++ [m]⟩

def credit (d : Draft) (t : Ticker) (a : Address) (x : Amount) : Except Refusal Draft :=
  match (d.ledger.held t a).add? x with
  | some balance => .ok (d.record ⟨t, a, .credit, x⟩ balance)
  | none => .error (.overflow (.balance t a))

def debit (d : Draft) (t : Ticker) (a : Address) (x : Amount) : Except Refusal Draft :=
  match (d.ledger.held t a).sub? x with
  | some balance => .ok (d.record ⟨t, a, .debit, x⟩ balance)
  | none => .error (.insufficient t a (d.ledger.held t a) x)

def move (d : Draft) (t : Ticker) (sender recipient : Address) (x : Amount) :
    Except Refusal Draft := do
  let d ← d.debit t sender x
  d.credit t recipient x

def creditAll (d : Draft) (t : Ticker) (x : Amount) : List Address → Except Refusal Draft
  | [] => .ok d
  | a :: as => do (← d.credit t a x).creditAll t x as

def setToken (d : Draft) (t : Ticker) (r : Token) : Draft :=
  { d with ledger := d.ledger.setToken t r }

def setPool (d : Draft) (k : PoolKey) (p : Pool) : Draft :=
  { d with ledger := d.ledger.setPool k p }

def pool (d : Draft) (k : PoolKey) : Except Refusal Pool :=
  match d.ledger.pool? k with
  | some p => .ok p
  | none => .error (.poolNotFound k)

end Draft

def grow (what : Excess) (value increase : Amount) : Except Refusal Amount :=
  match value.add? increase with
  | some x => .ok x
  | none => .error (.overflow what)

/-- A difference of what a pool's owner has on record. -/
def shrink (t : Ticker) (owner : Address) (value decrease : Amount) : Except Refusal Amount :=
  match value.sub? decrease with
  | some x => .ok x
  | none => .error (.insufficient t owner value decrease)

/-- The tokens that a deposit mints, with the pool named in a refusal. -/
def mintedShares (k : PoolKey) (p : Pool) (amountA amountB : Amount) : Except Refusal Amount :=
  match sharesFor p amountA amountB with
  | .ok minted => .ok minted
  | .error .emptyReserves => .error (.emptyReserves k)
  | .error .overflow => .error (.overflow (.liquidityMinted k))

/-- The part of a reserve that liquidity tokens stand for. -/
def redeemed (k : PoolKey) (p : Pool) (liquidity reserve : Amount) : Except Refusal Amount :=
  match (liquidity.mulDiv? reserve p.liquidity).bind Amount.ofNat? with
  | some x => .ok x
  | none => .error (.emptyReserves k)

namespace Draft

def deploy (d : Draft) (t : Ticker) (max limit : Amount) (decimals : UInt8) (deployer : Address) :
    Except Refusal Draft :=
  match d.ledger.token? t with
  | some _ => .error (.alreadyDeployed t)
  | none => .ok (d.setToken t (.deployed max limit decimals deployer))

def mint (d : Draft) (t : Ticker) (recipient : Address) (total : Amount) : Except Refusal Draft :=
  match d.ledger.token? t with
  | none => .error (.notDeployed t)
  | some r =>
    match r.supply.minted.add? total with
    | some minted =>
      if minted ≤ r.supply.max then (d.setToken t (r.withMinted minted)).credit t recipient total
      else .error (.supplyExceeded t r.supply.minted total r.supply.max)
    | none => .error (.supplyExceeded t r.supply.minted total r.supply.max)

def transfer (d : Draft) (t : Ticker) (sender : Address) (recipients : List Address)
    (each total : Amount) : Except Refusal Draft := do
  let d ← d.debit t sender total
  d.creditAll t each recipients

def createPool (d : Draft) (k : PoolKey) (holder : Address) (amountA amountB : Amount) :
    Except Refusal Draft :=
  match d.ledger.pool? k with
  | some _ => .error (.poolExists k)
  | none => do
    let d ← d.move k.a holder k.owner amountA
    let d ← d.move k.b holder k.owner amountB
    let liquidity := amountA.sqrtProduct amountB
    let d ← d.credit k.shareTicker holder liquidity
    return d.setPool k ⟨amountA, amountB, liquidity, k.owner⟩

def addLiquidity (d : Draft) (k : PoolKey) (holder : Address) (amountA amountB : Amount) :
    Except Refusal Draft := do
  let p ← d.pool k
  let minted ← mintedShares k p amountA amountB
  let d ← d.move k.a holder p.owner amountA
  let d ← d.move k.b holder p.owner amountB
  let d ← d.credit k.shareTicker holder minted
  let reserveA ← grow .reserveA p.reserveA amountA
  let reserveB ← grow .reserveB p.reserveB amountB
  let liquidity ← grow .liquidityTotal p.liquidity minted
  return d.setPool k ⟨reserveA, reserveB, liquidity, p.owner⟩

def removeLiquidity (d : Draft) (k : PoolKey) (holder : Address) (liquidity : Amount) :
    Except Refusal Draft := do
  let p ← d.pool k
  let outA ← redeemed k p liquidity p.reserveA
  let outB ← redeemed k p liquidity p.reserveB
  let d ← d.debit k.shareTicker holder liquidity
  let d ← d.move k.a p.owner holder outA
  let d ← d.move k.b p.owner holder outB
  let reserveA ← shrink k.a p.owner p.reserveA outA
  let reserveB ← shrink k.b p.owner p.reserveB outB
  let remaining ← shrink k.shareTicker p.owner p.liquidity liquidity
  return d.setPool k ⟨reserveA, reserveB, remaining, p.owner⟩

/-- The fee stays in the pool: all that is given joins the reserve. -/
def swap (d : Draft) (k : PoolKey) (holder : Address) (tickerIn tickerOut : Ticker)
    (amountIn amountOut : Amount) (owner : Address) : Except Refusal Draft := do
  let p ← d.pool k
  let d ← d.move tickerIn holder owner amountIn
  let d ← d.move tickerOut owner holder amountOut
  if tickerIn = k.a then
    let reserveA ← grow .reserveA p.reserveA amountIn
    let reserveB ← shrink tickerOut p.owner p.reserveB amountOut
    return d.setPool k { p with reserveA, reserveB }
  else
    let reserveB ← grow .reserveB p.reserveB amountIn
    let reserveA ← shrink tickerOut p.owner p.reserveA amountOut
    return d.setPool k { p with reserveA, reserveB }

def deposit (d : Draft) (holder : Address) (amount : Amount) : Except Refusal Draft := do
  let r := (d.ledger.token? .wrapped).getD .wrapped
  let minted ← grow .wrappedSupply r.supply.minted amount
  (d.setToken .wrapped (r.withMinted minted)).credit .wrapped holder amount

/-- The bridge may have no record where its balances were set by hand. -/
def withdraw (d : Draft) (holder : Address) (amount : Amount) : Except Refusal Draft := do
  let d ← d.debit .wrapped holder amount
  match d.ledger.token? .wrapped with
  | some r => return d.setToken .wrapped (r.withMinted (r.supply.minted.monus amount))
  | none => return d

def apply (d : Draft) : Approval → Except Refusal Draft
  | .deploy t max limit decimals deployer => d.deploy t max limit decimals deployer
  | .mint t recipient total => d.mint t recipient total
  | .transfer t sender recipients each total => d.transfer t sender recipients each total
  | .createPool k holder a b => d.createPool k holder a b
  | .addLiquidity k holder a b _ => d.addLiquidity k holder a b
  | .removeLiquidity k holder liquidity => d.removeLiquidity k holder liquidity
  | .swap k holder tickerIn tickerOut amountIn _ amountOut owner =>
    d.swap k holder tickerIn tickerOut amountIn amountOut owner
  | .deposit holder amount => d.deposit holder amount
  | .withdraw holder amount => d.withdraw holder amount

end Draft

/-- The ledger after an approval, and its journal. -/
def Ledger.apply (l : Ledger) (a : Approval) : Except Refusal (Ledger × Journal) :=
  ((Draft.mk l []).apply a).map fun d => (d.ledger, d.journal)
end TokenLedger
