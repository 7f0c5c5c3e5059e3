import TokenLedger.Amount
import TokenLedger.Ticker

/-! Pools of two tokens. A pair of tickers in ascending order names a pool; the liquidity token and
the address that holds the reserves take their names from the pair. Prices keep the product of the
reserves constant in whole units: every quotient is a floor, and every product is exact. -/
namespace TokenLedger

/-- The name of a pool. A pair is ordered where it is built by `ofPair`, not where it is read. -/
@[ext] structure PoolKey where
  a : Ticker
  b : Ticker
  deriving DecidableEq

structure Pool where
  reserveA : Amount
  reserveB : Amount
  /-- All liquidity tokens of the pool; zero before the first deposit. -/
  liquidity : Amount
  /-- Who holds the reserves. -/
  owner : Address
  deriving DecidableEq

namespace PoolKey

instance : ToString PoolKey := ⟨fun k => k.a.text ++ "/" ++ k.b.text⟩

instance : Keyed PoolKey where
  key k := [k.a.text, k.b.text]
  key_injective h := by
    simp only [List.cons.injEq, and_true] at h
    exact PoolKey.ext (Ticker.ext h.1) (Ticker.ext h.2)

/-- The key of two tickers in either order. -/
def ofPair (x y : Ticker) : PoolKey := if (compare x y).isLE then ⟨x, y⟩ else ⟨y, x⟩

def shareTicker (k : PoolKey) : Ticker := k.a.joined k.b

def owner (k : PoolKey) : Address := ⟨k.shareTicker.text⟩

theorem ofPair_comm (x y : Ticker) : ofPair x y = ofPair y x := by
  unfold ofPair
  rw [Std.OrientedOrd.eq_swap (a := y) (b := x)]
  cases h : compare x y
  · rfl
  · rw [Std.LawfulEqOrd.eq_of_compare h]; rfl
  · rfl

end PoolKey

namespace Pool

/-- A pool without reserves, whose reserves the key's own address will hold. -/
def empty (k : PoolKey) : Pool := ⟨.zero, .zero, .zero, k.owner⟩

/-- The reserves of the given and of the other ticker. A ticker that is not the first counts as the
second. -/
def reservesFor (p : Pool) (k : PoolKey) (given : Ticker) : Amount × Amount :=
  if given = k.a then (p.reserveA, p.reserveB) else (p.reserveB, p.reserveA)

end Pool

structure Sides where
  tickerA : Ticker
  tickerB : Ticker
  amountA : Amount
  amountB : Amount
  minA : Bound
  minB : Bound
  deriving DecidableEq

namespace Sides

def swap (s : Sides) : Sides := ⟨s.tickerB, s.tickerA, s.amountB, s.amountA, s.minB, s.minA⟩

def sorted (s : Sides) : Sides := if compare s.tickerA s.tickerB = .gt then s.swap else s

end Sides

/-- Three units of every whole hundred given. -/
def swapFee (given : Amount) : Amount :=
  ⟨given.val / 100 * 3, by have := given.val_lt; omega⟩

@[simp] theorem val_swapFee (given : Amount) : (swapFee given).val = given.val / 100 * 3 := rfl

theorem swapFee_le (given : Amount) : swapFee given ≤ given := by
  rw [Amount.le_def, val_swapFee]; omega

structure Quote where
  fee : Amount
  /-- What is given less the fee. -/
  net : Amount
  /-- What is received. -/
  out : Amount
  deriving DecidableEq

theorem quotient_le_reserve (net reserveIn reserveOut : Nat) :
    net * reserveOut / (reserveIn + net) ≤ reserveOut := by
  rcases Nat.eq_zero_or_pos (reserveIn + net) with h | h
  · simp [h]
  · refine Nat.div_le_of_le_mul ?_
    exact Nat.mul_le_mul_right _ (Nat.le_add_left _ _)

/-- The price of a swap, undefined where both the reserve and the net amount given are zero. -/
def quote? (given reserveIn reserveOut : Amount) : Option Quote :=
  let fee := swapFee given
  let net := given.monus fee
  if reserveIn.val + net.val = 0 then none
  else some ⟨fee, net, ⟨net.product reserveOut / (reserveIn.val + net.val),
    Nat.lt_of_le_of_lt (quotient_le_reserve _ _ _) reserveOut.val_lt⟩⟩

/-- The amount of the other token that keeps the pool's ratio. -/
def counterAmount? (amount reserveThis reserveOther : Amount) : Option Nat :=
  amount.mulDiv? reserveOther reserveThis

/-- What a deposit into a pool with liquidity takes. -/
inductive AddPlan
  | keepA (amountA : Amount) (amountB : Nat)
  | keepB (amountA : Nat) (amountB : Amount)
  | slippage (bestA bestB : Nat)
  deriving DecidableEq

/-- Side A is kept if its counter-amount meets the minimum of side B, else side B if its own meets
the minimum of side A; undefined where a reserve is empty. -/
def planAdd? (amountA amountB : Amount) (minA minB : Bound) (reserveA reserveB : Amount) :
    Option AddPlan := do
  if reserveA = .zero ∨ reserveB = .zero then none
  let bestB ← counterAmount? amountA reserveA reserveB
  if minB.val ≤ bestB then return .keepA amountA bestB
  let bestA ← counterAmount? amountB reserveB reserveA
  if bestA < minA.val then return .slippage bestA bestB
  return .keepB bestA amountB

/-- Why a deposit mints nothing. -/
inductive ShareError
  | emptyReserves
  | overflow
  deriving DecidableEq

/-- The liquidity tokens that a deposit mints: the geometric mean of the first one, then the smaller
of the two shares of what is there. -/
def sharesFor (p : Pool) (amountA amountB : Amount) : Except ShareError Amount :=
  if p.liquidity = .zero then .ok (amountA.sqrtProduct amountB)
  else match amountA.mulDiv? p.liquidity p.reserveA, amountB.mulDiv? p.liquidity p.reserveB with
    | some viaA, some viaB =>
      match Amount.ofNat? (min viaA viaB) with
      | some minted => .ok minted
      | none => .error .overflow
    | _, _ => .error .emptyReserves
end TokenLedger
