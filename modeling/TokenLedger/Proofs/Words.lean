import Mathlib.Data.Nat.Sqrt
import TokenLedger.Proofs.Accepted
import TokenLedger.Proofs.Pricing

/-! Prices and the totals of mints in words of 256 and 512 bits. There a sum, a difference or a
product that leaves the width of its operands ends the computation, and so does a division by zero.
Main statement: no computation ends so, and the words hold the exact numbers. -/
namespace TokenLedger

/-- What ends a computation in words. -/
inductive Fault
  | overflow
  | divisionByZero
  deriving DecidableEq

theorem floorRoot_eq_sqrt (n : Nat) : floorRoot n = n.sqrt := Nat.eq_sqrt.2 (floorRoot_bounds n)

/-- What a quote has to be: the fee and the rest of what is given, and for the rest its share of the
whole, rounded down. -/
structure Quote.Exact (given reserveIn reserveOut : Amount) (q : Quote) : Prop where
  fee : q.fee.val = 3 * (given.val / 100)
  net : q.net.val + q.fee.val = given.val
  out : q.out.val = q.net.val * reserveOut.val / (reserveIn.val + q.net.val)
  out_le : q.out ≤ reserveOut
  out_lt : 0 < reserveIn.val → 0 < reserveOut.val → q.out < reserveOut

theorem Quote.exact_of_quote? {given reserveIn reserveOut : Amount} {q : Quote}
    (h : quote? given reserveIn reserveOut = some q) : q.Exact given reserveIn reserveOut := by
  obtain ⟨hfee, hnet, hout⟩ := quote?_eq_some h
  have hle := swapFee_le given
  constructor
  · rw [hfee, val_swapFee, Nat.mul_comm]
  · rw [hfee, hnet]
    exact Nat.sub_add_cancel hle
  · exact hout
  · exact quote?_out_le h
  · intro hin hpos
    rw [Amount.lt_def, hout]
    exact quotient_lt_reserve _ hin hpos

namespace Amount

variable {a b c : Amount} {n : Nat}

theorem mulDiv?_eq_none_iff : a.mulDiv? b c = none ↔ c.val = 0 := by
  unfold mulDiv?
  split
  · next h => simp only [h]
  · next h => simp only [reduceCtorEq, h]

theorem mulDiv?_floor (h : a.mulDiv? b c = some n) :
    n * c.val ≤ a.val * b.val ∧ a.val * b.val < (n + 1) * c.val := by
  unfold mulDiv? at h
  split at h
  · cases h
  · next hc =>
    cases h
    refine ⟨Nat.div_mul_le_self _ _, ?_⟩
    rw [Nat.mul_comm _ c.val]
    exact Nat.lt_mul_div_succ _ (Nat.pos_of_ne_zero hc)

theorem eq_sqrtProduct_iff : n = (a.sqrtProduct b).val ↔
    n * n ≤ a.val * b.val ∧ a.val * b.val < (n + 1) * (n + 1) := by
  rw [val_sqrtProduct, floorRoot_eq_sqrt]
  exact Nat.eq_sqrt

theorem sqrtProduct_between : Nat.min a.val b.val ≤ (a.sqrtProduct b).val ∧
    (a.sqrtProduct b).val ≤ Nat.max a.val b.val := by
  rw [val_sqrtProduct, floorRoot_eq_sqrt]
  constructor
  · exact Nat.le_sqrt.2 (Nat.mul_le_mul (Nat.min_le_left _ _) (Nat.min_le_right _ _))
  · calc (a.product b).sqrt ≤ (Nat.max a.val b.val * Nat.max a.val b.val).sqrt :=
          Nat.sqrt_le_sqrt (Nat.mul_le_mul (Nat.le_max_left _ _) (Nat.le_max_right _ _))
      _ = Nat.max a.val b.val := Nat.sqrt_eq _

end Amount

namespace Word

variable {w : Nat} {x y z : BitVec w}

def limit (w : Nat) : Nat := Nat.pow 2 w

/-- A result, unless it left the width. -/
def checked (overflows : Bool) (result : BitVec w) : Except Fault (BitVec w) :=
  if overflows then .error .overflow else .ok result

def add (x y : BitVec w) : Except Fault (BitVec w) := checked (x.uaddOverflow y) (x + y)

def sub (x y : BitVec w) : Except Fault (BitVec w) := checked (x.usubOverflow y) (x - y)

def mul (x y : BitVec w) : Except Fault (BitVec w) := checked (x.umulOverflow y) (x * y)

def div (x y : BitVec w) : Except Fault (BitVec w) :=
  if y = 0 then .error .divisionByZero else .ok (x / y)

def sqrt (x : BitVec w) : BitVec w :=
  BitVec.ofNatLT x.toNat.sqrt (Nat.lt_of_le_of_lt (Nat.sqrt_le_self _) x.isLt)

def widen (x : BitVec 256) : BitVec 512 := x.setWidth 512

/-- The lower half of a word whose upper half is empty. -/
def narrow? (x : BitVec 512) : Option (BitVec 256) :=
  if x.toNat < 2 ^ 256 then some (x.setWidth 256) else none

theorem checked_eq_ok_iff {overflows : Bool} {result : BitVec w} {p : Prop}
    (hover : overflows = true → ¬p) (hfit : overflows = false → (result = z ↔ p)) :
    checked overflows result = .ok z ↔ p := by
  unfold checked
  cases overflows with
  | true => simp only [if_true, reduceCtorEq, hover rfl]
  | false => simp only [Bool.false_eq_true, if_false, Except.ok.injEq, hfit rfl]

theorem add_eq_ok_iff : add x y = .ok z ↔ z.toNat = x.toNat + y.toNat := by
  have hlt := z.isLt
  refine checked_eq_ok_iff (fun h => ?_) fun h => ?_
  · simp only [BitVec.uaddOverflow, decide_eq_true_eq] at h
    omega
  · rw [← BitVec.toNat_inj, BitVec.toNat_add_of_not_uaddOverflow (by simp [h]), eq_comm]

theorem sub_eq_ok_iff : sub x y = .ok z ↔ z.toNat + y.toNat = x.toNat := by
  refine checked_eq_ok_iff (fun h => ?_) fun h => ?_
  · simp only [BitVec.usubOverflow, decide_eq_true_eq] at h
    omega
  · rw [← BitVec.toNat_inj, BitVec.toNat_sub_of_not_usubOverflow (by simp [h])]
    simp only [BitVec.usubOverflow, decide_eq_false_iff_not] at h
    omega

theorem mul_eq_ok_iff : mul x y = .ok z ↔ z.toNat = x.toNat * y.toNat := by
  have hlt := z.isLt
  refine checked_eq_ok_iff (fun h => ?_) fun h => ?_
  · simp only [BitVec.umulOverflow, decide_eq_true_eq] at h
    omega
  · rw [← BitVec.toNat_inj, BitVec.toNat_mul_of_not_umulOverflow (by simp [h]), eq_comm]

example : mul 16#8 16#8 = .error .overflow := by decide

theorem eq_zero_iff : x = 0 ↔ x.toNat = 0 := by
  rw [← BitVec.toNat_inj]
  rfl

theorem div_eq_ok_iff : div x y = .ok z ↔ y.toNat ≠ 0 ∧ z.toNat = x.toNat / y.toNat := by
  unfold div
  split
  · next h => simp only [reduceCtorEq, eq_zero_iff.1 h, ne_eq, not_true_eq_false, false_and]
  · next h =>
    rw [Except.ok.injEq, ← BitVec.toNat_inj, BitVec.toNat_udiv, eq_comm,
      and_iff_right (eq_zero_iff.not.1 h)]

theorem toNat_sqrt : (sqrt x).toNat = x.toNat.sqrt := BitVec.toNat_ofNatLT _ _

theorem limit_add (m n : Nat) : limit (m + n) = limit m * limit n := Nat.pow_add 2 m n

theorem limit_wide : limit 512 = Bound.limit := limit_add 256 256

theorem exists_add {n : Nat} (hn : x.toNat + y.toNat = n) (h : n < limit w) :
    ∃ z, add x y = .ok z ∧ z.toNat = n := by
  have hz := BitVec.toNat_ofNatLT n h
  exact ⟨_, add_eq_ok_iff.2 (hz.trans hn.symm), hz⟩

theorem exists_mul {n : Nat} (hn : x.toNat * y.toNat = n) (h : n < limit w) :
    ∃ z, mul x y = .ok z ∧ z.toNat = n := by
  have hz := BitVec.toNat_ofNatLT n h
  exact ⟨_, mul_eq_ok_iff.2 (hz.trans hn.symm), hz⟩

theorem exists_div (x : BitVec w) (h : y.toNat ≠ 0) :
    ∃ z, div x y = .ok z ∧ z.toNat = x.toNat / y.toNat :=
  ⟨x / y, div_eq_ok_iff.2 ⟨h, BitVec.toNat_udiv⟩, BitVec.toNat_udiv⟩

@[simp] theorem toNat_widen (x : BitVec 256) : (widen x).toNat = x.toNat :=
  BitVec.toNat_setWidth_of_le (by decide)

theorem narrow?_eq_some_iff {x : BitVec 512} {y : BitVec 256} :
    narrow? x = some y ↔ y.toNat = x.toNat := by
  have hy := y.isLt
  unfold narrow?
  split
  · next h =>
    rw [Option.some.injEq, ← BitVec.toNat_inj, BitVec.toNat_setWidth, Nat.mod_eq_of_lt h, eq_comm]
  · next h =>
    simp only [reduceCtorEq, false_iff]
    omega

end Word

namespace Amount

def word (a : Amount) : BitVec 256 := BitVec.ofNatLT a.val a.val_lt

@[simp] theorem toNat_word (a : Amount) : a.word.toNat = a.val := rfl

theorem exists_word (x : BitVec 256) : ∃ a : Amount, a.word = x := ⟨⟨x.toNat, x.isLt⟩, rfl⟩

theorem product_add_lt (a b c : Amount) : a.product b + c.val < Bound.limit :=
  calc a.product b + c.val < a.val * limit + limit :=
        Nat.add_lt_add_of_le_of_lt (Nat.mul_le_mul_left _ b.val_lt.le) c.val_lt
    _ = (a.val + 1) * limit := (Nat.succ_mul _ _).symm
    _ ≤ limit * limit := Nat.mul_le_mul_right _ a.val_lt

theorem add_lt (a b : Amount) : a.val + b.val < Bound.limit :=
  calc a.val + b.val < limit + limit := Nat.add_lt_add a.val_lt b.val_lt
    _ ≤ Bound.limit := by decide

end Amount

namespace Word

open Amount

def swapFee (given : BitVec 256) : Except Fault (BitVec 256) := do
  mul (← div given 100) 3

def product (a b : BitVec 256) : Except Fault (BitVec 512) := mul (widen a) (widen b)

def quote? (given reserveIn reserveOut : BitVec 256) :
    Except Fault (Option (BitVec 256 × BitVec 256 × BitVec 256)) := do
  let fee ← swapFee given
  let net ← sub given fee
  let whole ← add (widen reserveIn) (widen net)
  if whole = 0 then return none
  else
    let out ← div (← product net reserveOut) whole
    return (narrow? out).map fun out => (fee, net, out)

def mulDiv? (a b c : BitVec 256) : Except Fault (Option (BitVec 512)) :=
  if c = 0 then return none
  else return some (← div (← product a b) (widen c))

/-- The root of the product, or nothing if it takes more than an amount. -/
def sqrtProduct? (a b : BitVec 256) : Except Fault (Option (BitVec 256)) := do
  let product ← product a b
  return narrow? (sqrt product)

/-- The total of a mint, unless it takes more than an amount or exceeds what may be minted. -/
def mintTotal? (amount : BitVec 256) (repeats : BitVec 64) (minted max : BitVec 256) :
    Except Fault (Option (BitVec 256)) := do
  let total ← product amount (repeats.setWidth 256)
  let after ← add total (widen minted)
  return (narrow? total).filter fun _ => after ≤ widen max

variable (a b c given reserveIn reserveOut : Amount)

theorem swapFee_word : swapFee given.word = .ok (TokenLedger.swapFee given).word := by
  have hlt := given.val_lt
  let hundreds : Amount := ⟨given.val / 100, by omega⟩
  have hdiv : div given.word 100 = .ok hundreds.word := div_eq_ok_iff.2 ⟨by decide, rfl⟩
  rw [swapFee, bind_of_ok hdiv]
  exact mul_eq_ok_iff.2 rfl

theorem exists_product : ∃ p, product a.word b.word = .ok p ∧ p.toNat = a.product b := by
  refine exists_mul ?_ (limit_wide ▸ a.product_lt b)
  rw [toNat_widen, toNat_widen, toNat_word, toNat_word, Amount.product]

theorem exists_add_widen {x : BitVec 512} {n : Nat} (hx : x.toNat = n)
    (h : n + c.val < Bound.limit) : ∃ z, add x (widen c.word) = .ok z ∧ z.toNat = n + c.val := by
  refine exists_add ?_ (limit_wide ▸ h)
  rw [hx, toNat_widen, toNat_word]

theorem narrow?_of_toNat {x : BitVec 512} (h : x.toNat = a.val) : narrow? x = some a.word :=
  narrow?_eq_some_iff.2 h.symm

/-- A quotient by a whole reserve is at most the other reserve, so that it always takes half the
width of the product it is taken of. -/
theorem quote?_word : quote? given.word reserveIn.word reserveOut.word =
    .ok ((TokenLedger.quote? given reserveIn reserveOut).map fun q =>
      (q.fee.word, q.net.word, q.out.word)) := by
  let net := given.monus (TokenLedger.swapFee given)
  have hsub : sub given.word (TokenLedger.swapFee given).word = .ok net.word :=
    sub_eq_ok_iff.2 (Nat.sub_add_cancel (swapFee_le given))
  obtain ⟨whole, hadd, hwhole⟩ :=
    exists_add_widen net (toNat_widen reserveIn.word) (reserveIn.add_lt net)
  have hzero : whole = 0 ↔ reserveIn.val + net.val = 0 := hwhole ▸ eq_zero_iff
  obtain ⟨prod, hmul, hprod⟩ := exists_product net reserveOut
  rw [quote?, bind_of_ok (swapFee_word given), bind_of_ok hsub, bind_of_ok hadd]
  cases hq : TokenLedger.quote? given reserveIn reserveOut with
  | none =>
    rw [if_pos (hzero.2 (quote?_eq_none_iff.1 hq))]
    rfl
  | some q =>
    obtain ⟨hfee, hnet, hout⟩ := quote?_eq_some hq
    replace hnet : q.net = net := Amount.ext hnet
    have hpos : reserveIn.val + net.val ≠ 0 := fun h => by
      rw [quote?_eq_none_iff.2 h] at hq
      cases hq
    obtain ⟨out, hdiv, hto⟩ := exists_div prod (hwhole ▸ hpos)
    replace hto : out.toNat = q.out.val := by
      rw [hto, hprod, hwhole, hout, hnet, toNat_word, Amount.product]
    rw [if_neg (hzero.not.2 hpos), bind_of_ok hmul, bind_of_ok hdiv, narrow?_of_toNat _ hto, ← hfee,
      ← hnet]
    rfl

theorem mulDiv?_word : (mulDiv? a.word b.word c.word).map (Option.map BitVec.toNat) =
    .ok (a.mulDiv? b c) := by
  have hzero : c.word = 0 ↔ c.val = 0 := eq_zero_iff
  rw [mulDiv?, Amount.mulDiv?]
  by_cases h : c.val = 0
  · rw [if_pos (hzero.2 h), if_pos h]
    rfl
  · obtain ⟨prod, hmul, hprod⟩ := exists_product a b
    obtain ⟨out, hdiv, hout⟩ := exists_div (y := widen c.word) prod ((toNat_widen _).trans_ne h)
    rw [toNat_widen, toNat_word, hprod] at hout
    rw [if_neg (hzero.not.2 h), if_neg h, bind_of_ok hmul, bind_of_ok hdiv, ← hout]
    rfl

theorem sqrtProduct?_word :
    sqrtProduct? a.word b.word = .ok (some (a.sqrtProduct b).word) := by
  obtain ⟨prod, hmul, hprod⟩ := exists_product a b
  have hroot : (sqrt prod).toNat = (a.sqrtProduct b).val := by
    rw [toNat_sqrt, hprod, val_sqrtProduct, floorRoot_eq_sqrt]
  rw [sqrtProduct?, bind_of_ok hmul]
  exact congrArg Except.ok (narrow?_of_toNat _ hroot)

theorem mintTotal?_word (op : TokenOperation) (s : Supply) :
    mintTotal? op.amount.word op.repeats.toBitVec s.minted.word s.max.word =
      .ok ((op.mintTotal? s).map Amount.word) := by
  obtain ⟨prod, hmul, hprod⟩ := exists_product op.amount (.ofUInt64 op.repeats)
  obtain ⟨after, hadd, hafter⟩ := exists_add_widen s.minted hprod (op.amount.product_add_lt _ _)
  have hrepeats : op.repeats.toBitVec.setWidth 256 = (Amount.ofUInt64 op.repeats).word := by
    rw [← BitVec.toNat_inj, BitVec.toNat_setWidth_of_le (by decide)]
    rfl
  have hle : after ≤ widen s.max.word ↔
      op.amount.val * op.repeats.toNat + s.minted.val ≤ s.max.val := by
    rw [BitVec.le_def, toNat_widen, toNat_word, hafter]
    rfl
  rw [mintTotal?, hrepeats, bind_of_ok hmul, bind_of_ok hadd]
  refine congrArg Except.ok (Option.ext fun y => ?_)
  rw [Option.filter_eq_some_iff, narrow?_eq_some_iff, decide_eq_true_iff, hle, hprod,
    Option.map_eq_some_iff]
  constructor
  · rintro ⟨hy, hmax⟩
    obtain ⟨total, rfl⟩ := exists_word y
    replace hy : total.val = op.amount.val * op.repeats.toNat := hy
    exact ⟨total, TokenOperation.mintTotal?_eq_some_iff.2 ⟨hy, hy ▸ hmax⟩, rfl⟩
  · rintro ⟨total, htotal, rfl⟩
    obtain ⟨hy, hmax⟩ := TokenOperation.mintTotal?_eq_some_iff.1 htotal
    exact ⟨hy, hy ▸ hmax⟩

/-- Every step of these computations stays within its width, for whatever amounts. The fee is three
of every hundred units; a price is undefined only without a net amount and a reserve, and else
exact; quotients and roots are floors, a root lies between its factors; and a mint is refused for
its total exactly where the total is too large. -/
theorem arithmetic_exact (given reserveIn reserveOut a b c : Amount) (op : TokenOperation)
    (s : Supply) :
    ((TokenLedger.swapFee given).val = 3 * (given.val / 100) ∧ TokenLedger.swapFee given ≤ given ∧
      swapFee given.word = .ok (TokenLedger.swapFee given).word) ∧
    ((TokenLedger.quote? given reserveIn reserveOut = none ↔
        reserveIn.val + (given.val - 3 * (given.val / 100)) = 0) ∧
      (∀ q, TokenLedger.quote? given reserveIn reserveOut = some q →
        q.Exact given reserveIn reserveOut) ∧
      quote? given.word reserveIn.word reserveOut.word =
        .ok ((TokenLedger.quote? given reserveIn reserveOut).map fun q =>
          (q.fee.word, q.net.word, q.out.word))) ∧
    ((a.mulDiv? b c = none ↔ c.val = 0) ∧
      (∀ n, a.mulDiv? b c = some n →
        n * c.val ≤ a.val * b.val ∧ a.val * b.val < (n + 1) * c.val) ∧
      (mulDiv? a.word b.word c.word).map (Option.map BitVec.toNat) = .ok (a.mulDiv? b c)) ∧
    ((∀ n, n = (a.sqrtProduct b).val ↔
        n * n ≤ a.val * b.val ∧ a.val * b.val < (n + 1) * (n + 1)) ∧
      (Nat.min a.val b.val ≤ (a.sqrtProduct b).val ∧
        (a.sqrtProduct b).val ≤ Nat.max a.val b.val) ∧
      sqrtProduct? a.word b.word = .ok (some (a.sqrtProduct b).word)) ∧
    mintTotal? op.amount.word op.repeats.toBitVec s.minted.word s.max.word =
      .ok ((op.mintTotal? s).map Amount.word) := by
  have hfee : (TokenLedger.swapFee given).val = 3 * (given.val / 100) := Nat.mul_comm _ _
  refine ⟨⟨hfee, swapFee_le given, swapFee_word given⟩,
    ⟨?_, fun _ => Quote.exact_of_quote?, quote?_word given reserveIn reserveOut⟩,
    ⟨mulDiv?_eq_none_iff, fun _ => mulDiv?_floor, mulDiv?_word a b c⟩,
    ⟨fun _ => eq_sqrtProduct_iff, sqrtProduct_between, sqrtProduct?_word a b⟩,
    mintTotal?_word op s⟩
  rw [quote?_eq_none_iff, val_monus, hfee]

end Word
end TokenLedger
