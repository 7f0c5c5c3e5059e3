import TokenLedger.Proofs.Coverage
import TokenLedger.Proofs.Reachable
import TokenLedger.Proofs.Refusal

/-! What a deposit takes, against what was offered for it. One of the two amounts is as offered, and
the other goes with it at the pool's price, be it more or less than the offer. Main statements: when
it is more, whoever answers the questions; and that a deposit keeps the price, meets the minimums
that the offers meet, and mints as much as its smaller share allows. -/
namespace TokenLedger

namespace PairOperation

open Inquiry

variable {σ : Type} {store : Store σ} {s s' : σ} {op : PairOperation} {p : Pool} {x y : Amount}
  {first : Bool} {a : Approval}

theorem read_of_existingPool (h : op.existingPool.run store s = (.ok p, s')) :
    (store.read (.pool op.poolKey) s).1 = .ok (some p) := by
  simp only [existingPool, pool, ask_bind, done_bind, run] at h
  generalize store.read (.pool op.poolKey) s = answered at h ⊢
  obtain ⟨_ | _ | q, s''⟩ := answered
  · cases h
  · cases h
  · cases h
    rfl

theorem takes_of_run (h : (op.add.run store s).1 = .ok a) :
    ∃ p x y first, (store.read (.pool op.poolKey) s).1 = .ok (some p) ∧ op.Takes p x y first ∧
      a = .addLiquidity op.poolKey op.holder x y first := by
  obtain ⟨p, s', hp, h⟩ := run_bind_eq_ok h
  have covered (m n : Nat) : (op.cover m n).Within (fun _ => True)
      fun c => c.1.val = m ∧ c.2.val = n := cover_within trivial trivial m n
  have taken : ∃ x y first, op.Takes p x y first ∧
      a = .addLiquidity op.poolKey op.holder x y first := by
    refine Within.of_run (K := fun _ => True) (P := fun a => ∃ x y first, op.Takes p x y first ∧
      a = .addLiquidity op.poolKey op.holder x y first) ?_ h
    dsimp only
    split
    · next hl =>
      refine (covered _ _).bind fun c hc => ⟨c.1, c.2, true, ?_, rfl⟩
      rw [Amount.ext hc.1, Amount.ext hc.2]
      exact .first hl
    · next hl =>
      split
      · trivial
      · trivial
      · next plan =>
        refine (covered _ _).bind fun c hc => ⟨c.1, c.2, false, ?_, rfl⟩
        obtain rfl := (planAdd?_keeps plan).1 _ _ rfl
        rw [Amount.ext hc.1]
        exact .keepA hl (hc.2 ▸ plan)
      · next plan =>
        refine (covered _ _).bind fun c hc => ⟨c.1, c.2, false, ?_, rfl⟩
        obtain rfl := (planAdd?_keeps plan).2 _ _ rfl
        rw [Amount.ext hc.2]
        exact .keepB hl (hc.1 ▸ plan)
  obtain ⟨x, y, first, ht, ha⟩ := taken
  exact ⟨p, x, y, first, read_of_existingPool hp, ht, ha⟩

theorem add_run_of_validate {rules : Rules} (hk : op.kind = .add)
    (h : (store.validate rules (.pair op) s).1 = .ok a) : (op.add.run store s).1 = .ok a := by
  simp only [Store.validate, Operation.verdict, verdict, hk] at h
  split at h
  · cases h
  · exact h

/-- As much of the first token as goes with what is offered of the second. -/
def bestA (op : PairOperation) (p : Pool) : Nat :=
  op.sides.amountB.val * p.reserveA.val / p.reserveB.val

def bestB (op : PairOperation) (p : Pool) : Nat :=
  op.sides.amountA.val * p.reserveB.val / p.reserveA.val

theorem Takes.of_first (h : op.Takes p x y first) (hl : p.liquidity = .zero) :
    x = op.sides.amountA ∧ y = op.sides.amountB := by
  cases h with
  | first => exact ⟨rfl, rfl⟩
  | keepA h | keepB h => exact absurd hl h

theorem Takes.of_liquidity (h : op.Takes p x y first) (hl : p.liquidity ≠ .zero) :
    first = false ∧ 0 < p.reserveA.val ∧ 0 < p.reserveB.val ∧
      (x = op.sides.amountA ∧ y.val = op.bestB p ∧ op.sides.minB.val ≤ op.bestB p ∨
        x.val = op.bestA p ∧ y = op.sides.amountB ∧ op.bestB p < op.sides.minB.val ∧
          op.sides.minA.val ≤ op.bestA p) := by
  obtain ⟨ha, hb⟩ := h.funded.resolve_left hl
  refine ⟨?_, ha, hb, ?_⟩
  · cases h with
    | first hz => exact absurd hz hl
    | keepA | keepB => rfl
  · cases h with
    | first hz => exact absurd hz hl
    | keepA _ plan =>
      obtain ⟨hy, hmin⟩ := (planAdd?_eq_keepA_iff ha hb).1 plan
      exact .inl ⟨rfl, hy.symm, hmin.trans (Nat.le_of_eq hy.symm)⟩
    | keepB _ plan =>
      obtain ⟨hlt, hx, hmin⟩ := (planAdd?_eq_keepB_iff ha hb).1 plan
      exact .inr ⟨hx.symm, rfl, hlt, hmin.trans (Nat.le_of_eq hx.symm)⟩

/-- What is taken exceeds an offer exactly where the pool has liquidity, the other token is kept as
offered, and more of this one goes with it than was offered. -/
theorem Takes.exceeds (h : op.Takes p x y first) :
    (op.sides.amountA < x ↔ 0 < p.liquidity.val ∧ op.bestB p < op.sides.minB.val ∧
      op.sides.amountA.val < op.bestA p) ∧
    (op.sides.amountB < y ↔ 0 < p.liquidity.val ∧ op.sides.minB.val ≤ op.bestB p ∧
      op.sides.amountB.val < op.bestB p) := by
  rw [Amount.lt_def, Amount.lt_def, Amount.pos_iff_ne_zero]
  by_cases hl : p.liquidity = .zero
  · obtain ⟨rfl, rfl⟩ := h.of_first hl
    simp [hl]
  · obtain ⟨-, -, -, ⟨rfl, hy, hmin⟩ | ⟨hx, rfl, hlt, -⟩⟩ := h.of_liquidity hl
    · simp [hl, hy, hmin, Nat.not_lt_of_le hmin]
    · simp [hl, hx, hlt]

/-- No deposit takes more than was offered of either token, unless the pool has liquidity and more
of the token goes with the offer of the other one: of the second token if that meets the minimum of
it, and else of the first. -/
theorem add_exceeds_iff (h : (op.add.run store s).1 = .ok a) : ∃ p x y first,
    (store.read (.pool op.poolKey) s).1 = .ok (some p) ∧
      a = .addLiquidity op.poolKey op.holder x y first ∧
      (op.sides.amountA < x ↔ 0 < p.liquidity.val ∧ op.bestB p < op.sides.minB.val ∧
        op.sides.amountA.val < op.bestA p) ∧
      (op.sides.amountB < y ↔ 0 < p.liquidity.val ∧ op.sides.minB.val ≤ op.bestB p ∧
        op.sides.amountB.val < op.bestB p) ∧
      (op.sides.amountA < x → x.val = op.bestA p ∧ y = op.sides.amountB) ∧
      (op.sides.amountB < y → x = op.sides.amountA ∧ y.val = op.bestB p) := by
  obtain ⟨p, x, y, first, hp, ht, ha⟩ := takes_of_run h
  obtain ⟨hA, hB⟩ := ht.exceeds
  refine ⟨p, x, y, first, hp, ha, hA, hB, fun hx => ?_, fun hy => ?_⟩
  · obtain ⟨hl, hlt, -⟩ := hA.1 hx
    obtain ⟨-, -, -, ⟨-, -, hmin⟩ | ⟨hxa, hyb, -⟩⟩ := ht.of_liquidity (Amount.pos_iff_ne_zero.1 hl)
    · omega
    · exact ⟨hxa, hyb⟩
  · obtain ⟨hl, hmin, -⟩ := hB.1 hy
    obtain ⟨-, -, -, ⟨hxa, hyb, -⟩ | ⟨-, -, hlt, -⟩⟩ := ht.of_liquidity (Amount.pos_iff_ne_zero.1 hl)
    · exact ⟨hxa, hyb⟩
    · omega

/-- A holder makes two tokens and a pool of a thousand of each. -/
def poolOfThousands : List Envelope :=
  let by_ (i : Inscription) : Envelope := ⟨⟨1, 0⟩, ⟨"DA"⟩, "", 1, i⟩
  [by_ (.deploy ⟨"AA", "5000", none, none, none, none⟩), by_ (.mint ⟨"AA", "2000"⟩),
   by_ (.deploy ⟨"BB", "5000", none, none, none, none⟩), by_ (.mint ⟨"BB", "2000"⟩),
   by_ (.create ⟨"AA", "BB", "1000", "1000", "0", "0"⟩)]

def offer (amountA amountB minA minB : String) : Envelope :=
  ⟨⟨2, 0⟩, ⟨"DA"⟩, "", 1, .add ⟨"AA", "BB", amountA, amountB, minA, minB⟩⟩

def offered (amountA amountB minA minB : UInt64) : PairOperation :=
  ⟨.add, ⟨.ofText "AA", .ofText "BB", .ofUInt64 amountA, .ofUInt64 amountB,
    .saturate minA.toNat, .saturate minB.toNat⟩, .zero, ⟨"DA"⟩⟩

/-- Of a hundred and one a hundred of each are taken, and of a hundred and two hundred and fifty,
where nothing less will do, two hundred and fifty of each. -/
theorem add_beyond_offer :
    let l := Ledger.empty.afterAll ⟨true⟩ poolOfThousands
    let k := PoolKey.ofPair (.ofText "AA") (.ofText "BB")
    let beyondB := offered 100 1 0 0
    let beyondA := offered 100 250 100 250
    let taken (n : UInt64) : Approval :=
      .addLiquidity k ⟨"DA"⟩ (.ofUInt64 n) (.ofUInt64 n) false
    Operation.ofEnvelope (offer "100" "1" "0" "0") = .ok (.pair beyondB) ∧
      (beyondB.add.run Store.ledger l).1 = .ok (taken 100) ∧
      ¬Amount.ofUInt64 100 ≤ beyondB.sides.amountB ∧
      Operation.ofEnvelope (offer "100" "250" "100" "250") = .ok (.pair beyondA) ∧
      (beyondA.add.run Store.ledger l).1 = .ok (taken 250) ∧
      ¬Amount.ofUInt64 250 ≤ beyondA.sides.amountA := by
  decide +kernel

/-- In the pool of thousands the first of the two offers leaves the price at one to one. -/
theorem add_exceeds_iff_thousands :
    let l := Ledger.empty.afterAll ⟨true⟩ poolOfThousands
    let op := offered 100 250 100 250
    ∃ p, l.pool? op.poolKey = some p ∧ 0 < p.liquidity.val ∧ op.bestB p < 250 ∧ 100 < op.bestA p ∧
      op.bestA p = 250 := by
  intro l op
  have ha : (op.add.run Store.ledger l).1 =
      .ok (.addLiquidity op.poolKey ⟨"DA"⟩ (.ofUInt64 250) (.ofUInt64 250) false) := by
    decide +kernel
  obtain ⟨p, x, y, first, hp, he, hA, -, hx, -⟩ := add_exceeds_iff ha
  obtain ⟨-, -, rfl, rfl, -⟩ := Approval.addLiquidity.inj he
  have hlt : op.sides.amountA < .ofUInt64 250 := by decide
  obtain ⟨hl, hb, hbest⟩ := hA.1 hlt
  exact ⟨p, Except.ok.inj hp, hl, hb, hbest, (hx hlt).1.symm⟩

theorem floor_bounds {n m q : Nat} (hm : 0 < m) (hq : q = n / m) :
    q * m ≤ n ∧ n < (q + 1) * m := by
  rw [hq]
  exact ⟨Nat.div_mul_le_self n m, Nat.lt_mul_of_div_lt (Nat.lt_succ_self _) hm⟩

/-- A deposit into a pool with liquidity keeps the price, up to less than one unit of the token that
is not as offered, and meets the minimums if the offers do. Where it is carried out it mints as much
as is in the measure of the liquidity for both amounts. -/
theorem add_keeps_price {rules : Rules} (hk : op.kind = .add)
    (ha : (store.validate rules (.pair op) s).1 = .ok a)
    (hp : (store.read (.pool op.poolKey) s).1 = .ok (some p)) (hl : 0 < p.liquidity.val) :
    ∃ x y : Amount, a = .addLiquidity op.poolKey op.holder x y false ∧
      (x = op.sides.amountA ∧ y.val * p.reserveA.val ≤ x.val * p.reserveB.val ∧
          x.val * p.reserveB.val < (y.val + 1) * p.reserveA.val ∨
        y = op.sides.amountB ∧ x.val * p.reserveB.val ≤ y.val * p.reserveA.val ∧
          y.val * p.reserveA.val < (x.val + 1) * p.reserveB.val) ∧
      (op.sides.minA.val ≤ op.sides.amountA.val → op.sides.minB.val ≤ op.sides.amountB.val →
        op.sides.minA.val ≤ x.val ∧ op.sides.minB.val ≤ y.val) ∧
      ∀ (l l' : Ledger) (j : Journal), l.pool? op.poolKey = some p → l.apply a = .ok (l', j) →
        ∃ (q : Pool) (minted : Amount), l'.pool? op.poolKey = some q ∧
          q.liquidity.val = p.liquidity.val + minted.val ∧
          j = funding op.poolKey op.holder p.owner x y minted ∧
          IsGreatest {m | m * p.reserveA.val ≤ x.val * p.liquidity.val ∧
            m * p.reserveB.val ≤ y.val * p.liquidity.val} minted.val := by
  have hne := Amount.pos_iff_ne_zero.1 hl
  obtain ⟨p', x, y, first, hp', ht, rfl⟩ := takes_of_run (add_run_of_validate hk ha)
  obtain rfl : p' = p := Option.some.inj (Except.ok.inj (hp'.symm.trans hp))
  obtain ⟨rfl, hra, hrb, hxy⟩ := ht.of_liquidity hne
  refine ⟨x, y, rfl, ?_, fun hminA hminB => ?_, fun l l' j hpool happly => ?_⟩
  · rcases hxy with ⟨rfl, hy, -⟩ | ⟨hx, rfl, -⟩
    · exact .inl ⟨rfl, floor_bounds hra hy⟩
    · exact .inr ⟨rfl, floor_bounds hrb hx⟩
  · rcases hxy with ⟨rfl, hy, hmin⟩ | ⟨hx, rfl, -, hmin⟩
    · exact ⟨hminA, hy ▸ hmin⟩
    · exact ⟨hx ▸ hmin, hminB⟩
  · cases Ledger.effect_of_apply happly with
    | @addLiquidity _ _ _ _ minted _ p q _ record shares _ _ liquidity _ moves =>
      obtain rfl := Option.some.inj (record.symm.trans hpool)
      exact ⟨q, minted, moves.pool?_written, liquidity, rfl, Pool.isGreatest_sharesFor hne shares⟩

/-- After a swap in the pool of thousands a deposit takes what goes with three hundred of the first
token, and mints the greatest number within both shares. -/
theorem add_keeps_price_swapped :
    let l := Ledger.empty.afterAll ⟨true⟩ (poolOfThousands ++
      [⟨⟨2, 0⟩, ⟨"DA"⟩, "", 1, .swap ⟨"AA", "BB", "500", "0", "0"⟩⟩])
    let op := offered 300 200 10 20
    ∃ p x y m, l.pool? op.poolKey = some p ∧ p.liquidity.val = 1000 ∧
      (op.add.run Store.ledger l).1 = .ok (.addLiquidity op.poolKey op.holder x y false) ∧
      y.val * p.reserveA.val ≤ x.val * p.reserveB.val ∧
      x.val * p.reserveB.val < (y.val + 1) * p.reserveA.val ∧ 10 ≤ x.val ∧ 20 ≤ y.val ∧
      IsGreatest {m | m * p.reserveA.val ≤ x.val * p.liquidity.val ∧
        m * p.reserveB.val ≤ y.val * p.liquidity.val} m := by
  intro l op
  let p : Pool := ⟨.ofUInt64 1500, .ofUInt64 674, .ofUInt64 1000, op.poolKey.owner⟩
  let a : Approval := .addLiquidity op.poolKey op.holder (.ofUInt64 300) (.ofUInt64 134) false
  have hp : l.pool? op.poolKey = some p := by decide +kernel
  have ha : (Store.ledger.validate ⟨true⟩ (.pair op) l).1 = .ok a := by decide +kernel
  have happly : (l.apply a).isOk = true := by decide +kernel
  obtain ⟨x, y, he, price, minimums, mints⟩ :=
    add_keeps_price rfl ha (congrArg Except.ok hp) (by decide)
  obtain ⟨-, -, rfl, rfl, -⟩ := Approval.addLiquidity.inj he
  obtain ⟨-, hle, hlt⟩ := price.resolve_right fun h => absurd h.1 (by decide)
  obtain ⟨hx, hy⟩ := minimums (by decide) (by decide)
  cases hl : l.apply a with
  | error r => rw [hl] at happly; cases happly
  | ok lj =>
    obtain ⟨q, m, -, -, -, greatest⟩ := mints l lj.1 lj.2 hp hl
    exact ⟨p, _, _, m.val, hp, rfl, add_run_of_validate rfl ha, hle, hlt, hx, hy, greatest⟩

end PairOperation
end TokenLedger
