import TokenLedger.Proofs.Pricing
import TokenLedger.Proofs.Solvency

/-! The rules, as conditions on natural numbers. They name what must be on record and by how much,
without an order of checks, a width of a product or a kind of rejection. Main statement: the verdict
on what an envelope asks for accepts if and only if the rules permit it. -/
namespace TokenLedger

open Inquiry

/-- The rules for tokens. -/
def TokenOperation.Permitted (v : View) (op : TokenOperation) : Prop :=
  match op.kind with
  | .deploy => 2 ≤ op.ticker.size ∧ op.ticker.size ≤ 8 ∧ 0 < op.mintLimit.val ∧
      op.mintLimit.val ≤ op.maxSupply.val ∧ v (.supply op.ticker) = none
  | .mint => 2 ≤ op.ticker.size ∧ op.ticker.size ≤ 8 ∧ ∃ s, v (.supply op.ticker) = some s ∧
      0 < op.amount.val ∧ op.amount.val ≤ s.limit.val ∧
      s.minted.val + op.amount.val * op.repeats.toNat ≤ s.max.val
  | .transfer => 0 < op.amount.val ∧ 1 ≤ op.recipients.length ∧
      Covers v op.ticker op.sender (op.amount.val * op.recipients.length)
  | _ => False

namespace PairOperation

/-- What may be deposited into a pool: what is offered if there is no liquidity, else one of the two
offers with as much of the other token as goes with it. -/
def MayAdd (v : View) (op : PairOperation) (p : Pool) : Prop :=
  let offerA := op.sides.amountA.val
  let offerB := op.sides.amountB.val
  let reserveA := p.reserveOf op.poolKey op.sides.tickerA
  let reserveB := p.reserveOf op.poolKey op.sides.tickerB
  let bestA := offerB * reserveA / reserveB
  let bestB := offerA * reserveB / reserveA
  p.liquidity.val = 0 ∧ op.Affords v offerA offerB ∨
    0 < p.liquidity.val ∧ 0 < reserveA ∧ 0 < reserveB ∧
      (op.sides.minB.val ≤ bestB ∧ op.Affords v offerA bestB ∨
        bestB < op.sides.minB.val ∧ op.sides.minA.val ≤ bestA ∧ op.Affords v bestA offerB)

/-- What a swap may exchange: the first token for what the price says of the second. -/
def MaySwap (v : View) (op : PairOperation) (p : Pool) : Prop :=
  let given := op.sides.amountA.val
  let reserveIn := p.reserveOf op.poolKey op.sides.tickerA
  let reserveOut := p.reserveOf op.poolKey op.sides.tickerB
  let fee := 3 * (given / 100)
  let net := given - fee
  let out := net * reserveOut / (reserveIn + net)
  0 < reserveIn ∧ 0 < reserveOut ∧ op.sides.minB.val ≤ out ∧
    Covers v op.sides.tickerA op.holder given ∧ Covers v op.sides.tickerB p.owner out

/-- The rules for pools. -/
def Permitted (v : View) (op : PairOperation) : Prop :=
  op.sides.tickerA ≠ op.sides.tickerB ∧
    match op.kind with
    | .create => 0 < op.sides.amountA.val ∧ 0 < op.sides.amountB.val ∧
        v (.pool op.poolKey) = none ∧ op.Affords v op.sides.amountA.val op.sides.amountB.val
    | .add => ∃ p, v (.pool op.poolKey) = some p ∧ op.MayAdd v p
    | .remove => 0 < op.liquidity.val ∧ ∃ p, v (.pool op.poolKey) = some p ∧
        op.liquidity.val ≤ p.liquidity.val ∧
        Covers v op.poolKey.shareTicker op.holder op.liquidity.val
    | .swap => ∃ p, v (.pool op.poolKey) = some p ∧ op.MaySwap v p
    | _ => False

end PairOperation

/-- The rules for the bridge. -/
def BridgeOperation.Permitted (rules : Rules) (v : View) (op : BridgeOperation) : Prop :=
  op.ticker = .wrapped ∧
    match op.kind with
    | .deposit => 0 < op.amount.val
    | .withdraw => rules.coverWithdrawals = true → Covers v .wrapped op.holder op.amount.val
    | _ => False

/-- What the rules permit. -/
def Operation.Permitted (rules : Rules) (v : View) : Operation → Prop
  | token op => op.Permitted v
  | pair op => op.Permitted v
  | bridge op => op.Permitted rules v

variable {v : View}

theorem TokenOperation.accepts_iff {op : TokenOperation} :
    (∃ a, op.verdict.on v = .ok a) ↔ op.Permitted v := by
  simp only [verdict_on, exists_or, exists_and_left]
  unfold Permitted
  cases op.kind with
  | deploy =>
    simp only [deploy_on, reduceCtorEq, true_and, false_and, or_false, exists_and_left,
      exists_eq, and_true, Ticker.HasValidSize, and_assoc]
    refine and_congr_right fun _ => and_congr_right fun _ => ?_
    rw [Amount.le_def]
    constructor
    · rintro ⟨-, hl, hle, hn⟩; exact ⟨hl, hle, hn⟩
    · rintro ⟨hl, hle, hn⟩; exact ⟨by omega, hl, hle, hn⟩
  | mint =>
    simp only [mint_on, reduceCtorEq, true_and, false_and, or_false, false_or]
    constructor
    · rintro ⟨a, ⟨h2, h8⟩, s, hs, hpos, hle, total, ht, hmax, -⟩
      exact ⟨h2, h8, s, hs, hpos, hle, by omega⟩
    · rintro ⟨h2, h8, s, hs, hpos, hle, hmax⟩
      have hlt := s.max.val_lt
      exact ⟨_, ⟨h2, h8⟩, s, hs, hpos, hle, ⟨op.amount.val * op.repeats.toNat, by omega⟩, rfl,
        by dsimp only; omega, rfl⟩
  | transfer =>
    simp only [transfer_on, reduceCtorEq, true_and, false_and, false_or]
    constructor
    · rintro ⟨a, hpos, hr, hc, -⟩
      exact ⟨hpos, List.length_pos_iff.2 hr, hc⟩
    · rintro ⟨hpos, hr, held, hb, hle⟩
      exact ⟨_, hpos, List.length_pos_iff.1 hr, ⟨held, hb, hle⟩,
        ⟨_, Nat.lt_of_le_of_lt hle held.val_lt⟩, rfl, rfl⟩
  | _ => simp

namespace PairOperation

variable {op : PairOperation} {p : Pool}

theorem reservesFor_eq (hab : op.sides.tickerA ≠ op.sides.tickerB) (p : Pool) :
    (p.reservesFor op.poolKey op.sides.tickerA).1.val = p.reserveOf op.poolKey op.sides.tickerA ∧
      (p.reservesFor op.poolKey op.sides.tickerA).2.val =
        p.reserveOf op.poolKey op.sides.tickerB := by
  refine ⟨?_, Pool.reservesFor_snd p hab⟩
  rcases PoolKey.ofPair_eq_or op.sides.tickerA op.sides.tickerB with he | he
  · simp [poolKey, he, Pool.reservesFor, Pool.reserveOf, PoolKey.part, hab.symm]
  · simp [poolKey, he, Pool.reservesFor, Pool.reserveOf, PoolKey.part, hab, hab.symm]

theorem maySwap_iff (hab : op.sides.tickerA ≠ op.sides.tickerB) (p : Pool) : op.MaySwap v p ↔
    ∃ q, (p.reservesFor op.poolKey op.sides.tickerA).1 ≠ .zero ∧
      (p.reservesFor op.poolKey op.sides.tickerA).2 ≠ .zero ∧
      quote? op.sides.amountA (p.reservesFor op.poolKey op.sides.tickerA).1
        (p.reservesFor op.poolKey op.sides.tickerA).2 = some q ∧
      op.sides.minB.val ≤ q.out.val ∧
      Covers v op.sides.tickerA op.holder op.sides.amountA.val ∧
      Covers v op.sides.tickerB p.owner q.out.val := by
  obtain ⟨hi, ho⟩ := reservesFor_eq hab p
  simp only [MaySwap, ← hi, ← ho, ← Amount.pos_iff_ne_zero]
  by_cases hin : 0 < (p.reservesFor op.poolKey op.sides.tickerA).1.val
  · obtain ⟨q, hq⟩ := @quote?_of_pos op.sides.amountA _
      (p.reservesFor op.poolKey op.sides.tickerA).2 hin
    obtain ⟨-, hnet, hout⟩ := quote?_eq_some hq
    rw [val_swapFee, Nat.mul_comm] at hnet
    rw [hnet] at hout
    simp only [hq, Option.some.injEq, exists_and_left, exists_eq_left', hout]
  · simp only [hin, false_and, exists_false]

theorem reserveOf_eq (hab : op.sides.tickerA ≠ op.sides.tickerB)
    (hkey : op.poolKey = ⟨op.sides.tickerA, op.sides.tickerB⟩) (p : Pool) :
    p.reserveOf op.poolKey op.sides.tickerA = p.reserveA.val ∧
      p.reserveOf op.poolKey op.sides.tickerB = p.reserveB.val := by
  rw [hkey]
  constructor
  · simp [Pool.reserveOf, PoolKey.part, hab.symm]
  · simp [Pool.reserveOf, PoolKey.part, hab]

theorem takes_iff (hab : op.sides.tickerA ≠ op.sides.tickerB)
    (hkey : op.poolKey = ⟨op.sides.tickerA, op.sides.tickerB⟩) :
    (∃ x y first, Takes op p x y first ∧ op.Affords v x.val y.val) ↔ op.MayAdd v p := by
  obtain ⟨hra, hrb⟩ := reserveOf_eq hab hkey p
  simp only [MayAdd, hra, hrb]
  by_cases hl : p.liquidity = .zero
  · rw [hl, Amount.val_zero]
    simp only [Nat.lt_irrefl, false_and, or_false, true_and]
    constructor
    · rintro ⟨x, y, first, ht, ha⟩
      cases ht with
      | first => exact ha
      | keepA h | keepB h => exact absurd hl h
    · intro ha
      exact ⟨_, _, _, .first hl, ha⟩
  · have hpos := Amount.pos_iff_ne_zero.2 hl
    have hne : p.liquidity.val ≠ 0 := Nat.ne_of_gt hpos
    simp only [hne, hpos, false_and, false_or, true_and]
    by_cases hempty : p.reserveA.val = 0 ∨ p.reserveB.val = 0
    · constructor
      · rintro ⟨x, y, first, ht, -⟩
        cases ht with
        | first h => exact absurd h hl
        | keepA _ plan | keepB _ plan =>
          rw [planAdd?_of_zero hempty] at plan
          cases plan
      · rintro ⟨ha, hb, -⟩
        omega
    · have ha : 0 < p.reserveA.val := by omega
      have hb : 0 < p.reserveB.val := by omega
      simp only [ha, hb, true_and]
      constructor
      · rintro ⟨x, y, first, ht, hc⟩
        cases ht with
        | first h => exact absurd h hl
        | keepA _ plan =>
          obtain ⟨hy, hmin⟩ := (planAdd?_eq_keepA_iff ha hb).1 plan
          rw [hy]
          exact .inl ⟨hmin, hc⟩
        | keepB _ plan =>
          obtain ⟨hlt, hx, hmin⟩ := (planAdd?_eq_keepB_iff ha hb).1 plan
          rw [hx]
          exact .inr ⟨hlt, hmin, hc⟩
      · -- What the holder has on record bounds what goes with the offer, so that it is an amount.
        rintro (⟨hmin, hc⟩ | ⟨hlt, hmin, hc⟩)
        · obtain ⟨held, -, hle⟩ := hc.2
          exact ⟨_, ⟨_, Nat.lt_of_le_of_lt hle held.val_lt⟩, false,
            .keepA hl ((planAdd?_eq_keepA_iff ha hb).2 ⟨rfl, hmin⟩), hc⟩
        · obtain ⟨held, -, hle⟩ := hc.1
          exact ⟨⟨_, Nat.lt_of_le_of_lt hle held.val_lt⟩, _, false,
            .keepB hl ((planAdd?_eq_keepB_iff ha hb).2 ⟨hlt, rfl, hmin⟩), hc⟩

theorem accepts_iff (ho : (Operation.pair op).Ordered) :
    (∃ a, op.verdict.on v = .ok a) ↔ op.Permitted v := by
  simp only [verdict_on, exists_or, exists_and_left]
  unfold Permitted
  refine and_congr_right fun hab => ?_
  cases hk : op.kind with
  | create =>
    simp only [create_on, reduceCtorEq, true_and, false_and, or_false, exists_and_left, exists_eq,
      and_true]
  | add =>
    have hkey := ho.resolve_left (by rw [hk]; decide)
    simp only [add_on, reduceCtorEq, true_and, false_and, or_false, false_or,
      ← takes_iff hab hkey]
    constructor
    · rintro ⟨a, p, x, y, first, hp, ht, hc, -⟩; exact ⟨p, hp, x, y, first, ht, hc⟩
    · rintro ⟨p, hp, x, y, first, ht, hc⟩; exact ⟨_, p, x, y, first, hp, ht, hc, rfl⟩
  | remove =>
    simp only [remove_on, reduceCtorEq, true_and, false_and, or_false, false_or, Amount.le_def]
    constructor
    · rintro ⟨a, hx, p, hp, hle, hc, -⟩; exact ⟨hx, p, hp, hle, hc⟩
    · rintro ⟨hx, p, hp, hle, hc⟩; exact ⟨_, hx, p, hp, hle, hc, rfl⟩
  | swap =>
    simp only [swap_on, reduceCtorEq, true_and, false_and, false_or, maySwap_iff hab]
    constructor
    · rintro ⟨a, p, q, hp, hin, hout, hq, hmin, hi, ho, -⟩
      exact ⟨p, hp, q, hin, hout, hq, hmin, hi, ho⟩
    · rintro ⟨p, hp, q, hin, hout, hq, hmin, hi, ho⟩
      exact ⟨_, p, q, hp, hin, hout, hq, hmin, hi, ho, rfl⟩
  | _ => simp

end PairOperation

theorem BridgeOperation.accepts_iff {op : BridgeOperation} {rules : Rules} :
    (∃ a, (op.verdict rules).on v = .ok a) ↔ op.Permitted rules v := by
  simp only [verdict_on, exists_and_left]
  unfold Permitted
  refine and_congr_right fun ht => ?_
  cases op.kind with
  | deposit => simp [deposit_on]
  | withdraw => simp [withdraw_on, ht]
  | _ => simp

theorem Operation.accepts_iff {op : Operation} {rules : Rules} (ho : op.Ordered) :
    (∃ a, (op.verdict rules).on v = .ok a) ↔ op.Permitted rules v := by
  cases op with
  | token op => exact TokenOperation.accepts_iff
  | pair op => exact PairOperation.accepts_iff ho
  | bridge op => exact BridgeOperation.accepts_iff

/-- Where every question is answered, the verdict on what an envelope asks for accepts if and only
if the rules permit it, and else it rejects. -/
theorem Operation.validate_iff_permitted {σ : Type} {store : Store σ} {s : σ}
    (hs : store.Answers v s) (rules : Rules) {e : Envelope} {op : Operation}
    (hop : Operation.ofEnvelope e = .ok op) :
    ((∃ a, (store.validate rules op s).1 = .ok a) ↔ op.Permitted rules v) ∧
      ∀ d, (store.validate rules op s).1 = .error d → ∃ r, d = .rejected r := by
  rw [Store.validate, Inquiry.run_answered hs, ← accepts_iff (ofEnvelope_spec hop).2]
  simp only [mapError_eq_ok_iff, mapError_eq_error_iff]
  refine ⟨trivial, ?_⟩
  rintro _ ⟨r, -, rfl⟩
  exact ⟨r, rfl⟩

/-- Two swaps from the second token of a pool to its first, of which one asks for too much. -/
theorem Operation.validate_iff_permitted_swaps :
    let by_ (i : Inscription) : Envelope := ⟨⟨1, 0⟩, ⟨"DA"⟩, "", 1, i⟩
    let l := Ledger.empty.afterAll ⟨true⟩
      [by_ (.deploy ⟨"AA", "5000", none, none, none, none⟩), by_ (.mint ⟨"AA", "2000"⟩),
       by_ (.deploy ⟨"BB", "5000", none, none, none, none⟩), by_ (.mint ⟨"BB", "2000"⟩),
       by_ (.create ⟨"AA", "BB", "1000", "1000", "0", "0"⟩)]
    let swap (least : Nat) : PairOperation :=
      ⟨.swap, ⟨.ofText "BB", .ofText "AA", .ofUInt64 500, .zero, .zero, .saturate least⟩, .zero,
        ⟨"DA"⟩⟩
    (swap 326).Permitted l.answer ∧ ¬(swap 327).Permitted l.answer := by
  intro by_ l swap
  let k := PoolKey.ofPair (.ofText "AA") (.ofText "BB")
  let inscribed (least : String) := by_ (.swap ⟨"BB", "AA", "500", "0", least⟩)
  have permitted {least : String} {n : Nat}
      (h : ofEnvelope (inscribed least) = .ok (.pair (swap n))) :=
    (validate_iff_permitted (Store.answers_ledger l) ⟨true⟩ h).1
  have ha : (Store.ledger.validate ⟨true⟩ (.pair (swap 326)) l).1 =
      .ok (.swap k ⟨"DA"⟩ k.b k.a (.ofUInt64 500) (.ofUInt64 15) (.ofUInt64 326) k.owner) := by
    decide +kernel
  have hr : (Store.ledger.validate ⟨true⟩ (.pair (swap 327)) l).1 =
      .error (.rejected (.because .slippageExceeded "amount_out 326 < amt1_min 327")) := by
    decide +kernel
  constructor
  · have hop : ofEnvelope (inscribed "326") = .ok (.pair (swap 326)) := by decide +kernel
    exact (permitted hop).1 ⟨_, ha⟩
  · intro h
    have hop : ofEnvelope (inscribed "327") = .ok (.pair (swap 327)) := by decide +kernel
    obtain ⟨a, ha⟩ := (permitted hop).2 h
    rw [hr] at ha
    cases ha

end TokenLedger
