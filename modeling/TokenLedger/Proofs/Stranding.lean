import TokenLedger.Proofs.Change
import TokenLedger.Proofs.Offer

/-! Deposits for which nothing is minted. Main statement: a deposit earns liquidity exactly if it is
worth a whole liquidity token on both sides, and reserves without liquidity are exactly what a
deposit of one token into an empty pool has left there. -/
namespace TokenLedger

theorem floorRoot_pos_iff {n : Nat} : 0 < floorRoot n ↔ 0 < n := by
  obtain ⟨hle, hlt⟩ := floorRoot_bounds n
  constructor
  · exact fun h => Nat.lt_of_lt_of_le (Nat.mul_pos h h) hle
  · intro h
    refine Nat.pos_of_ne_zero fun hz => ?_
    rw [hz] at hlt
    omega

namespace Pool

/-- What is deposited is worth a liquidity token on both sides, or founds the pool with both. -/
def Earns (p : Pool) (a b : Amount) : Prop :=
  if p.liquidity = .zero then 0 < a.val ∧ 0 < b.val
  else p.reserveA.val ≤ a.val * p.liquidity.val ∧ p.reserveB.val ≤ b.val * p.liquidity.val

/-- There are reserves and no liquidity that stands for them. -/
def Unclaimed (p : Pool) : Prop :=
  p.liquidity = .zero ∧ ¬(p.reserveA = .zero ∧ p.reserveB = .zero)

variable {p q : Pool} {a b minted : Amount} {kind : Kind}

theorem shares_pos_iff (h : sharesFor p a b = .ok minted) : 0 < minted.val ↔ p.Earns a b := by
  unfold Earns
  split
  · next hl =>
    rw [sharesFor, if_pos hl] at h
    cases h
    rw [Amount.val_sqrtProduct, floorRoot_pos_iff, Amount.product]
    exact ⟨fun h => ⟨Nat.pos_of_mul_pos_right h, Nat.pos_of_mul_pos_left h⟩,
      fun h => Nat.mul_pos h.1 h.2⟩
  · next hl =>
    obtain ⟨⟨hma, hmb⟩, greatest⟩ := isGreatest_sharesFor hl h
    constructor
    · intro hm
      exact ⟨(Nat.le_mul_of_pos_left _ hm).trans hma, (Nat.le_mul_of_pos_left _ hm).trans hmb⟩
    · rintro ⟨ha, hb⟩
      exact greatest ⟨by rwa [Nat.one_mul], by rwa [Nat.one_mul]⟩

theorem Change.unclaimed (h : p.Change kind q) (hp : p.Unclaimed) (hl : q.liquidity = .zero) :
    q.Unclaimed := by
  refine ⟨hl, fun hq => ?_⟩
  cases h with
  | traded h => exact Amount.pos_iff_ne_zero.1 h.after.1 hq.1
  | funded outstanding | redeemed outstanding =>
    exact Amount.pos_iff_ne_zero.1 outstanding hp.1
  | refounded _ reserveA reserveB =>
    rw [hq.1, Amount.val_zero] at reserveA
    rw [hq.2, Amount.val_zero] at reserveB
    exact hp.2 ⟨Amount.ext (Nat.eq_zero_of_add_eq_zero_right reserveA.symm),
      Amount.ext (Nat.eq_zero_of_add_eq_zero_right reserveB.symm)⟩

end Pool

namespace Effect

variable {l l' : Ledger} {a : Approval} {j : Journal} {k : PoolKey} {p q : Pool} {s : Address}

theorem emptied (h : Effect l a j l') (hp : l.pool? k = some p) (hl : p.liquidity ≠ .zero)
    (hq : l'.pool? k = some q) (hz : q.liquidity = .zero) :
    q.reserveA = .zero ∧ q.reserveB = .zero := by
  by_cases hk : .pool k ∈ a.keys
  swap
  · rw [h.pool?_of_not_mem hk, hp] at hq
    exact absurd (Option.some.inj hq ▸ hz) hl
  cases h with
  | deploy | mint | deposit | withdraw | transfer | withdrawUnrecorded => simp [Approval.keys] at hk
  | createPool absent moves =>
    obtain rfl : k = _ := by simpa [Approval.keys] using hk
    rw [absent] at hp
    cases hp
  | @addLiquidity _ _ _ _ minted _ p' q' _ record _ _ _ liquidity _ moves =>
    obtain rfl : k = _ := by simpa [Approval.keys] using hk
    obtain rfl : p' = p := Option.some.inj (record.symm.trans hp)
    obtain rfl := Option.some.inj (moves.pool?_written.symm.trans hq)
    rw [hz, Amount.val_zero] at liquidity
    exact absurd (Amount.ext (Nat.eq_zero_of_add_eq_zero_right liquidity.symm)) hl
  | @removeLiquidity _ _ x outA outB p' q' _ record outstanding shareA shareB reserveA reserveB
      liquidity _ moves =>
    obtain rfl : k = _ := by simpa [Approval.keys] using hk
    obtain rfl : p' = p := Option.some.inj (record.symm.trans hp)
    obtain rfl := Option.some.inj (moves.pool?_written.symm.trans hq)
    rw [hz, Amount.val_zero, Nat.zero_add] at liquidity
    rw [Amount.product, liquidity, Nat.mul_div_cancel_left _ outstanding] at shareA shareB
    exact ⟨Amount.ext (by rw [Amount.val_zero]; omega), Amount.ext (by rw [Amount.val_zero]; omega)⟩
  | swapFirst record _ _ liquidity _ moves | swapSecond record _ _ _ liquidity _ moves =>
    obtain rfl : k = _ := by simpa [Approval.keys] using hk
    obtain rfl := Option.some.inj (record.symm.trans hp)
    obtain rfl := Option.some.inj (moves.pool?_written.symm.trans hq)
    exact absurd (liquidity ▸ hz) hl

theorem one_sided {holder : Address} {x y : Amount} {first : Bool}
    (h : Effect l (.addLiquidity k holder x y first) j l') (hp : l.pool? k = some (.empty k))
    (hq : l'.pool? k = some q) : q.Unclaimed ↔ (x = .zero ↔ y ≠ .zero) := by
  cases h with
  | @addLiquidity _ _ _ _ minted _ p q' _ record shares reserveA reserveB liquidity _ moves =>
    obtain rfl : p = .empty k := Option.some.inj (record.symm.trans hp)
    obtain rfl := Option.some.inj (moves.pool?_written.symm.trans hq)
    have hminted : 0 < minted.val ↔ 0 < x.val ∧ 0 < y.val := Pool.shares_pos_iff shares
    simp only [Pool.empty, Amount.val_zero, Nat.zero_add] at reserveA reserveB liquidity
    rw [Pool.Unclaimed, Amount.ext reserveA, Amount.ext reserveB, Amount.ext liquidity]
    rw [Amount.pos_iff_ne_zero, Amount.pos_iff_ne_zero, Amount.pos_iff_ne_zero] at hminted
    tauto

/-- Unclaimed reserves were unclaimed before, or are of one token and deposited in an empty pool. -/
theorem unclaimed (h : Effect l a j l') (hpriced : a.Priced l.answer) (hc : a.Checked l.answer s)
    (hformed : ∀ p, l.pool? k = some p → p.owner = k.owner) (hq : l'.pool? k = some q)
    (hu : q.Unclaimed) : (∃ p, l.pool? k = some p ∧ p.Unclaimed) ∨
      l.pool? k = some (.empty k) ∧ ∃ holder x y first,
        a = .addLiquidity k holder x y first ∧ (x = .zero ↔ y ≠ .zero) := by
  rcases h.pool?_eq_some hq with ⟨p, hp, ho⟩ | ⟨_, x, y, rfl, rfl⟩
  swap
  · obtain ⟨-, -, hx, hy, -⟩ := hc
    exact absurd (congrArg Amount.val hu.1)
      (Nat.ne_of_gt (floorRoot_pos_iff.2 (Nat.mul_pos hx hy)))
  by_cases hl : p.liquidity = .zero
  swap
  · exact absurd (h.emptied hp hl hq hu.1) hu.2
  by_cases hz : p.reserveA = .zero ∧ p.reserveB = .zero
  swap
  · exact .inl ⟨p, hp, hl, hz⟩
  obtain rfl : p = .empty k := by
    obtain ⟨ra, rb, liquidity, owner⟩ := p
    obtain ⟨rfl, rfl⟩ := hz
    obtain rfl := hl
    rw [Pool.empty, ← hformed _ hp]
  by_cases hk : .pool k ∈ a.keys
  swap
  · rw [h.pool?_of_not_mem hk, hp] at hq
    exact absurd ⟨rfl, rfl⟩ (Option.some.inj hq ▸ hu.2)
  obtain ⟨q', hq', hchange⟩ := h.change hpriced hp hk
  have hkind : a.kind = .add := by
    generalize a.kind = kind at hchange
    cases hchange with
    | traded h => exact absurd h.before.1 (Nat.lt_irrefl 0)
    | funded outstanding | redeemed outstanding => exact absurd outstanding (Nat.lt_irrefl 0)
    | refounded => rfl
  cases a <;> cases hkind
  obtain rfl : k = _ := by simpa [Approval.keys] using hk
  exact .inr ⟨hp, _, _, _, _, rfl, (h.one_sided hp hq).1 hu⟩

end Effect

section

variable {allowed : Envelope → Prop} {l : Ledger} {rules : Rules} {k : PoolKey} {p : Pool}

theorem Operation.of_addLiquidity {op : Operation} {v : View} {holder : Address} {x y : Amount}
    {first : Bool} (h : (op.verdict rules).on v = .ok (.addLiquidity k holder x y first)) :
    ∃ add, op = .pair add ∧ add.kind = .add ∧ add.poolKey = k ∧
      ∃ p, v (.pool k) = some p ∧ add.Takes p x y first := by
  have hkind : op.kind = .add := (Operation.answers h).kind.symm
  cases op with
  | token op =>
    rcases TokenOperation.verdict_on.1 h with ⟨hk, -⟩ | ⟨hk, -⟩ | ⟨hk, -⟩ <;>
      exact absurd (hk.symm.trans hkind) (by decide)
  | bridge op =>
    rcases (BridgeOperation.verdict_on.1 h).2 with ⟨hk, -⟩ | ⟨hk, -⟩ <;>
      exact absurd (hk.symm.trans hkind) (by decide)
  | pair op =>
    obtain ⟨p, _, _, _, hp, ht, -, he⟩ :=
      PairOperation.add_on.1 (PairOperation.add_of_verdict hkind h)
    obtain ⟨rfl, -, rfl, rfl, rfl⟩ := Approval.addLiquidity.inj he
    exact ⟨op, rfl, hkind, rfl, p, hp, ht⟩

/-- One token was deposited in the empty pool, and since then there was no liquidity. -/
inductive Stranded (allowed : Envelope → Prop) (k : PoolKey) : Ledger → Prop
  | deposit {l : Ledger} {e : Envelope} {op : PairOperation} (before : Reachable allowed l)
      (rules : Rules) (he : allowed e) (asked : Operation.ofEnvelope e = .ok (.pair op))
      (kind : op.kind = .add) (key : op.poolKey = k) (empty : l.pool? k = some (.empty k))
      (oneSided : op.sides.amountA = .zero ↔ op.sides.amountB ≠ .zero)
      (done : l.Performs rules (.pair op) (l.after rules e)) : Stranded allowed k (l.after rules e)
  | later {l : Ledger} {e : Envelope} (before : Stranded allowed k l) (rules : Rules)
      (he : allowed e) (none : ∀ p, (l.after rules e).pool? k = some p → p.liquidity = .zero) :
      Stranded allowed k (l.after rules e)

theorem Stranded.unclaimed (h : Stranded allowed k l) : ∃ p, l.pool? k = some p ∧ p.Unclaimed := by
  induction h with
  | @deposit l e op _ rules _ _ kind key empty oneSided done =>
    obtain rfl := key
    obtain ⟨p, x, y, first, minted, hp, ht, -, -, ha⟩ := done.deposits kind
    obtain rfl : p = .empty _ := Option.some.inj (hp.symm.trans empty)
    obtain ⟨rfl, rfl⟩ := ht.of_first rfl
    obtain ⟨_, q, -, hq, -⟩ := done.change (by rw [kind]; decide)
    exact ⟨q, hq, ((Ledger.effect_of_apply ha).one_sided empty hq).2 oneSided⟩
  | @later l e _ rules _ none ih =>
    obtain ⟨p, hp, hu⟩ := ih
    rcases l.after_performs rules e with hl | ⟨op, -, a, n, hdone⟩
    · exact ⟨p, by rw [hl, hp], hu⟩
    obtain ⟨q, hq, hc⟩ := Store.process_change rules op hp
    rw [hdone] at hq
    rcases hc with rfl | hc
    · exact ⟨q, hq, hu⟩
    · exact ⟨q, hq, hc.unclaimed hu (none q hq)⟩

namespace Reachable

theorem stranded (h : Reachable allowed l) (hp : l.pool? k = some p) (hu : p.Unclaimed) :
    Stranded allowed k l := by
  induction h generalizing p with
  | empty => simp [Ledger.pool?, Ledger.empty] at hp
  | @after l before rules e he ih =>
    rcases l.after_performs rules e with hl | ⟨op, asked, done⟩
    · rw [hl] at hp ⊢
      exact ih hp hu
    obtain ⟨a, j, hv, heffect⟩ := done.effect
    obtain ⟨hs, ho⟩ := Operation.ofEnvelope_spec asked
    rcases heffect.unclaimed (Operation.answers hv).priced (Operation.checked ho hv)
      (fun q hq => (before.pool_formed hq).1) hp hu with
      ⟨q, hq, hu'⟩ | ⟨empty, holder, x, y, first, rfl, oneSided⟩
    · refine .later (ih hq hu') rules he fun r hr => ?_
      obtain rfl := Option.some.inj (hr.symm.trans hp)
      exact hu.1
    · obtain ⟨add, rfl, kind, key, q, hq, ht⟩ := Operation.of_addLiquidity hv
      obtain rfl : q = .empty k := Option.some.inj (hq.symm.trans empty)
      obtain ⟨rfl, rfl⟩ := ht.of_first rfl
      exact .deposit before rules he asked kind key empty oneSided done

/-- A deposit that is carried out mints at least one liquidity token exactly if both amounts are
worth one, and for a pool without liquidity if both are positive. A pool without liquidity has no
reserves, except for what was deposited in it one-sidedly when it was empty. -/
theorem deposits_earn (h : Reachable allowed l) :
    (∀ rules op l', op.kind = .add → l.Performs rules (.pair op) l' →
      ∃ p x y first minted, l.pool? op.poolKey = some p ∧
        (Store.ledger.validate rules (.pair op) l).1 =
          .ok (.addLiquidity op.poolKey op.holder x y first) ∧
        l.apply (.addLiquidity op.poolKey op.holder x y first) =
          .ok (l', funding op.poolKey op.holder p.owner x y minted) ∧
        (0 < minted.val ↔ p.Earns x y)) ∧
    ∀ k p, l.pool? k = some p → (p.Unclaimed ↔ Stranded allowed k l) := by
  refine ⟨fun rules op l' hk hdone => ?_, fun k p hp => ⟨h.stranded hp, fun hs => ?_⟩⟩
  · obtain ⟨p, x, y, first, minted, hp, -, shares, hv, ha⟩ := hdone.deposits hk
    exact ⟨p, x, y, first, minted, hp, hv, ha, Pool.shares_pos_iff shares⟩
  · obtain ⟨q, hq, hu⟩ := hs.unclaimed
    rwa [Option.some.inj (hp.symm.trans hq)]

open PairOperation (offer offered poolOfThousands)

/-- The pool of thousands after all liquidity is redeemed, and five of the first token deposited. -/
def strandedFive : List Envelope :=
  poolOfThousands ++ [⟨⟨2, 0⟩, ⟨"DA"⟩, "", 1, .remove ⟨"AA", "BB", "1000"⟩⟩, offer "5" "0" "0" "0"]

/-- For five tokens in the emptied pool nothing is minted. They are there for whoever comes next.
Neither is anything for one token in the pool of thousands after a swap. -/
theorem deposits_lost :
    let by_ (a : Address) (i : Inscription) : Envelope := ⟨⟨2, 0⟩, a, "", 1, i⟩
    let k := PoolKey.ofPair (.ofText "AA") (.ofText "BB")
    let emptied := Ledger.empty.afterAll ⟨true⟩
      (poolOfThousands ++ [by_ ⟨"DA"⟩ (.remove ⟨"AA", "BB", "1000"⟩)])
    let five : Approval := .addLiquidity k ⟨"DA"⟩ (.ofUInt64 5) .zero true
    let stranded := Ledger.empty.afterAll ⟨true⟩ strandedFive
    let taken := stranded.afterAll ⟨true⟩
      [⟨⟨2, 0⟩, ⟨"DA"⟩, "DB", 1, .transfer ⟨"AA", "1"⟩⟩,
       ⟨⟨2, 0⟩, ⟨"DA"⟩, "DB", 1, .transfer ⟨"BB", "1"⟩⟩,
       by_ ⟨"DB"⟩ (.add ⟨"AA", "BB", "1", "1", "0", "0"⟩),
       by_ ⟨"DB"⟩ (.remove ⟨"AA", "BB", "1"⟩)]
    let swapped := Ledger.empty.afterAll ⟨true⟩
      (poolOfThousands ++ [by_ ⟨"DA"⟩ (.swap ⟨"AA", "BB", "500", "0", "0"⟩)])
    let one : Approval := .addLiquidity k ⟨"DA"⟩ (.ofUInt64 1) .zero false
    (Reachable (fun _ => True) emptied ∧
      (Store.ledger.validate ⟨true⟩ (.pair (offered 5 0 0 0)) emptied).1 = .ok five ∧
      (Store.ledger.apply five emptied).1 =
        .ok (funding k ⟨"DA"⟩ k.owner (.ofUInt64 5) .zero .zero)) ∧
    (Reachable (fun _ => True) stranded ∧
      stranded.pool? k = some ⟨.ofUInt64 5, .zero, .zero, k.owner⟩ ∧
      taken.held k.a ⟨"DB"⟩ = .ofUInt64 6) ∧
    Reachable (fun _ => True) swapped ∧
      (Store.ledger.validate ⟨true⟩ (.pair (offered 1 0 0 0)) swapped).1 = .ok one ∧
      (Store.ledger.apply one swapped).1 =
        .ok (funding k ⟨"DA"⟩ k.owner (.ofUInt64 1) .zero .zero) := by
  have reachable (es : List Envelope) :
      Reachable (fun _ => True) (Ledger.empty.afterAll ⟨true⟩ es) :=
    Reachable.empty.afterAll _ fun _ _ => trivial
  exact ⟨⟨reachable _, by decide +kernel, by decide +kernel⟩,
    ⟨reachable _, by decide +kernel, by decide +kernel⟩,
    reachable _, by decide +kernel, by decide +kernel⟩

/-- With five tokens stranded in it, the pool is founded by a deposit of two tokens. -/
theorem deposits_earn_stranded :
    let l := Ledger.empty.afterAll ⟨true⟩ strandedFive
    let op := offered 40 91 0 0
    Stranded (fun _ => True) op.poolKey l ∧
      ∃ p x y first minted, l.pool? op.poolKey = some p ∧
        (Store.ledger.validate ⟨true⟩ (.pair op) l).1 =
          .ok (.addLiquidity op.poolKey op.holder x y first) ∧
        p.Earns x y ∧ 0 < minted.val ∧
        (l.apply (.addLiquidity op.poolKey op.holder x y first)).map Prod.snd =
          .ok (funding op.poolKey op.holder p.owner x y minted) := by
  intro l op
  have hl : Reachable (fun _ => True) l := Reachable.empty.afterAll _ fun _ _ => trivial
  obtain ⟨earns, unclaimed⟩ := deposits_earn hl
  have hp : l.pool? op.poolKey = some ⟨.ofUInt64 5, .zero, .zero, op.poolKey.owner⟩ := by
    decide +kernel
  have hv : (Store.ledger.validate ⟨true⟩ (.pair op) l).1 =
      .ok (.addLiquidity op.poolKey op.holder (.ofUInt64 40) (.ofUInt64 91) true) := by
    decide +kernel
  have hdone : l.Performs ⟨true⟩ (.pair op) (Store.ledger.process ⟨true⟩ (.pair op) l).2 :=
    .of_applied (a := .addLiquidity op.poolKey op.holder (.ofUInt64 40) (.ofUInt64 91) true)
      (n := 5) (by decide +kernel)
  obtain ⟨p, x, y, first, minted, hp', hv', ha, hpos⟩ := earns _ op _ rfl hdone
  obtain rfl := Option.some.inj (hp'.symm.trans hp)
  obtain ⟨-, -, rfl, rfl, rfl⟩ := Approval.addLiquidity.inj (Except.ok.inj (hv'.symm.trans hv))
  have hearns : Pool.Earns ⟨.ofUInt64 5, .zero, .zero, op.poolKey.owner⟩ (.ofUInt64 40)
      (.ofUInt64 91) := by
    rw [Pool.Earns, if_pos rfl]
    decide
  exact ⟨(unclaimed _ _ hp).1 ⟨rfl, by decide⟩, _, _, _, _, minted, hp, hv, hearns,
    hpos.2 hearns, by rw [ha]; rfl⟩

end Reachable
end

end TokenLedger
