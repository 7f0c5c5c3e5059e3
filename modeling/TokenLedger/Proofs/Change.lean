import TokenLedger.Proofs.Locality
import TokenLedger.Proofs.Pricing
import TokenLedger.Proofs.Reachable

/-! What an operation makes of a pool that there is. Main statement: it leaves the pool as it is, or
changes it in one of four ways, which say what becomes of its reserves and its liquidity. -/
namespace TokenLedger

namespace Pool

/-- What swaps make of a pool. -/
structure Traded (p q : Pool) : Prop where
  before : 0 < p.reserveA.val ∧ 0 < p.reserveB.val
  after : 0 < q.reserveA.val ∧ 0 < q.reserveB.val
  depth_le : p.depth ≤ q.depth
  liquidity : q.liquidity = p.liquidity

/-- What an operation on a pool may make of it, by the kind of the operation. -/
inductive Change (p : Pool) : Kind → Pool → Prop
  | traded {q : Pool} (h : p.Traded q) : Change p .swap q
  | funded {q : Pool} (outstanding : 0 < p.liquidity.val) (h : p.Undiluted q) : Change p .add q
  | refounded {q : Pool} {a b : Amount} (none : p.liquidity = .zero)
      (reserveA : q.reserveA.val = p.reserveA.val + a.val)
      (reserveB : q.reserveB.val = p.reserveB.val + b.val)
      (liquidity : q.liquidity = a.sqrtProduct b) : Change p .add q
  | redeemed {q : Pool} (outstanding : 0 < p.liquidity.val) (h : p.Undiluted q) :
      Change p .remove q

variable {p q r : Pool}

theorem Traded.trans (h : p.Traded q) (h' : q.Traded r) : p.Traded r :=
  ⟨h.before, h'.after, Nat.le_trans h.depth_le h'.depth_le, h'.liquidity.trans h.liquidity⟩

theorem Traded.reserveB_lt (h : p.Traded q) (ha : q.reserveA < p.reserveA) :
    p.reserveB < q.reserveB := by
  refine Nat.lt_of_mul_lt_mul_left (a := p.reserveA.val) ?_
  exact Nat.lt_of_le_of_lt h.depth_le (Nat.mul_lt_mul_of_pos_right ha h.after.2)

theorem Traded.reserveA_lt (h : p.Traded q) (hb : q.reserveB < p.reserveB) :
    p.reserveA < q.reserveA := by
  refine Nat.lt_of_mul_lt_mul_right (a := p.reserveB.val) ?_
  exact Nat.lt_of_le_of_lt h.depth_le (Nat.mul_lt_mul_of_pos_left hb h.after.1)

end Pool

namespace Approval

/-- What a swap pays out is the price of what it is given. -/
def Priced (v : View) : Approval → Prop
  | swap k _ tickerIn _ amountIn _ amountOut _ => ∃ p q, v (.pool k) = some p ∧
      0 < (p.reservesFor k tickerIn).1.val ∧ 0 < (p.reservesFor k tickerIn).2.val ∧
      quote? amountIn (p.reservesFor k tickerIn).1 (p.reservesFor k tickerIn).2 = some q ∧
      amountOut = q.out
  | _ => True

/-- The approval for an operation is of its kind, and its prices are those of the view. -/
structure Answers (a : Approval) (op : Operation) (v : View) : Prop where
  kind : a.kind = op.kind
  priced : a.Priced v

end Approval

section

variable {v : View} {a : Approval}

theorem TokenOperation.answers {op : TokenOperation} (h : op.verdict.on v = .ok a) :
    a.Answers (.token op) v := by
  rcases verdict_on.1 h with ⟨hk, h⟩ | ⟨hk, h⟩ | ⟨hk, h⟩
  · obtain ⟨-, -, -, -, -, rfl⟩ := deploy_on.1 h
    exact ⟨hk.symm, trivial⟩
  · obtain ⟨-, _, -, -, -, _, -, -, rfl⟩ := mint_on.1 h
    exact ⟨hk.symm, trivial⟩
  · obtain ⟨-, -, -, _, -, rfl⟩ := transfer_on.1 h
    exact ⟨hk.symm, trivial⟩

theorem PairOperation.answers {op : PairOperation} (h : op.verdict.on v = .ok a) :
    a.Answers (.pair op) v := by
  obtain ⟨-, ⟨hk, h⟩ | ⟨hk, h⟩ | ⟨hk, h⟩ | ⟨hk, h⟩⟩ := verdict_on.1 h
  · obtain ⟨-, -, -, -, rfl⟩ := create_on.1 h
    exact ⟨hk.symm, trivial⟩
  · obtain ⟨_, _, _, _, -, -, -, rfl⟩ := add_on.1 h
    exact ⟨hk.symm, trivial⟩
  · obtain ⟨-, _, -, -, -, rfl⟩ := remove_on.1 h
    exact ⟨hk.symm, trivial⟩
  · obtain ⟨p, q, hp, hin, hout, hq, -, -, -, rfl⟩ := swap_on.1 h
    exact ⟨hk.symm, p, q, hp, Amount.pos_iff_ne_zero.2 hin, Amount.pos_iff_ne_zero.2 hout, hq, rfl⟩

theorem BridgeOperation.answers {op : BridgeOperation} {rules : Rules}
    (h : (op.verdict rules).on v = .ok a) : a.Answers (.bridge op) v := by
  obtain ⟨-, ⟨hk, h⟩ | ⟨hk, h⟩⟩ := verdict_on.1 h
  · obtain ⟨-, rfl⟩ := deposit_on.1 h
    exact ⟨hk.symm, trivial⟩
  · obtain ⟨-, rfl⟩ := withdraw_on.1 h
    exact ⟨hk.symm, trivial⟩

theorem Operation.answers {op : Operation} {rules : Rules} (h : (op.verdict rules).on v = .ok a) :
    a.Answers op v := by
  cases op with
  | token op => exact TokenOperation.answers h
  | pair op => exact PairOperation.answers h
  | bridge op => exact BridgeOperation.answers h

end

namespace Effect

variable {l l' : Ledger} {a : Approval} {j : Journal} {k : PoolKey} {p : Pool}

theorem pool?_of_not_mem (h : Effect l a j l') (hk : .pool k ∉ a.keys) :
    l'.pool? k = l.pool? k := by
  cases h with
  | deploy => rfl
  | mint _ _ _ moves | deposit _ moves | withdraw _ moves | transfer moves
  | withdrawUnrecorded _ moves => exact moves.pool? k
  | createPool _ moves | addLiquidity _ _ _ _ _ _ moves | removeLiquidity _ _ _ _ _ _ _ _ moves
  | swapFirst _ _ _ _ _ moves | swapSecond _ _ _ _ _ _ moves =>
    rw [moves.pool?, Ledger.pool?_setPool, if_neg]
    rintro rfl
    exact hk (by simp [Approval.keys])

/-- An approval for a pool that there is changes it according to its kind. -/
theorem change (h : Effect l a j l') (hpriced : a.Priced l.answer) (hp : l.pool? k = some p)
    (hk : .pool k ∈ a.keys) : ∃ q, l'.pool? k = some q ∧ p.Change a.kind q := by
  cases h with
  | deploy | mint | deposit | withdraw | transfer | withdrawUnrecorded => simp [Approval.keys] at hk
  | createPool absent moves =>
    obtain rfl : k = _ := by simpa [Approval.keys] using hk
    rw [absent] at hp
    cases hp
  | @addLiquidity _ _ _ _ _ _ p' q _ record shares reserveA reserveB liquidity _ moves =>
    obtain rfl : k = _ := by simpa [Approval.keys] using hk
    obtain rfl : p' = p := Option.some.inj (record.symm.trans hp)
    refine ⟨q, moves.pool?_written, ?_⟩
    by_cases hl : p'.liquidity = .zero
    · rw [sharesFor, if_pos hl] at shares
      cases shares
      refine .refounded hl reserveA reserveB (Amount.ext ?_)
      rw [liquidity, hl, Amount.val_zero, Nat.zero_add]
    · exact .funded (Amount.pos_iff_ne_zero.2 hl)
        (Pool.undiluted_of_shares hl shares reserveA reserveB liquidity)
  | @removeLiquidity _ _ _ _ _ p' q _ record outstanding shareA shareB reserveA reserveB liquidity _
      moves =>
    obtain rfl : k = _ := by simpa [Approval.keys] using hk
    obtain rfl : p' = p := Option.some.inj (record.symm.trans hp)
    exact ⟨q, moves.pool?_written, .redeemed outstanding
      (Pool.undiluted_of_payout shareA shareB reserveA reserveB liquidity)⟩
  | @swapFirst _ _ _ _ _ _ _ p' q _ record reserveA reserveB liquidity _ moves =>
    obtain rfl : k = _ := by simpa [Approval.keys] using hk
    obtain rfl : p' = p := Option.some.inj (record.symm.trans hp)
    obtain ⟨p, s, hp', hin, hout, hs, rfl⟩ := hpriced
    obtain rfl : p = p' := Option.some.inj (hp'.symm.trans record)
    simp only [Pool.reservesFor, if_true] at hin hout hs
    obtain ⟨hrest, hle⟩ := product_le_of_quote hs hin hout reserveB
    have hdepth : p.depth ≤ q.depth := by rwa [Pool.depth, Pool.depth, reserveA]
    exact ⟨q, moves.pool?_written,
      .traded ⟨⟨hin, hout⟩, ⟨by omega, hrest⟩, hdepth, liquidity⟩⟩
  | @swapSecond _ _ _ _ _ _ _ _ p' q _ record other reserveB reserveA liquidity _ moves =>
    obtain rfl : k = _ := by simpa [Approval.keys] using hk
    obtain rfl : p' = p := Option.some.inj (record.symm.trans hp)
    obtain ⟨p, s, hp', hin, hout, hs, rfl⟩ := hpriced
    obtain rfl : p = p' := Option.some.inj (hp'.symm.trans record)
    simp only [Pool.reservesFor, if_neg other] at hin hout hs
    obtain ⟨hrest, hle⟩ := product_le_of_quote hs hin hout reserveA
    have hdepth : p.depth ≤ q.depth := by
      rw [Pool.depth, Pool.depth, reserveB, Nat.mul_comm, Nat.mul_comm q.reserveA.val]
      exact hle
    exact ⟨q, moves.pool?_written,
      .traded ⟨⟨hout, hin⟩, ⟨hrest, by omega⟩, hdepth, liquidity⟩⟩

end Effect

section

variable {l l' m : Ledger} {rules : Rules} {op : PairOperation} {k : PoolKey} {p q : Pool}

theorem PairOperation.pool_of_verdict {v : View} {a : Approval} (h : op.verdict.on v = .ok a) :
    .pool op.poolKey ∈ a.keys ∧ (op.kind ≠ .create → ∃ p, v (.pool op.poolKey) = some p) := by
  obtain ⟨-, ⟨hk, h⟩ | ⟨hk, h⟩ | ⟨hk, h⟩ | ⟨hk, h⟩⟩ := verdict_on.1 h
  · obtain ⟨-, -, -, -, rfl⟩ := create_on.1 h
    exact ⟨by simp [Approval.keys], fun hne => absurd hk hne⟩
  · obtain ⟨p, _, _, _, hp, -, -, rfl⟩ := add_on.1 h
    exact ⟨by simp [Approval.keys], fun _ => ⟨p, hp⟩⟩
  · obtain ⟨-, p, hp, -, -, rfl⟩ := remove_on.1 h
    exact ⟨by simp [Approval.keys], fun _ => ⟨p, hp⟩⟩
  · obtain ⟨p, _, hp, -, -, -, -, -, -, rfl⟩ := swap_on.1 h
    exact ⟨by simp [Approval.keys], fun _ => ⟨p, hp⟩⟩

theorem Ledger.Performs.change (h : l.Performs rules (.pair op) l') (hk : op.kind ≠ .create) :
    ∃ p q, l.pool? op.poolKey = some p ∧ l'.pool? op.poolKey = some q ∧ p.Change op.kind q := by
  obtain ⟨a, j, hv, he⟩ := h.effect
  obtain ⟨hkey, hpool⟩ := PairOperation.pool_of_verdict hv
  obtain ⟨p, hp⟩ := hpool hk
  obtain ⟨hkind, hpriced⟩ := Operation.answers hv
  obtain ⟨q, hq, hc⟩ := he.change hpriced hp hkey
  rw [hkind] at hc
  exact ⟨p, q, hp, hq, hc⟩

theorem Ledger.Performs.deposits (h : l.Performs rules (.pair op) l') (hk : op.kind = .add) :
    ∃ p x y first minted,
      l.pool? op.poolKey = some p ∧ op.Takes p x y first ∧ sharesFor p x y = .ok minted ∧
      (Store.ledger.validate rules (.pair op) l).1 =
        .ok (.addLiquidity op.poolKey op.holder x y first) ∧
      l.apply (.addLiquidity op.poolKey op.holder x y first) =
        .ok (l', funding op.poolKey op.holder p.owner x y minted) := by
  obtain ⟨a, n, h⟩ := h
  obtain ⟨hv, j, ha, -⟩ := Store.applied_by_ledger_iff.1 h
  obtain ⟨p, x, y, first, hp, ht, -, rfl⟩ :=
    PairOperation.add_on.1 (PairOperation.add_of_verdict hk hv)
  have he := Ledger.effect_of_apply ha
  cases he with
  | @addLiquidity _ _ _ _ minted _ p' q _ record shares =>
    obtain rfl : p' = p := Option.some.inj (record.symm.trans hp)
    exact ⟨p', x, y, first, minted, hp, ht, shares, Store.validated_by_ledger_iff.2 hv, ha⟩

theorem Store.process_change (rules : Rules) (op : Operation) (hp : l.pool? k = some p) :
    ∃ q, (Store.ledger.process rules op l).2.pool? k = some q ∧ (q = p ∨ p.Change op.kind q) := by
  rcases Store.process_ledger_eq_or rules op l with hl | ⟨a, j, hv, he⟩
  · exact ⟨p, by rw [hl, hp], .inl rfl⟩
  · by_cases hk : .pool k ∈ a.keys
    · obtain ⟨hkind, hpriced⟩ := Operation.answers hv
      obtain ⟨q, hq, hc⟩ := he.change hpriced hp hk
      exact ⟨q, hq, .inr (hkind ▸ hc)⟩
    · exact ⟨p, by rw [he.pool?_of_not_mem hk, hp], .inl rfl⟩

end
end TokenLedger
