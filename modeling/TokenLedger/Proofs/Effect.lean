import TokenLedger.Proofs.Journal
import TokenLedger.Proofs.Verdict

/-! What an approval does to a ledger that carries it out: which records are written, what was true
of the old ones, and which movements the journal lists. Main statement: applying does nothing
else. -/
namespace TokenLedger

def funding (k : PoolKey) (holder owner : Address) (a b minted : Amount) : Journal :=
  [⟨k.a, holder, .debit, a⟩, ⟨k.a, owner, .credit, a⟩, ⟨k.b, holder, .debit, b⟩,
   ⟨k.b, owner, .credit, b⟩, ⟨k.shareTicker, holder, .credit, minted⟩]

def redemption (k : PoolKey) (holder owner : Address) (a b liquidity : Amount) : Journal :=
  [⟨k.shareTicker, holder, .debit, liquidity⟩, ⟨k.a, owner, .debit, a⟩, ⟨k.a, holder, .credit, a⟩,
   ⟨k.b, owner, .debit, b⟩, ⟨k.b, holder, .credit, b⟩]

def exchange (tickerIn tickerOut : Ticker) (holder owner : Address) (amountIn amountOut : Amount) :
    Journal :=
  [⟨tickerIn, holder, .debit, amountIn⟩, ⟨tickerIn, owner, .credit, amountIn⟩,
   ⟨tickerOut, owner, .debit, amountOut⟩, ⟨tickerOut, holder, .credit, amountOut⟩]

/-- An approval carried out: the journal that it leaves and the ledger after it. -/
inductive Effect (l : Ledger) : Approval → Journal → Ledger → Prop
  | deploy {t : Ticker} {max limit : Amount} {decimals : UInt8} {deployer : Address}
      (absent : l.token? t = none) :
      Effect l (.deploy t max limit decimals deployer) []
        (l.setToken t (.deployed max limit decimals deployer))
  | mint {t : Ticker} {recipient : Address} {total minted : Amount} {r : Token} {l' : Ledger}
      (record : l.token? t = some r) (sum : minted.val = r.supply.minted.val + total.val)
      (capped : minted ≤ r.supply.max)
      (moves : Replay (l.setToken t (r.withMinted minted)) [⟨t, recipient, .credit, total⟩] l') :
      Effect l (.mint t recipient total) [⟨t, recipient, .credit, total⟩] l'
  | transfer {t : Ticker} {sender : Address} {recipients : List Address} {each total : Amount}
      {l' : Ledger}
      (moves : Replay l
        (⟨t, sender, .debit, total⟩ :: recipients.map fun a => ⟨t, a, .credit, each⟩) l') :
      Effect l (.transfer t sender recipients each total)
        (⟨t, sender, .debit, total⟩ :: recipients.map fun a => ⟨t, a, .credit, each⟩) l'
  | createPool {k : PoolKey} {holder : Address} {a b : Amount} {l' : Ledger}
      (absent : l.pool? k = none)
      (moves : Replay (l.setPool k ⟨a, b, a.sqrtProduct b, k.owner⟩)
        (funding k holder k.owner a b (a.sqrtProduct b)) l') :
      Effect l (.createPool k holder a b) (funding k holder k.owner a b (a.sqrtProduct b)) l'
  | addLiquidity {k : PoolKey} {holder : Address} {a b minted : Amount} {first : Bool} {p q : Pool}
      {l' : Ledger} (record : l.pool? k = some p) (shares : sharesFor p a b = .ok minted)
      (reserveA : q.reserveA.val = p.reserveA.val + a.val)
      (reserveB : q.reserveB.val = p.reserveB.val + b.val)
      (liquidity : q.liquidity.val = p.liquidity.val + minted.val) (owner : q.owner = p.owner)
      (moves : Replay (l.setPool k q) (funding k holder p.owner a b minted) l') :
      Effect l (.addLiquidity k holder a b first) (funding k holder p.owner a b minted) l'
  | removeLiquidity {k : PoolKey} {holder : Address} {x outA outB : Amount} {p q : Pool}
      {l' : Ledger} (record : l.pool? k = some p) (outstanding : 0 < p.liquidity.val)
      (shareA : outA.val = x.product p.reserveA / p.liquidity.val)
      (shareB : outB.val = x.product p.reserveB / p.liquidity.val)
      (reserveA : q.reserveA.val + outA.val = p.reserveA.val)
      (reserveB : q.reserveB.val + outB.val = p.reserveB.val)
      (liquidity : q.liquidity.val + x.val = p.liquidity.val) (owner : q.owner = p.owner)
      (moves : Replay (l.setPool k q) (redemption k holder p.owner outA outB x) l') :
      Effect l (.removeLiquidity k holder x) (redemption k holder p.owner outA outB x) l'
  | swapFirst {k : PoolKey} {holder owner : Address} {tickerOut : Ticker}
      {amountIn fee amountOut : Amount} {p q : Pool} {l' : Ledger} (record : l.pool? k = some p)
      (reserveA : q.reserveA.val = p.reserveA.val + amountIn.val)
      (reserveB : q.reserveB.val + amountOut.val = p.reserveB.val)
      (liquidity : q.liquidity = p.liquidity) (kept : q.owner = p.owner)
      (moves : Replay (l.setPool k q) (exchange k.a tickerOut holder owner amountIn amountOut) l') :
      Effect l (.swap k holder k.a tickerOut amountIn fee amountOut owner)
        (exchange k.a tickerOut holder owner amountIn amountOut) l'
  | swapSecond {k : PoolKey} {holder owner : Address} {tickerIn tickerOut : Ticker}
      {amountIn fee amountOut : Amount} {p q : Pool} {l' : Ledger} (record : l.pool? k = some p)
      (other : tickerIn ≠ k.a) (reserveB : q.reserveB.val = p.reserveB.val + amountIn.val)
      (reserveA : q.reserveA.val + amountOut.val = p.reserveA.val)
      (liquidity : q.liquidity = p.liquidity) (kept : q.owner = p.owner)
      (moves : Replay (l.setPool k q)
        (exchange tickerIn tickerOut holder owner amountIn amountOut) l') :
      Effect l (.swap k holder tickerIn tickerOut amountIn fee amountOut owner)
        (exchange tickerIn tickerOut holder owner amountIn amountOut) l'
  | deposit {holder : Address} {x minted : Amount} {l' : Ledger}
      (sum : minted.val = ((l.token? .wrapped).getD .wrapped).supply.minted.val + x.val)
      (moves : Replay (l.setToken .wrapped (((l.token? .wrapped).getD .wrapped).withMinted minted))
        [⟨.wrapped, holder, .credit, x⟩] l') :
      Effect l (.deposit holder x) [⟨.wrapped, holder, .credit, x⟩] l'
  | withdraw {holder : Address} {x : Amount} {r : Token} {l' : Ledger}
      (record : l.token? .wrapped = some r)
      (moves : Replay (l.setToken .wrapped (r.withMinted (r.supply.minted.monus x)))
        [⟨.wrapped, holder, .debit, x⟩] l') :
      Effect l (.withdraw holder x) [⟨.wrapped, holder, .debit, x⟩] l'
  | withdrawUnrecorded {holder : Address} {x : Amount} {l' : Ledger}
      (absent : l.token? .wrapped = none) (moves : Replay l [⟨.wrapped, holder, .debit, x⟩] l') :
      Effect l (.withdraw holder x) [⟨.wrapped, holder, .debit, x⟩] l'

namespace Draft

variable {d d' e : Draft} {t : Ticker} {a b : Address} {x : Amount}

/-- The second draft is the first with some more movements. -/
structure Moves (d : Draft) (j : Journal) (d' : Draft) : Prop where
  journal : d'.journal = d.journal ++ j
  replay : Replay d.ledger j d'.ledger

theorem Moves.trans {i j : Journal} (h : Moves d i d') (h' : Moves d' j e) : Moves d (i ++ j) e :=
  ⟨by rw [h'.journal, h.journal, List.append_assoc], h.replay.append h'.replay⟩

theorem moves_credit (h : d.credit t a x = .ok d') : Moves d [⟨t, a, .credit, x⟩] d' := by
  unfold credit at h
  split at h
  · next y hy =>
    cases h
    exact ⟨rfl, .credit (j := []) .nil (Amount.add?_eq_some_iff.1 hy)⟩
  · cases h

theorem moves_debit (h : d.debit t a x = .ok d') : Moves d [⟨t, a, .debit, x⟩] d' := by
  unfold debit at h
  split at h
  · next y hy =>
    cases h
    exact ⟨rfl, .debit (j := []) .nil (Amount.sub?_eq_some_iff.1 hy)⟩
  · cases h

theorem moves_move (h : d.move t a b x = .ok d') :
    Moves d [⟨t, a, .debit, x⟩, ⟨t, b, .credit, x⟩] d' := by
  obtain ⟨e, hd, hc⟩ := bind_eq_ok_iff.1 h
  exact (moves_debit hd).trans (moves_credit hc)

theorem moves_creditAll {as : List Address} (h : d.creditAll t x as = .ok d') :
    Moves d (as.map fun a => ⟨t, a, .credit, x⟩) d' := by
  induction as generalizing d with
  | nil => cases h; exact ⟨by simp, .nil⟩
  | cons a as ih =>
    obtain ⟨e, hc, hs⟩ := bind_eq_ok_iff.1 h
    exact (moves_credit hc).trans (ih hs)

theorem pool_eq_ok {k : PoolKey} {p : Pool} (h : d.pool k = .ok p) : d.ledger.pool? k = some p := by
  unfold pool at h
  split at h
  · next hp => cases h; exact hp
  · cases h

end Draft

theorem grow_eq_ok {what : Excess} {v i x : Amount} (h : grow what v i = .ok x) :
    x.val = v.val + i.val := by
  unfold grow at h
  split at h
  · next hx => cases h; exact Amount.add?_eq_some_iff.1 hx
  · cases h

theorem shrink_eq_ok {t : Ticker} {o : Address} {v i x : Amount} (h : shrink t o v i = .ok x) :
    x.val + i.val = v.val := by
  unfold shrink at h
  split at h
  · next hx => cases h; exact Amount.sub?_eq_some_iff.1 hx
  · cases h

theorem mintedShares_eq_ok {k : PoolKey} {p : Pool} {a b minted : Amount}
    (h : mintedShares k p a b = .ok minted) : sharesFor p a b = .ok minted := by
  unfold mintedShares at h
  split at h
  · next hm => cases h; exact hm
  · cases h
  · cases h

theorem redeemed_eq_ok {k : PoolKey} {p : Pool} {x reserve out : Amount}
    (h : redeemed k p x reserve = .ok out) :
    0 < p.liquidity.val ∧ out.val = x.product reserve / p.liquidity.val := by
  unfold redeemed at h
  split at h
  · next hx =>
    cases h
    obtain ⟨n, hn, ho⟩ := Option.bind_eq_some_iff.1 hx
    unfold Amount.mulDiv? at hn
    split at hn
    · cases hn
    · next hz => cases hn; exact ⟨Nat.pos_of_ne_zero hz, Amount.ofNat?_eq_some_iff.1 ho⟩
  · cases h

namespace Draft

variable {l : Ledger} {d' : Draft} {k : PoolKey} {t : Ticker} {holder owner : Address}
  {a b x : Amount}

theorem effect_mint (h : mint ⟨l, []⟩ t holder x = .ok d') :
    Effect l (.mint t holder x) d'.journal d'.ledger := by
  unfold mint at h
  split at h
  · cases h
  · next r hr =>
    split at h
    · next minted hm =>
      split at h
      · next hc =>
        obtain ⟨hj, hl⟩ := moves_credit h
        rw [hj]
        exact .mint hr (Amount.add?_eq_some_iff.1 hm) hc hl
      · cases h
    · cases h

theorem effect_createPool (h : createPool ⟨l, []⟩ k holder a b = .ok d') :
    Effect l (.createPool k holder a b) d'.journal d'.ledger := by
  unfold createPool at h
  split at h
  · cases h
  · next hk =>
    obtain ⟨d₁, h₁, h⟩ := bind_eq_ok_iff.1 h
    obtain ⟨d₂, h₂, h⟩ := bind_eq_ok_iff.1 h
    obtain ⟨d₃, h₃, h⟩ := bind_eq_ok_iff.1 h
    cases h
    obtain ⟨hj, hl⟩ := ((moves_move h₁).trans (moves_move h₂)).trans (moves_credit h₃)
    change Effect l _ d₃.journal (d₃.ledger.setPool k _)
    rw [hj]
    exact .createPool hk (hl.setPool k _)

theorem effect_addLiquidity {first : Bool} (h : addLiquidity ⟨l, []⟩ k holder a b = .ok d') :
    Effect l (.addLiquidity k holder a b first) d'.journal d'.ledger := by
  obtain ⟨p, hp, h⟩ := bind_eq_ok_iff.1 h
  obtain ⟨minted, hm, h⟩ := bind_eq_ok_iff.1 h
  obtain ⟨d₁, h₁, h⟩ := bind_eq_ok_iff.1 h
  obtain ⟨d₂, h₂, h⟩ := bind_eq_ok_iff.1 h
  obtain ⟨d₃, h₃, h⟩ := bind_eq_ok_iff.1 h
  obtain ⟨ra, hra, h⟩ := bind_eq_ok_iff.1 h
  obtain ⟨rb, hrb, h⟩ := bind_eq_ok_iff.1 h
  obtain ⟨liquidity, hli, h⟩ := bind_eq_ok_iff.1 h
  cases h
  obtain ⟨hj, hl⟩ := ((moves_move h₁).trans (moves_move h₂)).trans (moves_credit h₃)
  change Effect l _ d₃.journal (d₃.ledger.setPool k ⟨ra, rb, liquidity, p.owner⟩)
  rw [hj]
  exact .addLiquidity (q := ⟨ra, rb, liquidity, p.owner⟩) (pool_eq_ok hp) (mintedShares_eq_ok hm)
    (grow_eq_ok hra) (grow_eq_ok hrb) (grow_eq_ok hli) rfl (hl.setPool k _)

theorem effect_removeLiquidity (h : removeLiquidity ⟨l, []⟩ k holder x = .ok d') :
    Effect l (.removeLiquidity k holder x) d'.journal d'.ledger := by
  obtain ⟨p, hp, h⟩ := bind_eq_ok_iff.1 h
  obtain ⟨outA, hoa, h⟩ := bind_eq_ok_iff.1 h
  obtain ⟨outB, hob, h⟩ := bind_eq_ok_iff.1 h
  obtain ⟨d₁, h₁, h⟩ := bind_eq_ok_iff.1 h
  obtain ⟨d₂, h₂, h⟩ := bind_eq_ok_iff.1 h
  obtain ⟨d₃, h₃, h⟩ := bind_eq_ok_iff.1 h
  obtain ⟨ra, hra, h⟩ := bind_eq_ok_iff.1 h
  obtain ⟨rb, hrb, h⟩ := bind_eq_ok_iff.1 h
  obtain ⟨remaining, hre, h⟩ := bind_eq_ok_iff.1 h
  cases h
  obtain ⟨hj, hl⟩ := ((moves_debit h₁).trans (moves_move h₂)).trans (moves_move h₃)
  obtain ⟨hpos, hoa⟩ := redeemed_eq_ok hoa
  obtain ⟨-, hob⟩ := redeemed_eq_ok hob
  change Effect l _ d₃.journal (d₃.ledger.setPool k ⟨ra, rb, remaining, p.owner⟩)
  rw [hj]
  exact .removeLiquidity (q := ⟨ra, rb, remaining, p.owner⟩) (pool_eq_ok hp) hpos hoa hob
    (shrink_eq_ok hra) (shrink_eq_ok hrb) (shrink_eq_ok hre) rfl (hl.setPool k _)

theorem effect_swap {tickerIn tickerOut : Ticker} {amountIn fee amountOut : Amount}
    (h : swap ⟨l, []⟩ k holder tickerIn tickerOut amountIn amountOut owner = .ok d') :
    Effect l (.swap k holder tickerIn tickerOut amountIn fee amountOut owner)
      d'.journal d'.ledger := by
  obtain ⟨p, hp, h⟩ := bind_eq_ok_iff.1 h
  obtain ⟨d₁, h₁, h⟩ := bind_eq_ok_iff.1 h
  obtain ⟨d₂, h₂, h⟩ := bind_eq_ok_iff.1 h
  obtain ⟨hj, hl⟩ := (moves_move h₁).trans (moves_move h₂)
  by_cases hk : tickerIn = k.a
  · subst hk
    rw [if_pos rfl] at h
    obtain ⟨ra, hra, h⟩ := bind_eq_ok_iff.1 h
    obtain ⟨rb, hrb, h⟩ := bind_eq_ok_iff.1 h
    cases h
    change Effect l _ d₂.journal (d₂.ledger.setPool k { p with reserveA := ra, reserveB := rb })
    rw [hj]
    exact .swapFirst (q := { p with reserveA := ra, reserveB := rb }) (pool_eq_ok hp)
      (grow_eq_ok hra) (shrink_eq_ok hrb) rfl rfl (hl.setPool k _)
  · rw [if_neg hk] at h
    obtain ⟨rb, hrb, h⟩ := bind_eq_ok_iff.1 h
    obtain ⟨ra, hra, h⟩ := bind_eq_ok_iff.1 h
    cases h
    change Effect l _ d₂.journal (d₂.ledger.setPool k { p with reserveA := ra, reserveB := rb })
    rw [hj]
    exact .swapSecond (q := { p with reserveA := ra, reserveB := rb }) (pool_eq_ok hp) hk
      (grow_eq_ok hrb) (shrink_eq_ok hra) rfl rfl (hl.setPool k _)

theorem effect_deposit (h : deposit ⟨l, []⟩ holder x = .ok d') :
    Effect l (.deposit holder x) d'.journal d'.ledger := by
  obtain ⟨minted, hm, h⟩ := bind_eq_ok_iff.1 h
  obtain ⟨hj, hl⟩ := moves_credit h
  rw [hj]
  exact .deposit (grow_eq_ok hm) hl

theorem effect_withdraw (h : withdraw ⟨l, []⟩ holder x = .ok d') :
    Effect l (.withdraw holder x) d'.journal d'.ledger := by
  obtain ⟨d₁, h₁, h⟩ := bind_eq_ok_iff.1 h
  obtain ⟨hj, hl⟩ := moves_debit h₁
  split at h
  · next r hr =>
    cases h
    rw [hl.token?] at hr
    simpa [setToken, hj] using Effect.withdraw hr (hl.setToken _ _)
  · next hr =>
    cases h
    rw [hl.token?] at hr
    simpa [hj] using Effect.withdrawUnrecorded hr hl

end Draft

/-- Carrying out an approval has its effect and no other. -/
theorem Ledger.effect_of_apply {l l' : Ledger} {a : Approval} {j : Journal}
    (h : l.apply a = .ok (l', j)) : Effect l a j l' := by
  unfold Ledger.apply at h
  cases hd : (Draft.mk l []).apply a with
  | error r => simp [hd, Except.map] at h
  | ok d =>
    simp only [hd, Except.map, Except.ok.injEq, Prod.mk.injEq] at h
    obtain ⟨rfl, rfl⟩ := h
    cases a with
    | deploy t max limit decimals deployer =>
      simp only [Draft.apply, Draft.deploy] at hd
      split at hd
      · cases hd
      · next ht => cases hd; exact .deploy ht
    | mint t recipient total => exact Draft.effect_mint hd
    | transfer t sender recipients each total =>
      obtain ⟨d₁, h₁, h₂⟩ := bind_eq_ok_iff.1 hd
      obtain ⟨hj, hl⟩ := (Draft.moves_debit h₁).trans (Draft.moves_creditAll h₂)
      rw [hj]
      exact .transfer hl
    | createPool k holder a b => exact Draft.effect_createPool hd
    | addLiquidity k holder a b first => exact Draft.effect_addLiquidity hd
    | removeLiquidity k holder x => exact Draft.effect_removeLiquidity hd
    | swap k holder tickerIn tickerOut amountIn fee amountOut owner => exact Draft.effect_swap hd
    | deposit holder x => exact Draft.effect_deposit hd
    | withdraw holder x => exact Draft.effect_withdraw hd

namespace Effect

variable {l l' : Ledger} {a : Approval} {j : Journal} {t : Ticker} {k : PoolKey} {q : Pool}

theorem token?_ne_none (h : Effect l a j l') (ht : l.token? t ≠ none) : l'.token? t ≠ none := by
  cases h with
  | deploy => rw [Ledger.token?_setToken]; split <;> simp [ht]
  | mint _ _ _ moves | deposit _ moves | withdraw _ moves =>
    rw [moves.token?, Ledger.token?_setToken]; split <;> simp [ht]
  | transfer moves | withdrawUnrecorded _ moves => rwa [moves.token?]
  | createPool _ moves | addLiquidity _ _ _ _ _ _ moves | removeLiquidity _ _ _ _ _ _ _ _ moves
  | swapFirst _ _ _ _ _ moves | swapSecond _ _ _ _ _ _ moves =>
    rwa [moves.token?, Ledger.token?_setPool]

theorem pool?_ne_none_iff (h : Effect l a j l') : l'.pool? k ≠ none ↔
    l.pool? k ≠ none ∨ ∃ holder x y, a = .createPool k holder x y := by
  cases h with
  | deploy => simp
  | mint _ _ _ moves | deposit _ moves | withdraw _ moves | transfer moves
  | withdrawUnrecorded _ moves => simp [moves.pool?]
  | createPool absent moves =>
    rw [moves.pool?, Ledger.pool?_setPool]
    split <;> simp_all
  | addLiquidity record _ _ _ _ _ moves | removeLiquidity record _ _ _ _ _ _ _ moves
  | swapFirst record _ _ _ _ moves | swapSecond record _ _ _ _ _ moves =>
    rw [moves.pool?, Ledger.pool?_setPool]
    split <;> simp_all

theorem balance?_ne_none_iff (h : Effect l a j l') {o : Address} :
    l'.balance? t o ≠ none ↔ l.balance? t o ≠ none ∨ ∃ v ∈ j, v.slot = ⟨t, o⟩ := by
  cases h with
  | deploy => simp
  | mint _ _ _ moves | transfer moves | createPool _ moves | addLiquidity _ _ _ _ _ _ moves
  | removeLiquidity _ _ _ _ _ _ _ _ moves | swapFirst _ _ _ _ _ moves
  | swapSecond _ _ _ _ _ _ moves | deposit _ moves | withdraw _ moves
  | withdrawUnrecorded _ moves => exact moves.balance?_ne_none_iff

theorem pool?_eq_some (h : Effect l a j l') (hq : l'.pool? k = some q) :
    (∃ p, l.pool? k = some p ∧ p.owner = q.owner) ∨
      ∃ holder x y, a = .createPool k holder x y ∧ q = ⟨x, y, x.sqrtProduct y, k.owner⟩ := by
  cases h with
  | deploy => exact .inl ⟨q, hq, rfl⟩
  | mint _ _ _ moves | deposit _ moves | withdraw _ moves | transfer moves
  | withdrawUnrecorded _ moves =>
    rw [moves.pool?] at hq
    exact .inl ⟨q, hq, rfl⟩
  | @createPool k' holder x y _ absent moves =>
    rw [moves.pool?, Ledger.pool?_setPool] at hq
    split at hq
    · next hk => subst hk; cases hq; exact .inr ⟨holder, x, y, rfl, rfl⟩
    · exact .inl ⟨q, hq, rfl⟩
  | addLiquidity record _ _ _ _ owner moves | removeLiquidity record _ _ _ _ _ _ owner moves
  | swapFirst record _ _ _ owner moves | swapSecond record _ _ _ _ owner moves =>
    rw [moves.pool?, Ledger.pool?_setPool] at hq
    split at hq
    · next hk => subst hk; cases hq; exact .inl ⟨_, record, owner.symm⟩
    · exact .inl ⟨q, hq, rfl⟩

end Effect
end TokenLedger
