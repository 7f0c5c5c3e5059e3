import TokenLedger.Proofs.Conservation
import TokenLedger.Proofs.Pricing

/-! Why a ledger refuses an approval. The rules read each balance once and before anything moves,
while the ledger debits and credits in turn, so that every debit is traced back to the balance that
was read. Main statement: of what a ledger could refuse, an approval that the rules gave on the same
ledger meets an excess, a withdrawal that was not checked, or an owner who lacks the reserves. -/
namespace TokenLedger

namespace PoolKey

theorem shareTicker_ne_a (k : PoolKey) : k.shareTicker ≠ k.a := by
  intro h
  have hs := Ticker.size_joined k.a k.b
  rw [← shareTicker, h] at hs
  omega

theorem shareTicker_ne_b (k : PoolKey) : k.shareTicker ≠ k.b := by
  intro h
  have hs := Ticker.size_joined k.a k.b
  rw [← shareTicker, h] at hs
  omega

end PoolKey

theorem Replay.held_of_ne {l m : Ledger} {j : Journal} {t : Ticker} {o : Address}
    (h : Replay l j m) (hn : ∀ v ∈ j, v.ticker ≠ t) : m.held t o = l.held t o := by
  rw [Ledger.held, h.balance? fun v hv hs => hn v hv (congrArg Slot.ticker hs), Ledger.held]

theorem Ledger.le_held_of_covers {l : Ledger} {t : Ticker} {o : Address} {x : Amount}
    (h : Inquiry.Covers l.answer t o x.val) : x ≤ l.held t o := by
  obtain ⟨held, hb, hx⟩ := h
  have hb' : l.balance? t o = some held := hb
  rw [Ledger.held, hb', Option.getD_some]
  exact hx

/-- Some number would leave its range. -/
def Refusal.IsOverflow (r : Refusal) : Prop := ∃ what, r = .overflow what

variable {r : Refusal}

theorem grow_eq_error {what : Excess} {v i : Amount} (h : grow what v i = .error r) :
    r.IsOverflow := by
  unfold grow at h
  split at h
  · cases h
  · cases h; exact ⟨_, rfl⟩

theorem shrink_eq_error {t : Ticker} {o : Address} {v i : Amount} (h : shrink t o v i = .error r) :
    v < i := by
  unfold shrink at h
  split at h
  · cases h
  · next hs => exact Amount.sub?_eq_none_iff.1 hs

theorem mintedShares_eq_error {k : PoolKey} {p : Pool} {a b : Amount}
    (hp : p.liquidity = .zero ∨ 0 < p.reserveA.val ∧ 0 < p.reserveB.val)
    (h : mintedShares k p a b = .error r) : r.IsOverflow := by
  have hshares : sharesFor p a b ≠ .error .emptyReserves := by
    intro hs
    unfold sharesFor at hs
    split at hs
    · cases hs
    · next hl =>
      obtain ⟨ha, hb⟩ := hp.resolve_left hl
      rw [Amount.mulDiv?, Amount.mulDiv?, if_neg (Nat.pos_iff_ne_zero.1 ha),
        if_neg (Nat.pos_iff_ne_zero.1 hb)] at hs
      dsimp only at hs
      split at hs <;> cases hs
  unfold mintedShares at h
  split at h
  · cases h
  · next hs => exact absurd hs hshares
  · cases h; exact ⟨_, rfl⟩

theorem payout_le {p : Pool} {x : Amount} (hx : x ≤ p.liquidity) (reserve : Amount) :
    x.product reserve / p.liquidity.val ≤ reserve.val :=
  Nat.div_le_of_le_mul (Nat.mul_le_mul_right _ hx)

theorem redeemed_of_le {k : PoolKey} {p : Pool} {x : Amount} (hpos : 0 < x.val)
    (hx : x ≤ p.liquidity) (reserve : Amount) : ∃ out : Amount,
      redeemed k p x reserve = .ok out ∧ out.val = x.product reserve / p.liquidity.val ∧
        out ≤ reserve := by
  have hle := payout_le hx reserve
  have hliquidity := Nat.lt_of_lt_of_le hpos hx
  let out : Amount := ⟨_, Nat.lt_of_le_of_lt hle reserve.val_lt⟩
  have hout : Amount.ofNat? (x.product reserve / p.liquidity.val) = some out :=
    Amount.ofNat?_eq_some_iff.2 rfl
  refine ⟨out, ?_, rfl, hle⟩
  rw [redeemed, Amount.mulDiv?, if_neg (by omega), Option.bind_some, hout]

/-- A removal of liquidity pays out an amount of one of the pool's tokens. -/
def Pool.PaysOut (p : Pool) (k : PoolKey) (x : Amount) (t : Ticker) (out : Amount) : Prop :=
  t = k.a ∧ out.val = x.product p.reserveA / p.liquidity.val ∨
    t = k.b ∧ out.val = x.product p.reserveB / p.liquidity.val

theorem Pool.PaysOut.le {p : Pool} {k : PoolKey} {x out : Amount} {t : Ticker}
    (h : p.PaysOut k x t out) (hx : x ≤ p.liquidity) :
    t = k.a ∧ out ≤ p.reserveA ∨ t = k.b ∧ out ≤ p.reserveB := by
  simp only [Amount.le_def]
  exact h.imp (fun ⟨ht, ho⟩ => ⟨ht, ho ▸ payout_le hx _⟩) fun ⟨ht, ho⟩ => ⟨ht, ho ▸ payout_le hx _⟩

namespace Draft

variable {d d' : Draft} {k : PoolKey} {p : Pool} {t u : Ticker} {a b holder owner o : Address}
  {x y : Amount}

/-- The balance is too small for a debit, and the refusal says so. -/
def Short (d : Draft) (t : Ticker) (a : Address) (x : Amount) (r : Refusal) : Prop :=
  d.ledger.held t a < x ∧ r = .insufficient t a (d.ledger.held t a) x

theorem Short.false (h : d.Short t a x r) (hx : x ≤ d.ledger.held t a) : False :=
  Nat.not_lt_of_le hx h.1

theorem debit_eq_error (h : d.debit t a x = .error r) : d.Short t a x r := by
  unfold debit at h
  split at h
  · cases h
  · next hs => cases h; exact ⟨Amount.sub?_eq_none_iff.1 hs, rfl⟩

theorem credit_eq_error (h : d.credit t a x = .error r) : r.IsOverflow := by
  unfold credit at h
  split at h
  · cases h
  · cases h; exact ⟨_, rfl⟩

theorem move_eq_error (h : d.move t a b x = .error r) : d.Short t a x r ∨ r.IsOverflow := by
  rcases bind_eq_error_iff.1 h with h | ⟨_, -, h⟩
  · exact .inl (debit_eq_error h)
  · exact .inr (credit_eq_error h)

theorem move_of_le (hx : x ≤ d.ledger.held t a) (h : d.move t a b x = .error r) : r.IsOverflow :=
  (move_eq_error h).resolve_left fun hs => hs.false hx

theorem creditAll_eq_error {as : List Address} (h : d.creditAll t x as = .error r) :
    r.IsOverflow := by
  induction as generalizing d with
  | nil => cases h
  | cons a as ih =>
    rcases bind_eq_error_iff.1 h with h | ⟨_, -, h⟩
    · exact credit_eq_error h
    · exact ih h

theorem held_debit (h : d.debit t a x = .ok d') (hn : t ≠ u) :
    d'.ledger.held u o = d.ledger.held u o :=
  (moves_debit h).replay.held_of_ne (by simpa using hn)

theorem held_move (h : d.move t a b x = .ok d') (hn : t ≠ u) :
    d'.ledger.held u o = d.ledger.held u o :=
  (moves_move h).replay.held_of_ne (by simpa using hn)

theorem pool_of_some (hk : d.ledger.pool? k = some p) : d.pool k = .ok p := by
  rw [pool, hk]

theorem mint_eq_error {s : Supply} (ht : (d.ledger.token? t).map Token.supply = some s)
    (hx : x.val + s.minted.val ≤ s.max.val) (h : d.mint t a x = .error r) : r.IsOverflow := by
  obtain ⟨record, hr, rfl⟩ := Option.map_eq_some_iff.1 ht
  simp only [mint, hr] at h
  split at h
  · next minted hm =>
    have hle : minted ≤ record.supply.max := by
      rw [Amount.le_def, Amount.add?_eq_some_iff.1 hm, Nat.add_comm]
      exact hx
    rw [if_pos hle] at h
    exact credit_eq_error h
  · next hm =>
    have hlimit := Amount.add?_eq_none_iff.1 hm
    have hmax := record.supply.max.val_lt
    omega

theorem transfer_eq_error {as : List Address} (hx : x ≤ d.ledger.held t a)
    (h : d.transfer t a as y x = .error r) : r.IsOverflow := by
  rcases bind_eq_error_iff.1 h with h | ⟨_, -, h⟩
  · exact ((debit_eq_error h).false hx).elim
  · exact creditAll_eq_error h

theorem funding_eq_error {minted : Amount} {f : Draft → Except Refusal Draft} (hab : k.a ≠ k.b)
    (hx : x ≤ d.ledger.held k.a holder) (hy : y ≤ d.ledger.held k.b holder)
    (h : (do
      let d ← d.move k.a holder owner x
      let d ← d.move k.b holder owner y
      let d ← d.credit k.shareTicker holder minted
      f d) = .error r) : r.IsOverflow ∨ ∃ d', f d' = .error r := by
  rcases bind_eq_error_iff.1 h with h | ⟨d₁, h₁, h⟩
  · exact .inl (move_of_le hx h)
  rcases bind_eq_error_iff.1 h with h | ⟨d₂, -, h⟩
  · rw [← held_move h₁ hab] at hy
    exact .inl (move_of_le hy h)
  rcases bind_eq_error_iff.1 h with h | ⟨d₃, -, h⟩
  · exact .inl (credit_eq_error h)
  · exact .inr ⟨d₃, h⟩

theorem createPool_eq_error (hk : d.ledger.pool? k = none) (hab : k.a ≠ k.b)
    (hx : x ≤ d.ledger.held k.a holder) (hy : y ≤ d.ledger.held k.b holder)
    (h : d.createPool k holder x y = .error r) : r.IsOverflow := by
  simp only [createPool, hk] at h
  rcases funding_eq_error hab hx hy h with h | ⟨_, h⟩
  · exact h
  · cases h

theorem addLiquidity_eq_error (hk : d.ledger.pool? k = some p)
    (hp : p.liquidity = .zero ∨ 0 < p.reserveA.val ∧ 0 < p.reserveB.val) (hab : k.a ≠ k.b)
    (hx : x ≤ d.ledger.held k.a holder) (hy : y ≤ d.ledger.held k.b holder)
    (h : d.addLiquidity k holder x y = .error r) : r.IsOverflow := by
  rw [addLiquidity, bind_of_ok (pool_of_some hk)] at h
  rcases bind_eq_error_iff.1 h with h | ⟨minted, -, h⟩
  · exact mintedShares_eq_error hp h
  rcases funding_eq_error hab hx hy h with h | ⟨_, h⟩
  · exact h
  rcases bind_eq_error_iff.1 h with h | ⟨_, -, h⟩
  · exact grow_eq_error h
  rcases bind_eq_error_iff.1 h with h | ⟨_, -, h⟩
  · exact grow_eq_error h
  rcases bind_eq_error_iff.1 h with h | ⟨_, -, h⟩
  · exact grow_eq_error h
  · cases h

/-- Of a removal that its holder can pay for, only the owner of the pool may lack a balance. -/
theorem removeLiquidity_eq_error (hk : d.ledger.pool? k = some p) (hab : k.a ≠ k.b)
    (hpos : 0 < x.val) (hx : x ≤ p.liquidity) (hs : x ≤ d.ledger.held k.shareTicker holder)
    (h : d.removeLiquidity k holder x = .error r) :
    r.IsOverflow ∨ ∃ t out, p.PaysOut k x t out ∧ d.Short t p.owner out r := by
  obtain ⟨outA, hoa, hea, hla⟩ := redeemed_of_le (k := k) hpos hx p.reserveA
  obtain ⟨outB, hob, heb, hlb⟩ := redeemed_of_le (k := k) hpos hx p.reserveB
  rw [removeLiquidity, bind_of_ok (pool_of_some hk), bind_of_ok hoa, bind_of_ok hob] at h
  rcases bind_eq_error_iff.1 h with h | ⟨d₁, h₁, h⟩
  · exact ((debit_eq_error h).false hs).elim
  rcases bind_eq_error_iff.1 h with h | ⟨d₂, h₂, h⟩
  · rcases move_eq_error h with h | h
    · rw [Short, held_debit h₁ k.shareTicker_ne_a] at h
      exact .inr ⟨k.a, outA, .inl ⟨rfl, hea⟩, h⟩
    · exact .inl h
  rcases bind_eq_error_iff.1 h with h | ⟨_, -, h⟩
  · rcases move_eq_error h with h | h
    · rw [Short, held_move h₂ hab, held_debit h₁ k.shareTicker_ne_b] at h
      exact .inr ⟨k.b, outB, .inr ⟨rfl, heb⟩, h⟩
    · exact .inl h
  rcases bind_eq_error_iff.1 h with h | ⟨_, -, h⟩
  · exact absurd (shrink_eq_error h) (Nat.not_lt_of_le hla)
  rcases bind_eq_error_iff.1 h with h | ⟨_, -, h⟩
  · exact absurd (shrink_eq_error h) (Nat.not_lt_of_le hlb)
  rcases bind_eq_error_iff.1 h with h | ⟨_, -, h⟩
  · exact absurd (shrink_eq_error h) (Nat.not_lt_of_le hx)
  · cases h

theorem swap_eq_error (hk : d.ledger.pool? k = some p) (hne : t ≠ u)
    (hx : x ≤ d.ledger.held t holder) (hy : y ≤ d.ledger.held u owner)
    (hout : y ≤ (p.reservesFor k t).2) (h : d.swap k holder t u x y owner = .error r) :
    r.IsOverflow := by
  rw [swap, bind_of_ok (pool_of_some hk)] at h
  rcases bind_eq_error_iff.1 h with h | ⟨d₁, h₁, h⟩
  · exact move_of_le hx h
  rcases bind_eq_error_iff.1 h with h | ⟨d₂, -, h⟩
  · rw [← held_move h₁ hne] at hy
    exact move_of_le hy h
  unfold Pool.reservesFor at hout
  split at h
  · next ht =>
    rw [if_pos ht] at hout
    rcases bind_eq_error_iff.1 h with h | ⟨_, -, h⟩
    · exact grow_eq_error h
    rcases bind_eq_error_iff.1 h with h | ⟨_, -, h⟩
    · exact absurd (shrink_eq_error h) (Nat.not_lt_of_le hout)
    · cases h
  · next ht =>
    rw [if_neg ht] at hout
    rcases bind_eq_error_iff.1 h with h | ⟨_, -, h⟩
    · exact grow_eq_error h
    rcases bind_eq_error_iff.1 h with h | ⟨_, -, h⟩
    · exact absurd (shrink_eq_error h) (Nat.not_lt_of_le hout)
    · cases h

theorem deposit_eq_error (h : d.deposit holder x = .error r) : r.IsOverflow := by
  rcases bind_eq_error_iff.1 h with h | ⟨_, -, h⟩
  · exact grow_eq_error h
  · exact credit_eq_error h

theorem withdraw_eq_error (h : d.withdraw holder x = .error r) : d.Short .wrapped holder x r := by
  rcases bind_eq_error_iff.1 h with h | ⟨_, -, h⟩
  · exact debit_eq_error h
  · split at h <;> cases h

end Draft

/-- What an approval may still meet in the ledger on which the rules gave it. -/
inductive Obstacle (rules : Rules) (l : Ledger) : Approval → Refusal → Prop
  | excess {a : Approval} (what : Excess) : Obstacle rules l a (.overflow what)
  /-- Without the switch nobody looked at the balance. -/
  | unchecked {holder : Address} {x : Amount} (off : rules.coverWithdrawals = false)
      (short : l.held .wrapped holder < x) : Obstacle rules l (.withdraw holder x)
        (.insufficient .wrapped holder (l.held .wrapped holder) x)
  /-- The rules look at the record of a pool, and not at what its owner holds. -/
  | reserves {k : PoolKey} {holder : Address} {x out : Amount} {p : Pool} {t : Ticker}
      (record : l.pool? k = some p) (payout : p.PaysOut k x t out)
      (short : l.held t p.owner < out) : Obstacle rules l (.removeLiquidity k holder x)
        (.insufficient t p.owner (l.held t p.owner) out)

theorem Obstacle.of_overflow {rules : Rules} {l : Ledger} {a : Approval} (h : r.IsOverflow) :
    Obstacle rules l a r := by
  obtain ⟨what, rfl⟩ := h
  exact .excess what

section

open Inquiry

variable {rules : Rules} {l : Ledger} {a : Approval}

theorem TokenOperation.obstacle {op : TokenOperation} (hv : op.verdict.on l.answer = .ok a)
    (h : Draft.apply ⟨l, []⟩ a = .error r) : Obstacle rules l a r := by
  rcases verdict_on.1 hv with ⟨-, hv⟩ | ⟨-, hv⟩ | ⟨-, hv⟩
  · obtain ⟨-, -, -, -, ht, rfl⟩ := deploy_on.1 hv
    have hnone : l.token? op.ticker = none := Option.map_eq_none_iff.1 ht
    simp only [Draft.apply, Draft.deploy, hnone] at h
    cases h
  · obtain ⟨-, s, ht, -, -, total, -, hle, rfl⟩ := mint_on.1 hv
    exact .of_overflow (Draft.mint_eq_error (d := ⟨l, []⟩) ht hle h)
  · obtain ⟨-, -, hc, total, ht, rfl⟩ := transfer_on.1 hv
    exact .of_overflow (Draft.transfer_eq_error (Ledger.le_held_of_covers (ht ▸ hc)) h)

theorem PairOperation.Takes.funded {op : PairOperation} {p : Pool} {x y : Amount} {first : Bool}
    (h : op.Takes p x y first) : p.liquidity = .zero ∨ 0 < p.reserveA.val ∧ 0 < p.reserveB.val := by
  cases h with
  | first hl => exact .inl hl
  | keepA _ plan | keepB _ plan =>
    have hne : ¬(p.reserveA.val = 0 ∨ p.reserveB.val = 0) := fun hz => by
      rw [planAdd?_of_zero hz] at plan
      cases plan
    exact .inr ⟨by omega, by omega⟩

theorem PairOperation.obstacle {op : PairOperation} (ho : (Operation.pair op).Ordered)
    (hv : op.verdict.on l.answer = .ok a) (h : Draft.apply ⟨l, []⟩ a = .error r) :
    Obstacle rules l a r := by
  obtain ⟨hne, hv⟩ := verdict_on.1 hv
  have hab : op.poolKey.a ≠ op.poolKey.b := PoolKey.ofPair_a_ne_b hne
  have key (hk : op.kind ≠ .swap) : op.poolKey = ⟨op.sides.tickerA, op.sides.tickerB⟩ :=
    ho.resolve_left hk
  rcases hv with ⟨hk, hv⟩ | ⟨hk, hv⟩ | ⟨-, hv⟩ | ⟨-, hv⟩
  · obtain ⟨-, -, hp, ⟨ha, hb⟩, rfl⟩ := create_on.1 hv
    have hkey := key (by rw [hk]; decide)
    refine .of_overflow (Draft.createPool_eq_error (d := ⟨l, []⟩) hp hab ?_ ?_ h)
    · exact Ledger.le_held_of_covers (hkey ▸ ha)
    · exact Ledger.le_held_of_covers (hkey ▸ hb)
  · obtain ⟨p, x, y, first, hp, ht, ⟨ha, hb⟩, rfl⟩ := add_on.1 hv
    have hkey := key (by rw [hk]; decide)
    refine .of_overflow (Draft.addLiquidity_eq_error (d := ⟨l, []⟩) hp ht.funded hab ?_ ?_ h)
    · exact Ledger.le_held_of_covers (hkey ▸ ha)
    · exact Ledger.le_held_of_covers (hkey ▸ hb)
  · obtain ⟨hpos, p, hp, hx, hc, rfl⟩ := remove_on.1 hv
    have hs := Ledger.le_held_of_covers hc
    rcases Draft.removeLiquidity_eq_error (d := ⟨l, []⟩) hp hab hpos hx hs h with
      h | ⟨t, out, hout, hshort, rfl⟩
    · exact .of_overflow h
    · exact .reserves hp hout hshort
  · obtain ⟨p, q, hp, -, -, hq, -, hi, hout, rfl⟩ := swap_on.1 hv
    exact .of_overflow (Draft.swap_eq_error (d := ⟨l, []⟩) hp hne (Ledger.le_held_of_covers hi)
      (Ledger.le_held_of_covers hout) (quote?_out_le hq) h)

theorem BridgeOperation.obstacle {op : BridgeOperation}
    (hv : (op.verdict rules).on l.answer = .ok a) (h : Draft.apply ⟨l, []⟩ a = .error r) :
    Obstacle rules l a r := by
  obtain ⟨ht, hv⟩ := verdict_on.1 hv
  rcases hv with ⟨-, hv⟩ | ⟨-, hv⟩
  · obtain ⟨-, rfl⟩ := deposit_on.1 hv
    exact .of_overflow (Draft.deposit_eq_error h)
  · obtain ⟨hc, rfl⟩ := withdraw_on.1 hv
    obtain ⟨hshort, rfl⟩ := Draft.withdraw_eq_error h
    refine .unchecked (Bool.eq_false_iff.2 fun hon => ?_) hshort
    exact Nat.not_lt_of_le (Ledger.le_held_of_covers (ht ▸ hc hon)) hshort

end

/-- On the ledger on which the rules gave it an approval is carried out, but for the obstacles. -/
theorem Operation.applies_or_obstacle {rules : Rules} {e : Envelope} {op : Operation} {l : Ledger}
    {a : Approval} (hop : ofEnvelope e = .ok op)
    (ha : (Store.ledger.validate rules op l).1 = .ok a) :
    (∃ l' j, l.apply a = .ok (l', j)) ∨ ∃ r, l.apply a = .error r ∧ Obstacle rules l a r := by
  have hv := Store.validated_by_ledger_iff.1 ha
  unfold Ledger.apply
  cases hd : Draft.apply ⟨l, []⟩ a with
  | ok d => exact .inl ⟨d.ledger, d.journal, rfl⟩
  | error r =>
    refine .inr ⟨r, rfl, ?_⟩
    cases op with
    | token op => exact TokenOperation.obstacle hv hd
    | pair op => exact PairOperation.obstacle (ofEnvelope_spec hop).2 hv hd
    | bridge op => exact BridgeOperation.obstacle hv hd

/-- Each of the obstacles on a ledger whose records were set by hand. -/
theorem Operation.applies_or_obstacle_seeded :
    let da : Address := ⟨"DA"⟩
    let aa := Ticker.ofText "AA"
    let k := PoolKey.ofPair aa (.ofText "BB")
    let thousand : Amount := .ofUInt64 1000
    let l := (((Ledger.empty.setToken aa (.deployed .max .max 8 da)).setBalance aa da .max).setPool k
      ⟨thousand, thousand, thousand, k.owner⟩).setBalance k.shareTicker da thousand
    let Met (rules : Rules) (a : Approval) (r : Refusal) :=
      l.apply a = .error r ∧ Obstacle rules l a r
    Met ⟨true⟩ (.mint aa da (.ofUInt64 1)) (.overflow (.balance aa da)) ∧
      Met ⟨false⟩ (.withdraw da (.ofUInt64 5)) (.insufficient .wrapped da .zero (.ofUInt64 5)) ∧
      Met ⟨true⟩ (.removeLiquidity k da (.ofUInt64 500))
        (.insufficient aa k.owner .zero (.ofUInt64 500)) := by
  intro da aa k thousand l Met
  have met {rules : Rules} {a : Approval} {r : Refusal} (i : Inscription)
      (hv : (Store.ledger.validateEnvelope rules ⟨⟨1, 0⟩, da, "", 1, i⟩ l).1 = .ok a)
      (hr : (l.apply a).map Prod.snd = .error r) : Met rules a r := by
    cases hop : ofEnvelope ⟨⟨1, 0⟩, da, "", 1, i⟩ with
    | error e => simp [Store.validateEnvelope, hop] at hv
    | ok op =>
      simp only [Store.validateEnvelope, hop] at hv
      rcases applies_or_obstacle hop hv with ⟨l', j, h⟩ | ⟨r', h, hobstacle⟩
      · simp [h, Except.map] at hr
      · obtain rfl : r' = r := by simpa [h, Except.map] using hr
        exact ⟨h, hobstacle⟩
  refine ⟨?_, ?_, ?_⟩
  · exact met (.mint ⟨"AA", "1"⟩) (by decide +kernel) (by decide +kernel)
  · exact met (.withdraw ⟨"WDOGE(WRAPPED-DOGE)", "5"⟩) (by decide +kernel) (by decide +kernel)
  · exact met (.remove ⟨"AA", "BB", "500"⟩) (by decide +kernel) (by decide +kernel)

end TokenLedger
