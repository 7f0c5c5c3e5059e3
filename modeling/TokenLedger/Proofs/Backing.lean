import TokenLedger.Proofs.Change

/-! Liquidity is backed by the reserves: there is never more of it than their geometric mean. All
operations keep this, for a first deposit mints the root of a product, later ones keep the measure
of what is there, and swaps do not lower the product. Main statement: in every reachable ledger
pools are backed, so that deposits never meet an empty reserve and what they mint is always an
amount. -/
namespace TokenLedger

namespace Pool

/-- There is no more liquidity than the geometric mean of the reserves. -/
def Backed (p : Pool) : Prop := p.liquidity.val * p.liquidity.val ≤ p.depth

variable {p q : Pool}

theorem Backed.reserves_pos (h : p.Backed) (hl : 0 < p.liquidity.val) :
    0 < p.reserveA.val ∧ 0 < p.reserveB.val := by
  have hdepth : 0 < p.reserveA.val * p.reserveB.val := Nat.lt_of_lt_of_le (Nat.mul_pos hl hl) h
  exact ⟨Nat.pos_of_mul_pos_right hdepth, Nat.pos_of_mul_pos_left hdepth⟩

theorem backed_of_root {a b : Amount} (hq : q.liquidity = a.sqrtProduct b)
    (ha : a ≤ q.reserveA) (hb : b ≤ q.reserveB) : q.Backed := by
  rw [Backed, hq, Amount.val_sqrtProduct]
  exact Nat.le_trans (floorRoot_bounds _).1 (Nat.mul_le_mul ha hb)

theorem Undiluted.backed (h : p.Undiluted q) (hl : 0 < p.liquidity.val) (hp : p.Backed) :
    q.Backed := by
  refine Nat.le_of_mul_le_mul_right ?_ (Nat.mul_pos hl hl)
  calc q.liquidity.val * q.liquidity.val * (p.liquidity.val * p.liquidity.val)
      ≤ q.liquidity.val * q.liquidity.val * p.depth := Nat.mul_le_mul_left _ hp
    _ = p.depth * (q.liquidity.val * q.liquidity.val) := Nat.mul_comm _ _
    _ ≤ q.depth * (p.liquidity.val * p.liquidity.val) := h.depth_le

theorem Change.backed {kind : Kind} (h : p.Change kind q) (hp : p.Backed) : q.Backed := by
  cases h with
  | traded h =>
    rw [Backed, h.liquidity]
    exact Nat.le_trans hp h.depth_le
  | funded hl h | redeemed hl h => exact h.backed hl hp
  | refounded _ reserveA reserveB liquidity =>
    exact backed_of_root liquidity (Amount.le_def.2 (by omega)) (Amount.le_def.2 (by omega))

theorem Backed.min_share_le (h : p.Backed) (hl : 0 < p.liquidity.val) (a b : Amount) {m : Nat}
    (hm : m = min (a.val * p.liquidity.val / p.reserveA.val)
      (b.val * p.liquidity.val / p.reserveB.val)) : m * m ≤ a.val * b.val := by
  obtain ⟨hpa, hpb⟩ := h.reserves_pos hl
  obtain ⟨hma, hmb⟩ := hm ▸ (isGreatest_min_div hpa hpb).1
  refine Nat.le_of_mul_le_mul_right ?_ (Nat.mul_pos hpa hpb)
  calc m * m * (p.reserveA.val * p.reserveB.val)
      = m * p.reserveA.val * (m * p.reserveB.val) := Nat.mul_mul_mul_comm _ _ _ _
    _ ≤ a.val * p.liquidity.val * (b.val * p.liquidity.val) := Nat.mul_le_mul hma hmb
    _ = a.val * b.val * (p.liquidity.val * p.liquidity.val) := Nat.mul_mul_mul_comm _ _ _ _
    _ ≤ a.val * b.val * (p.reserveA.val * p.reserveB.val) := Nat.mul_le_mul_left _ h

/-- Whatever is offered to a pool that is backed, what is minted for it is an amount. -/
theorem Backed.exists_sharesFor (h : p.Backed) (a b : Amount) :
    ∃ minted, sharesFor p a b = .ok minted := by
  by_cases hl : p.liquidity = .zero
  · exact ⟨a.sqrtProduct b, by rw [sharesFor, if_pos hl]⟩
  have hpos := Amount.pos_iff_ne_zero.2 hl
  obtain ⟨hpa, hpb⟩ := h.reserves_pos hpos
  generalize hm : min (a.val * p.liquidity.val / p.reserveA.val)
    (b.val * p.liquidity.val / p.reserveB.val) = m
  have hlt : m < Amount.limit := by
    refine Nat.lt_of_not_le fun hc => ?_
    have hsquare := h.min_share_le hpos a b hm.symm
    have hproduct : a.val * b.val < Amount.limit * Amount.limit := a.product_lt b
    have := Nat.mul_le_mul hc hc
    omega
  exact ⟨⟨m, hlt⟩, (sharesFor_eq_ok_iff hl).2 ⟨hpa, hpb, hm.symm⟩⟩

end Pool

section

variable {l : Ledger} {k : PoolKey} {q : Pool}

theorem Store.pool?_process {rules : Rules} {op : Operation}
    (hq : (Store.ledger.process rules op l).2.pool? k = some q) :
    (∃ p, l.pool? k = some p ∧ (q = p ∨ p.Change op.kind q)) ∨
      ∃ a b, q = ⟨a, b, a.sqrtProduct b, k.owner⟩ := by
  cases hp : l.pool? k with
  | some p =>
    obtain ⟨q', hq', hc⟩ := Store.process_change rules op hp
    obtain rfl : q' = q := Option.some.inj (hq'.symm.trans hq)
    exact .inl ⟨p, rfl, hc⟩
  | none =>
    rcases Store.process_ledger_eq_or rules op l with hl | ⟨a, j, -, he⟩
    · rw [hl, hp] at hq
      cases hq
    · rcases he.pool?_eq_some hq with ⟨p, hp', -⟩ | ⟨_, a, b, -, rfl⟩
      · rw [hp] at hp'
        cases hp'
      · exact .inr ⟨a, b, rfl⟩

open Inquiry in
theorem PairOperation.cover_reason {op : PairOperation} {v : View} {m n : Nat} {r : Rejection}
    (h : (op.cover m n).on v = .error r) : r.reason ≠ .emptyReserves := by
  have balance {t : Ticker} {x : Nat}
      (h : (requireBalance t op.holder x .balance).on v = .error r) :
      r.reason ≠ .emptyReserves := by
    rcases (requireBalance_on_eq_error h).2 with hr | hr <;> rw [hr] <;> decide
  rcases on_bind_eq_error.1 h with h | ⟨_, -, h⟩
  · exact balance h
  · rcases on_bind_eq_error.1 h with h | ⟨_, -, h⟩
    · exact balance h
    · cases h

open Inquiry in
theorem PairOperation.add_reason {op : PairOperation} {v : View} {r : Rejection}
    (hbacked : ∀ p, v (.pool op.poolKey) = some p → p.Backed) (h : op.add.on v = .error r) :
    r.reason ≠ .emptyReserves := by
  rcases on_bind_eq_error.1 h with h | ⟨p, hp, h⟩
  · rcases on_bind_eq_error.1 h with h | ⟨p?, -, h⟩
    · cases h
    · cases p? <;> cases h
      exact (by decide : Reason.poolNotFound ≠ .emptyReserves)
  have hp : p.Backed := hbacked p (existingPool_on.1 hp)
  dsimp only at h
  rw [on_ite] at h
  split at h
  · rcases on_bind_eq_error.1 h with h | ⟨_, -, h⟩
    · exact cover_reason h
    · cases h
  next hl =>
  obtain ⟨hpa, hpb⟩ := hp.reserves_pos (Amount.pos_iff_ne_zero.2 hl)
  split at h
  · next hplan =>
    rw [planAdd?_of_pos hpa hpb] at hplan
    cases hplan
  · cases h
    exact (by decide : Reason.slippageExceeded ≠ .emptyReserves)
  all_goals
    rcases on_bind_eq_error.1 h with h | ⟨_, -, h⟩
    · exact cover_reason h
    · cases h

end

namespace Reachable

variable {allowed : Envelope → Prop} {l : Ledger}

theorem backed (h : Reachable allowed l) {k : PoolKey} {p : Pool} (hp : l.pool? k = some p) :
    p.Backed := by
  have hall : ∀ k p, l.pool? k = some p → p.Backed := by
    refine h.invariant_of_process (I := fun l => ∀ k p, l.pool? k = some p → p.Backed)
      (fun k p hp => ?_) fun rules op ih k q hq => ?_
    · simp [Ledger.pool?, Ledger.empty] at hp
    · rcases Store.pool?_process hq with ⟨p, hp, rfl | hc⟩ | ⟨a, b, rfl⟩
      · exact ih k _ hp
      · exact hc.backed (ih k p hp)
      · exact Pool.backed_of_root rfl (Nat.le_refl _) (Nat.le_refl _)
  exact hall k p hp

theorem add_not_empty (h : Reachable allowed l) {rules : Rules} {op : PairOperation}
    (hk : op.kind = .add) {r : Rejection}
    (hr : (Store.ledger.process rules (.pair op) l).1 = .rejected r) :
    r.reason ≠ .emptyReserves := by
  have hv : op.verdict.on l.answer = .error r := Store.rejected_by_ledger_iff.1 hr
  simp only [PairOperation.verdict, Inquiry.on_ite, hk] at hv
  split at hv
  · cases hv
    exact (by decide : Reason.identicalTickers ≠ .emptyReserves)
  · exact PairOperation.add_reason (fun _ hp => h.backed hp) hv

theorem add_mints (h : Reachable allowed l) {rules : Rules} {op : PairOperation} {a : Approval}
    (hk : op.kind = .add) (ha : (Store.ledger.validate rules (.pair op) l).1 = .ok a) :
    ∃ p x y first minted, a = .addLiquidity op.poolKey op.holder x y first ∧
      l.pool? op.poolKey = some p ∧ sharesFor p x y = .ok minted := by
  have hv : op.verdict.on l.answer = .ok a := Store.validated_by_ledger_iff.1 ha
  obtain ⟨p, x, y, first, hp, -, -, rfl⟩ :=
    PairOperation.add_on.1 (PairOperation.add_of_verdict hk hv)
  obtain ⟨minted, hm⟩ := (h.backed hp).exists_sharesFor x y
  exact ⟨p, x, y, first, minted, rfl, hp, hm⟩

/-- In every pool the square of the liquidity is at most the product of the reserves. Hence none of
these is empty while there is liquidity, no deposit is rejected for it, and an accepted one always
mints an amount. -/
theorem pools_backed (h : Reachable allowed l) :
    (∀ k p, l.pool? k = some p →
      p.liquidity.val * p.liquidity.val ≤ p.reserveA.val * p.reserveB.val ∧
        (0 < p.liquidity.val → 0 < p.reserveA.val ∧ 0 < p.reserveB.val)) ∧
    (∀ rules op, op.kind = .add → ∀ r,
      (Store.ledger.process rules (.pair op) l).1 = .rejected r → r.reason ≠ .emptyReserves) ∧
    (∀ rules op, op.kind = .add → ∀ a, (Store.ledger.validate rules (.pair op) l).1 = .ok a →
      ∃ p x y first minted, a = .addLiquidity op.poolKey op.holder x y first ∧
        l.pool? op.poolKey = some p ∧ sharesFor p x y = .ok minted) :=
  ⟨fun _ _ hp => ⟨h.backed hp, (h.backed hp).reserves_pos⟩, fun _ _ hk _ => h.add_not_empty hk,
    fun _ _ hk _ => h.add_mints hk⟩

/-- A pool that was emptied and is filled again. Of two further deposits one is accepted. -/
theorem pools_backed_refounded :
    let by_ (i : Inscription) : Envelope := ⟨⟨1, 0⟩, ⟨"DA"⟩, "", 1, i⟩
    let l := Ledger.empty.afterAll ⟨true⟩
      [by_ (.deploy ⟨"AA", "5000", none, none, none, none⟩), by_ (.mint ⟨"AA", "2000"⟩),
       by_ (.deploy ⟨"BB", "5000", none, none, none, none⟩), by_ (.mint ⟨"BB", "2000"⟩),
       by_ (.create ⟨"AA", "BB", "1000", "1000", "0", "0"⟩),
       by_ (.remove ⟨"AA", "BB", "1000"⟩), by_ (.add ⟨"AA", "BB", "40", "91", "0", "0"⟩)]
    let k := PoolKey.ofPair (.ofText "AA") (.ofText "BB")
    let add (a b : UInt64) : PairOperation :=
      ⟨.add, ⟨.ofText "AA", .ofText "BB", .ofUInt64 a, .ofUInt64 b, .zero, .zero⟩, .zero, ⟨"DA"⟩⟩
    (∃ p, l.pool? k = some p ∧ p.liquidity = .ofUInt64 60 ∧ 0 < p.reserveA.val ∧
      p.liquidity.val * p.liquidity.val ≤ p.reserveA.val * p.reserveB.val) ∧
    (∃ r, (Store.ledger.process ⟨true⟩ (.pair (add 5000 0)) l).1 = .rejected r ∧
      r.reason ≠ .emptyReserves) ∧
    ∃ p x y minted, l.pool? k = some p ∧ sharesFor p x y = .ok minted := by
  intro by_ l k add
  have hl : Reachable (fun _ => True) l := Reachable.empty.afterAll _ fun _ _ => trivial
  have hp : l.pool? k = some ⟨.ofUInt64 40, .ofUInt64 91, .ofUInt64 60, k.owner⟩ := by
    decide +kernel
  obtain ⟨backed, rejected, accepted⟩ := pools_backed hl
  refine ⟨⟨_, hp, rfl, ((backed k _ hp).2 (by decide)).1, (backed k _ hp).1⟩, ?_, ?_⟩
  · have hr : (Store.ledger.process ⟨true⟩ (.pair (add 5000 0)) l).1 =
        .rejected (.because .insufficientBalance "DA needs 5000 AA, has 1960") := by decide +kernel
    exact ⟨_, hr, rejected ⟨true⟩ (add 5000 0) rfl _ hr⟩
  · have ha : (Store.ledger.validate ⟨true⟩ (.pair (add 10 30)) l).1 =
        .ok (.addLiquidity k ⟨"DA"⟩ (.ofUInt64 10) (.ofUInt64 22) false) := by decide +kernel
    obtain ⟨p, x, y, -, minted, -, hp, hm⟩ := accepted ⟨true⟩ (add 10 30) rfl _ ha
    exact ⟨p, x, y, minted, hp, hm⟩

end Reachable
end TokenLedger
