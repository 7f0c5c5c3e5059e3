import TokenLedger.Verdict

/-! Verdicts on a ledger that answers every question: what each rule accepts, and with which
approval. -/
namespace TokenLedger

theorem bind_eq_ok_iff {ε α β : Type} {x : Except ε α} {f : α → Except ε β} {b : β} :
    (x >>= f) = .ok b ↔ ∃ a, x = .ok a ∧ f a = .ok b := by
  cases x with
  | error e => exact ⟨fun h => (by cases h), fun ⟨a, h, _⟩ => (by cases h)⟩
  | ok a => exact ⟨fun h => ⟨a, rfl, h⟩, fun ⟨b, h, hb⟩ => (by cases h; exact hb)⟩

theorem bind_of_ok {ε α β : Type} {x : Except ε α} {a : α} (h : x = .ok a) {f : α → Except ε β} :
    (x >>= f) = f a := by
  rw [h]
  rfl

theorem bind_eq_error_iff {ε α β : Type} {x : Except ε α} {f : α → Except ε β} {e : ε} :
    (x >>= f) = .error e ↔ x = .error e ∨ ∃ a, x = .ok a ∧ f a = .error e := by
  cases x with
  | error e' =>
    exact ⟨fun h => (by cases h; exact .inl rfl), fun h => h.elim (fun h => (by cases h; rfl))
      fun ⟨a, ha, _⟩ => (by cases ha)⟩
  | ok a =>
    exact ⟨fun h => .inr ⟨a, rfl, h⟩, fun h => h.elim (fun h => (by cases h))
      fun ⟨b, hb, h⟩ => (by cases hb; exact h)⟩

theorem map_eq_ok_iff {ε α β : Type} {x : Except ε α} {f : α → β} {b : β} :
    x.map f = .ok b ↔ ∃ a, x = .ok a ∧ f a = b := by
  cases x <;> simp [Except.map]

/-- An answer to every question. -/
abbrev View := (q : Query) → q.Answer

theorem Amount.not_lt {a b : Amount} : ¬a < b ↔ b ≤ a := by
  rw [lt_def, le_def, Nat.not_lt]

namespace Inquiry

variable {α β : Type} {v : View}

/-- What an inquiry comes to when a view answers it. -/
def on (v : View) : Inquiry α → Except Rejection α
  | done a => .ok a
  | reject r => .error r
  | ask q next => (next (v q)).on v

@[simp] theorem on_done (a : α) : (done a).on v = .ok a := rfl
@[simp] theorem on_reject (r : Rejection) : (reject r : Inquiry α).on v = .error r := rfl
@[simp] theorem on_rejectFor (r : Reason) (s : String) :
    (rejectFor r s : Inquiry α).on v = .error (.because r s) := rfl
@[simp] theorem on_supply (t : Ticker) : (supply t).on v = .ok (v (.supply t)) := rfl
@[simp] theorem on_balance (t : Ticker) (a : Address) :
    (balance t a).on v = .ok (v (.balance t a)) := rfl
@[simp] theorem on_pool (k : PoolKey) : (pool k).on v = .ok (v (.pool k)) := rfl

theorem on_bind (x : Inquiry α) (f : α → Inquiry β) :
    (x >>= f).on v = x.on v >>= fun a => (f a).on v := by
  induction x with
  | done a => rfl
  | reject r => rfl
  | ask q next ih => exact ih _

theorem on_bind_eq_ok {x : Inquiry α} {f : α → Inquiry β} {b : β} :
    (x >>= f).on v = .ok b ↔ ∃ a, x.on v = .ok a ∧ (f a).on v = .ok b := by
  rw [on_bind, bind_eq_ok_iff]

theorem on_bind_eq_error {x : Inquiry α} {f : α → Inquiry β} {r : Rejection} :
    (x >>= f).on v = .error r ↔
      x.on v = .error r ∨ ∃ a, x.on v = .ok a ∧ (f a).on v = .error r := by
  rw [on_bind, bind_eq_error_iff]

theorem on_guard_eq_ok {c : Prop} [Decidable c] {r : Rejection} {x : Inquiry α} {a : α} :
    (if c then reject r else x).on v = .ok a ↔ ¬c ∧ x.on v = .ok a := by
  split <;> simp_all

theorem on_ite (c : Prop) [Decidable c] (x y : Inquiry α) :
    (if c then x else y).on v = if c then x.on v else y.on v := by
  split <;> rfl

theorem requireTickerSize_on {t : Ticker} {u : Unit} :
    (requireTickerSize t).on v = .ok u ↔ t.HasValidSize := by
  unfold requireTickerSize
  split <;> simp_all

theorem requirePositive_on {x : Amount} {r : Reason} {s : String} {u : Unit} :
    (requirePositive x r s).on v = .ok u ↔ 0 < x.val := by
  unfold requirePositive
  rw [Amount.pos_iff_ne_zero]
  split <;> simp_all

/-- A balance covers a number if it is recorded and at least that number. -/
def Covers (v : View) (t : Ticker) (a : Address) (n : Nat) : Prop :=
  ∃ held : Amount, v (.balance t a) = some held ∧ n ≤ held.val

theorem requireBalance_on {t : Ticker} {a : Address} {n : Nat} {s : Shortfall} {x : Amount} :
    (requireBalance t a n s).on v = .ok x ↔ Covers v t a n ∧ x.val = n := by
  rw [requireBalance, on_bind_eq_ok]
  simp only [on_balance, Except.ok.injEq, exists_eq_left', Covers]
  cases hb : v (.balance t a) with
  | none => simp
  | some held =>
    simp only [Option.some.injEq, exists_eq_left']
    cases hn : Amount.ofNat? n with
    | none =>
      have hle := Amount.ofNat?_eq_none_iff.1 hn
      have hlt := held.val_lt
      simp only [on_rejectFor, reduceCtorEq, false_iff]
      omega
    | some y =>
      have hy := Amount.ofNat?_eq_some_iff.1 hn
      simp only [on_ite, on_rejectFor, Amount.le_def, hy]
      split
      · simp only [pure_eq, on_done, Except.ok.injEq, Amount.ext_iff, hy]
        omega
      · simp only [reduceCtorEq, false_iff]
        omega

theorem requireBalance_on_eq_error {t : Ticker} {a : Address} {n : Nat} {s : Shortfall}
    {r : Rejection} (h : (requireBalance t a n s).on v = .error r) :
    ¬Covers v t a n ∧ (r.reason = s.missing ∨ r.reason = s.short) := by
  constructor
  · rintro ⟨held, hb, hn⟩
    have hx : (requireBalance t a n s).on v = .ok ⟨n, Nat.lt_of_le_of_lt hn held.val_lt⟩ :=
      requireBalance_on.2 ⟨⟨held, hb, hn⟩, rfl⟩
    rw [hx] at h
    cases h
  · unfold requireBalance at h
    rcases on_bind_eq_error.1 h with h | ⟨held, -, h⟩
    · cases h
    · split at h
      · cases h; exact .inl rfl
      · split at h
        · rw [on_ite] at h
          split at h
          · cases h
          · cases h; exact .inr rfl
        · cases h; exact .inr rfl

end Inquiry

open Inquiry

namespace TokenOperation

variable {op : TokenOperation} {v : View} {a : Approval}

theorem deploy_on : op.deploy.on v = .ok a ↔
    op.ticker.HasValidSize ∧ 0 < op.maxSupply.val ∧ 0 < op.mintLimit.val ∧
      op.mintLimit ≤ op.maxSupply ∧ v (.supply op.ticker) = none ∧
      a = .deploy op.ticker op.maxSupply op.mintLimit op.decimals op.sender := by
  simp only [deploy, on_bind_eq_ok, requireTickerSize_on, requirePositive_on, exists_const]
  refine and_congr_right fun _ => and_congr_right fun _ => and_congr_right fun _ => ?_
  rw [rejectFor, on_guard_eq_ok, Amount.not_lt, on_bind_eq_ok]
  simp only [on_supply, Except.ok.injEq, exists_eq_left']
  refine and_congr_right fun _ => ?_
  cases v (.supply op.ticker) <;> simp [eq_comm]

theorem mintTotal?_eq_some_iff {s : Supply} {x : Amount} : op.mintTotal? s = some x ↔
    x.val = op.amount.val * op.repeats.toNat ∧ x.val + s.minted.val ≤ s.max.val := by
  have he : op.amount.product (.ofUInt64 op.repeats) = op.amount.val * op.repeats.toNat := rfl
  unfold mintTotal?
  simp only [he]
  split
  · rw [Amount.ofNat?_eq_some_iff]
    constructor
    · intro hx; exact ⟨hx, by omega⟩
    · exact And.left
  · simp only [reduceCtorEq, false_iff, not_and]
    omega

theorem mint_on : op.mint.on v = .ok a ↔
    op.ticker.HasValidSize ∧ ∃ s, v (.supply op.ticker) = some s ∧ 0 < op.amount.val ∧
      op.amount ≤ s.limit ∧ ∃ total : Amount, total.val = op.amount.val * op.repeats.toNat ∧
        total.val + s.minted.val ≤ s.max.val ∧ a = .mint op.ticker op.mintRecipient total := by
  simp only [mint, on_bind_eq_ok, requireTickerSize_on, exists_const, on_supply,
    Except.ok.injEq, exists_eq_left']
  refine and_congr_right fun _ => ?_
  cases hs : v (.supply op.ticker) with
  | none => simp
  | some s =>
    simp only [on_bind_eq_ok, requirePositive_on, exists_const, Option.some.injEq,
      exists_eq_left']
    refine and_congr_right fun _ => ?_
    rw [rejectFor, on_guard_eq_ok, Amount.not_lt]
    refine and_congr_right fun _ => ?_
    simp only [← and_assoc, ← mintTotal?_eq_some_iff]
    cases op.mintTotal? s <;> simp [eq_comm]

theorem transfer_on : op.transfer.on v = .ok a ↔
    0 < op.amount.val ∧ op.recipients ≠ [] ∧
      Covers v op.ticker op.sender (op.amount.val * op.recipients.length) ∧
      ∃ total : Amount, total.val = op.amount.val * op.recipients.length ∧
        a = .transfer op.ticker op.sender op.recipients op.amount total := by
  simp only [transfer, on_bind_eq_ok, on_guard_eq_ok, requirePositive_on, exists_const,
    requireBalance_on, pure_eq, on_done, Except.ok.injEq]
  refine and_congr_right fun _ => and_congr_right fun _ => ?_
  constructor
  · rintro ⟨total, ⟨hc, ht⟩, rfl⟩; exact ⟨hc, total, ht, rfl⟩
  · rintro ⟨hc, total, ht, rfl⟩; exact ⟨total, ⟨hc, ht⟩, rfl⟩

theorem verdict_on : op.verdict.on v = .ok a ↔
    op.kind = .deploy ∧ op.deploy.on v = .ok a ∨ op.kind = .mint ∧ op.mint.on v = .ok a ∨
      op.kind = .transfer ∧ op.transfer.on v = .ok a := by
  unfold verdict
  cases op.kind <;> simp

end TokenOperation

namespace PairOperation

variable {op : PairOperation} {v : View} {a : Approval}

theorem existingPool_on {p : Pool} :
    op.existingPool.on v = .ok p ↔ v (.pool op.poolKey) = some p := by
  simp only [existingPool, on_bind_eq_ok, on_pool, Except.ok.injEq, exists_eq_left']
  cases v (.pool op.poolKey) <;> simp

def Affords (v : View) (op : PairOperation) (a b : Nat) : Prop :=
  Covers v op.sides.tickerA op.holder a ∧ Covers v op.sides.tickerB op.holder b

theorem cover_on {m n : Nat} {x : Amount × Amount} : (op.cover m n).on v = .ok x ↔
    op.Affords v m n ∧ x.1.val = m ∧ x.2.val = n := by
  simp only [cover, on_bind_eq_ok, requireBalance_on, pure_eq, on_done, Except.ok.injEq, Affords]
  constructor
  · rintro ⟨a, ⟨ha, ham⟩, b, ⟨hb, hbn⟩, rfl⟩
    exact ⟨⟨ha, hb⟩, ham, hbn⟩
  · rintro ⟨⟨ha, hb⟩, ham, hbn⟩
    exact ⟨x.1, ⟨ha, ham⟩, x.2, ⟨hb, hbn⟩, rfl⟩

theorem create_on : op.create.on v = .ok a ↔
    0 < op.sides.amountA.val ∧ 0 < op.sides.amountB.val ∧ v (.pool op.poolKey) = none ∧
      op.Affords v op.sides.amountA.val op.sides.amountB.val ∧
      a = .createPool op.poolKey op.holder op.sides.amountA op.sides.amountB := by
  simp only [create, on_bind_eq_ok, requirePositive_on, exists_const, on_pool, Except.ok.injEq,
    exists_eq_left']
  refine and_congr_right fun _ => and_congr_right fun _ => ?_
  cases v (.pool op.poolKey) with
  | some p => simp
  | none =>
    simp only [on_bind_eq_ok, cover_on, Prod.exists, pure_eq, on_done, Except.ok.injEq, true_and,
      ← Amount.ext_iff]
    constructor
    · rintro ⟨x, y, ⟨hc, rfl, rfl⟩, rfl⟩; exact ⟨hc, rfl⟩
    · rintro ⟨hc, rfl⟩; exact ⟨_, _, ⟨hc, rfl, rfl⟩, rfl⟩

/-- What a deposit takes from its holder: what is offered for a first one, else what is planned. -/
inductive Takes (op : PairOperation) (p : Pool) : Amount → Amount → Bool → Prop
  | first (h : p.liquidity = .zero) : Takes op p op.sides.amountA op.sides.amountB true
  | keepA {b : Amount} (h : p.liquidity ≠ .zero)
      (plan : planAdd? op.sides.amountA op.sides.amountB op.sides.minA op.sides.minB
        p.reserveA p.reserveB = some (.keepA op.sides.amountA b.val)) :
      Takes op p op.sides.amountA b false
  | keepB {a : Amount} (h : p.liquidity ≠ .zero)
      (plan : planAdd? op.sides.amountA op.sides.amountB op.sides.minA op.sides.minB
        p.reserveA p.reserveB = some (.keepB a.val op.sides.amountB)) :
      Takes op p a op.sides.amountB false

theorem planAdd?_keeps {x y : Amount} {m n : Bound} {ra rb : Amount} {plan : AddPlan}
    (h : planAdd? x y m n ra rb = some plan) :
    (∀ c d, plan = .keepA c d → c = x) ∧ ∀ c d, plan = .keepB c d → d = y := by
  simp only [planAdd?] at h
  split at h
  · cases h
  · obtain ⟨bestB, -, h⟩ := Option.bind_eq_some_iff.1 h
    split at h
    · cases h
      exact ⟨fun c d he => (AddPlan.keepA.inj he).1.symm, nofun⟩
    · obtain ⟨bestA, -, h⟩ := Option.bind_eq_some_iff.1 h
      split at h
      · cases h
        exact ⟨nofun, nofun⟩
      · cases h
        exact ⟨nofun, fun c d he => (AddPlan.keepB.inj he).2.symm⟩

theorem add_on : op.add.on v = .ok a ↔
    ∃ p x y first, v (.pool op.poolKey) = some p ∧ Takes op p x y first ∧
      op.Affords v x.val y.val ∧ a = .addLiquidity op.poolKey op.holder x y first := by
  simp only [add, on_bind_eq_ok, existingPool_on, on_ite]
  constructor
  · rintro ⟨p, hp, h⟩
    split at h
    · next hl =>
      simp only [on_bind_eq_ok, cover_on, Prod.exists, pure_eq, on_done, Except.ok.injEq] at h
      obtain ⟨x, y, ⟨hc, hx, hy⟩, rfl⟩ := h
      rw [← Amount.ext_iff] at hx hy
      subst hx hy
      exact ⟨p, _, _, true, hp, .first hl, hc, rfl⟩
    · next hl =>
      split at h
      · simp at h
      · simp at h
      · next x y hplan =>
        simp only [on_bind_eq_ok, cover_on, Prod.exists, pure_eq, on_done, Except.ok.injEq] at h
        obtain ⟨x', y', ⟨hc, hx, hy⟩, rfl⟩ := h
        obtain rfl := (planAdd?_keeps hplan).1 x y rfl
        rw [← Amount.ext_iff] at hx
        subst hx hy
        exact ⟨p, _, _, false, hp, .keepA hl hplan, hc, rfl⟩
      · next x y hplan =>
        simp only [on_bind_eq_ok, cover_on, Prod.exists, pure_eq, on_done, Except.ok.injEq] at h
        obtain ⟨x', y', ⟨hc, hx, hy⟩, rfl⟩ := h
        obtain rfl := (planAdd?_keeps hplan).2 x y rfl
        rw [← Amount.ext_iff] at hy
        subst hx hy
        exact ⟨p, _, _, false, hp, .keepB hl hplan, hc, rfl⟩
  · rintro ⟨p, x, y, first, hp, ht, hc, rfl⟩
    refine ⟨p, hp, ?_⟩
    cases ht with
    | first hl =>
      rw [if_pos hl, on_bind_eq_ok]
      exact ⟨(_, _), cover_on.2 ⟨hc, rfl, rfl⟩, rfl⟩
    | keepA hl plan | keepB hl plan =>
      rw [if_neg hl, plan]
      exact on_bind_eq_ok.2 ⟨(_, _), cover_on.2 ⟨hc, rfl, rfl⟩, rfl⟩

theorem remove_on : op.remove.on v = .ok a ↔
    0 < op.liquidity.val ∧ ∃ p, v (.pool op.poolKey) = some p ∧ op.liquidity ≤ p.liquidity ∧
      Covers v op.poolKey.shareTicker op.holder op.liquidity.val ∧
      a = .removeLiquidity op.poolKey op.holder op.liquidity := by
  simp only [remove, on_bind_eq_ok, requirePositive_on, exists_const, existingPool_on, rejectFor,
    on_guard_eq_ok, Amount.not_lt, requireBalance_on, pure_eq, on_done, Except.ok.injEq]
  refine and_congr_right fun _ => exists_congr fun p => and_congr_right fun _ =>
    and_congr_right fun _ => ?_
  simp only [← Amount.ext_iff]
  constructor
  · rintro ⟨_, ⟨hc, rfl⟩, rfl⟩; exact ⟨hc, rfl⟩
  · rintro ⟨hc, rfl⟩; exact ⟨_, ⟨hc, rfl⟩, rfl⟩

theorem swap_on : op.swap.on v = .ok a ↔
    ∃ p q, v (.pool op.poolKey) = some p ∧
      (p.reservesFor op.poolKey op.sides.tickerA).1 ≠ .zero ∧
      (p.reservesFor op.poolKey op.sides.tickerA).2 ≠ .zero ∧
      quote? op.sides.amountA (p.reservesFor op.poolKey op.sides.tickerA).1
        (p.reservesFor op.poolKey op.sides.tickerA).2 = some q ∧
      op.sides.minB.val ≤ q.out.val ∧
      Covers v op.sides.tickerA op.holder op.sides.amountA.val ∧
      Covers v op.sides.tickerB p.owner q.out.val ∧
      a = .swap op.poolKey op.holder op.sides.tickerA op.sides.tickerB op.sides.amountA q.fee q.out
        p.owner := by
  simp only [swap, on_bind_eq_ok, existingPool_on, rejectFor, on_guard_eq_ok, not_or]
  refine exists_congr fun p => ?_
  simp only [exists_and_left, ne_eq]
  refine and_congr_right fun _ => ?_
  rw [and_assoc]
  refine and_congr_right fun _ => and_congr_right fun _ => ?_
  cases quote? op.sides.amountA (p.reservesFor op.poolKey op.sides.tickerA).1
      (p.reservesFor op.poolKey op.sides.tickerA).2 with
  | none => simp
  | some q =>
    simp only [on_guard_eq_ok, Nat.not_lt, on_bind_eq_ok, requireBalance_on, pure_eq, on_done,
      Except.ok.injEq, Option.some.injEq, exists_eq_left', ← Amount.ext_iff]
    refine and_congr_right fun _ => ?_
    constructor
    · rintro ⟨_, ⟨hi, rfl⟩, _, ⟨ho, rfl⟩, rfl⟩; exact ⟨hi, ho, rfl⟩
    · rintro ⟨hi, ho, rfl⟩; exact ⟨_, ⟨hi, rfl⟩, _, ⟨ho, rfl⟩, rfl⟩

theorem verdict_on : op.verdict.on v = .ok a ↔ op.sides.tickerA ≠ op.sides.tickerB ∧
    (op.kind = .create ∧ op.create.on v = .ok a ∨ op.kind = .add ∧ op.add.on v = .ok a ∨
      op.kind = .remove ∧ op.remove.on v = .ok a ∨ op.kind = .swap ∧ op.swap.on v = .ok a) := by
  simp only [verdict, rejectFor, on_guard_eq_ok]
  refine and_congr_right fun _ => ?_
  cases op.kind <;> simp

theorem add_of_verdict (hk : op.kind = .add) (h : op.verdict.on v = .ok a) :
    op.add.on v = .ok a := by
  obtain ⟨-, h⟩ := verdict_on.1 h
  simpa [hk] using h

theorem remove_of_verdict (hk : op.kind = .remove) (h : op.verdict.on v = .ok a) :
    op.remove.on v = .ok a := by
  obtain ⟨-, h⟩ := verdict_on.1 h
  simpa [hk] using h

end PairOperation

namespace BridgeOperation

variable {op : BridgeOperation} {v : View} {a : Approval} {rules : Rules}

theorem deposit_on :
    op.deposit.on v = .ok a ↔ 0 < op.amount.val ∧ a = .deposit op.holder op.amount := by
  simp only [deposit, on_bind_eq_ok, requirePositive_on, exists_const, pure_eq, on_done,
    Except.ok.injEq, @eq_comm _ a]

theorem withdraw_on : (op.withdraw rules).on v = .ok a ↔
    (rules.coverWithdrawals = true → Covers v op.ticker op.holder op.amount.val) ∧
      a = .withdraw op.holder op.amount := by
  unfold withdraw
  split
  · next h =>
    simp only [on_bind_eq_ok, requireBalance_on, pure_eq, on_done, Except.ok.injEq, h, true_imp_iff,
      ← Amount.ext_iff]
    constructor
    · rintro ⟨_, ⟨hc, rfl⟩, rfl⟩; exact ⟨hc, rfl⟩
    · rintro ⟨hc, rfl⟩; exact ⟨_, ⟨hc, rfl⟩, rfl⟩
  · next h => simp [h, eq_comm]

theorem verdict_on : (op.verdict rules).on v = .ok a ↔ op.ticker = .wrapped ∧
    (op.kind = .deposit ∧ op.deposit.on v = .ok a ∨
      op.kind = .withdraw ∧ (op.withdraw rules).on v = .ok a) := by
  simp only [verdict, rejectFor, on_guard_eq_ok, ne_eq, Decidable.not_not]
  refine and_congr_right fun _ => ?_
  cases op.kind <;> simp

end BridgeOperation
end TokenLedger
