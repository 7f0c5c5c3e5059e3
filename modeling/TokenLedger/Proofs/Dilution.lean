import TokenLedger.Proofs.Change
import TokenLedger.Proofs.Solvency

/-! Liquidity tokens are not diluted. Main statement: swaps, deposits and removals keep what a token
stands for, and so does every run in which the liquidity of the pool stays positive. -/
namespace TokenLedger

namespace Pool

/-- The product of the reserves, against the square of the liquidity, is no smaller. -/
def Risen (p q : Pool) : Prop :=
  p.depth * (q.liquidity.val * q.liquidity.val) ≤ q.depth * (p.liquidity.val * p.liquidity.val)

variable {p q r : Pool}

theorem Risen.trans (h : p.Risen q) (h' : q.Risen r) (hq : 0 < q.liquidity.val) : p.Risen r := by
  unfold Risen at h h' ⊢
  generalize p.liquidity.val * p.liquidity.val = x at h ⊢
  generalize r.liquidity.val * r.liquidity.val = z at h' ⊢
  have hy : 0 < q.liquidity.val * q.liquidity.val := Nat.mul_pos hq hq
  generalize q.liquidity.val * q.liquidity.val = y at h h' hy
  refine Nat.le_of_mul_le_mul_right ?_ hy
  calc p.depth * z * y = p.depth * y * z := Nat.mul_right_comm _ _ _
    _ ≤ q.depth * x * z := Nat.mul_le_mul_right _ h
    _ = q.depth * z * x := Nat.mul_right_comm _ _ _
    _ ≤ r.depth * y * x := Nat.mul_le_mul_right _ h'
    _ = r.depth * x * y := Nat.mul_right_comm _ _ _

theorem Traded.risen (h : p.Traded q) : p.Risen q := by
  rw [Risen, h.liquidity]
  exact Nat.mul_le_mul_right _ h.depth_le

theorem Change.risen {kind : Kind} (h : p.Change kind q) (hp : 0 < p.liquidity.val) :
    p.Risen q := by
  cases h with
  | traded h => exact h.risen
  | funded _ h | redeemed _ h => exact h.depth_le
  | refounded none =>
    rw [none, Amount.val_zero] at hp
    cases hp

theorem Undiluted.reserves_le (h : p.Undiluted q) (h' : q.Undiluted r)
    (hr : r.liquidity = p.liquidity) (hq : 0 < q.liquidity.val) :
    p.reserveA ≤ r.reserveA ∧ p.reserveB ≤ r.reserveB := by
  have hA := h'.reserveA
  have hB := h'.reserveB
  rw [hr] at hA hB
  exact ⟨Nat.le_of_mul_le_mul_right (Nat.le_trans h.reserveA hA) hq,
    Nat.le_of_mul_le_mul_right (Nat.le_trans h.reserveB hB) hq⟩

end Pool

section

variable {l l' m : Ledger} {rules : Rules} {op : PairOperation} {k : PoolKey} {p q : Pool}

namespace Run

variable {allowed : Operation → Prop} {via : Ledger → Prop}

theorem invariant {I : Pool → Prop} (h : Run allowed via l m) (hp : l.pool? k = some p)
    (start : I p) (step : ∀ {m op q r}, via m → allowed op → m.pool? k = some q →
      q.Change op.kind r → I q → I r) : ∃ q, m.pool? k = some q ∧ I q := by
  induction h with
  | nil => exact ⟨p, hp, start⟩
  | snoc before rules ho _ ih =>
    obtain ⟨q, hq, hi⟩ := ih
    obtain ⟨r, hr, rfl | hc⟩ := Store.process_change rules _ hq
    · exact ⟨r, hr, hi⟩
    · exact ⟨r, hr, step before.via_last ho hq hc hi⟩

/-- While there is liquidity, the pool does not lose value for it. -/
theorem risen (h : Run allowed (fun m => ∀ q, m.pool? k = some q → 0 < q.liquidity.val) l m)
    (hp : l.pool? k = some p) : ∃ q, m.pool? k = some q ∧ p.Risen q := by
  refine h.invariant hp (Nat.le_refl _) fun hvia _ hq hc hi => ?_
  have hpos := hvia _ hq
  exact hi.trans (hc.risen hpos) hpos

theorem traded (h : Run (fun op => op.kind ≠ .add ∧ op.kind ≠ .remove) via l m)
    (hp : l.pool? k = some p) : ∃ q, m.pool? k = some q ∧ (q = p ∨ p.Traded q) := by
  refine h.invariant (I := fun q => q = p ∨ p.Traded q) hp (.inl rfl)
    fun {_ op q r} _ ho _ hc hi => ?_
  generalize op.kind = kind at ho hc
  cases hc with
  | traded ht =>
    rcases hi with rfl | hi
    · exact .inr ht
    · exact .inr (hi.trans ht)
  | funded | refounded => exact absurd rfl ho.1
  | redeemed => exact absurd rfl ho.2

end Run

namespace Replay

variable {j : Journal} {t : Ticker} {holder owner : Address} {a b x : Amount}

theorem held_funding_holder (h : Replay l (funding k holder owner a b x) m)
    (ht : t ≠ k.shareTicker) : (m.held t holder).val + k.part t a.val b.val =
      (l.held t holder).val + if owner = holder then k.part t a.val b.val else 0 := by
  have hj := h.held t holder
  simp only [funding, Journal.sum_cons, Journal.sum_nil, Movement.slot, reduceCtorEq, false_and,
    true_and, if_false, Slot.mk.injEq, and_true, ht.symm] at hj
  by_cases he : owner = holder
  · simp only [he, and_true, if_true, PoolKey.part] at hj ⊢; omega
  · simp only [he, and_false, if_false, PoolKey.part] at hj ⊢; omega

theorem held_redemption_holder (h : Replay l (redemption k holder owner a b x) m)
    (ht : t ≠ k.shareTicker) :
    (m.held t holder).val + (if owner = holder then k.part t a.val b.val else 0) =
      (l.held t holder).val + k.part t a.val b.val := by
  have hj := h.held t holder
  simp only [redemption, Journal.sum_cons, Journal.sum_nil, Movement.slot, reduceCtorEq, false_and,
    true_and, if_false, Slot.mk.injEq, and_true, ht.symm] at hj
  by_cases he : owner = holder
  · simp only [he, and_true, if_true, PoolKey.part] at hj ⊢; omega
  · simp only [he, and_false, if_false, PoolKey.part] at hj ⊢; omega

end Replay

theorem PoolKey.part_mono {t : Ticker} {a b c d : Nat} (ha : a ≤ c) (hb : b ≤ d) :
    k.part t a b ≤ k.part t c d := by
  simp only [part]
  split <;> split <;> omega

/-- A deposit that is taken back at once leaves the holder no more of either token. -/
theorem Effect.roundTrip {holder : Address} {a b x : Amount} {first : Bool} {i j : Journal}
    (h : Effect l (.addLiquidity k holder a b first) i m)
    (h' : Effect m (.removeLiquidity k holder x) j l') (hp : l.pool? k = some p)
    (hl : 0 < p.liquidity.val) (hq : m.pool? k = some q)
    (hx : q.liquidity.val = p.liquidity.val + x.val) :
    ∃ r, l'.pool? k = some r ∧ r.liquidity = p.liquidity ∧ p.reserveA ≤ r.reserveA ∧
      p.reserveB ≤ r.reserveB ∧ ∀ t ≠ k.shareTicker, l'.held t holder ≤ l.held t holder := by
  cases h with
    | @addLiquidity _ _ _ _ _ _ p' q' _ record shares reserveA reserveB liquidity owner moves
  cases h' with
    | @removeLiquidity _ _ _ outA outB q'' r _ record' _ shareA shareB reserveA' reserveB'
        liquidity' _ moves'
  obtain rfl : p' = p := Option.some.inj (record.symm.trans hp)
  have hq' : m.pool? k = some q' := moves.pool?_written
  obtain rfl : q' = q := Option.some.inj (hq'.symm.trans hq)
  obtain rfl : q'' = q' := Option.some.inj (record'.symm.trans hq)
  have hr : r.liquidity = p'.liquidity := Amount.ext (by omega)
  have hin : p'.Undiluted q'' := Pool.undiluted_of_shares
    (fun h0 => by rw [h0, Amount.val_zero] at hl; omega) shares reserveA reserveB liquidity
  have hout : q''.Undiluted r :=
    Pool.undiluted_of_payout shareA shareB reserveA' reserveB' liquidity'
  obtain ⟨hA, hB⟩ := hin.reserves_le hout hr (by omega)
  refine ⟨r, moves'.pool?_written, hr, hA, hB, fun t ht => ?_⟩
  rw [Amount.le_def] at hA hB ⊢
  have hpart : k.part t outA.val outB.val ≤ k.part t a.val b.val :=
    PoolKey.part_mono (by omega) (by omega)
  have hpaid := moves.held_funding_holder ht
  have hback := moves'.held_redemption_holder ht
  rw [Ledger.held_setPool] at hpaid hback
  rw [owner] at hback
  split at hpaid <;> split at hback <;> omega

namespace Ledger

theorem Performs.effect_add (h : l.Performs rules (.pair op) l') (hk : op.kind = .add) :
    ∃ a b first j, Effect l (.addLiquidity op.poolKey op.holder a b first) j l' := by
  obtain ⟨_, a, b, first, _, -, -, -, -, ha⟩ := h.deposits hk
  exact ⟨a, b, first, _, effect_of_apply ha⟩

theorem Performs.effect_remove (h : l.Performs rules (.pair op) l') (hk : op.kind = .remove) :
    ∃ j, Effect l (.removeLiquidity op.poolKey op.holder op.liquidity) j l' := by
  obtain ⟨a, j, hv, he⟩ := h.effect
  obtain ⟨-, _, -, -, -, rfl⟩ := PairOperation.remove_on.1 (PairOperation.remove_of_verdict hk hv)
  exact ⟨j, he⟩

theorem Performs.traded (h : l.Performs rules (.pair op) l') (hk : op.kind = .swap) :
    ∃ p q, l.pool? op.poolKey = some p ∧ l'.pool? op.poolKey = some q ∧ p.Traded q := by
  obtain ⟨p, q, hp, hq, hc⟩ := h.change (by rw [hk]; decide)
  rw [hk] at hc
  cases hc with
  | traded ht => exact ⟨p, q, hp, hq, ht⟩

theorem Performs.undiluted (h : l.Performs rules (.pair op) l')
    (hk : op.kind = .add ∨ op.kind = .remove) : ∃ p q, l.pool? op.poolKey = some p ∧
      l'.pool? op.poolKey = some q ∧ (0 < p.liquidity.val → p.Undiluted q) := by
  obtain ⟨p, q, hp, hq, hc⟩ := h.change (by rcases hk with hk | hk <;> rw [hk] <;> decide)
  refine ⟨p, q, hp, hq, fun hl => ?_⟩
  rcases hk with hk | hk
  · rw [hk] at hc
    cases hc with
    | funded _ hu => exact hu
    | refounded none =>
      rw [none, Amount.val_zero] at hl
      cases hl
  · rw [hk] at hc
    cases hc with
    | redeemed _ hu => exact hu

/-- A swap lowers neither reserve to nothing nor their product, and deposits and removals leave to
every liquidity token what it stands for. Hence the product of the reserves against the square of
the liquidity never falls while there is liquidity, no reserve falls by swaps unless the other
rises, and who takes a deposit back at once has gained of neither token. -/
theorem shares_undiluted (l : Ledger) :
    (∀ rules op l', op.kind = .swap → l.Performs rules (.pair op) l' →
      ∃ p q, l.pool? op.poolKey = some p ∧ l'.pool? op.poolKey = some q ∧ p.Traded q) ∧
    (∀ rules op l', op.kind = .add ∨ op.kind = .remove → l.Performs rules (.pair op) l' →
      ∃ p q, l.pool? op.poolKey = some p ∧ l'.pool? op.poolKey = some q ∧
        (0 < p.liquidity.val → p.Undiluted q)) ∧
    (∀ k p l' allowed, l.pool? k = some p →
      Run allowed (fun m => ∀ q, m.pool? k = some q → 0 < q.liquidity.val) l l' →
        ∃ q, l'.pool? k = some q ∧ p.Risen q) ∧
    (∀ k p l' via, l.pool? k = some p →
      Run (fun op => op.kind ≠ .add ∧ op.kind ≠ .remove) via l l' →
        ∃ q, l'.pool? k = some q ∧ (q.reserveA < p.reserveA → p.reserveB < q.reserveB) ∧
          (q.reserveB < p.reserveB → p.reserveA < q.reserveA)) ∧
    ∀ rules rules' add remove m l' p q, add.kind = .add → remove.kind = .remove →
      remove.poolKey = add.poolKey → remove.holder = add.holder →
      l.Performs rules (.pair add) m → m.Performs rules' (.pair remove) l' →
      l.pool? add.poolKey = some p → 0 < p.liquidity.val → m.pool? add.poolKey = some q →
      q.liquidity.val = p.liquidity.val + remove.liquidity.val →
        (∃ r, l'.pool? add.poolKey = some r ∧ r.liquidity = p.liquidity ∧
          p.reserveA ≤ r.reserveA ∧ p.reserveB ≤ r.reserveB) ∧
        l'.held add.poolKey.a add.holder ≤ l.held add.poolKey.a add.holder ∧
        l'.held add.poolKey.b add.holder ≤ l.held add.poolKey.b add.holder := by
  refine ⟨fun _ _ _ hk h => h.traded hk, fun _ _ _ hk h => h.undiluted hk,
    fun _ _ _ _ hp h => h.risen hp, fun k p l' via hp h => ?_, ?_⟩
  · obtain ⟨q, hq, rfl | ht⟩ := h.traded hp
    · exact ⟨q, hq, fun hlt => absurd hlt (Nat.lt_irrefl _),
        fun hlt => absurd hlt (Nat.lt_irrefl _)⟩
    · exact ⟨q, hq, ht.reserveB_lt, ht.reserveA_lt⟩
  · intro rules rules' add remove m l' p q hadd hremove hkey hholder h h' hp hl hq hx
    obtain ⟨a, b, first, i, he⟩ := h.effect_add hadd
    obtain ⟨j, he'⟩ := h'.effect_remove hremove
    rw [hkey, hholder] at he'
    obtain ⟨r, hr, hrl, hA, hB, hheld⟩ := he.roundTrip he' hp hl hq hx
    exact ⟨⟨r, hr, hrl, hA, hB⟩, hheld _ (PoolKey.shareTicker_ne_a _).symm,
      hheld _ (PoolKey.shareTicker_ne_b _).symm⟩

/-- A swap in a pool of a thousand of each token, then a deposit that is taken back. -/
theorem shares_undiluted_thousand :
    let by_ (i : Inscription) : Envelope := ⟨⟨1, 0⟩, ⟨"DA"⟩, "", 1, i⟩
    let l := Ledger.empty.afterAll ⟨true⟩
      [by_ (.deploy ⟨"AA", "5000", none, none, none, none⟩), by_ (.mint ⟨"AA", "2000"⟩),
       by_ (.deploy ⟨"BB", "5000", none, none, none, none⟩), by_ (.mint ⟨"BB", "2000"⟩),
       by_ (.create ⟨"AA", "BB", "1000", "1000", "0", "0"⟩)]
    let sides (a b : UInt64) : Sides :=
      ⟨.ofText "AA", .ofText "BB", .ofUInt64 a, .ofUInt64 b, .zero, .zero⟩
    let k := PoolKey.ofPair (.ofText "AA") (.ofText "BB")
    let swap : PairOperation := ⟨.swap, sides 500 0, .zero, ⟨"DA"⟩⟩
    let add : PairOperation := ⟨.add, sides 300 200, .zero, ⟨"DA"⟩⟩
    let remove : PairOperation := ⟨.remove, sides 0 0, .ofUInt64 198, ⟨"DA"⟩⟩
    let l₁ := (Store.ledger.process ⟨true⟩ (.pair swap) l).2
    let l₂ := (Store.ledger.process ⟨true⟩ (.pair add) l₁).2
    let l₃ := (Store.ledger.process ⟨true⟩ (.pair remove) l₂).2
    (∃ p q, l.pool? k = some p ∧ l₁.pool? k = some q ∧ p.Traded q) ∧
      (∃ p q, l₁.pool? k = some p ∧ l₂.pool? k = some q ∧ p.Undiluted q) ∧
      (∃ p q, l.pool? k = some p ∧ l₃.pool? k = some q ∧ p.Risen q) ∧
      (∃ p q, l.pool? k = some p ∧ l₁.pool? k = some q ∧ p.reserveA < q.reserveA) ∧
      l₃.held k.a ⟨"DA"⟩ ≤ l₁.held k.a ⟨"DA"⟩ ∧ l₃.held k.b ⟨"DA"⟩ ≤ l₁.held k.b ⟨"DA"⟩ := by
  intro by_ l sides k swap add remove l₁ l₂ l₃
  let pool (a b liquidity : UInt64) : Pool :=
    ⟨.ofUInt64 a, .ofUInt64 b, .ofUInt64 liquidity, k.owner⟩
  have hp : l.pool? k = some (pool 1000 1000 1000) := by decide +kernel
  have hp₁ : l₁.pool? k = some (pool 1500 674 1000) := by decide +kernel
  have hp₂ : l₂.pool? k = some (pool 1800 808 1198) := by decide +kernel
  have hp₃ : l₃.pool? k = some (pool 1503 675 1000) := by decide +kernel
  have h₁ : l.Performs ⟨true⟩ (.pair swap) l₁ :=
    .of_applied (a := .swap k ⟨"DA"⟩ k.a k.b (.ofUInt64 500) (.ofUInt64 15) (.ofUInt64 326) k.owner)
      (n := 4) (by decide +kernel)
  have h₂ : l₁.Performs ⟨true⟩ (.pair add) l₂ :=
    .of_applied (a := .addLiquidity k ⟨"DA"⟩ (.ofUInt64 300) (.ofUInt64 134) false) (n := 5)
      (by decide +kernel)
  have h₃ : l₂.Performs ⟨true⟩ (.pair remove) l₃ :=
    .of_applied (a := .removeLiquidity k ⟨"DA"⟩ (.ofUInt64 198)) (n := 5) (by decide +kernel)
  have positive {m : Ledger} {p : Pool} (hm : m.pool? k = some p) (hp : 0 < p.liquidity.val) :
      ∀ q, m.pool? k = some q → 0 < q.liquidity.val := fun q hq =>
    Option.some.inj (hm.symm.trans hq) ▸ hp
  obtain ⟨trades, -, rises, exchanges, -⟩ := shares_undiluted l
  obtain ⟨-, deposits, -, -, returns⟩ := shares_undiluted l₁
  have run : Run (fun _ => True) (fun m => ∀ q, m.pool? k = some q → 0 < q.liquidity.val) l l₃ :=
    (((Run.nil (positive hp (by decide))).snoc ⟨true⟩ trivial (positive hp₁ (by decide))).snoc
      ⟨true⟩ trivial (positive hp₂ (by decide))).snoc ⟨true⟩ trivial (positive hp₃ (by decide))
  refine ⟨?_, ?_, ?_, ?_, ?_⟩
  · obtain ⟨p, q, hdp, hdq, hd⟩ := trades ⟨true⟩ swap l₁ rfl h₁
    exact ⟨p, q, hdp, hdq, hd⟩
  · obtain ⟨p, q, hdp, hdq, hd⟩ := deposits ⟨true⟩ add l₂ (.inl rfl) h₂
    exact ⟨p, q, hdp, hdq, hd (positive hp₁ (by decide) p hdp)⟩
  · obtain ⟨q, hq, hr⟩ := rises k _ l₃ _ hp run
    exact ⟨_, q, hp, hq, hr⟩
  · obtain ⟨q, hq, -, hlt⟩ := exchanges k _ l₁ (fun _ => True) hp
      ((Run.nil trivial).snoc ⟨true⟩ (by decide) trivial)
    obtain rfl := Option.some.inj (hp₁.symm.trans hq)
    exact ⟨_, _, hp, hp₁, hlt (by decide)⟩
  · exact (returns ⟨true⟩ ⟨true⟩ add remove l₂ l₃ _ _ rfl rfl rfl rfl h₂ h₃ hp₁ (by decide) hp₂
      (by decide)).2

end Ledger

end

end TokenLedger
