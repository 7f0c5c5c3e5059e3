import TokenLedger.Json.Forms
import TokenLedger.Proofs.Refusal

/-! Tokens that are named by texts. Main statement: the normal form of a text has its length and is
its own, that of a liquidity token's name is the name, and so whoever names it reaches the balances
that deposits into the pool have recorded. -/
namespace TokenLedger

namespace Operation

theorem ofEnvelope_transfer_iff {e : Envelope} {b : AmountBody} {op : Operation}
    (he : e.inscription = .transfer b) : ofEnvelope e = .ok op ↔
      ∃ x, Amount.ofDecimal b.amt = .ok x ∧
        op = .token { blankToken e .transfer b.tick with amount := x } := by
  rw [ofEnvelope, he, map_eq_ok_iff]
  simp only [ofAmount_eq_ok_iff]
  constructor
  · rintro ⟨_, ⟨x, hx, rfl⟩, rfl⟩
    exact ⟨x, hx, rfl⟩
  · rintro ⟨x, hx, rfl⟩
    exact ⟨_, ⟨x, hx, rfl⟩, rfl⟩

end Operation

theorem Store.validateEnvelope_eq_ok_iff {rules : Rules} {e : Envelope} {l : Ledger}
    {a : Approval} : (Store.ledger.validateEnvelope rules e l).1 = .ok a ↔
      ∃ op, Operation.ofEnvelope e = .ok op ∧ (op.verdict rules).on l.answer = .ok a := by
  unfold validateEnvelope
  cases Operation.ofEnvelope e with
  | error r => simp only [reduceCtorEq, false_and, exists_false]
  | ok op => simp only [validated_by_ledger_iff, Except.ok.injEq, exists_eq_left']

theorem Store.validate_transfer_iff {rules : Rules} {e : Envelope} {b : AmountBody} {l : Ledger}
    {a : Approval} (he : e.inscription = .transfer b) :
    (Store.ledger.validateEnvelope rules e l).1 = .ok a ↔
      ∃ x total held : Amount, Amount.ofDecimal b.amt = .ok x ∧ 0 < x.val ∧ e.recipients ≠ [] ∧
        total.val = x.val * e.recipients.length ∧
        l.balance? (.ofText b.tick) e.sender = some held ∧ total ≤ held ∧
        a = .transfer (.ofText b.tick) e.sender e.recipients x total := by
  rw [validateEnvelope_eq_ok_iff]
  simp only [Operation.ofEnvelope_transfer_iff he]
  constructor
  · rintro ⟨_, ⟨x, hx, rfl⟩, h⟩
    obtain ⟨hpos, hne, ⟨held, hheld, hle⟩, total, htotal, rfl⟩ := TokenOperation.transfer_on.1 h
    exact ⟨x, total, held, hx, hpos, hne, htotal, hheld, (Nat.le_of_eq htotal).trans hle, rfl⟩
  · rintro ⟨x, total, held, hx, hpos, hne, htotal, hheld, hle, rfl⟩
    have hcovers : Inquiry.Covers l.answer (.ofText b.tick) e.sender
        (x.val * e.recipients.length) := ⟨held, hheld, (Nat.le_of_eq htotal.symm).trans hle⟩
    exact ⟨_, ⟨x, hx, rfl⟩, TokenOperation.transfer_on.2 ⟨hpos, hne, hcovers, total, htotal, rfl⟩⟩

theorem Replay.held_funding_shares {l m : Ledger} {k : PoolKey} {holder owner : Address}
    {a b x : Amount} (h : Replay l (funding k holder owner a b x) m) : ∃ held,
      m.balance? k.shareTicker holder = some held ∧
        held.val = (l.held k.shareTicker holder).val + x.val := by
  have hrecorded : m.balance? k.shareTicker holder ≠ none :=
    h.balance?_ne_none_iff.2 (.inr ⟨⟨k.shareTicker, holder, .credit, x⟩, by simp [funding], rfl⟩)
  obtain ⟨held, hheld⟩ := Option.ne_none_iff_exists'.1 hrecorded
  have hsum := h.held k.shareTicker holder
  simp only [funding, Journal.sum_cons, Journal.sum_nil, Movement.slot, reduceCtorEq, false_and,
    true_and, if_false, if_true, Slot.mk.injEq, k.shareTicker_ne_a.symm, k.shareTicker_ne_b.symm]
    at hsum
  rw [Ledger.held, hheld, Option.getD_some] at hsum
  exact ⟨held, hheld, by omega⟩

/-- The name of a pool's liquidity token is read back as that token in documents and in every
inscription, and is what deposits record balances under and transfers look them up by. -/
structure PoolKey.Named (k : PoolKey) : Prop where
  ofText : Ticker.ofText k.shareTicker.text = k.shareTicker
  decoder : Ticker.decoder (.string (some k.shareTicker.text)) = .ok k.shareTicker
  operation : ∀ e op, Operation.ofEnvelope e = .ok op → k.shareTicker.text ∈ e.inscription.ticks →
    k.shareTicker ∈ op.tickers
  deposit : ∀ (l l' : Ledger) (j : Journal) (a : Approval) holder x y,
    (a = .createPool k holder x y ∨ ∃ first, a = .addLiquidity k holder x y first) →
    l.apply a = .ok (l', j) → ∃ minted held : Amount, ⟨k.shareTicker, holder, .credit, minted⟩ ∈ j ∧
      l'.balance? k.shareTicker holder = some held ∧
      held.val = (l.held k.shareTicker holder).val + minted.val
  transfer : ∀ (rules : Rules) (e : Envelope) (l : Ledger) (a : Approval) amt,
    e.inscription = .transfer ⟨k.shareTicker.text, amt⟩ →
    ((Store.ledger.validateEnvelope rules e l).1 = .ok a ↔
      ∃ x total held : Amount, Amount.ofDecimal amt = .ok x ∧ 0 < x.val ∧ e.recipients ≠ [] ∧
        total.val = x.val * e.recipients.length ∧
        l.balance? k.shareTicker e.sender = some held ∧ total ≤ held ∧
        a = .transfer k.shareTicker e.sender e.recipients x total)

theorem PoolKey.named (k : PoolKey) : k.Named where
  ofText := k.shareTicker.ofText_text
  decoder := congrArg Except.ok k.shareTicker.ofText_text
  operation e op hop htick := by
    refine (Operation.asked_of_ofEnvelope hop).tickers.mem_iff.2 (List.mem_map.2 ⟨_, htick, ?_⟩)
    exact k.shareTicker.ofText_text
  deposit l l' j a holder x y ha happly := by
    have heffect := Ledger.effect_of_apply happly
    rcases ha with rfl | ⟨first, rfl⟩
    · cases heffect with
      | createPool _ moves =>
        obtain ⟨held, hheld, hsum⟩ := moves.held_funding_shares
        exact ⟨_, held, by simp [funding], hheld, hsum⟩
    · cases heffect with
      | addLiquidity _ _ _ _ _ _ moves =>
        obtain ⟨held, hheld, hsum⟩ := moves.held_funding_shares
        exact ⟨_, held, by simp [funding], hheld, hsum⟩
  transfer rules e l a amt he := by
    rw [Store.validate_transfer_iff he, Ticker.ofText_text]

/-- Normal forms have the length of the text and are their own. For tickers from whatever two texts
the name of their pool's liquidity token consists of theirs, and is read back as that token. -/
theorem Ticker.normal_form_stable (raw first second : String) :
    (ofText raw).text.length = raw.length ∧ ofText (ofText raw).text = ofText raw ∧
      ∃ a b, (a = ofText first ∧ b = ofText second ∨ a = ofText second ∧ b = ofText first) ∧
        PoolKey.ofPair (ofText first) (ofText second) = ⟨a, b⟩ ∧
        (PoolKey.ofPair (ofText first) (ofText second)).shareTicker.text =
          a.text ++ "-SWAP-" ++ b.text ∧
        (PoolKey.ofPair (ofText first) (ofText second)).Named := by
  refine ⟨length_text_ofText raw, ofText_text _, ?_⟩
  rcases PoolKey.ofPair_eq_or (ofText first) (ofText second) with h | h
  · exact ⟨_, _, .inl ⟨rfl, rfl⟩, h, by rw [h]; rfl, PoolKey.named _⟩
  · exact ⟨_, _, .inr ⟨rfl, rfl⟩, h, by rw [h]; rfl, PoolKey.named _⟩

end TokenLedger
