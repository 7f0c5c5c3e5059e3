import TokenLedger.Proofs.Verdict

/-! What is known of an approval that the rules gave. Main statement: everything that was checked
is about the amounts and the holder that the approval names. -/
namespace TokenLedger

namespace Approval

open Inquiry

/-- What a view shows of an approval that was given to a sender. -/
def Checked (v : View) (sender : Address) : Approval → Prop
  | deploy t max limit _ deployer =>
    deployer = sender ∧ t.HasValidSize ∧ 0 < limit.val ∧ limit ≤ max ∧ v (.supply t) = none
  | mint t _ total =>
    t.HasValidSize ∧ ∃ s, v (.supply t) = some s ∧ total.val + s.minted.val ≤ s.max.val
  | transfer t holder recipients each total =>
    holder = sender ∧ 0 < each.val ∧ recipients ≠ [] ∧
      total.val = each.val * recipients.length ∧ Covers v t holder total.val
  | createPool k holder a b =>
    holder = sender ∧ k.a ≠ k.b ∧ 0 < a.val ∧ 0 < b.val ∧ v (.pool k) = none ∧
      Covers v k.a holder a.val ∧ Covers v k.b holder b.val
  | addLiquidity k holder a b _ =>
    holder = sender ∧ k.a ≠ k.b ∧ (∃ p, v (.pool k) = some p) ∧
      Covers v k.a holder a.val ∧ Covers v k.b holder b.val
  | removeLiquidity k holder x =>
    holder = sender ∧ k.a ≠ k.b ∧ 0 < x.val ∧ (∃ p, v (.pool k) = some p ∧ x ≤ p.liquidity) ∧
      Covers v k.shareTicker holder x.val
  | swap k holder tickerIn tickerOut amountIn _ amountOut owner =>
    holder = sender ∧ k.a ≠ k.b ∧
      (tickerIn = k.a ∧ tickerOut = k.b ∨ tickerIn = k.b ∧ tickerOut = k.a) ∧
      (∃ p, v (.pool k) = some p ∧ owner = p.owner ∧
        amountOut ≤ (p.reservesFor k tickerIn).2) ∧
      Covers v tickerIn holder amountIn.val ∧ Covers v tickerOut owner amountOut.val
  | deposit holder x => holder = sender ∧ 0 < x.val
  | withdraw holder _ => holder = sender

end Approval

namespace PoolKey

variable {x y : Ticker}

theorem ofPair_eq_or (x y : Ticker) : ofPair x y = ⟨x, y⟩ ∨ ofPair x y = ⟨y, x⟩ := by
  unfold ofPair
  split
  · exact .inl rfl
  · exact .inr rfl

theorem ofPair_a_ne_b (h : x ≠ y) : (ofPair x y).a ≠ (ofPair x y).b := by
  rcases ofPair_eq_or x y with he | he <;> rw [he]
  · exact h
  · exact h.symm

theorem ofPair_sorted (s : Sides) :
    ofPair s.sorted.tickerA s.sorted.tickerB = ⟨s.sorted.tickerA, s.sorted.tickerB⟩ := by
  unfold Sides.sorted
  split
  · next h =>
    have hs := Std.OrientedOrd.eq_swap (a := s.tickerB) (b := s.tickerA)
    rw [h] at hs
    simp [ofPair, Sides.swap, hs]
  · next h => cases hc : compare s.tickerA s.tickerB <;> simp_all [ofPair]

end PoolKey

def Inscription.ticks : Inscription → List String
  | deploy b => [b.tick]
  | mint b | transfer b | deposit b | withdraw b => [b.tick]
  | create b | add b => [b.tick0, b.tick1]
  | remove b => [b.tick0, b.tick1]
  | swap b => [b.tick0, b.tick1]

def Sides.tickers (s : Sides) : List Ticker := [s.tickerA, s.tickerB]

theorem Sides.tickers_sorted_perm (s : Sides) : s.sorted.tickers.Perm s.tickers := by
  unfold sorted
  split
  · exact .swap _ _ _
  · exact .refl _

namespace Operation

def sender : Operation → Address
  | token op => op.sender
  | pair op => op.holder
  | bridge op => op.holder

/-- The tokens that an operation is about. -/
def tickers : Operation → List Ticker
  | token op => [op.ticker]
  | pair op => op.sides.tickers
  | bridge op => [op.ticker]

/-- The pair of an operation other than a swap is in the order of its pool. -/
def Ordered : Operation → Prop
  | pair op => op.kind = .swap ∨ op.poolKey = ⟨op.sides.tickerA, op.sides.tickerB⟩
  | _ => True

end Operation

open Inquiry

variable {v : View} {a : Approval}

theorem TokenOperation.checked {op : TokenOperation} (h : op.verdict.on v = .ok a) :
    a.Checked v op.sender := by
  unfold verdict at h
  split at h
  · obtain ⟨hs, -, hl, hle, ht, rfl⟩ := deploy_on.1 h
    exact ⟨rfl, hs, hl, hle, ht⟩
  · obtain ⟨hs, s, ht, -, -, total, -, hle, rfl⟩ := mint_on.1 h
    exact ⟨hs, s, ht, hle⟩
  · obtain ⟨hp, hr, hc, total, ht, rfl⟩ := transfer_on.1 h
    exact ⟨rfl, hp, hr, ht, ht ▸ hc⟩
  · cases h

theorem quote?_out_le {given reserveIn reserveOut : Amount} {q : Quote}
    (h : quote? given reserveIn reserveOut = some q) : q.out ≤ reserveOut := by
  simp only [quote?] at h
  split at h
  · cases h
  · cases h; exact quotient_le_reserve _ _ _

theorem PairOperation.checked {op : PairOperation} (ho : (Operation.pair op).Ordered)
    (h : op.verdict.on v = .ok a) : a.Checked v op.holder := by
  simp only [verdict, rejectFor, on_guard_eq_ok] at h
  obtain ⟨hne, h⟩ := h
  have hab : op.poolKey.a ≠ op.poolKey.b := PoolKey.ofPair_a_ne_b hne
  split at h
  · next hk =>
    obtain ⟨ha, hb, hp, hc, rfl⟩ := create_on.1 h
    have hkey := ho.resolve_left (by rw [hk]; decide)
    exact ⟨rfl, hab, ha, hb, hp, hkey ▸ hc.1, hkey ▸ hc.2⟩
  · next hk =>
    obtain ⟨p, x, y, first, hp, -, hc, rfl⟩ := add_on.1 h
    have hkey := ho.resolve_left (by rw [hk]; decide)
    exact ⟨rfl, hab, ⟨p, hp⟩, hkey ▸ hc.1, hkey ▸ hc.2⟩
  · obtain ⟨hx, p, hp, hle, hc, rfl⟩ := remove_on.1 h
    exact ⟨rfl, hab, hx, ⟨p, hp, hle⟩, hc⟩
  · obtain ⟨p, q, hp, -, -, hq, -, hi, hout, rfl⟩ := swap_on.1 h
    refine ⟨rfl, hab, ?_, ⟨p, hp, rfl, quote?_out_le hq⟩, hi, hout⟩
    rcases PoolKey.ofPair_eq_or op.sides.tickerA op.sides.tickerB with he | he
    · exact .inl ⟨by rw [poolKey, he], by rw [poolKey, he]⟩
    · exact .inr ⟨by rw [poolKey, he], by rw [poolKey, he]⟩
  · cases h

theorem BridgeOperation.checked {op : BridgeOperation} {rules : Rules}
    (h : (op.verdict rules).on v = .ok a) : a.Checked v op.holder := by
  simp only [verdict, rejectFor, on_guard_eq_ok] at h
  obtain ⟨-, h⟩ := h
  split at h
  · obtain ⟨hx, rfl⟩ := deposit_on.1 h
    exact ⟨rfl, hx⟩
  · obtain ⟨-, rfl⟩ := withdraw_on.1 h
    rfl
  · cases h

namespace Operation

/-- An approval says what was checked. -/
theorem checked {op : Operation} {rules : Rules} (ho : op.Ordered)
    (h : (op.verdict rules).on v = .ok a) : a.Checked v op.sender := by
  cases op with
  | token op => exact TokenOperation.checked h
  | pair op => exact PairOperation.checked ho h
  | bridge op => exact BridgeOperation.checked h

variable {e : Envelope}

theorem amountField_eq_ok_iff {name raw : String} {x : Amount} :
    amountField name raw = .ok x ↔ Amount.ofDecimal raw = .ok x := by
  unfold amountField
  cases Amount.ofDecimal raw with
  | ok y => simp only [Except.ok.injEq]
  | error e => simp only [reduceCtorEq]

theorem ofAmount_eq_ok_iff {k : Kind} {b : AmountBody} {op : TokenOperation} :
    ofAmount e k b = .ok op ↔
      ∃ x, Amount.ofDecimal b.amt = .ok x ∧ op = { blankToken e k b.tick with amount := x } := by
  rw [ofAmount, bind_eq_ok_iff]
  refine exists_congr fun x => and_congr amountField_eq_ok_iff ?_
  constructor
  · intro h
    exact (Except.ok.inj h).symm
  · rintro rfl
    rfl

/-- What an operation has from the envelope that asks for it. -/
structure Asked (e : Envelope) (op : Operation) : Prop where
  sender : op.sender = e.sender
  ordered : op.Ordered
  kind : op.kind = e.inscription.kind
  tickers : op.tickers.Perm (e.inscription.ticks.map .ofText)

theorem asked_deploy {b : DeployBody} {op : TokenOperation} (he : e.inscription = .deploy b)
    (h : ofDeploy e b = .ok op) : Asked e (token op) := by
  obtain ⟨_, -, h⟩ := bind_eq_ok_iff.1 h
  split at h
  any_goals split at h
  all_goals
    obtain ⟨_, -, h⟩ := bind_eq_ok_iff.1 h
    obtain ⟨_, -, h⟩ := bind_eq_ok_iff.1 h
    cases h
    exact ⟨rfl, trivial, he ▸ rfl, he ▸ .refl _⟩

section

variable {k : Kind} (hk : e.inscription.kind = k)

include hk

theorem asked_amount {b : AmountBody} {op : TokenOperation} (ht : e.inscription.ticks = [b.tick])
    (h : ofAmount e k b = .ok op) : Asked e (token op) := by
  obtain ⟨x, -, rfl⟩ := ofAmount_eq_ok_iff.1 h
  exact ⟨rfl, trivial, hk.symm, ht ▸ .refl _⟩

theorem asked_sorted {s : Sides} (ht : e.inscription.ticks.map .ofText = s.tickers)
    (liquidity : Amount) : Asked e (pair ⟨k, s.sorted, liquidity, e.sender⟩) where
  sender := rfl
  ordered := .inr (PoolKey.ofPair_sorted s)
  kind := hk.symm
  tickers := ht ▸ Sides.tickers_sorted_perm s

theorem asked_pairBody {b : PairBody} {op : PairOperation}
    (ht : e.inscription.ticks = [b.tick0, b.tick1]) (h : ofPairBody e k b = .ok op) :
    Asked e (pair op) := by
  obtain ⟨_, -, h⟩ := bind_eq_ok_iff.1 h
  obtain ⟨_, -, h⟩ := bind_eq_ok_iff.1 h
  obtain ⟨_, -, h⟩ := bind_eq_ok_iff.1 h
  obtain ⟨_, -, h⟩ := bind_eq_ok_iff.1 h
  cases h
  exact asked_sorted hk (ht ▸ rfl) _

theorem asked_bridge {b : AmountBody} {op : BridgeOperation} (ht : e.inscription.ticks = [b.tick])
    (h : ofBridge e k b = .ok op) : Asked e (bridge op) := by
  obtain ⟨_, -, h⟩ := bind_eq_ok_iff.1 h
  cases h
  exact ⟨rfl, trivial, hk.symm, ht ▸ .refl _⟩

end

theorem asked_remove {b : RemoveBody} {op : PairOperation} (he : e.inscription = .remove b)
    (h : ofRemove e b = .ok op) : Asked e (pair op) := by
  obtain ⟨_, -, h⟩ := bind_eq_ok_iff.1 h
  cases h
  exact asked_sorted (he ▸ rfl) (he ▸ rfl) _

theorem asked_swap {b : SwapBody} {op : PairOperation} (he : e.inscription = .swap b)
    (h : ofSwap e b = .ok op) : Asked e (pair op) := by
  obtain ⟨_, -, h⟩ := bind_eq_ok_iff.1 h
  obtain ⟨_, -, h⟩ := bind_eq_ok_iff.1 h
  obtain ⟨_, -, h⟩ := bind_eq_ok_iff.1 h
  cases h
  exact ⟨rfl, .inl rfl, he ▸ rfl, he ▸ .refl _⟩

/-- An operation keeps the sender of its envelope and the kind and the tokens of its inscription,
and brings its pair into order. -/
theorem asked_of_ofEnvelope {op : Operation} (h : ofEnvelope e = .ok op) : Asked e op := by
  unfold ofEnvelope at h
  split at h <;> rename_i hi <;> rw [map_eq_ok_iff] at h <;> obtain ⟨op, h, rfl⟩ := h
  · exact asked_deploy hi h
  · exact asked_amount (hi ▸ rfl) (hi ▸ rfl) h
  · exact asked_amount (hi ▸ rfl) (hi ▸ rfl) h
  · exact asked_pairBody (hi ▸ rfl) (hi ▸ rfl) h
  · exact asked_pairBody (hi ▸ rfl) (hi ▸ rfl) h
  · exact asked_remove hi h
  · exact asked_swap hi h
  · exact asked_bridge (hi ▸ rfl) (hi ▸ rfl) h
  · exact asked_bridge (hi ▸ rfl) (hi ▸ rfl) h

theorem ofEnvelope_spec {op : Operation} (h : ofEnvelope e = .ok op) :
    op.sender = e.sender ∧ op.Ordered :=
  ⟨(asked_of_ofEnvelope h).sender, (asked_of_ofEnvelope h).ordered⟩

theorem kind_of_ofEnvelope {op : Operation} (h : ofEnvelope e = .ok op) :
    op.kind = e.inscription.kind :=
  (asked_of_ofEnvelope h).kind

end Operation
end TokenLedger
