import TokenLedger.Store
import TokenLedger.Proofs.LaneRun

/-! What an operation shows by itself. Main statement: an operation is rejected at every store if
and only if it breaks a rule that needs no answer, other than that a mint has an amount, which is
looked at after the ledger is asked for the supply. -/
namespace TokenLedger

open Inquiry

/-- The rules for tokens that need no answer, by the reasons for which they reject. -/
def TokenOperation.Breaks (op : TokenOperation) (reason : Reason) : Prop :=
  match op.kind with
  | .deploy => ¬op.ticker.HasValidSize ∧ reason = .invalidTickerLength ∨
      op.maxSupply = .zero ∧ reason = .nonPositiveMaxSupply ∨
      op.mintLimit = .zero ∧ reason = .nonPositiveMintLimit ∨
      op.maxSupply < op.mintLimit ∧ reason = .limitExceedsMaxSupply
  | .mint => ¬op.ticker.HasValidSize ∧ reason = .invalidTickerLength ∨
      op.amount = .zero ∧ reason = .nonPositiveAmount
  | .transfer => op.amount = .zero ∧ reason = .nonPositiveAmount ∨
      op.recipients = [] ∧ reason = .missingRecipient
  | _ => reason = .unsupportedOperation

/-- The rules for pools that need no answer. -/
def PairOperation.Breaks (op : PairOperation) (reason : Reason) : Prop :=
  op.sides.tickerA = op.sides.tickerB ∧ reason = .identicalTickers ∨
    match op.kind with
    | .create => (op.sides.amountA = .zero ∨ op.sides.amountB = .zero) ∧
        reason = .nonPositiveAmount
    | .remove => op.liquidity = .zero ∧ reason = .nonPositiveLiquidity
    | .add | .swap => False
    | _ => reason = .unsupportedOperation

/-- The rules for the bridge that need no answer. -/
def BridgeOperation.Breaks (op : BridgeOperation) (reason : Reason) : Prop :=
  op.ticker ≠ .wrapped ∧ reason = .invalidTicker ∨
    match op.kind with
    | .deposit => op.amount = .zero ∧ reason = .nonPositiveAmount
    | .withdraw => False
    | _ => reason = .unsupportedOperation

/-- The one rule that needs no answer and is looked at after one: a mint has an amount. -/
def TokenOperation.LooksLate (op : TokenOperation) (reason : Reason) : Prop :=
  op.kind = .mint ∧ reason = .nonPositiveAmount

namespace Operation

/-- The rules that an operation breaks by itself. -/
def Breaks : Operation → Reason → Prop
  | token op => op.Breaks
  | pair op => op.Breaks
  | bridge op => op.Breaks

def LooksLate : Operation → Reason → Prop
  | token op => op.LooksLate
  | pair _ | bridge _ => fun _ => False

end Operation

namespace Inquiry

variable {α : Type} {x : Inquiry α} {B B' : Reason → Prop}

/-- An inquiry rejects before its first question if and only if a rule is broken, and for such a
rule. -/
structure Prechecks (x : Inquiry α) (B : Reason → Prop) : Prop where
  broken : ∀ r, x = .reject r → B r.reason
  rejected : ∀ reason, B reason → ∃ r, x = .reject r

theorem Prechecks.congr (h : Prechecks x B) (hB : ∀ reason, B' reason ↔ B reason) :
    Prechecks x B' :=
  ⟨fun r hr => (hB _).2 (h.broken r hr), fun reason hb => h.rejected reason ((hB _).1 hb)⟩

theorem prechecks_done (a : α) : Prechecks (done a) fun _ => False :=
  ⟨fun _ h => (by cases h), fun _ h => h.elim⟩

theorem prechecks_ask (q : Query) (next : q.Answer → Inquiry α) :
    Prechecks (ask q next) fun _ => False :=
  ⟨fun _ h => (by cases h), fun _ h => h.elim⟩

theorem prechecks_rejectFor (reason : Reason) (detail : String) :
    Prechecks (rejectFor reason detail : Inquiry α) (· = reason) :=
  ⟨fun _ h => (by cases h; rfl), fun _ _ => ⟨_, rfl⟩⟩

theorem Prechecks.guard (h : Prechecks x B) {c : Prop} [Decidable c] (r : Rejection) :
    Prechecks (if c then .reject r else x) fun reason => c ∧ reason = r.reason ∨ B reason := by
  by_cases hc : c
  · rw [if_pos hc]
    refine ⟨fun r' he => ?_, fun _ _ => ⟨r, rfl⟩⟩
    cases he
    exact .inl ⟨hc, rfl⟩
  · rw [if_neg hc]
    exact h.congr fun reason => by simp [hc]

theorem rejects_everywhere_iff : (∀ {σ : Type} (store : Store σ) (s : σ),
    ∃ r, (x.run store s).1 = .error (.rejected r)) ↔ ∃ r, x = .reject r := by
  constructor
  · intro h
    obtain ⟨r, hr⟩ := h Store.scripted []
    cases x with
    | done a | ask q next => cases hr
    | reject r => exact ⟨r, rfl⟩
  · rintro ⟨r, rfl⟩ σ store s
    exact ⟨r, rfl⟩

section

variable {f : Unit → Inquiry α} (h : Prechecks (f ()) B)

include h

theorem Prechecks.requireTickerSize (t : Ticker) : Prechecks (requireTickerSize t >>= f) fun reason =>
    ¬t.HasValidSize ∧ reason = .invalidTickerLength ∨ B reason := by
  have heq : (Inquiry.requireTickerSize t >>= f) = if ¬t.HasValidSize then
      .reject (.because .invalidTickerLength
        ("Ticker(" ++ Text.quote t.text ++ ") has " ++ toString t.size ++ " bytes"))
      else f () := by
    rw [Inquiry.requireTickerSize, ite_not]
    split <;> rfl
  rw [heq]
  exact h.guard _

theorem Prechecks.requirePositive (amount : Amount) (reason : Reason) (name : String) :
    Prechecks (requirePositive amount reason name >>= f) fun r =>
      amount = .zero ∧ r = reason ∨ B r := by
  have heq : (Inquiry.requirePositive amount reason name >>= f) = if amount = .zero then
      .reject (.because reason (name ++ " is zero")) else f () := by
    rw [Inquiry.requirePositive]
    split <;> rfl
  rw [heq]
  exact h.guard _

end
end Inquiry

theorem TokenOperation.prechecks (op : TokenOperation) : Prechecks op.verdict fun reason =>
    op.Breaks reason ∧ ¬op.LooksLate reason := by
  unfold verdict Breaks LooksLate
  cases op.kind with
  | deploy =>
    refine (Prechecks.requireTickerSize (.requirePositive (.requirePositive (.guard
      (prechecks_ask _ _) _) ..) ..) op.ticker).congr fun reason => ?_
    simp [Rejection.because]
  | mint =>
    refine (Prechecks.requireTickerSize (prechecks_ask _ _) op.ticker).congr fun reason => ?_
    simp only [true_and, or_false]
    constructor
    · rintro ⟨hs | ⟨-, rfl⟩, hlate⟩
      · exact hs
      · exact absurd rfl hlate
    · rintro ⟨hs, rfl⟩
      exact ⟨.inl ⟨hs, rfl⟩, by decide⟩
  | transfer =>
    refine (Prechecks.requirePositive (.guard (prechecks_ask _ _) _) ..).congr fun reason => ?_
    simp
  | _ => exact (prechecks_rejectFor ..).congr fun reason => by simp

theorem PairOperation.prechecks (op : PairOperation) : Prechecks op.verdict op.Breaks := by
  unfold verdict
  refine (Prechecks.guard ?_ _).congr fun reason => .rfl
  cases op.kind with
  | create =>
    refine (Prechecks.requirePositive (.requirePositive (prechecks_ask _ _) ..) ..).congr
      fun reason => ?_
    tauto
  | remove =>
    refine (Prechecks.requirePositive (prechecks_ask _ _) ..).congr fun reason => ?_
    simp
  | add | swap => exact prechecks_ask _ _
  | _ => exact prechecks_rejectFor ..

theorem BridgeOperation.prechecks (op : BridgeOperation) (rules : Rules) :
    Prechecks (op.verdict rules) op.Breaks := by
  unfold verdict
  refine (Prechecks.guard ?_ _).congr fun reason => .rfl
  cases op.kind with
  | deposit =>
    refine (Prechecks.requirePositive (prechecks_done (Approval.deposit op.holder op.amount)) ..).congr
      fun reason => ?_
    simp
  | withdraw =>
    dsimp only [withdraw]
    split
    · exact prechecks_ask _ _
    · exact prechecks_done _
  | _ => exact prechecks_rejectFor ..

namespace Operation

theorem prechecks (op : Operation) (rules : Rules) :
    Prechecks (op.verdict rules) fun reason => op.Breaks reason ∧ ¬op.LooksLate reason := by
  cases op with
  | token op => exact op.prechecks
  | pair op => exact op.prechecks.congr fun reason => by simp [Breaks, LooksLate]
  | bridge op => exact (op.prechecks rules).congr fun reason => by simp [Breaks, LooksLate]

variable {σ : Type}

theorem rejected_unasked (rules : Rules) {op : Operation} {reason : Reason}
    (hb : op.Breaks reason) (hl : ¬op.LooksLate reason) :
    ∃ r, op.Breaks r.reason ∧ ∀ {σ : Type} (store : Store σ) (s : σ),
      store.validate rules op s = (.error (.rejected r), s) ∧
        store.process rules op s = (.rejected r, s) := by
  obtain ⟨r, hr⟩ := (op.prechecks rules).rejected reason ⟨hb, hl⟩
  refine ⟨r, ((op.prechecks rules).broken r hr).1, fun store s => ?_⟩
  rw [Store.process_eq, Store.validate, hr]
  exact ⟨rfl, rfl⟩

theorem verdict_mint_zero {t : TokenOperation} (hm : t.kind = .mint) (ht : t.ticker.HasValidSize)
    (hz : t.amount = .zero) : t.verdict = .ask (.supply t.ticker) fun
      | none => rejectFor .notDeployed t.ticker.text
      | some _ => rejectFor .nonPositiveAmount "amt is zero" := by
  rw [TokenOperation.verdict, hm]
  dsimp only
  rw [TokenOperation.mint, requireTickerSize, if_pos ht, hz]
  refine congrArg (Inquiry.ask _) (funext fun supply => ?_)
  cases supply <;> rfl

/-- A mint without an amount is rejected once the ledger answers, and halts if it does not. -/
theorem mint_zero_asks (rules : Rules) {t : TokenOperation} (hm : t.kind = .mint)
    (ht : t.ticker.HasValidSize) (hz : t.amount = .zero) (store : Store σ) (s : σ) :
    (∀ supply s', store.read (.supply t.ticker) s = (.ok supply, s') →
      ∃ r, store.validate rules (token t) s = (.error (.rejected r), s') ∧
        store.process rules (token t) s = (.rejected r, s')) ∧
    ∀ e s', store.read (.supply t.ticker) s = (.error e, s') →
      store.validate rules (token t) s = (.error (.unverified e), s') ∧
        store.process rules (token t) s = (.halted e, s') := by
  rw [Store.process_eq, Store.validate, verdict, verdict_mint_zero hm ht hz, run]
  constructor
  · rintro (_ | supply) s' h
    all_goals
      rw [h]
      exact ⟨_, rfl, rfl⟩
  · intro e s' h
    rw [h]
    exact ⟨rfl, rfl⟩

/-- An operation is rejected at every store if and only if it breaks a rule that needs no answer,
other than that a mint has an amount. It is then rejected without an access and for such a rule; and
a mint that breaks nothing else is rejected where the supply is known and halts where it cannot be
read. -/
theorem rejected_everywhere_iff (rules : Rules) (op : Operation) :
    ((∀ {σ : Type} (store : Store σ) (s : σ),
        ∃ r, (store.validate rules op s).1 = .error (.rejected r)) ↔
      ∃ reason, op.Breaks reason ∧ ¬op.LooksLate reason) ∧
    (∀ reason, op.Breaks reason → ¬op.LooksLate reason →
      ∃ r, op.Breaks r.reason ∧ ∀ {σ : Type} (store : Store σ) (s : σ),
        store.validate rules op s = (.error (.rejected r), s) ∧
          store.process rules op s = (.rejected r, s)) ∧
    ∀ t, op = token t → t.kind = .mint → t.ticker.HasValidSize → t.amount = .zero →
      ∀ {σ : Type} (store : Store σ) (s : σ),
        (∀ supply s', store.read (.supply t.ticker) s = (.ok supply, s') →
          ∃ r, store.validate rules op s = (.error (.rejected r), s') ∧
            store.process rules op s = (.rejected r, s')) ∧
        ∀ e s', store.read (.supply t.ticker) s = (.error e, s') →
          store.validate rules op s = (.error (.unverified e), s') ∧
            store.process rules op s = (.halted e, s') := by
  refine ⟨?_, fun reason hb hl => rejected_unasked rules hb hl, ?_⟩
  · constructor
    · intro h
      obtain ⟨r, hr⟩ := rejects_everywhere_iff.1 h
      exact ⟨r.reason, (op.prechecks rules).broken r hr⟩
    · rintro ⟨reason, hb, hl⟩
      exact rejects_everywhere_iff.2 ((op.prechecks rules).rejected reason ⟨hb, hl⟩)
  · rintro t rfl hm ht hz σ store s
    exact mint_zero_asks rules hm ht hz store s

/-- A deployment that allows more per mint than in all, at a store that never answers. -/
theorem rejected_everywhere_iff_no_answer :
    let e : Envelope := ⟨⟨1, 0⟩, ⟨"DA"⟩, "", 1, .deploy ⟨"AA", "10", some "11", none, none, none⟩⟩
    let store := Store.ledger.behind [⟨.supply, none, .unavailable "down"⟩]
    ∃ op r, ofEnvelope e = .ok op ∧ op.Breaks .limitExceedsMaxSupply ∧ op.Breaks r.reason ∧
      store.process ⟨true⟩ op .empty = (.rejected r, .empty) := by
  intro e store
  let op : TokenOperation := { blankToken e .deploy "AA" with
    maxSupply := .ofUInt64 10
    mintLimit := .ofUInt64 11 }
  have hop : ofEnvelope e = .ok (token op) := by decide +kernel
  have hb : (token op).Breaks .limitExceedsMaxSupply := by
    refine .inr (.inr (.inr ⟨?_, rfl⟩))
    decide +kernel
  obtain ⟨r, hr, hrun⟩ := (rejected_everywhere_iff ⟨true⟩ (token op)).2.1 _ hb
    fun h => by cases h.1
  exact ⟨token op, r, hop, hb, hr, (hrun store .empty).2⟩

/-- A mint of nothing is not rejected where the supply cannot be read. -/
theorem mint_zero_halts :
    let e : Envelope := ⟨⟨1, 0⟩, ⟨"DA"⟩, "", 1, .mint ⟨"AA", "0"⟩⟩
    let store := Store.ledger.behind [⟨.supply, none, .unavailable "down"⟩]
    ∃ op, ofEnvelope e = .ok op ∧ op.Breaks .nonPositiveAmount ∧
      store.validate ⟨true⟩ op .empty = (.error (.unverified (.unavailable "down")), .empty) ∧
      (Dismissal.unverified (.unavailable "down")).retryable = true ∧
      store.process ⟨true⟩ op .empty = (.halted (.unavailable "down"), .empty) := by
  intro e store
  let op : TokenOperation := { blankToken e .mint "AA" with amount := .zero }
  have hop : ofEnvelope e = .ok (token op) := by decide +kernel
  have hsize : op.ticker.HasValidSize := by decide +kernel
  obtain ⟨hvalidate, hprocess⟩ := (mint_zero_asks ⟨true⟩ rfl hsize rfl store .empty).2 _ _ rfl
  exact ⟨token op, hop, .inr ⟨rfl, rfl⟩, hvalidate, rfl, hprocess⟩

end Operation
end TokenLedger
