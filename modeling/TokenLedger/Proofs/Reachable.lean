import TokenLedger.Batch
import TokenLedger.Proofs.Accepted
import TokenLedger.Proofs.Effect

/-! Runs from the empty ledger. Every envelope is read, judged and, where it is accepted, carried
out; one that is rejected or refused changes nothing. Main statement: what the empty ledger has and
every effect of a checked approval keeps, all reachable ledgers have. -/
namespace TokenLedger

section

variable {α ε δ : Type} {f : ε → δ} {x : Except ε α}

theorem mapError_eq_ok_iff {a : α} : x.mapError f = .ok a ↔ x = .ok a := by
  cases x with
  | ok b =>
    change Except.ok b = Except.ok a ↔ _
    simp only [Except.ok.injEq]
  | error e =>
    change Except.error (f e) = Except.ok a ↔ _
    simp only [reduceCtorEq]

theorem mapError_eq_error_iff {d : δ} : x.mapError f = .error d ↔ ∃ e, x = .error e ∧ f e = d := by
  cases x with
  | ok b =>
    change Except.ok b = Except.error d ↔ _
    simp only [reduceCtorEq, false_and, exists_false]
  | error e =>
    change Except.error (f e) = Except.error d ↔ _
    simp only [Except.error.injEq, exists_eq_left']

end

theorem Inquiry.run_ledger {α : Type} (x : Inquiry α) (l : Ledger) :
    x.run Store.ledger l = ((x.on l.answer).mapError .rejected, l) := by
  induction x with
  | done a => rfl
  | reject r => rfl
  | ask q next ih => exact ih _

/-- In a state, and after whatever is read, a store answers every question as a view does. -/
def Store.Answers {σ : Type} (store : Store σ) (v : View) (s : σ) : Prop :=
  ∃ P : σ → Prop, P s ∧
    ∀ s, P s → ∀ q, (store.read q s).1 = .ok (v q) ∧ P (store.read q s).2

theorem Store.answers_ledger (l : Ledger) : Store.ledger.Answers l.answer l :=
  ⟨(· = l), rfl, fun _ hs _ => ⟨hs ▸ rfl, hs⟩⟩

theorem Inquiry.run_answered {σ α : Type} {store : Store σ} {v : View} {s : σ}
    (h : store.Answers v s) (x : Inquiry α) :
    (x.run store s).1 = (x.on v).mapError .rejected := by
  obtain ⟨P, hs, hP⟩ := h
  induction x generalizing s with
  | done a => rfl
  | reject r => rfl
  | ask q next ih =>
    obtain ⟨hq, hs'⟩ := hP s hs q
    generalize hr : store.read q s = answered at hq hs'
    obtain ⟨answer, s'⟩ := answered
    obtain rfl : answer = .ok (v q) := hq
    simp only [run, hr]
    exact ih (v q) hs'

theorem Store.validated_by_ledger_iff {rules : Rules} {op : Operation} {l : Ledger}
    {a : Approval} : (Store.ledger.validate rules op l).1 = .ok a ↔
      (op.verdict rules).on l.answer = .ok a := by
  rw [Store.validate, Inquiry.run_ledger, mapError_eq_ok_iff]

theorem Store.process_ledger (rules : Rules) (op : Operation) (l : Ledger) :
    Store.ledger.process rules op l =
      match (op.verdict rules).on l.answer with
      | .error r => (.rejected r, l)
      | .ok a =>
        match l.apply a with
        | .ok (l', j) => (.applied a j.length, l')
        | .error r => (.unapplied r, l) := by
  have hv : Store.ledger.validate rules op l =
      (((op.verdict rules).on l.answer).mapError .rejected, l) := Inquiry.run_ledger _ _
  rw [Store.process, hv]
  cases (op.verdict rules).on l.answer with
  | error r => rfl
  | ok a =>
    have hok : (Except.ok a : Except Rejection Approval).mapError Dismissal.rejected = .ok a := rfl
    rw [hok]
    dsimp only [Store.ledger]
    cases l.apply a <;> rfl

theorem Store.rejected_by_ledger_iff {rules : Rules} {op : Operation} {l : Ledger} {r : Rejection} :
    (Store.ledger.process rules op l).1 = .rejected r ↔
      (op.verdict rules).on l.answer = .error r := by
  rw [Store.process_ledger]
  cases (op.verdict rules).on l.answer with
  | error r => simp
  | ok a => dsimp only; cases l.apply a <;> simp

theorem Store.unapplied_by_ledger_iff {rules : Rules} {op : Operation} {l : Ledger} {r : Refusal} :
    (Store.ledger.process rules op l).1 = .unapplied r ↔
      ∃ a, (op.verdict rules).on l.answer = .ok a ∧ l.apply a = .error r := by
  rw [Store.process_ledger]
  cases (op.verdict rules).on l.answer with
  | error r => simp
  | ok a => dsimp only; cases ha : l.apply a <;> simp [ha]

theorem Store.applied_by_ledger_iff {rules : Rules} {op : Operation} {l l' : Ledger} {a : Approval}
    {n : Nat} : Store.ledger.process rules op l = (.applied a n, l') ↔
      (op.verdict rules).on l.answer = .ok a ∧ ∃ j, l.apply a = .ok (l', j) ∧ j.length = n := by
  rw [Store.process_ledger]
  cases (op.verdict rules).on l.answer with
  | error r => simp
  | ok b =>
    dsimp only
    cases hb : l.apply b with
    | error r =>
      simp only [Prod.mk.injEq, reduceCtorEq, false_and, Except.ok.injEq, false_iff, not_and]
      rintro rfl ⟨j, hj, -⟩
      rw [hb] at hj
      cases hj
    | ok lj =>
      simp only [Prod.mk.injEq, Outcome.applied.injEq, Except.ok.injEq]
      constructor
      · rintro ⟨⟨rfl, rfl⟩, rfl⟩
        exact ⟨rfl, lj.2, hb, rfl⟩
      · rintro ⟨rfl, j, hj, rfl⟩
        rw [hb] at hj
        cases hj
        exact ⟨⟨rfl, rfl⟩, rfl⟩

/-- The operation is accepted and carried out. -/
def Ledger.Performs (rules : Rules) (op : Operation) (l l' : Ledger) : Prop :=
  ∃ a n, Store.ledger.process rules op l = (.applied a n, l')

namespace Ledger.Performs

variable {rules : Rules} {op : Operation} {l l' : Ledger}

theorem of_applied {a : Approval} {n : Nat}
    (h : (Store.ledger.process rules op l).1 = .applied a n) :
    l.Performs rules op (Store.ledger.process rules op l).2 :=
  ⟨a, n, Prod.ext h rfl⟩

theorem effect (h : l.Performs rules op l') :
    ∃ a j, (op.verdict rules).on l.answer = .ok a ∧ Effect l a j l' := by
  obtain ⟨a, n, h⟩ := h
  obtain ⟨hv, j, ha, -⟩ := Store.applied_by_ledger_iff.1 h
  exact ⟨a, j, hv, Ledger.effect_of_apply ha⟩

end Ledger.Performs

theorem Store.process_ledger_performs (rules : Rules) (op : Operation) (l : Ledger) :
    (Store.ledger.process rules op l).2 = l ∨
      l.Performs rules op (Store.ledger.process rules op l).2 := by
  rw [process_ledger]
  cases hv : (op.verdict rules).on l.answer with
  | error r => exact .inl rfl
  | ok a =>
    cases ha : l.apply a with
    | error r => exact .inl (by simp only [ha])
    | ok lj =>
      simp only [ha]
      exact .inr ⟨a, lj.2.length, Store.applied_by_ledger_iff.2 ⟨hv, lj.2, ha, rfl⟩⟩

theorem Store.process_ledger_eq_or (rules : Rules) (op : Operation) (l : Ledger) :
    (Store.ledger.process rules op l).2 = l ∨
      ∃ a j, (op.verdict rules).on l.answer = .ok a ∧
        Effect l a j (Store.ledger.process rules op l).2 :=
  (process_ledger_performs rules op l).imp_right Ledger.Performs.effect

/-- Operations one after another, each under rules of its own, whether they are carried out or not.
All ledgers on the way have a property. -/
inductive Run (allowed : Operation → Prop) (via : Ledger → Prop) : Ledger → Ledger → Prop
  | nil {l : Ledger} (h : via l) : Run allowed via l l
  | snoc {l m : Ledger} (before : Run allowed via l m) (rules : Rules) {op : Operation}
      (ho : allowed op) (h : via (Store.ledger.process rules op m).2) :
      Run allowed via l (Store.ledger.process rules op m).2

theorem Run.via_last {allowed : Operation → Prop} {via : Ledger → Prop} {l m : Ledger}
    (h : Run allowed via l m) : via m := by
  cases h with
  | nil h | snoc _ _ _ h => exact h

namespace Ledger

/-- The ledger after an envelope. -/
def after (l : Ledger) (rules : Rules) (e : Envelope) : Ledger :=
  match Operation.ofEnvelope e with
  | .ok op => (Store.ledger.process rules op l).2
  | .error _ => l

def afterAll (l : Ledger) (rules : Rules) : List Envelope → Ledger
  | [] => l
  | e :: es => (l.after rules e).afterAll rules es

theorem after_performs (l : Ledger) (rules : Rules) (e : Envelope) :
    l.after rules e = l ∨
      ∃ op, Operation.ofEnvelope e = .ok op ∧ l.Performs rules op (l.after rules e) := by
  unfold after
  cases hop : Operation.ofEnvelope e with
  | error r => exact .inl rfl
  | ok op => exact (Store.process_ledger_performs rules op l).imp_right fun h => ⟨op, rfl, h⟩

theorem after_eq_or (l : Ledger) (rules : Rules) (e : Envelope) :
    l.after rules e = l ∨
      ∃ a j, a.Checked l.answer e.sender ∧ Effect l a j (l.after rules e) := by
  refine (l.after_performs rules e).imp_right ?_
  rintro ⟨op, hop, h⟩
  obtain ⟨a, j, hv, he⟩ := h.effect
  obtain ⟨hs, ho⟩ := Operation.ofEnvelope_spec hop
  exact ⟨a, j, hs ▸ Operation.checked ho hv, he⟩

end Ledger

/-- A ledger to which envelopes with a property lead, each under rules of its own. -/
inductive Reachable (allowed : Envelope → Prop) : Ledger → Prop
  | empty : Reachable allowed .empty
  | after {l : Ledger} (before : Reachable allowed l) (rules : Rules) {e : Envelope}
      (he : allowed e) : Reachable allowed (l.after rules e)

namespace Reachable

variable {allowed : Envelope → Prop} {l : Ledger}

theorem invariant {I : Ledger → Prop} (h : Reachable allowed l) (empty : I .empty)
    (step : ∀ {l a j l'} {e : Envelope}, allowed e → I l → a.Checked l.answer e.sender →
      Effect l a j l' → I l') : I l := by
  induction h with
  | empty => exact empty
  | @after l _ rules e he ih =>
    rcases l.after_eq_or rules e with hl | ⟨a, j, hc, hl⟩
    · rw [hl]; exact ih
    · exact step he ih hc hl

/-- What every operation keeps, whoever asks for it, needs no more than the ledger. -/
theorem invariant_of_process {I : Ledger → Prop} (h : Reachable allowed l) (empty : I .empty)
    (step : ∀ {l} (rules : Rules) (op : Operation), I l →
      I (Store.ledger.process rules op l).2) : I l := by
  induction h with
  | empty => exact empty
  | @after l _ rules e _ ih =>
    unfold Ledger.after
    cases Operation.ofEnvelope e with
    | error r => exact ih
    | ok op => exact step rules op ih

/-- A pool has two different sides, and the address of its own name holds its reserves. -/
theorem pool_formed (h : Reachable allowed l) {k : PoolKey} {p : Pool} (hp : l.pool? k = some p) :
    p.owner = k.owner ∧ k.a ≠ k.b := by
  have hall : ∀ k p, l.pool? k = some p → p.owner = k.owner ∧ k.a ≠ k.b := by
    refine h.invariant (I := fun l => ∀ k p, l.pool? k = some p → p.owner = k.owner ∧ k.a ≠ k.b)
      (fun k p hp => ?_) fun _ ih hc he k q hq => ?_
    · simp [Ledger.pool?, Ledger.empty] at hp
    · rcases he.pool?_eq_some hq with ⟨p, hp, ho⟩ | ⟨_, _, _, rfl, rfl⟩
      · rw [← ho]; exact ih k p hp
      · exact ⟨rfl, hc.2.1⟩
  exact hall k p hp

theorem afterAll (h : Reachable allowed l) (rules : Rules) {es : List Envelope}
    (he : ∀ e ∈ es, allowed e) : Reachable allowed (l.afterAll rules es) := by
  induction es generalizing l with
  | nil => exact h
  | cons e es ih =>
    have hl : Reachable allowed (l.after rules e) := h.after rules (he e List.mem_cons_self)
    exact ih hl fun e' h' => he e' (List.mem_cons_of_mem _ h')

end Reachable
end TokenLedger
