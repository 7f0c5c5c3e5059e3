import TokenLedger.Ledger
import TokenLedger.Verdict

/-! Stores: what answers questions about a ledger and carries out approvals, and may fail at either.
A failure says nothing about the operation, which is to be tried again. Outages make a store fail by
rule. -/
namespace TokenLedger

inductive StoreError
  | unavailable (reason : String)
  | malformed (key reason : String)
  | lockPoisoned
  deriving DecidableEq

def StoreError.message : StoreError → String
  | unavailable reason => "ledger unavailable: " ++ reason
  | malformed key reason => s!"malformed ledger record for {key}: {reason}"
  | lockPoisoned => "ledger lock poisoned"

/-- Why an approval is not carried out: for good, or by a failure of the store. -/
inductive ApplyError
  | refused (r : Refusal)
  | failed (e : StoreError)
  deriving DecidableEq

namespace ApplyError

def message : ApplyError → String
  | refused r => r.message
  | failed e => e.message

def retryable : ApplyError → Bool
  | refused _ => false
  | failed _ => true

end ApplyError

/-- A store over states of a type. Any access may change the state. -/
structure Store (σ : Type) where
  read : (q : Query) → σ → Except StoreError q.Answer × σ
  apply : Approval → σ → Except ApplyError Journal × σ

/-- The ledger itself, which never fails. -/
def Store.ledger : Store Ledger where
  read q l := (.ok (l.answer q), l)
  apply a l :=
    match l.apply a with
    | .ok (l', journal) => (.ok journal, l')
    | .error r => (.error (.refused r), l)

/-- Why an operation is not accepted. -/
inductive Dismissal
  | rejected (r : Rejection)
  /-- The rules could not be checked. -/
  | unverified (e : StoreError)
  deriving DecidableEq

namespace Dismissal

def message : Dismissal → String
  | rejected r => "rejected: " ++ r.message
  | unverified e => "ledger failure: " ++ e.message

def retryable : Dismissal → Bool
  | rejected _ => false
  | unverified _ => true

end Dismissal

variable {σ α β : Type}

/-- Puts the questions to a store; its first failure ends the inquiry. -/
def Inquiry.run (store : Store σ) : Inquiry α → σ → Except Dismissal α × σ
  | done a, s => (.ok a, s)
  | reject r, s => (.error (.rejected r), s)
  | ask q next, s =>
    match store.read q s with
    | (.ok x, s') => (next x).run store s'
    | (.error e, s') => (.error (.unverified e), s')

theorem Inquiry.run_bind (store : Store σ) (x : Inquiry α) (f : α → Inquiry β) (s : σ) :
    (x >>= f).run store s = match x.run store s with
      | (.ok a, s') => (f a).run store s'
      | (.error e, s') => (.error e, s') := by
  induction x generalizing s with
  | done a => rfl
  | reject r => rfl
  | ask q next ih =>
    simp only [ask_bind, run]
    split
    · exact ih _ _
    · rfl

namespace Store

def validate (store : Store σ) (rules : Rules) (op : Operation) (s : σ) :
    Except Dismissal Approval × σ :=
  (op.verdict rules).run store s

def validateEnvelope (store : Store σ) (rules : Rules) (e : Envelope) (s : σ) :
    Except Dismissal Approval × σ :=
  match Operation.ofEnvelope e with
  | .ok op => store.validate rules op s
  | .error r => (.error (.rejected r), s)

/-- The verdict on an envelope whose document may be no inscription. -/
def validateDocument (store : Store σ) (rules : Rules) (e : Enveloped Json.Value) (s : σ) :
    Except Dismissal Approval × σ :=
  match e.open with
  | .ok e => store.validateEnvelope rules e s
  | .error err => (.error (.rejected err.rejection), s)

end Store

/-- The four kinds of access. -/
inductive Gate
  | supply | balance | pool | apply
  deriving DecidableEq

structure Outage where
  gate : Gate
  /-- What the access must be about; anything if none. -/
  target : Option String
  error : StoreError
  deriving DecidableEq

namespace Outage

def Meets (o : Outage) (gate : Gate) (about : String) : Prop :=
  o.gate = gate ∧ (o.target = none ∨ o.target = some about)

instance (o : Outage) (gate : Gate) (about : String) : Decidable (o.Meets gate about) := by
  unfold Meets; infer_instance

/-- The failure of the first outage that an access meets. -/
def first? (outages : List Outage) (gate : Gate) (about : String) : Option StoreError :=
  (outages.find? fun o => o.Meets gate about).map error

end Outage

def Query.gate : Query → Gate
  | supply _ => .supply
  | balance _ _ => .balance
  | pool _ => .pool

def Query.about : Query → String
  | supply t => t.text
  | balance t _ => t.text
  | pool k => toString k

/-- The store behind outages. An access that meets one does not reach it. -/
def Store.behind {σ : Type} (outages : List Outage) (store : Store σ) : Store σ where
  read q s :=
    match Outage.first? outages q.gate q.about with
    | some e => (.error e, s)
    | none => store.read q s
  apply a s :=
    match Outage.first? outages .apply a.kind.name with
    | some e => (.error (.failed e), s)
    | none => store.apply a s
end TokenLedger
