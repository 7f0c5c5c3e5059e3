import TokenLedger.Lane
import TokenLedger.Store

/-! Batches: envelopes taken together. Each operation is judged and carried out in its lane, the
lanes do not disturb each other, and the report lists the outcomes in chain order. -/
namespace TokenLedger

structure Limits where
  maxBatchSize : UInt64
  /-- Lanes may run at the same time; no outcome depends on it. -/
  parallelLanes : Bool
  deriving DecidableEq

inductive BatchError
  | empty
  | tooLarge (size max : Nat)
  deriving DecidableEq

def BatchError.message : BatchError → String
  | empty => "Empty batch"
  | tooLarge size max => s!"Batch size exceeded: {size} > {max}"

inductive Outcome
  | applied (a : Approval) (movements : Nat)
  | rejected (r : Rejection)
  /-- Accepted by the rules and refused by the ledger. -/
  | unapplied (r : Refusal)
  /-- The store failed; nothing was written. -/
  | halted (e : StoreError)
  /-- Not tried, after the store failed at an earlier operation of the lane. -/
  | skipped
  deriving DecidableEq

namespace Outcome

def isApplied : Outcome → Bool
  | applied .. => true
  | _ => false

def isUnapplied : Outcome → Bool
  | unapplied _ => true
  | _ => false

def isHalted : Outcome → Bool
  | halted _ => true
  | _ => false

def isPending : Outcome → Bool
  | halted _ | skipped => true
  | _ => false

def reason? : Outcome → Option Reason
  | rejected r => some r.reason
  | _ => none

end Outcome

structure Entry where
  location : Location
  protocol : String
  op : String
  outcome : Outcome
  deriving DecidableEq

structure Report where
  entries : List Entry
  laneCount : Nat
  haltedLanes : Nat
  deriving DecidableEq

namespace Report

def applied (r : Report) : Nat := r.entries.countP fun e => e.outcome.isApplied
def unapplied (r : Report) : Nat := r.entries.countP fun e => e.outcome.isUnapplied
def pending (r : Report) : Nat := r.entries.countP fun e => e.outcome.isPending

def reasons (r : Report) : List Reason := r.entries.filterMap fun e => e.outcome.reason?

def rejected (r : Report) : Nat := r.reasons.length

def isComplete (r : Report) : Bool := r.haltedLanes == 0

/-- What is to be submitted again, in chain order. -/
def pendingLocations (r : Report) : List Location :=
  (r.entries.filter fun e => e.outcome.isPending).map Entry.location

end Report

variable {σ : Type}

namespace Store

/-- Judges an operation and carries it out. -/
def process (store : Store σ) (rules : Rules) (op : Operation) (s : σ) : Outcome × σ :=
  match store.validate rules op s with
  | (.ok a, s) =>
    match store.apply a s with
    | (.ok journal, s) => (.applied a journal.length, s)
    | (.error (.failed e), s) => (.halted e, s)
    | (.error (.refused r), s) => (.unapplied r, s)
  | (.error (.rejected r), s) => (.rejected r, s)
  | (.error (.unverified e), s) => (.halted e, s)

/-- The outcomes of a lane by position. After a halt the rest is skipped. -/
def runLane (store : Store σ) (rules : Rules) : Lane → σ → List (Nat × Outcome) × σ
  | [], s => ([], s)
  | job :: rest, s =>
    match store.process rules job.operation s with
    | (.halted e, s) => ((job.position, .halted e) :: rest.map fun j => (j.position, .skipped), s)
    | (outcome, s) =>
      let (outcomes, s) := store.runLane rules rest s
      ((job.position, outcome) :: outcomes, s)

def runLanes (store : Store σ) (rules : Rules) : List Lane → σ → List (List (Nat × Outcome)) × σ
  | [], s => ([], s)
  | lane :: rest, s =>
    let (outcomes, s) := store.runLane rules lane s
    let (others, s) := store.runLanes rules rest s
    (outcomes :: others, s)

end Store

namespace Batch

/-- The operations that the envelopes ask for, without those rejected at once. -/
def jobs (batch : List Envelope) : List Job :=
  batch.zipIdx.filterMap fun (e, i) =>
    match Operation.ofEnvelope e with
    | .ok op => some ⟨i, e.location, op⟩
    | .error _ => none

/-- What became of an envelope. -/
def outcome (outcomes : List (Nat × Outcome)) (e : Envelope) (position : Nat) : Outcome :=
  match Operation.ofEnvelope e with
  | .ok _ => (outcomes.lookup position).getD .skipped
  | .error r => .rejected r

def entries (batch : List Envelope) (outcomes : List (Nat × Outcome)) : List Entry :=
  let unordered := batch.zipIdx.map fun (e, i) =>
    Entry.mk e.location e.inscription.protocol e.inscription.op (outcome outcomes e i)
  unordered.mergeSort fun x y => x.location ≤ y.location

def report (batch : List Envelope) (lanes : List (List (Nat × Outcome))) : Report where
  entries := entries batch lanes.flatten
  laneCount := lanes.length
  haltedLanes := lanes.countP fun lane => lane.any fun o => o.2.isHalted

/-- Processes a batch of at most the allowed size. -/
def process (store : Store σ) (rules : Rules) (limits : Limits) (batch : List Envelope) (s : σ) :
    Except BatchError Report × σ :=
  if batch = [] then (.error .empty, s)
  else if limits.maxBatchSize.toNat < batch.length then
    (.error (.tooLarge batch.length limits.maxBatchSize.toNat), s)
  else
    let (lanes, s) := store.runLanes rules (Lane.plan (jobs batch)) s
    (.ok (report batch lanes), s)

end Batch
end TokenLedger
