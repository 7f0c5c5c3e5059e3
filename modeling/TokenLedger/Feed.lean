import TokenLedger.Settings
import TokenLedger.Text.Lines

/-! Feeds: input with an envelope per line. Lines are gathered into batches, which run one after
another; a batch that leaves operations pending ends the run. -/
namespace TokenLedger

structure Summary where
  /-- Lines that are not blank. -/
  lines : Nat
  /-- Lines that are no envelope. -/
  malformed : Nat
  batches : Nat
  applied : Nat
  unapplied : Nat
  /-- The reasons of all rejections. -/
  reasons : List Reason
  haltedLanes : Nat
  pending : List Location
  deriving DecidableEq

namespace Summary

def empty : Summary := ⟨0, 0, 0, 0, 0, [], 0, []⟩

def isComplete (s : Summary) : Bool := s.haltedLanes == 0

def addLine (s : Summary) : Summary := { s with lines := s.lines + 1 }
def addMalformed (s : Summary) : Summary := { s with malformed := s.malformed + 1 }
def addReason (s : Summary) (r : Reason) : Summary := { s with reasons := s.reasons ++ [r] }

def addReport (s : Summary) (r : Report) : Summary where
  lines := s.lines
  malformed := s.malformed
  batches := s.batches + 1
  applied := s.applied + r.applied
  unapplied := s.unapplied + r.unapplied
  reasons := s.reasons ++ r.reasons
  haltedLanes := s.haltedLanes + r.haltedLanes
  pending := s.pending ++ r.pendingLocations

end Summary

/-- Why there is no buffer. Either breaks the run off: no caller gets to see it. -/
inductive ReserveError
  | capacityOverflow
  | exhausted (bytes : Nat)
  deriving DecidableEq

namespace ReserveError

def message : ReserveError → String
  | capacityOverflow => "capacity overflow"
  | exhausted bytes => s!"memory allocation of {bytes} bytes failed"

def exitCode : ReserveError → UInt32
  | capacityOverflow => 101
  | exhausted _ => 134

end ReserveError

/-- Where buffers come from: how many bytes an envelope takes as it is laid out, and which amounts
of bytes are to be had. -/
structure Memory where
  width : Nat
  width_pos : 0 < width
  grants : Nat → Bool

namespace Memory

/-- The most bytes that a buffer may take, however many there are. -/
def maxBytes : Nat := 0x7fffffffffffffff

/-- Asks for a buffer of a number of envelopes. -/
def reserve (m : Memory) (count : Nat) : Except ReserveError Unit :=
  let bytes := count * m.width
  if maxBytes < bytes then .error .capacityOverflow
  else if m.grants bytes then .ok ()
  else .error (.exhausted bytes)

def unlimited : Memory := ⟨224, by decide, fun _ => true⟩

/-- There is a buffer for a number of envelopes. -/
def Holds (m : Memory) (count : Nat) : Prop :=
  count * m.width ≤ maxBytes ∧ m.grants (count * m.width) = true

theorem reserve_eq_ok_iff {m : Memory} {count : Nat} :
    m.reserve count = .ok () ↔ m.Holds count := by
  grind [reserve, Holds]

theorem reserve_of_maxBytes_lt {m : Memory} {count : Nat} (h : maxBytes < count) :
    m.reserve count = .error .capacityOverflow :=
  if_pos (Nat.lt_of_lt_of_le h (Nat.le_mul_of_pos_right count m.width_pos))

end Memory

inductive FeedError
  | unreserved (e : ReserveError)
  /-- The line with this number is not UTF-8. -/
  | unreadableLine (number : Nat)
  | batch (e : BatchError)
  deriving DecidableEq

def FeedError.message : FeedError → String
  | unreserved e => e.message
  | unreadableLine number => s!"reading input line {number}"
  | batch _ => "processing batch"

/-- What a line that is not blank holds. -/
inductive Line
  | malformed
  | undecodable (e : InscriptionError)
  | envelope (e : Envelope)

def Line.read (text : String) : Line :=
  match (Json.read text).decode Enveloped.rawDecoder with
  | .error _ => .malformed
  | .ok raw =>
    match raw.open with
    | .error e => .undecodable e
    | .ok e => .envelope e

namespace Feed

variable {σ : Type}

/-- Takes a batch and a state to a report and the next state. -/
abbrev Processor (σ : Type) := List Envelope → σ → Except BatchError Report × σ

def flush (process : Processor σ) (gathered : List Envelope) (summary : Summary) (s : σ) :
    Except FeedError Summary × σ :=
  match process gathered s with
  | (.ok report, s) => (.ok (summary.addReport report), s)
  | (.error e, s) => (.error (.batch e), s)

/-- Reads the lines from a number on. The gathered envelopes are held last first, and processed when
they are as many as a batch takes. -/
def runFrom (process : Processor σ) (chunk : Nat) :
    Nat → List (Option String) → List Envelope → Summary → σ → Except FeedError Summary × σ
  | _, [], gathered, summary, s =>
    if gathered = [] then (.ok summary, s) else flush process gathered.reverse summary s
  | number, none :: _, _, _, s => (.error (.unreadableLine number), s)
  | number, some line :: lines, gathered, summary, s =>
    let text := Text.trim line
    if text = "" then runFrom process chunk (number + 1) lines gathered summary s
    else
      let summary := summary.addLine
      match Line.read text with
      | .malformed => runFrom process chunk (number + 1) lines gathered summary.addMalformed s
      | .undecodable e =>
        runFrom process chunk (number + 1) lines gathered (summary.addReason e.reason) s
      | .envelope e =>
        if gathered.length + 1 = chunk then
          match flush process (e :: gathered).reverse summary s with
          | (.ok summary, s) =>
            if summary.isComplete then runFrom process chunk (number + 1) lines [] summary s
            else (.ok summary, s)
          | (.error err, s) => (.error err, s)
        else runFrom process chunk (number + 1) lines (e :: gathered) summary s

/-- How many envelopes are gathered for a batch. -/
def chunkSize (limits : Limits) : Nat := max 1 limits.maxBatchSize.toNat

theorem chunkSize_of_pos {limits : Limits} (h : 1 ≤ limits.maxBatchSize.toNat) :
    chunkSize limits = limits.maxBatchSize.toNat := Nat.max_eq_right h

/-- Runs the lines of an input. The buffer for a whole batch comes first. -/
def runLines (memory : Memory) (process : Processor σ) (chunk : Nat) (lines : List (Option String))
    (s : σ) : Except FeedError Summary × σ :=
  match memory.reserve chunk with
  | .error e => (.error (.unreserved e), s)
  | .ok () => runFrom process chunk 1 lines [] .empty s

theorem runLines_of_holds {memory : Memory} {chunk : Nat} (h : memory.Holds chunk)
    (process : Processor σ) (lines : List (Option String)) (s : σ) :
    runLines memory process chunk lines s = runFrom process chunk 1 lines [] .empty s := by
  rw [runLines, Memory.reserve_eq_ok_iff.2 h]

theorem runLines_unreserved {memory : Memory} {chunk : Nat} {e : ReserveError}
    (h : memory.reserve chunk = .error e) (process : Processor σ) (lines : List (Option String))
    (s : σ) : runLines memory process chunk lines s = (.error (.unreserved e), s) := by
  rw [runLines, h]

def run (memory : Memory) (store : Store σ) (settings : Settings) (input : ByteArray) (s : σ) :
    Except FeedError Summary × σ :=
  runLines memory (Batch.process store settings.rules settings.limits) (chunkSize settings.limits)
    (Text.lines input) s

theorem run_unreserved {memory : Memory} {settings : Settings} {e : ReserveError}
    (hmax : 1 ≤ settings.limits.maxBatchSize.toNat)
    (h : memory.reserve settings.limits.maxBatchSize.toNat = .error e) (store : Store σ)
    (input : ByteArray) (s : σ) :
    run memory store settings input s = (.error (.unreserved e), s) := by
  rw [← chunkSize_of_pos hmax] at h
  exact runLines_unreserved h ..

end Feed
end TokenLedger
