import TokenLedger.Batch
import TokenLedger.Json.Record
import TokenLedger.Text.Lines

/-! Settings of a run: defaults, then a file, then single values of the environment. -/
namespace TokenLedger

structure Settings where
  /-- The file of envelopes; standard input if none. -/
  input : Option String
  rules : Rules
  limits : Limits
  deriving DecidableEq

inductive SettingsError
  | unreadable (path : String)
  | unparsable (path : String)
  | nonPositiveBatchSize
  deriving DecidableEq

def SettingsError.message : SettingsError → String
  | unreadable path => "reading config file " ++ path
  | unparsable path => "parsing config file " ++ path
  | nonPositiveBatchSize => "sequencer.max_batch_size must be positive"

namespace Rules

open Json

def default : Rules := ⟨false⟩

def decoder : Decoder Rules := fun t => do
  let (cover, ()) ←
    (Fields.defaulted "enforce_withdraw_balance" Decoder.flag false .done).decode t
  return ⟨cover⟩

def toValue (r : Rules) : Value := .object [("enforce_withdraw_balance", .bool r.coverWithdrawals)]

end Rules

namespace Limits

open Json

def default : Limits := ⟨10000, true⟩

def decoder : Decoder Limits := fun t => do
  let (maxBatchSize, parallelLanes, ()) ←
    (Fields.defaulted "max_batch_size" Decoder.word64 default.maxBatchSize <|
      Fields.defaulted "parallel_lanes" Decoder.flag default.parallelLanes .done).decode t
  return ⟨maxBatchSize, parallelLanes⟩

def toValue (l : Limits) : Value :=
  .object [("max_batch_size", .natural l.maxBatchSize.toNat),
    ("parallel_lanes", .bool l.parallelLanes)]

end Limits

namespace Settings

open Json

def default : Settings := ⟨none, .default, .default⟩

def decoder : Decoder Settings := fun t => do
  let (input, rules, limits, ()) ←
    (Fields.defaulted "input" Decoder.text.optional none <|
      Fields.defaulted "validator" Rules.decoder .default <|
      Fields.defaulted "sequencer" Limits.decoder .default .done).decode t
  return ⟨input, rules, limits⟩

def flagOfText? (raw : String) : Option Bool :=
  if raw = "true" then some true
  else if raw = "false" then some false
  else none

/-- A variable without the white space around it, if it reads as what is wanted. -/
def readVariable {α : Type} (lookup : String → Option String) (read? : String → Option α)
    (name : String) : Option α := (lookup name).bind fun raw => read? (Text.trim raw)

def ofFile (readFile : String → Option String) (path : String) : Except SettingsError Settings :=
  match readFile path with
  | none => .error (.unreadable path)
  | some text =>
    match (Json.read text).decode decoder with
    | .ok s => .ok s
    | .error _ => .error (.unparsable path)

def override (lookup : String → Option String) (s : Settings) : Settings where
  input := lookup "IX_INPUT" <|> s.input
  rules := ⟨(readVariable lookup flagOfText? "IX_ENFORCE_WITHDRAW_BALANCE").getD
    s.rules.coverWithdrawals⟩
  limits := ⟨(readVariable lookup wordOfText? "IX_MAX_BATCH_SIZE").getD s.limits.maxBatchSize,
    (readVariable lookup flagOfText? "IX_PARALLEL_LANES").getD s.limits.parallelLanes⟩

def load (lookup : String → Option String) (readFile : String → Option String) :
    Except SettingsError Settings := do
  let base ← match lookup "IX_CONFIG" with
    | some path => ofFile readFile path
    | none => pure default
  let s := override lookup base
  if s.limits.maxBatchSize = 0 then throw .nonPositiveBatchSize else return s

end Settings
end TokenLedger
