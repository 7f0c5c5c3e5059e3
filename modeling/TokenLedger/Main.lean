import TokenLedger.Feed

/-! The command line: runs the envelopes of a file or of standard input against an empty ledger and
prints a summary. -/
namespace TokenLedger

def variableNames : List String :=
  ["IX_CONFIG", "IX_INPUT", "IX_ENFORCE_WITHDRAW_BALANCE", "IX_MAX_BATCH_SIZE", "IX_PARALLEL_LANES"]

def readBytes? (path : String) : IO (Option ByteArray) := do
  try return some (← IO.FS.readBinFile path)
  catch _ => return none

def readText? (path : String) : IO (Option String) :=
  return (← readBytes? path).bind String.fromUTF8?

def loadSettings : IO (Except SettingsError Settings) := do
  let values ← variableNames.mapM fun name => return (name, ← IO.getEnv name)
  let lookup := fun name => (values.lookup name).join
  let file ← match lookup "IX_CONFIG" with
    | some path => readText? path
    | none => pure none
  return Settings.load lookup fun _ => file

def Summary.describe (s : Summary) : List String :=
  [s!"lines={s.lines} malformed={s.malformed} batches={s.batches} applied={s.applied} " ++
    s!"unapplied={s.unapplied} rejected={s.reasons.length} halted_lanes={s.haltedLanes}"] ++
    (Reason.tally s.reasons).map fun rc => s!"{rc.1.code}: {rc.2}"

def readInput : Option String → IO (Except String ByteArray)
  | none => return .ok (← (← IO.getStdin).readBinToEnd)
  | some path => return match ← readBytes? path with
    | some bytes => .ok bytes
    | none => .error ("opening input " ++ path)

def fail (message : String) : IO UInt32 := do
  IO.eprintln ("Error: " ++ message)
  return 1

def runMain : IO UInt32 := do
  match ← loadSettings with
  | .error e => fail e.message
  | .ok settings =>
    match ← readInput settings.input with
    | .error message => fail message
    | .ok bytes =>
      match (Feed.run .unlimited .ledger settings bytes .empty).1 with
      | .error (.unreserved e) =>
        IO.eprintln e.message
        return e.exitCode
      | .error e => fail e.message
      | .ok s =>
        s.describe.forM IO.println
        if s.isComplete then return 0
        else fail (s!"{s.haltedLanes} lane(s) halted on ledger failure; " ++
          s!"{s.pending.length} operation(s) pending")

end TokenLedger

def main : IO UInt32 := TokenLedger.runMain
