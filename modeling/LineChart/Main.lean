import LineChart.Command.Run
import LineChart.Command.Stamp
import Std.Time.DateTime.Timestamp

namespace LineChart.Command

def timeStamp : IO String := do
  let now ← Std.Time.Timestamp.now
  return stamp now.toMillisecondsSinceUnixEpoch.toInt.toNat

def verbosityNamed : String → Option Verbosity
  | "off" => some .off
  | "error" => some (.upTo .error)
  | "warn" => some (.upTo .warn)
  | "info" => some (.upTo .info)
  | "debug" => some (.upTo .debug)
  | "trace" => some (.upTo .trace)
  | _ => none

def systemFault : IO.Error → SystemFault
  | .noFileOrDirectory .. => .noSuchEntry
  | .inappropriateType _ code _ => if code = 21 then .isFolder else .notFolder
  | .invalidArgument .. => .nameTooLong
  | .permissionDenied .. => .other "Permission denied (os error 13)"
  | fault => .other (toString fault)

def asked {α : Type} (act : IO α) : ExceptT SystemFault IO α := do
  match ← act.toBaseIO with
  | .ok a => return a
  | .error fault => throw (systemFault fault)

/-- The services of the system that the program runs on. -/
def services (verbosity : Verbosity) (started : Nat) : Services IO where
  stamp := timeStamp
  microseconds := return ((← IO.monoNanosNow) - started) / 1000
  tell events := do
    for line in verbosity.lines events do
      IO.eprintln ((← timeStamp) ++ " " ++ line)
  readStdin := asked do (← IO.getStdin).readBinToEnd
  writeStdout text := asked do
    let out ← IO.getStdout
    out.putStr text
    out.flush
  find path := asked (discard (IO.FS.realPath path))
  read path := asked (IO.FS.readBinFile path)
  write path text := asked (IO.FS.writeFile path text)

def Ending.take (ending : Ending) : IO UInt32 := do
  IO.print ending.stdout
  for line in ending.stderr do
    IO.eprintln line
  return ending.exitCode.toUInt32

end LineChart.Command

open LineChart.Command in
def main (arguments : List String) : IO UInt32 := do
  let started ← IO.monoNanosNow
  match (Invocation.ofArguments arguments).job with
  | .error ending => ending.take
  | .ok job =>
    let setting := (← IO.getEnv "RUST_LOG").bind verbosityNamed
    let result ← (job.attempt (services (job.verbosity setting) started)).run
    (Ending.ofResult result).take
