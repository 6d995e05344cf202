import RegistryKeeper.CommandLine.Start
import RegistryKeeper.Time.Timestamp
import Std.Time

namespace RegistryKeeper

def epochSeconds : Int := Calendar.dayNumber 1970 1 1 * 86400

def readClock : IO Instant := do
  let t ← Std.Time.Timestamp.now
  let nanos := t.toNanosecondsSinceUnixEpoch.toInt
  return ⟨epochSeconds + nanos / nanosPerSecond, (nanos % nanosPerSecond).toNat⟩

def readEnvironment : IO (String → Option String) := do
  let names := "RUST_LOG" :: Argument.all.filterMap Argument.environmentName?
  let values ← names.mapM fun name => do return (name, ← IO.getEnv name)
  return fun name => (Table.lookup name values).bind id

def printAnnouncement (o : Options) (a : Announcement) : IO Unit := do
  let time := (← readClock).microsText
  if o.logJson then IO.println (a.json.withField "timestamp" (.str time)).text
  else IO.println (time ++ "  " ++ a.text)

end RegistryKeeper

open RegistryKeeper in
def main (arguments : List String) : IO UInt32 := do
  let environment ← readEnvironment
  let launch := Launch.of arguments environment
  IO.print (launch.output environment)
  match launch with
  | .announced o (some a) => printAnnouncement o a
  | _ => pure ()
  match launch.report with
  | some line => IO.eprintln line
  | none => pure ()
  return launch.exitCode.toUInt32
