import CargoEvents.Calendar.Rfc3339
import CargoEvents.Tracking.Feed

/-! # The command

Rehearses the tracking service on a peer that accepts everything. The settings are the
environment's, the argument is the instant of the deliveries, and standard input is the
feed. Messages go to standard output; errors, and the report of a failure, to standard error.
-/
namespace CargoEvents.CommandLine
open Tracking

def usage : String := "usage: cargo-events INSTANT < FEED"

def environment : IO Settings := do
  let found ← TrackingConfig.settingNames.mapM fun name => return (name, ← IO.getEnv name)
  return fun name => (found.lookup name).join

partial def linesOf (input : IO.FS.Stream) (earlier : Array String) : IO (List String) := do
  let line ← input.getLine
  if line.isEmpty then return earlier.toList else linesOf input (earlier.push line)

def rehearse (now : Calendar.Instant) : IO UInt32 := do
  match Feed.read (← linesOf (← IO.getStdin) #[]) with
  | .error line => do
    IO.eprintln s!"not a delivery: {line}"
    return 2
  | .ok deliveries => do
    let (result, service) := Feed.run (← environment) now deliveries
    service.messages.forM fun message => IO.println message
    service.errors.forM fun e => IO.eprintln e.message
    match result with
    | .ok _ => return 0
    | .error failure => do
      IO.eprint failure.report
      return 1

def run (args : List String) : IO UInt32 := do
  match args.mapM Calendar.Rfc3339.read with
  | some [now] => rehearse now
  | _ => do
    IO.eprintln usage
    return 2

end CargoEvents.CommandLine

def main (args : List String) : IO UInt32 := CargoEvents.CommandLine.run args
