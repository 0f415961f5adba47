import GradualJs.CommandLine

/-! Runs a check from the command line. -/

open GradualJs

def readText? (path : String) : IO (Option String) := do
  try
    return some (← IO.FS.readFile path)
  catch _ =>
    return none

def main (words : List String) : IO UInt32 := do
  let paths := match Request.ofWords words with
    | .ok request => request.paths
    | .error _ => []
  let contents ← paths.mapM fun path => do return (path,← readText? path)
  let outcome := runWords words fun path => (Table.ofList contents).get? path |>.join
  IO.print outcome.output
  match outcome.error with
  | some message => IO.eprintln ((if outcome.exitCode = 2 then "error: " else "Error: ") ++ message)
  | none => pure ()
  return outcome.exitCode.toUInt32
