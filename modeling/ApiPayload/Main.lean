import ApiPayload.Cli.Run

open ApiPayload

def reason : IO.Error → String
  | .inappropriateType _ code details | .permissionDenied _ code details =>
    details ++ " (os error " ++ toString code ++ ")"
  | e => toString e

/-- The state of a file, found out by reading it. -/
def fileState (path : String) : IO FileState := do
  try
    return .content (← IO.FS.readBinFile path)
  catch e =>
    match e with
    | .noFileOrDirectory .. => return .absent
    | e => return .unreadable (reason e)

def usage : String :=
  "usage: (unmarshal | marshal | validate) SPEC PAYLOAD --schema NAME [--config FILE]\n" ++
  "         [--no-validate] [--pretty] [--json]\n" ++
  "       models SPEC [--config FILE]\n"

def main (args : List String) : IO UInt32 := do
  match Cli.Command.parse? args with
  | none =>
    (← IO.getStderr).putStr usage
    return 2
  | some command =>
    let states ← command.files.mapM fun path => return (path, ← fileState path)
    let o := Cli.run (fun path => (states.lookup path).getD .absent) command
    (← IO.getStdout).putStr (Cli.unlines o.out)
    (← IO.getStderr).putStr (Cli.unlines o.err)
    return o.code.toUInt32
