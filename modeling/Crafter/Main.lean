import Crafter.CommandLine.Command

/-! The program itself: it reads the script or the lines of a session, and
prints what the command line makes of them. -/
namespace Crafter

def findTarget (path : String) : IO CommandLine.Target := do
  try
    return .file (← IO.FS.readBinFile path).toList
  catch
    | .noFileOrDirectory .. => return .missing
    | .inappropriateType .. => return .directory
    | _ => return .blocked

def breakOff (failure : Failure) : IO UInt32 := do
  (← IO.getStderr).putStr (failure.message ++ "\n")
  return 1

partial def converse (stdin stdout : IO.FS.Stream) (clock : Clock) (s : Session) : IO UInt32 := do
  stdout.putStr s.prompt
  stdout.flush
  let line ← stdin.getLine
  if line.isEmpty then
    stdout.putStr Session.farewell
    return 0
  let line := if line.endsWith "\n" then String.ofList line.toList.dropLast else line
  if Session.Entry.ofLine line = .quit then return 0
  let reply := s.receive clock line
  stdout.putStr (Text.printed reply.lines)
  match reply.failure with
  | some failure => breakOff (CommandLine.callFailure failure)
  | none => converse stdin stdout clock reply.session

end Crafter

open Crafter in
def main (arguments : List String) : IO UInt32 := do
  let stdin ← IO.getStdin
  let stdout ← IO.getStdout
  let clock := Clock.everySecond
  let options := (CommandLine.Options.ofArguments arguments).toOption
  match options, options.bind (·.path?) with
  | some { interactive := true, cap, debug, .. }, none =>
    let session := Session.start (cap.getD 0) debug
    stdout.putStr (Text.printed session.banner)
    converse stdin stdout clock session
  | _, path =>
    let look (path : Option String) : IO CommandLine.Target := match path with
      | some path => findTarget path
      | none => pure .missing
    let found ← look (path.map CommandLine.tidyPath)
    let target ← look path
    let files : CommandLine.Files := { found := fun _ => found, target := fun _ => target }
    let ending := CommandLine.call files "" arguments fun _ => clock
    stdout.putStr ending.stdout
    (← IO.getStderr).putStr ending.stderr
    match ending.exit with
    | .ok code => return code.toUInt32
    | .error failure => breakOff failure
