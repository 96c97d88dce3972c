import RamLog.Command.Run

/-!
# The program

Arguments, environment, file and streams of a real run, around the functions that decide
everything else.
-/
namespace RamLog

/-- Whether a report has a number; some reports carry it negated. -/
def isNumbered (code number : UInt32) : Bool := code = number || code = 0 - number

def FileFault.ofReport : IO.Error → FileFault
  | .noFileOrDirectory _ _ _ => .noEntry
  | .permissionDenied _ _ _ => .denied
  | .inappropriateType _ code _ => if isNumbered code 21 then .isDirectory else .notDirectory
  | .invalidArgument _ code details =>
    if isNumbered code 36 then .nameTooLong else .other ⟨details, .other⟩
  | .resourceVanished _ details => .other ⟨details, .brokenPipe⟩
  | report => .other ⟨toString report, .other⟩

def fetch (file : Bytes) : IO (Except FileFault Bytes) := do
  try
    let content ← IO.FS.readBinFile (String.ofList (Text.Utf8.lossy file))
    return .ok content.toList
  catch report => return .error (.ofReport report)

def deliver (bytes : Bytes) : IO (Option WriteFault) := do
  try
    let stdout ← IO.getStdout
    stdout.write ⟨bytes.toArray⟩
    stdout.flush
    return none
  catch
    | .resourceVanished _ _ => return some .brokenPipe
    | _ => return some .noSpace

def program (arguments : List String) : IO UInt32 := do
  let reply := Command.read (arguments.map (·.toUTF8.toList))
  let content ← match reply with
    | .run request => fetch request.file
    | _ => pure (.ok [])
  let verbosity := Command.Verbosity.ofSetting (← IO.getEnv "RUST_LOG")
  let outcome := Command.respond reply (fun _ => content) verbosity.shows .unlimited
  for entry in outcome.log do
    IO.eprint (String.ofList entry.written)
  let fault ← deliver outcome.stdout
  let (exit, message) := match reply, fault with
    | .run _, some fault => Command.Failure.report (some (.ofWriteFault fault))
    | .refuse _, _ => (outcome.exit, outcome.message ++ "\n")
    | _, _ => (outcome.exit, outcome.message)
  IO.eprint message
  return UInt32.ofNat exit

end RamLog

def main (arguments : List String) : IO UInt32 := RamLog.program arguments
