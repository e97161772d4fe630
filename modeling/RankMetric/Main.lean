import RankMetric.CommandLine.Response
import RankMetric.Timestamp
import Std.Time.DateTime.Timestamp

/-!
# The program

The outer layer: it reads the files that a command names, the name by which the program was called
and the clock, and writes the answer.
-/

namespace RankMetric.Program

/-- The number of a failure, which some calls of the system give with a minus sign. -/
def failureNumber (code : UInt32) : Nat :=
  if code < 0x80000000 then code.toNat else (-code).toNat

/-- What the operating system says of a failure, with its number. -/
def systemText (details : String) (code : UInt32) : Text :=
  (details ++ " (os error " ++ toString (failureNumber code) ++ ")").toList

/-- The failure that an error of the system stands for. -/
def readFailure : IO.Error → ReadFailure
  | .noFileOrDirectory _ _ _ => .noSuchFile
  | .inappropriateType _ code details =>
    match failureNumber code with
    | 20 => .notDirectory
    | 21 => .isDirectory
    | _ => .other (systemText details code)
  | .permissionDenied _ code details => .other (systemText details code)
  | .resourceExhausted _ code details => .other (systemText details code)
  | .invalidArgument _ code details =>
    match failureNumber code with
    | 36 => .nameTooLong
    | _ => .other (systemText details code)
  | .illegalOperation code details => .other (systemText details code)
  | .hardwareFault code details => .other (systemText details code)
  | .otherError code details => .other (systemText details code)
  | e => .other (toString e).toList

/-- Read the text of a file. -/
def readText (path : Text) : IO (Except ReadFailure Text) := do
  try
    let bytes ← IO.FS.readBinFile (String.ofList path)
    match String.fromUTF8? bytes with
    | some s => return .ok s.toList
    | none => return .error .notText
  catch e => return .error (readFailure e)

/-- Read the files that a call names. -/
def readAll (i : Invocation) : IO TextReader := do
  let paths :=
    match i with
    | .run _ c => c.paths
    | _ => []
  let texts ← paths.mapM fun p ↦ return (p, ← readText p)
  return fun p ↦ (texts.lookup p).getD (.error .noSuchFile)

/-- The name by which the program was called, as the system keeps it. -/
def calledBy : IO (Option Text) := do
  match ← readText "/proc/self/cmdline".toList with
  | .ok s => return some (s.takeWhile (· ≠ '\x00'))
  | .error _ => return none

/-- Answer a call. -/
def answer (args : List String) : IO UInt32 := do
  let call := Invocation.ofArguments (args.map String.toList)
  let read ← readAll call
  let now ← Std.Time.Timestamp.now
  let time : TimeLibrary.civil.DateTime :=
    ClockTime.ofInstant now.toSecondsSinceUnixEpoch.val 0
  let r := call.respond read (← calledBy) time
  IO.print (String.ofList r.stdout)
  IO.eprint (String.ofList r.stderr)
  return r.code.toUInt32

end RankMetric.Program

/-- The program. -/
def main (args : List String) : IO UInt32 :=
  RankMetric.Program.answer args
