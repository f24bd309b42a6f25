import Stencil.CommandLine.Run

/-! The command: read the source, write the output, return the exit code. -/

namespace Stencil.CommandLine

/-- A code with the sign of a negative number stands for the code without it. -/
def ReadFailure.ofError : IO.Error → ReadFailure
  | .noFileOrDirectory _ code reason
  | .permissionDenied _ code reason
  | .inappropriateType _ code reason
  | .invalidArgument _ code reason
  | .resourceExhausted _ code reason
  | .noSuchThing _ code reason
  | .otherError code reason
  | .resourceBusy code reason
  | .resourceVanished code reason
  | .unsupportedOperation code reason
  | .hardwareFault code reason => .ofCode code.toInt32.toInt.natAbs reason
  | error => .system (toString error) 5

partial def readStream (stream : IO.FS.Stream) (content : ByteArray) : IO ByteArray := do
  let chunk ← stream.read 65536
  if chunk.isEmpty then return content else readStream stream (content ++ chunk)

def Source.load (source : Source) : IO (Except ReadFailure ByteArray) := do
  try
    match source with
    | .standardInput => return .ok (← readStream (← IO.getStdin) .empty)
    | .file path => return .ok (← IO.FS.readBinFile path)
  catch error => return .error (.ofError error)

end Stencil.CommandLine

open Stencil.CommandLine in
def main (arguments : List String) : IO UInt32 := do
  let content ←
    match parse arguments with
    | .ok (.render invocation) => invocation.source.load
    | _ => pure (.ok .empty)
  let exit := run arguments fun _ => content
  let stdout ← IO.getStdout
  stdout.putStr exit.stdout
  stdout.flush
  (← IO.getStderr).putStr exit.stderr
  return exit.code.toUInt32
