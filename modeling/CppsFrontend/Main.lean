import CppsFrontend.Command.Program

/-!
# Input and output of the program
-/

set_option autoImplicit false

namespace CppsFrontend

/-- The cause of a failure to read or write a file, with the number that the operating
system gives it where it has one. -/
def FileError.ofSystem : IO.Error → FileError
  | .noFileOrDirectory _ _ _ => .noSuchFile
  | .inappropriateType _ 20 _ => .notDirectory
  | .inappropriateType _ 21 _ => .isDirectory
  | .inappropriateType _ code details | .permissionDenied _ code details
  | .resourceExhausted _ code details | .invalidArgument _ code details
  | .alreadyExists _ code details | .resourceBusy code details
  | .hardwareFault code details | .otherError code details =>
      .other (details ++ " (os error " ++ toString code ++ ")")
  | error => .other (toString error)

def systemFiles : FileAccess IO where
  read path := do
    try
      let bytes ← IO.FS.withFile path .read fun file => file.readBinToEnd
      return .ok bytes.toList
    catch error => return .error (.ofSystem error)
  write path bytes := do
    try
      IO.FS.writeBinFile path bytes.toByteArray
      return .ok ()
    catch error => return .error (.ofSystem error)

end CppsFrontend

def main (arguments : List String) : IO UInt32 := do
  let err ← IO.getStderr
  let run ← CppsFrontend.program CppsFrontend.systemFiles (← err.isTty) arguments (.empty none)
  let out ← IO.getStdout
  out.write run.out.bytes
  out.flush
  err.putStr run.err
  return run.status.toUInt32
