import ScalarLang.CommandLine

/-! The program: reads a source file or standard input, and writes what the run says. -/

namespace ScalarLang

/-- The number of an error is negative where the file is opened and positive where it is read. -/
def isNumbered (number : UInt32) (n : UInt32) : Bool := number = n || number = 0 - n

def failureOf (error : IO.Error) : ReadFailure :=
  let other := ReadFailure.other (toString error)
  match error with
  | .noFileOrDirectory _ _ _ => .missing
  | .inappropriateType _ number _ =>
    if isNumbered number 20 then .notDirectory
    else if isNumbered number 21 then .isDirectory
    else other
  | .invalidArgument _ number _ => if isNumbered number 36 then .nameTooLong else other
  | _ => other

def readFile (file : String) : IO (Except ReadFailure String) := do
  try
    return decodeSource (← IO.FS.readBinFile file)
  catch error => return .error (failureOf error)

def readSource (input : Option String) : IO (Except ReadFailure String) := do
  match input with
  | some file => readFile file
  | none => return decodeSource (← (← IO.getStdin).readBinToEnd)

def runInvocation (invocation : Invocation) : IO Outcome := do
  return invocation.run (← readSource invocation.input)

def runCommandLine (args : List String) : IO UInt32 := do
  let outcome ← match Invocation.ofArgs? args with
    | none => pure Outcome.misused
    | some invocation => runInvocation invocation
  (← IO.getStdout).putStr outcome.output
  (← IO.getStderr).putStr outcome.errors
  return outcome.code.toUInt32

end ScalarLang

def main (args : List String) : IO UInt32 := ScalarLang.runCommandLine args
