import ScalarLang.Options

/-! Command-line arguments and what they ask for. -/

namespace ScalarLang

/-- What the arguments ask for. The source is standard input when no file is named. -/
structure Invocation where
  input : Option String
  hidesErrors : Bool
  hidesWarnings : Bool
  hidesMessages : Bool
  level : Option String
  printsProgram : Bool
  printsTokens : Bool
  deriving DecidableEq, Repr

namespace Invocation

def plain : Invocation := ⟨none, false, false, false, none, false, false⟩

/-- Sets a flag, which can be given once. -/
def hideErrors? (invocation : Invocation) : Option Invocation :=
  if invocation.hidesErrors then none else some { invocation with hidesErrors := true }

def hideWarnings? (invocation : Invocation) : Option Invocation :=
  if invocation.hidesWarnings then none else some { invocation with hidesWarnings := true }

def hideMessages? (invocation : Invocation) : Option Invocation :=
  if invocation.hidesMessages then none else some { invocation with hidesMessages := true }

def printProgram? (invocation : Invocation) : Option Invocation :=
  if invocation.printsProgram then none else some { invocation with printsProgram := true }

def printTokens? (invocation : Invocation) : Option Invocation :=
  if invocation.printsTokens then none else some { invocation with printsTokens := true }

def setLevel? (invocation : Invocation) (level : String) : Option Invocation :=
  if invocation.level.isSome then none else some { invocation with level := some level }

def setInput? (invocation : Invocation) (file : String) : Option Invocation :=
  if invocation.input.isSome then none else some { invocation with input := some file }

/-- Reads the letters after a dash. A level takes the rest of them, or else waits for the next
argument. -/
def readLetters? : List Char → Invocation → Option (Invocation × Bool)
  | [], invocation => some (invocation, false)
  | 'E' :: rest, invocation => invocation.hideErrors?.bind (readLetters? rest)
  | 'W' :: rest, invocation => invocation.hideWarnings?.bind (readLetters? rest)
  | 'M' :: rest, invocation => invocation.hideMessages?.bind (readLetters? rest)
  | ['O'], invocation => some (invocation, true)
  | 'O' :: '=' :: rest, invocation =>
    (invocation.setLevel? (String.ofList rest)).map fun invocation => (invocation, false)
  | 'O' :: rest, invocation =>
    (invocation.setLevel? (String.ofList rest)).map fun invocation => (invocation, false)
  | _, _ => none

def isFlag (arg : String) : Bool :=
  match arg.toList with
  | '-' :: _ :: _ => true
  | _ => false

/-- Arguments after two dashes are file names. -/
def readFiles? : List String → Invocation → Option Invocation
  | [], invocation => some invocation
  | file :: rest, invocation => (invocation.setInput? file).bind (readFiles? rest)

def readArgs? : List String → Bool → Invocation → Option Invocation
  | [], waits, invocation => if waits then none else some invocation
  | arg :: rest, true, invocation =>
    if isFlag arg then none else (invocation.setLevel? arg).bind (readArgs? rest false)
  | "--" :: rest, false, invocation => readFiles? rest invocation
  | "--print-ast" :: rest, false, invocation => invocation.printProgram?.bind (readArgs? rest false)
  | "--print-tokens" :: rest, false, invocation =>
    invocation.printTokens?.bind (readArgs? rest false)
  | arg :: rest, false, invocation =>
    if isFlag arg then
      (readLetters? (arg.toList.drop 1) invocation).bind fun read => readArgs? rest read.2 read.1
    else (invocation.setInput? arg).bind (readArgs? rest false)

/-- What the arguments ask for, if they can be understood. -/
def ofArgs? (args : List String) : Option Invocation := readArgs? args false plain

def levelText (invocation : Invocation) : String := invocation.level.getD "0"

def options? (invocation : Invocation) : Option Options :=
  (OptimizationLevel.ofFlag? invocation.levelText).map fun level =>
    { level
      showsMessages := !invocation.hidesMessages
      showsWarnings := !invocation.hidesWarnings
      showsErrors := !invocation.hidesErrors }

end Invocation

end ScalarLang
