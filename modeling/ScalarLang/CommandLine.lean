import ScalarLang.Files
import ScalarLang.Invocation
import ScalarLang.Parser.Program

/-! What a run of the program writes. It is a function of what the arguments ask for, and of the
source that was read or of why none could be. -/

namespace ScalarLang

/-- The text of a source that is given in bytes. -/
def decodeSource (bytes : ByteArray) : Except ReadFailure String :=
  match String.fromUTF8? bytes with
  | some source => .ok source
  | none => .error .notText

/-- What a run writes, and its exit code. -/
structure Outcome where
  code : Nat
  output : String
  errors : String
  deriving DecidableEq, Repr

namespace Outcome

def failed (message : String) : Outcome := ⟨1, "", "Error: " ++ message ++ "\n"⟩

def unreadable (input : Option String) (failure : ReadFailure) : Outcome :=
  let what := input.elim "standard input" fun file => "`" ++ file ++ "`"
  failed ("failed to read " ++ what ++ "\n\nCaused by:\n    " ++ failure.cause)

/-- Arguments that cannot be understood. -/
def misused : Outcome := ⟨2, "", "error: unexpected arguments\n"⟩

end Outcome

namespace Options

def shows (options : Options) : Severity → Bool
  | .message => options.showsMessages
  | .warning => options.showsWarnings
  | .error => options.showsErrors

/-- The diagnostics that show, each on lines of its own. -/
def renderReport (options : Options) (report : Report) : String :=
  String.join <| (report.diagnostics.toList.filter fun diagnostic =>
    options.shows diagnostic.severity).map fun diagnostic => diagnostic.render ++ "\n"

end Options

def abortMessage (errorCount : Nat) : String :=
  "aborting due to " ++ toString errorCount ++ (if errorCount = 1 then " error\n" else " errors\n")

namespace Invocation

def tokenListing (source : String) : String :=
  String.join ((tokenize source).map fun token => token.listing ++ "\n")

def check (invocation : Invocation) (options : Options) (source : String) : Outcome :=
  let listing := if invocation.printsTokens then tokenListing source else ""
  let session := parse source
  let shown := options.renderReport session.analysis.report
  match Program.ofSession session with
  | .ok program =>
    ⟨0, listing ++ (if invocation.printsProgram then program.dump ++ "\n" else ""), shown⟩
  | .error errorCount => ⟨1, listing, shown ++ abortMessage errorCount⟩

/-- The level is checked before the source is looked at. -/
def run (invocation : Invocation) (source : Except ReadFailure String) : Outcome :=
  match invocation.options? with
  | none => .failed ("invalid optimization level `" ++ invocation.levelText ++ "`")
  | some options =>
    match source with
    | .error failure => .unreadable invocation.input failure
    | .ok source => invocation.check options source

/-- The source among the files, or the standard input when no file is named. -/
def source (invocation : Invocation) (working : FilePlace) (input : ByteArray) :
    Except ReadFailure String :=
  match invocation.input with
  | some file => (working.read file).bind decodeSource
  | none => decodeSource input

end Invocation

/-- What a run with the arguments writes in a directory, given the standard input. -/
def Outcome.ofRun (args : List String) (working : FilePlace) (input : ByteArray) : Outcome :=
  match Invocation.ofArgs? args with
  | none => .misused
  | some invocation => invocation.run (invocation.source working input)

end ScalarLang
