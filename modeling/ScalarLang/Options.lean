/-! Settings of a run: which diagnostics show, and the optimization level for later phases. -/

namespace ScalarLang

inductive OptimizationLevel where
  | off | basic | more | most
  | size
  | smallestSize
  deriving DecidableEq, Repr

namespace OptimizationLevel

def ofFlag? : String → Option OptimizationLevel
  | "0" => some off
  | "1" => some basic
  | "2" => some more
  | "3" => some most
  | "s" => some size
  | "z" => some smallestSize
  | _ => none

def name : OptimizationLevel → String
  | off => "O0"
  | basic => "O1"
  | more => "O2"
  | most => "O3"
  | size => "Os"
  | smallestSize => "Oz"

end OptimizationLevel

structure Options where
  level : OptimizationLevel := .off
  showsMessages : Bool := true
  showsWarnings : Bool := true
  showsErrors : Bool := true
  deriving DecidableEq, Repr

end ScalarLang
