import ScalarLang.Expr.Arena

/-! Expressions as s-expressions: `var x: i64 = 1 + 2 * 3;` outside of functions shows as
`(global x (+ 1 (* 2 3)))`. Locals show their slot, as in `a@0`, and conversions their type. -/

namespace ScalarLang

def Slot.mark : Slot → String
  | .global => ""
  | .local index => "@" ++ toString index

/-- An atom, or the head of a list. -/
inductive Rendering where
  | atom (text : String)
  | list (head : String)

namespace Rendering

def render (rendering : Rendering) (items : List String) : String :=
  match rendering with
  | atom text => text
  | list head => "(" ++ " ".intercalate (head :: items) ++ ")"

end Rendering

namespace ExprKind

variable {Child : Type}

/-- Literals of a type that is no scalar show their payload. -/
def literalText (payload : Payload) : Ty → String
  | .scalar scalar _ => Literal.write payload scalar
  | _ => toString payload.toNat

def rendering (functionName : ExprId → String) (ty : Ty) : ExprKind Child → Rendering
  | error => .atom "<error>"
  | literal payload => .atom (literalText payload ty)
  | unary op _ => .list op.symbol
  | binary _ op _ => .list op.symbol
  | convert _ => .list ("as " ++ ty.name)
  | varDecl name _ isGlobal => .list ((if isGlobal then "global " else "var ") ++ name)
  | varRead name slot => .atom (name ++ slot.mark)
  | varWrite name _ slot => .list ("= " ++ name ++ slot.mark)
  | fnReturn _ => .list "return"
  | fnDef name params _ _ => .list ("fn " ++ name ++ " (" ++ " ".intercalate params ++ ")")
  | fnCall callee _ => .list ("call " ++ functionName callee)
  | scope _ => .list "scope"
  | condition _ _ _ => .list "if"

end ExprKind

namespace Tree

def dump (functionName : ExprId → String) : Tree → String :=
  fold fun label ty items => (label.rendering functionName ty).render items

end Tree

namespace Arena

def dump (arena : Arena) (id : ExprId) : String := (arena.tree id).dump arena.functionName

/-- One expression a line. -/
def dumpProgram (arena : Arena) (program : List ExprId) : String :=
  "\n".intercalate (program.map arena.dump)

end Arena

end ScalarLang
