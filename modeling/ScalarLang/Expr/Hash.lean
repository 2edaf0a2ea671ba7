import ScalarLang.Expr.Tree

/-! Hashes of expression trees that agree with their equality. How a leaf is hashed is a choice;
definitions, scopes and calls hash to zero, and so does a missing child. -/

namespace ScalarLang

def hashCombine (seed value : UInt64) : UInt64 :=
  let low := seed <<< (6 : UInt64)
  let high := seed >>> (2 : UInt64)
  seed ^^^ (value + 0x9e3779b97f4a7c15 + low + high)

structure LeafHash where
  word : UInt64 → UInt64
  text : String → UInt64
  flag : Bool → UInt64
  slot : Slot → UInt64
  unaryOp : UnaryOp → UInt64
  binaryOp : BinaryOp → UInt64

namespace LeafHash

def mix (word : UInt64) : UInt64 :=
  let word := (word ^^^ word >>> (30 : UInt64)) * 0xbf58476d1ce4e5b9
  let word := (word ^^^ word >>> (27 : UInt64)) * 0x94d049bb133111eb
  word ^^^ word >>> (31 : UInt64)

def mixText (text : String) : UInt64 :=
  text.toList.foldl (fun seed c => mix (seed + c.toNat.toUInt64 + 1)) 0

/-- Every leaf is mixed on its own, so that small numbers spread over all bits. -/
def mixing : LeafHash where
  word := fun word => mix (word + 0x9e3779b97f4a7c15)
  text := mixText
  flag := fun flag => mix (if flag then 3 else 5)
  slot
    | .global => mix 7
    | .local index => mix (index.toUInt64 + 8)
  unaryOp := fun op => mixText op.symbol
  binaryOp := fun op => mixText op.symbol

end LeafHash

namespace ExprKind

variable {Child : Type}

/-- Tells the kinds apart in a hash. -/
def tag : ExprKind Child → UInt64
  | error => 1
  | literal _ => 2
  | unary _ _ => 3
  | binary _ _ _ => 4
  | convert _ => 5
  | varDecl _ _ _ => 6
  | varRead _ _ => 7
  | varWrite _ _ _ => 8
  | fnReturn _ => 9
  | fnDef _ _ _ _ => 10
  | fnCall _ _ => 11
  | scope _ => 12
  | condition _ _ _ => 13

def leafHashes (leaf : LeafHash) : ExprKind Child → List UInt64
  | literal payload => [leaf.word payload]
  | unary op _ => [leaf.unaryOp op]
  | binary _ op _ => [leaf.binaryOp op]
  | varDecl name _ isGlobal => [leaf.text name, leaf.flag isGlobal]
  | varRead name slot => [leaf.text name, leaf.slot slot]
  | varWrite name _ slot => [leaf.text name, leaf.slot slot]
  | _ => []

/-- A zero for a child that may be left out and is. -/
def missingHashes : ExprKind Child → List UInt64
  | varDecl _ none _ | fnReturn none | condition _ _ none => [0]
  | _ => []

end ExprKind

namespace Tree

def hash (leaf : LeafHash) : Tree → UInt64 :=
  fold fun label _ children =>
    if label.isComparable then
      (label.leafHashes leaf ++ children ++ label.missingHashes).foldl hashCombine label.tag
    else 0

end Tree

end ScalarLang
