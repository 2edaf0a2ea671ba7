import ScalarLang.Parser.Statement

/-! The grammar of the language, level by level up to the nesting limit. -/

namespace ScalarLang

namespace Grammar

/-- The grammar with as many levels below it. -/
def ofLevels : Nat → Grammar
  | 0 => refused
  | levels + 1 =>
    let inner := ofLevels levels
    deepen
      { typename := TypeName.parse inner.typename
        binary := Expression.binary inner
        primary := Expression.primary inner
        statement := Statement.parse inner
        condition := Statement.condition inner }

/-- The grammar at a nesting depth. -/
def atDepth (depth : Nat) : Grammar := ofLevels (nestingLimit - depth)

end Grammar

end ScalarLang
