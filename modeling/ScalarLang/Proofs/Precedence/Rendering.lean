import ScalarLang.Token.Basic
import ScalarLang.Token.Connective

/-! Integer expressions and how they are written with as few parentheses as possible. A left operand
is enclosed if it ranks looser than its operator, a right one also if it ranks the same. -/

namespace ScalarLang

namespace BinaryOp

/-- The operators that give an integer for integers. -/
def isArithmetic (op : BinaryOp) : Bool := !op.isComparison && !op.isLogic

def tokenKind : BinaryOp → TokenKind
  | sum => .plus
  | sub => .dash
  | mul => .star
  | div => .slash
  | mod => .percent
  | bitAnd => .ampersand
  | bitOr => .pipe
  | bitXor => .caret
  | leftShift => .leftShift
  | rightShift => .rightShift
  | boolAnd => .and
  | boolOr => .or
  | less => .less
  | lessEqual => .lessEquals
  | greater => .greater
  | greaterEqual => .greaterEquals
  | equal => .equals
  | notEqual => .notEquals

theorem connective?_tokenKind (op : BinaryOp) : op.tokenKind.connective? = some (.operation op) := by
  cases op <;> rfl

theorem tokenKind_follows (op : BinaryOp) :
    op.tokenKind ≠ .openParen ∧ op.tokenKind.trailingOp? = none := by
  cases op <;> exact ⟨nofun, rfl⟩

theorem rank_pos (op : BinaryOp) : 3 ≤ op.rank := by
  cases op <;> decide

theorem rank_lt_terminatorRank (op : BinaryOp) : op.rank < TokenKind.terminatorRank := by
  cases op <;> decide

/-- Arithmetic ranks end before those of logic. -/
theorem rank_le_of_isArithmetic {op : BinaryOp} (arithmetic : op.isArithmetic = true) :
    op.rank ≤ 10 := by
  cases op with
  | boolAnd | boolOr => cases arithmetic
  | _ => decide

end BinaryOp

structure Lexeme where
  kind : TokenKind
  text : String
  deriving DecidableEq, Repr

def Token.written (token : Token) : Lexeme := ⟨token.kind, token.lexeme⟩

structure ArithmeticOp where
  op : BinaryOp
  isArithmetic : op.isArithmetic = true

namespace ArithmeticOp

def rank (operator : ArithmeticOp) : Nat := operator.op.rank

def written (operator : ArithmeticOp) : Lexeme := ⟨operator.op.tokenKind, operator.op.symbol⟩

theorem rank_pos (operator : ArithmeticOp) : 3 ≤ operator.rank := operator.op.rank_pos

end ArithmeticOp

inductive Arithmetic where
  | read (name : String)
  | operate (lhs : Arithmetic) (operator : ArithmeticOp) (rhs : Arithmetic)

namespace Arithmetic

/-- A variable ranks tighter than every operator. -/
def rank : Arithmetic → Nat
  | read _ => 0
  | operate _ operator _ => operator.rank

def names : Arithmetic → List String
  | read name => [name]
  | operate lhs _ rhs => lhs.names ++ rhs.names

def enclosed (text : List Lexeme) : List Lexeme :=
  ⟨.openParen, "("⟩ :: text ++ [⟨.closeParen, ")"⟩]

/-- Whether an operand on the left or on the right of an operator needs parentheses. -/
def enclosesLeft (lhs : Arithmetic) (operator : ArithmeticOp) : Bool := operator.rank < lhs.rank
def enclosesRight (operator : ArithmeticOp) (rhs : Arithmetic) : Bool := operator.rank ≤ rhs.rank

def render : Arithmetic → List Lexeme
  | read name => [⟨.identifier, name⟩]
  | operate lhs operator rhs =>
    (if lhs.enclosesLeft operator then enclosed lhs.render else lhs.render) ++ operator.written ::
      if enclosesRight operator rhs then enclosed rhs.render else rhs.render

/-- The nesting of the text below its own level. Parentheses go one level deeper, and so does the
operand on the right of an operator. -/
def nesting : Arithmetic → Nat
  | read _ => 0
  | operate lhs operator rhs =>
    max (if lhs.enclosesLeft operator then lhs.nesting + 1 else lhs.nesting)
      (if enclosesRight operator rhs then rhs.nesting + 2 else rhs.nesting + 1)

/-- Whether the text ends with a parenthesis rather than with a name. -/
def endsEnclosed : Arithmetic → Bool
  | read _ => false
  | operate _ operator rhs => enclosesRight operator rhs || rhs.endsEnclosed

/-- Grouped by rank, and to the left among equal ranks: nothing is enclosed. -/
def Grouped : Arithmetic → Prop
  | read _ => True
  | operate lhs operator rhs =>
    lhs.Grouped ∧ lhs.rank ≤ operator.rank ∧ rhs.Grouped ∧ rhs.rank < operator.rank

/-- The tree for a text that goes on with one more operator and name. The operator takes as its left
operand what binds at least as tight at the end of the text. -/
def extend : Arithmetic → ArithmeticOp × String → Arithmetic
  | read first, (operator, name) => operate (read first) operator (read name)
  | operate lhs other rhs, (operator, name) =>
    if operator.rank < other.rank then operate lhs other (rhs.extend (operator, name))
    else operate (operate lhs other rhs) operator (read name)

/-- The tree of a flat chain of operators. -/
def ofChain (first : String) (links : List (ArithmeticOp × String)) : Arithmetic :=
  links.foldl extend (read first)

def chain (first : String) (links : List (ArithmeticOp × String)) : List Lexeme :=
  ⟨.identifier, first⟩ :: links.flatMap fun link => [link.1.written, ⟨.identifier, link.2⟩]

variable {tree : Arithmetic}

theorem extend_of_lt {lhs rhs : Arithmetic} {other : ArithmeticOp} {link : ArithmeticOp × String}
    (tighter : link.1.rank < other.rank) :
    (operate lhs other rhs).extend link = operate lhs other (rhs.extend link) :=
  if_pos tighter

theorem extend_of_le {lhs rhs : Arithmetic} {other : ArithmeticOp} {link : ArithmeticOp × String}
    (looser : other.rank ≤ link.1.rank) :
    (operate lhs other rhs).extend link =
      operate (operate lhs other rhs) link.1 (read link.2) :=
  if_neg (Nat.not_lt_of_le looser)

theorem rank_lt_terminatorRank (tree : Arithmetic) : tree.rank < TokenKind.terminatorRank := by
  cases tree with
  | read => exact Nat.succ_pos _
  | operate _ operator _ => exact operator.op.rank_lt_terminatorRank

/-- A link either goes into the tree or takes it as its operand. -/
theorem rank_extend_le (tree : Arithmetic) (link : ArithmeticOp × String) :
    (tree.extend link).rank ≤ max tree.rank link.1.rank := by
  cases tree with
  | read first => exact Nat.le_max_right _ _
  | operate lhs other rhs =>
    rcases Nat.lt_or_ge link.1.rank other.rank with tighter | looser
    · rw [extend_of_lt tighter]
      exact Nat.le_max_left _ _
    · rw [extend_of_le looser]
      exact Nat.le_max_right _ _

theorem Grouped.append {operator : ArithmeticOp} (grouped : tree.Grouped)
    (rank : tree.rank ≤ operator.rank) (name : String) :
    (operate tree operator (read name)).Grouped :=
  ⟨grouped, rank, trivial, Nat.lt_of_lt_of_le (Nat.succ_pos 2) operator.rank_pos⟩

theorem Grouped.extend (grouped : tree.Grouped) (link : ArithmeticOp × String) :
    (tree.extend link).Grouped := by
  induction tree with
  | read first =>
    have alone : (read first).Grouped := trivial
    exact alone.append (Nat.zero_le _) _
  | operate lhs other rhs _ ih =>
    rcases Nat.lt_or_ge link.1.rank other.rank with tighter | looser
    · rw [extend_of_lt tighter]
      obtain ⟨left, leftRank, right, rightRank⟩ := grouped
      have rank := rank_extend_le rhs link
      exact ⟨left, leftRank, ih right, by omega⟩
    · rw [extend_of_le looser]
      exact grouped.append looser _

theorem Grouped.render_operate {lhs rhs : Arithmetic} {operator : ArithmeticOp}
    (grouped : (operate lhs operator rhs).Grouped) :
    (operate lhs operator rhs).render = lhs.render ++ operator.written :: rhs.render := by
  obtain ⟨-, left, -, right⟩ := grouped
  have noLeft : ¬(lhs.enclosesLeft operator = true) := by simpa [enclosesLeft] using left
  have noRight : ¬(enclosesRight operator rhs = true) := by simpa [enclosesRight] using right
  rw [render, if_neg noLeft, if_neg noRight]

theorem Grouped.render_extend (grouped : tree.Grouped) (link : ArithmeticOp × String) :
    (tree.extend link).render = tree.render ++ [link.1.written, ⟨.identifier, link.2⟩] := by
  have extended := grouped.extend link
  induction tree with
  | read first => exact extended.render_operate
  | operate lhs other rhs _ ih =>
    rcases Nat.lt_or_ge link.1.rank other.rank with tighter | looser
    · rw [extend_of_lt tighter] at extended ⊢
      have inside := ih grouped.2.2.1 extended.2.2.1
      rw [extended.render_operate, grouped.render_operate, inside, List.append_assoc,
        List.cons_append]
    · rw [extend_of_le looser] at extended ⊢
      rw [extended.render_operate]
      rfl

theorem ofChain_grouped (first : String) (links : List (ArithmeticOp × String)) :
    (ofChain first links).Grouped := by
  unfold ofChain
  have start : (read first).Grouped := trivial
  generalize read first = tree at start
  induction links generalizing tree with
  | nil => exact start
  | cons link rest ih => exact ih _ (start.extend link)

/-- Nothing is enclosed, so the text ends with a name. -/
theorem Grouped.endsEnclosed_eq (grouped : tree.Grouped) : tree.endsEnclosed = false := by
  induction tree with
  | read => rfl
  | operate lhs operator rhs _ ih =>
    obtain ⟨-, -, right, rightRank⟩ := grouped
    have noRight : enclosesRight operator rhs = false := by simpa [enclosesRight] using rightRank
    rw [endsEnclosed, noRight, ih right, Bool.false_or]

/-- The tree of a chain is written as the chain. -/
theorem render_ofChain (first : String) (links : List (ArithmeticOp × String)) :
    (ofChain first links).render = chain first links := by
  unfold ofChain
  have start : (read first).Grouped := trivial
  suffices all : ∀ tree : Arithmetic, tree.Grouped → (links.foldl extend tree).render =
      tree.render ++ links.flatMap fun link => [link.1.written, ⟨.identifier, link.2⟩] from
    all _ start
  induction links with
  | nil => exact fun tree _ => by simp
  | cons link rest ih =>
    intro tree grouped
    rw [List.foldl_cons, ih _ (grouped.extend link), grouped.render_extend, List.flatMap_cons,
      List.append_assoc]

/-- Right operands bind ever tighter, so that a chain nests no deeper than there are ranks. -/
theorem Grouped.nesting_le (grouped : tree.Grouped) : tree.nesting ≤ tree.rank - 2 := by
  induction tree with
  | read => exact Nat.zero_le _
  | operate lhs operator rhs ihLeft ihRight =>
    obtain ⟨left, leftRank, right, rightRank⟩ := grouped
    have noLeft : ¬(lhs.enclosesLeft operator = true) := by simpa [enclosesLeft] using leftRank
    have noRight : ¬(enclosesRight operator rhs = true) := by simpa [enclosesRight] using rightRank
    have least := operator.rank_pos
    have inLeft := ihLeft left
    have inRight := ihRight right
    rw [nesting, if_neg noLeft, if_neg noRight, rank]
    omega

theorem nesting_ofChain (first : String) (links : List (ArithmeticOp × String)) :
    (ofChain first links).nesting ≤ 8 := by
  have grouped := ofChain_grouped first links
  have nesting := grouped.nesting_le
  have rank : (ofChain first links).rank ≤ 10 := by
    cases ofChain first links with
    | read => exact Nat.zero_le _
    | operate _ operator _ => exact BinaryOp.rank_le_of_isArithmetic operator.isArithmetic
  omega

/-- The names of a tree are written in its text. -/
theorem mem_render_of_mem_names {name : String} (member : name ∈ tree.names) :
    ⟨.identifier, name⟩ ∈ tree.render := by
  have inside {text : List Lexeme} (needed : Bool) (present : ⟨.identifier, name⟩ ∈ text) :
      ⟨.identifier, name⟩ ∈ if needed then enclosed text else text := by
    cases needed with
    | false => exact present
    | true => exact List.mem_cons_of_mem _ (List.mem_append_left _ present)
  induction tree with
  | read => exact List.mem_singleton.mpr (congrArg _ (List.mem_singleton.mp member))
  | operate lhs operator rhs ihLeft ihRight =>
    rcases List.mem_append.mp member with member | member
    · exact List.mem_append_left _ (inside _ (ihLeft member))
    · exact List.mem_append_right _ (List.mem_cons_of_mem _ (inside _ (ihRight member)))

end Arithmetic

end ScalarLang
