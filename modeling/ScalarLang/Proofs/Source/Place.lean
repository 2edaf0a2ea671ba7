import Mathlib.Data.List.DropRight
import Mathlib.Data.List.TakeWhile
import Mathlib.Order.Defs.PartialOrder
import ScalarLang.Source.Span
import ScalarLang.Token.Cursor

/-! Positions in the order in which a text is read, by line and on a line by column, and places in a
text, told from the text alone: the newlines before a place give its line, and what stands between
the last of them and the place gives its column. Text on one line is shown by the span that ends
where it does. -/

namespace ScalarLang.Position

instance : Preorder Position where
  le first second :=
    first.line < second.line ∨ first.line = second.line ∧ first.column ≤ second.column
  le_refl _ := .inr ⟨rfl, Nat.le_refl _⟩
  le_trans first second third := by omega

variable {first second : Position}

theorem le_iff : first ≤ second ↔
    first.line < second.line ∨ first.line = second.line ∧ first.column ≤ second.column :=
  Iff.rfl

theorem line_le (ordered : first ≤ second) : first.line ≤ second.line := by
  rw [le_iff] at ordered
  omega

theorem le_of_line_lt (earlier : first.line < second.line) : first ≤ second := .inl earlier

end ScalarLang.Position

namespace ScalarLang

namespace Text

theorem splitBytes?_append (front back : List Char) :
    splitBytes? (byteWidth front) (front ++ back) = some (front, back) := by
  induction front with
  | nil => cases back <;> rfl
  | cons c front ih =>
    obtain ⟨width, positive⟩ := Nat.exists_eq_succ_of_ne_zero (Nat.ne_of_gt c.utf8Size_pos)
    have longer : byteWidth (c :: front) = width + byteWidth front + 1 := by
      rw [byteWidth_cons, positive]
      omega
    have fits : c.utf8Size ≤ width + byteWidth front + 1 := by omega
    have left : width + byteWidth front + 1 - c.utf8Size = byteWidth front := by omega
    rw [longer, List.cons_append, splitBytes?, if_pos fits, left, ih]
    rfl

theorem sliceBytes?_append (front middle back : List Char) :
    sliceBytes? (front ++ (middle ++ back)) (byteWidth front)
      (byteWidth front + byteWidth middle) = some middle := by
  simp only [sliceBytes?, splitBytes?_append, Nat.add_sub_cancel_left, Option.bind_eq_bind,
    Option.bind_some, Option.pure_def]

def lastLine (text : List Char) : List Char := text.rtakeWhile (· ≠ '\n')

def linesBefore (text : List Char) : List Char := text.rdropWhile (· ≠ '\n')

/-- The line around a place, without its newline and the carriage returns at its end. -/
def lineAround (before rest : List Char) : List Char :=
  (lastLine before ++ rest.takeWhile (· ≠ '\n')).rdropWhile (· = '\r')

variable {before rest front back : List Char} {c : Char}

theorem linesBefore_append_lastLine (text : List Char) :
    linesBefore text ++ lastLine text = text := List.rdropWhile_append_rtakeWhile ..

theorem lastLine_concat (other : c ≠ '\n') : lastLine (before ++ [c]) = lastLine before ++ [c] :=
  List.rtakeWhile_concat_pos _ _ _ (by simpa using other)

theorem linesBefore_concat (other : c ≠ '\n') : linesBefore (before ++ [c]) = linesBefore before :=
  List.rdropWhile_concat_pos _ _ _ (by simpa using other)

theorem lastLine_newline : lastLine (before ++ ['\n']) = [] :=
  List.rtakeWhile_concat_neg _ _ _ (by decide)

theorem linesBefore_newline : linesBefore (before ++ ['\n']) = before ++ ['\n'] :=
  List.rdropWhile_concat_neg _ _ _ (by decide)

theorem lineAround_concat (other : c ≠ '\n') :
    lineAround (before ++ [c]) rest = lineAround before (c :: rest) := by
  have same : (c :: rest).takeWhile (· ≠ '\n') = c :: rest.takeWhile (· ≠ '\n') :=
    List.takeWhile_cons_of_pos (by simpa using other)
  rw [lineAround, lineAround, lastLine_concat other, same, List.append_assoc, List.singleton_append]

/-- What is dropped from the end of a text stops at its last character that stays. -/
theorem rdropWhile_append (p : Char → Bool) (front back : List Char) :
    (front ++ back).rdropWhile p =
      if back.rdropWhile p = [] then front.rdropWhile p else front ++ back.rdropWhile p := by
  simp only [List.rdropWhile, List.reverse_append, List.dropWhile_append, List.isEmpty_iff,
    List.reverse_eq_nil_iff]
  split
  · rfl
  · rw [List.reverse_append, List.reverse_reverse]

theorem dropCarriageReturns_eq (text : List Char) :
    Cursor.dropCarriageReturns text = text.rdropWhile (· = '\r') := by
  induction text with
  | nil => rfl
  | cons c rest ih =>
    have first := rdropWhile_append (· = '\r') [c] rest
    rw [List.singleton_append] at first
    rw [Cursor.dropCarriageReturns, ih, first, List.rdropWhile_singleton]
    cases rest.rdropWhile (· = '\r') with
    | nil => simp
    | cons d kept => rfl

theorem firstLine_eq (text : List Char) :
    Cursor.firstLine text = String.ofList (lineAround [] text) := by
  rw [Cursor.firstLine, dropCarriageReturns_eq]
  rfl

theorem lineAround_newline :
    lineAround (before ++ ['\n']) rest = lineAround [] rest := by
  rw [lineAround, lineAround, lastLine_newline]
  rfl

/-- Text on one line that no carriage return ends is a part of the line around its place. -/
theorem lineAround_shown (before back : List Char) (some : front ≠ [])
    (onLine : ∀ c ∈ front, c ≠ '\n') (stays : front.getLast some ≠ '\r') :
    ∃ after, lineAround before (front ++ back) = lastLine before ++ (front ++ after) := by
  refine ⟨(back.takeWhile (· ≠ '\n')).rdropWhile (· = '\r'), ?_⟩
  have whole : (front ++ back).takeWhile (· ≠ '\n') = front ++ back.takeWhile (· ≠ '\n') :=
    List.takeWhile_append_of_pos (by simpa using onLine)
  have kept : (lastLine before ++ front).rdropWhile (· = '\r') = lastLine before ++ front := by
    refine List.rdropWhile_eq_self_iff.mpr fun full => ?_
    rw [List.getLast_append_of_ne_nil full some]
    simpa using stays
  rw [lineAround, whole, ← List.append_assoc, rdropWhile_append, ← List.append_assoc]
  split
  · rename_i none
    rw [kept, none, List.append_nil]
  · rfl

theorem length_le_byteWidth (text : List Char) : text.length ≤ byteWidth text := by
  induction text with
  | nil => exact Nat.le_refl _
  | cons c text ih =>
    have wide := c.utf8Size_pos
    rw [List.length_cons, byteWidth_cons]
    omega

end Text

open Text (byteWidth lastLine lineAround)

/-- The place after `before` in a text that goes on with `rest`. -/
def Position.after (before rest : List Char) : Position :=
  ⟨1 + before.count '\n', byteWidth (lastLine before), String.ofList (lineAround before rest)⟩

theorem Position.after_concat {before rest : List Char} {c : Char} (other : c ≠ '\n') :
    Position.after (before ++ [c]) rest =
      { Position.after before (c :: rest) with
        column := (Position.after before (c :: rest)).column + c.utf8Size } := by
  simp [Position.after, Text.lastLine_concat other, Text.lineAround_concat other,
    List.count_append, other]

def Position.span (start : Position) (width : Nat) : Span :=
  ⟨start, { start with column := start.column + width }⟩

namespace Span

def covering (before shown rest : List Char) : Span :=
  (Position.after before (shown ++ rest)).span (byteWidth shown)

variable {before shown rest : List Char}

/-- Text on one line ends on it. -/
theorem covering_stop (onLine : ∀ c ∈ shown, c ≠ '\n') :
    (covering before shown rest).stop = Position.after (before ++ shown) rest := by
  induction shown generalizing before with
  | nil => simp [covering, Position.span]
  | cons c shown ih =>
    have others := @ih (before ++ [c]) fun d member => onLine d (List.mem_cons_of_mem _ member)
    rw [List.append_assoc, List.singleton_append] at others
    rw [← others]
    simp only [covering, Position.span, Position.after_concat (onLine c List.mem_cons_self),
      Text.byteWidth_cons, List.cons_append, Nat.add_assoc]

/-- The span of some text shows the text. -/
theorem covering_lexeme (some : shown ≠ []) (onLine : ∀ c ∈ shown, c ≠ '\n')
    (stays : shown.getLast some ≠ '\r') :
    (covering before shown rest).lexeme = String.ofList shown := by
  obtain ⟨after, line⟩ := Text.lineAround_shown before rest some onLine stays
  have start : min (byteWidth (lastLine before))
      (byteWidth (lastLine before ++ (shown ++ after))) = byteWidth (lastLine before) := by
    rw [Text.byteWidth_append]
    omega
  have stop : max (byteWidth (lastLine before))
      (min (byteWidth (lastLine before) + byteWidth shown)
        (byteWidth (lastLine before ++ (shown ++ after)))) =
      byteWidth (lastLine before) + byteWidth shown := by
    rw [Text.byteWidth_append, Text.byteWidth_append]
    omega
  simp only [lexeme, covering, Position.span, Position.after, line, String.toList_ofList, start,
    if_true, stop, Text.sliceBytes?_append, Option.getD_some]

/-- Where the text is short enough, the numbers of the span are too. -/
theorem covering_narrow (some : shown ≠ [])
    (short : byteWidth (before ++ (shown ++ rest)) < Position.numberLimit) :
    (covering before shown rest).narrow = covering before shown rest := by
  have lines : before.count '\n' ≤ byteWidth before :=
    Nat.le_trans List.count_le_length (Text.length_le_byteWidth before)
  have wide : 0 < byteWidth shown :=
    Nat.lt_of_lt_of_le (List.length_pos_iff.mpr some) (Text.length_le_byteWidth shown)
  have column : byteWidth (lastLine before) ≤ byteWidth before := by
    conv_rhs => rw [← Text.linesBefore_append_lastLine before]
    rw [Text.byteWidth_append]
    omega
  rw [Text.byteWidth_append, Text.byteWidth_append] at short
  have line : (1 + before.count '\n') % Position.numberLimit = 1 + before.count '\n' :=
    Nat.mod_eq_of_lt (by omega)
  have startColumn : byteWidth (lastLine before) % Position.numberLimit =
      byteWidth (lastLine before) := Nat.mod_eq_of_lt (by omega)
  have stopColumn : (byteWidth (lastLine before) + byteWidth shown) % Position.numberLimit =
      byteWidth (lastLine before) + byteWidth shown := Nat.mod_eq_of_lt (by omega)
  simp only [narrow, Position.narrow, covering, Position.span, Position.after, line, startColumn,
    stopColumn]

end Span

end ScalarLang
