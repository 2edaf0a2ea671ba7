import ScalarLang.Proofs.Spans.Productions
import ScalarLang.Source.Excerpt

/-! Carets under a diagnostic stand below the text of its span, as many places behind the bar as the
text before it on the line has bytes. They stand below its characters where these and those before
them have one byte each. -/

namespace ScalarLang

open Text (byteWidth lastLine lineAround)

variable {source : String} {span : Span} {before shown rest front back : List Char} {c : Char}

namespace Text

/-- What is trimmed stops at the last character that is not blank. -/
theorem trimEnd_append (visible : isBlank c = false) (front back : List Char) :
    trimEnd (front ++ c :: back) = front ++ c :: trimEnd back := by
  induction front with
  | nil =>
    rw [List.nil_append, trimEnd]
    split
    · rename_i none
      simp [visible, none]
    · rfl
  | cons d front ih =>
    rw [List.cons_append, trimEnd, ih]
    split
    · rename_i none
      simp at none
    · rfl

theorem trimEnd_shown (last : ∃ c ∈ shown.getLast?, isBlank c = false) (front after : List Char) :
    trimEnd (front ++ (shown ++ after)) = front ++ (shown ++ trimEnd after) := by
  obtain ⟨d, getLast?, visible⟩ := last
  obtain ⟨inner, rfl⟩ := List.getLast?_eq_some_iff.mp getLast?
  have split : front ++ (inner ++ [d] ++ after) = (front ++ inner) ++ d :: after := by simp
  rw [split, trimEnd_append visible]
  simp

end Text

namespace Span

theorem lexeme_empty (same : span.start = span.stop) : span.lexeme = "" := by
  have none (text : List Char) (n : Nat) : (Text.sliceBytes? text n n).getD [] = [] := by
    rw [Text.sliceBytes?, Nat.sub_self]
    rcases Text.splitBytes? n text with - | ⟨front, back⟩
    · rfl
    · cases back <;> rfl
  simp only [lexeme, ← same, if_true]
  rw [Nat.max_self, none]

/-- The place behind some text of a line is as far to the right as the text is wide. -/
theorem column_after (before rest : List Char) (onLine : ∀ d ∈ shown, d ≠ '\n') :
    (Position.after (before ++ shown) rest).column =
      byteWidth (lastLine before) + byteWidth shown := by
  rw [← covering_stop onLine]
  rfl

/-- Text that ends on the line on which it starts has no newline in it. -/
theorem onLine_of_count (oneLine : (Position.after before rest).line =
    (Position.after (before ++ shown) back).line) : ∀ d ∈ shown, d ≠ '\n' := by
  have none : shown.count '\n' = 0 := by
    simp only [Position.after, List.count_append] at oneLine
    omega
  rintro d member rfl
  exact List.count_eq_zero.mp none member

/-- A span on one line that shows something covers a part of the line, which neither starts nor ends
with a blank. -/
theorem Sits.covering (sits : span.Sits source) (oneLine : span.start.line = span.stop.line)
    (some : span.lexeme ≠ "") :
    ∃ before shown rest, span = .covering before shown rest ∧ (∀ d ∈ shown, d ≠ '\n') ∧
      (∃ c ∈ shown.head?, Text.isBlank c = false) ∧ ∃ c ∈ shown.getLast?, Text.isBlank c = false := by
  obtain ⟨before, c, rest, whole, first, start⟩ := sits.opens
  obtain ⟨front, d, back, same, last, stop⟩ := sits.closes
  have ordered := sits.ordered
  rw [start, stop] at oneLine
  rw [Span.Ordered, Position.le_iff, start, stop] at ordered
  rw [whole, List.append_cons front] at same
  have unlike : span.start ≠ span.stop := fun same => some (lexeme_empty same)
  rcases List.append_eq_append_iff.mp same with ⟨shown, reach, left⟩ | ⟨gap, reach, left⟩
  · rw [reach] at oneLine stop
    have onLine := onLine_of_count oneLine
    cases shown with
    | nil =>
      rw [List.append_nil, ← List.nil_append back, ← left, ← start] at stop
      exact absurd stop.symm unlike
    | cons e others =>
      cases (List.cons.inj left).1
      refine ⟨before, c :: others, back, ?_, onLine, ⟨c, rfl, first⟩, d, ?_, last⟩
      · rw [← covering_stop onLine] at stop
        rw [left] at start
        exact congrArg₂ Span.mk start stop
      · have ends := congrArg List.getLast? reach
        rw [List.getLast?_concat, List.getLast?_append_cons] at ends
        exact ends.symm
  · rw [reach] at oneLine ordered start
    have onLine := onLine_of_count oneLine.symm
    cases gap with
    | nil =>
      rw [List.append_nil, ← List.nil_append (c :: rest), ← left, ← stop] at start
      exact absurd start unlike
    | cons e others =>
      have wide := column_after (front ++ [d]) (c :: rest) onLine
      have some : 0 < e.utf8Size := e.utf8Size_pos
      have column : (Position.after (front ++ [d]) back).column =
        byteWidth (lastLine (front ++ [d])) := rfl
      rw [Text.byteWidth_cons] at wide
      omega

end Span

namespace Excerpt

/-- The characters of the shown line at the places of the carets. -/
def marked (excerpt : Excerpt) : String :=
  let places := excerpt.code.toList.zip excerpt.carets.toList
  String.ofList ((places.filter fun place => place.2 = '^').map Prod.fst)

/-- Behind some text a lexeme is shown, and carets are placed and counted by the bytes. -/
structure Underlines (excerpt : Excerpt) (front : List Char) (lexeme : String) : Prop where
  code : ∃ after, excerpt.code.toList = front ++ (lexeme.toList ++ after)
  carets : ∃ margin, excerpt.carets.toList =
    margin ++ List.replicate (byteWidth lexeme.toList) '^' ∧
    margin.length = byteWidth front ∧ '^' ∉ margin

variable {excerpt : Excerpt} {lexeme : String}

theorem length_of_narrow (narrow : ∀ c ∈ front, c.utf8Size = 1) : byteWidth front = front.length := by
  induction front with
  | nil => rfl
  | cons c front ih =>
    obtain ⟨here, others⟩ := List.forall_mem_cons.mp narrow
    rw [Text.byteWidth_cons, here, ih others, List.length_cons, Nat.add_comm]

/-- Where all characters have one byte, the carets are below those of the lexeme. -/
theorem Underlines.marked (underlines : excerpt.Underlines front lexeme)
    (narrow : ∀ c ∈ front ++ lexeme.toList, c.utf8Size = 1) : excerpt.marked = lexeme := by
  obtain ⟨⟨after, code⟩, margin, carets, width, free⟩ := underlines
  obtain ⟨narrowFront, narrowLexeme⟩ := List.forall_mem_append.mp narrow
  rw [length_of_narrow narrowFront] at width
  rw [length_of_narrow narrowLexeme] at carets
  have free : (front.zip margin).filter (fun place => place.2 = '^') = [] := by
    refine List.filter_eq_nil_iff.mpr fun place member => ?_
    have inside := (List.of_mem_zip member).2
    simpa using fun same : place.2 = '^' => free (same ▸ inside)
  have under : (lexeme.toList ++ after).zip (List.replicate lexeme.toList.length '^') =
      lexeme.toList.zip (List.replicate lexeme.toList.length '^') := by
    rw [← List.append_nil (List.replicate _ _), List.zip_append (by simp), List.append_nil,
      List.zip_nil_right, List.append_nil]
  have all : (lexeme.toList.zip (List.replicate lexeme.toList.length '^')).filter
      (fun place => place.2 = '^') = lexeme.toList.zip (List.replicate lexeme.toList.length '^') := by
    refine List.filter_eq_self.mpr fun place member => ?_
    simpa using List.eq_of_mem_replicate (List.of_mem_zip member).2
  rw [Excerpt.marked, code, carets, List.zip_append width.symm, List.filter_append, free, under, all,
    List.nil_append, List.map_fst_zip (by simp), String.ofList_toList]

/-- Indentation ends where a text that starts with no blank is shown. -/
theorem indent_shown (first : ∃ c ∈ shown.head?, Text.isBlank c = false) (front after : List Char) :
    (front ++ (shown ++ after)).takeWhile isIndent = front.takeWhile isIndent ∧
      (front ++ (shown ++ after)).dropWhile isIndent = front.dropWhile isIndent ++ (shown ++ after) := by
  obtain ⟨c, head?, visible⟩ := first
  obtain ⟨others, rfl⟩ := List.head?_eq_some_iff.mp head?
  have other : isIndent c = false := by
    refine Bool.eq_false_iff.mpr fun indent => ?_
    have blank : c = ' ' ∨ c = '\t' := by simpa [isIndent] using indent
    rcases blank with rfl | rfl <;> exact absurd visible (by decide)
  induction front with
  | nil => simp [other]
  | cons d front ih =>
    simp only [List.cons_append, List.takeWhile_cons, List.dropWhile_cons] at ih ⊢
    split
    · exact ⟨congrArg _ ih.1, ih.2⟩
    · exact ⟨rfl, rfl⟩

theorem narrow_number (n : Nat) : ∀ c ∈ (toString n).toList, c.utf8Size = 1 := by
  intro c member
  rw [show toString n = n.repr from rfl, Nat.toList_repr] at member
  have digit := Nat.isDigit_of_mem_toDigits (by decide) (by decide) member
  rw [Char.utf8Size_eq_one_iff]
  simp only [Char.isDigit, Bool.and_eq_true, decide_eq_true_eq] at digit
  exact UInt32.le_trans digit.2 (by decide)

theorem narrow_of_all {text : List Char} (all : (text.all fun c => c.utf8Size = 1) = true) :
    ∀ c ∈ text, c.utf8Size = 1 := by
  simpa using all

theorem narrow_bar : ∀ c ∈ " | ".toList, c.utf8Size = 1 := narrow_of_all (by decide)

theorem narrow_indent (text : List Char) : ∀ c ∈ text.takeWhile isIndent, c.utf8Size = 1 := by
  intro c member
  have indent : c = ' ' ∨ c = '\t' := by simpa [isIndent] using List.mem_takeWhile_imp member
  rcases indent with rfl | rfl <;> rfl

section

variable {after : List Char} (line : span.start.lineText.toList = front ++ (shown ++ after))
  (first : ∃ c ∈ shown.head?, Text.isBlank c = false)

include line first

/-- The line is shown from its first character that is no indentation, and what is shown of it does
not end within a text that ends with no blank. -/
theorem ofSpan_code (last : ∃ c ∈ shown.getLast?, Text.isBlank c = false) :
    (ofSpan span).code.toList = ((toString span.start.line).toList ++
      (" | ".toList ++ front.dropWhile isIndent)) ++ (shown ++ Text.trimEnd after) := by
  simp only [ofSpan, line, (indent_shown first front after).2, Text.trimEnd_shown last,
    String.toList_append, String.toList_ofList, List.append_assoc]

/-- The carets are as far behind the bar as the text before them is wide, and one for each byte. -/
theorem ofSpan_carets (column : span.start.column = byteWidth front)
    (lexeme : span.lexeme = String.ofList shown) :
    ∃ margin, (ofSpan span).carets.toList = margin ++ List.replicate (byteWidth shown) '^' ∧
      margin.length = byteWidth ((toString span.start.line).toList ++
        (" | ".toList ++ front.dropWhile isIndent)) ∧ '^' ∉ margin := by
  have indent := (indent_shown first front after).1
  have wide : max 1 (byteWidth shown) = byteWidth shown := by
    obtain ⟨c, head?, -⟩ := first
    obtain ⟨others, rfl⟩ := List.head?_eq_some_iff.mp head?
    have some := c.utf8Size_pos
    rw [Text.byteWidth_cons]
    omega
  have removed : byteWidth front - (front.takeWhile isIndent).length =
      byteWidth (front.dropWhile isIndent) := by
    have parts := congrArg byteWidth (List.takeWhile_append_dropWhile (p := isIndent) (l := front))
    rw [Text.byteWidth_append, length_of_narrow (narrow_indent _)] at parts
    omega
  have bar : byteWidth " | ".toList = 3 := length_of_narrow narrow_bar
  refine ⟨List.replicate ((toString span.start.line).length + 1) ' ' ++ ['|', ' '] ++
    List.replicate (byteWidth (front.dropWhile isIndent)) ' ', ?_, ?_, by simp⟩
  · simp only [ofSpan, line, indent, lexeme, column, removed, wide, spaces, String.toList_append,
      String.toList_ofList]
    simp
  · rw [Text.byteWidth_append, Text.byteWidth_append, length_of_narrow (narrow_number _)]
    simp only [bar, List.length_append, List.length_replicate, List.length_cons, List.length_nil,
      String.length_toList]
    omega

end

/-- What an excerpt shows of a span on one line, if that neither starts nor ends with a blank. -/
theorem ofSpan_underlines (before rest : List Char) (onLine : ∀ d ∈ shown, d ≠ '\n')
    (first : ∃ c ∈ shown.head?, Text.isBlank c = false)
    (last : ∃ c ∈ shown.getLast?, Text.isBlank c = false) :
    ∃ after, lineAround before (shown ++ rest) = lastLine before ++ (shown ++ after) ∧
      (Span.covering before shown rest).lexeme = String.ofList shown ∧
      (ofSpan (.covering before shown rest)).Underlines
        ((toString (1 + before.count '\n')).toList ++
          (" | ".toList ++ (lastLine before).dropWhile isIndent)) (String.ofList shown) := by
  have some : shown ≠ [] := by
    rintro rfl
    obtain ⟨c, none, -⟩ := first
    cases none
  have stays : shown.getLast some ≠ '\r' := by
    obtain ⟨d, ends, visible⟩ := last
    rw [List.getLast?_eq_some_getLast some] at ends
    rintro same
    rw [Option.some_inj.mp ends.symm, same] at visible
    exact absurd visible (by decide)
  obtain ⟨after, around⟩ := Text.lineAround_shown before rest some onLine stays
  have lexeme : (Span.covering before shown rest).lexeme = String.ofList shown :=
    Span.covering_lexeme some onLine stays
  have line : (Span.covering before shown rest).start.lineText.toList =
      lastLine before ++ (shown ++ after) := by
    rw [← around]
    exact String.toList_ofList
  have code := ofSpan_code line first last
  obtain ⟨margin, carets, width, free⟩ := ofSpan_carets line first rfl lexeme
  have text : (String.ofList shown).toList = shown := String.toList_ofList
  refine ⟨after, around, lexeme, ⟨Text.trimEnd after, ?_⟩, margin, ?_, width, free⟩
  · rw [text]
    exact code
  · rw [text]
    exact carets

end Excerpt

namespace Session

/-- Where a diagnostic on one line shows its lexeme, the carets have their place and their number from
the bytes: they are as far behind the bar as the text before the lexeme is wide. They stand below
the lexeme itself where there are only characters of one byte up to its end. -/
theorem parse_carets (source : String) :
    ∀ diagnostic ∈ (parse source).analysis.report.diagnostics,
      diagnostic.span.start.line = diagnostic.span.stop.line → diagnostic.span.lexeme ≠ "" →
      ∃ before after,
        diagnostic.span.start.lineText.toList =
          before ++ (diagnostic.span.lexeme.toList ++ after) ∧
        byteWidth before = diagnostic.span.start.column ∧
        (Excerpt.ofSpan diagnostic.span).Underlines
          ((toString diagnostic.span.start.line).toList ++
            (" | ".toList ++ before.dropWhile Excerpt.isIndent)) diagnostic.span.lexeme ∧
        ((∀ c ∈ before ++ diagnostic.span.lexeme.toList, c.utf8Size = 1) →
          (Excerpt.ofSpan diagnostic.span).marked = diagnostic.span.lexeme) := by
  intro diagnostic member oneLine some
  rcases (parse_orderly source).diagnostics diagnostic member with sits | last
  · obtain ⟨before, shown, rest, place, onLine, first, last⟩ := sits.covering oneLine some
    obtain ⟨after, line, lexeme, underlines⟩ :=
      Excerpt.ofSpan_underlines before rest onLine first last
    rw [place, lexeme]
    have shown : (Position.after before (shown ++ rest)).lineText.toList =
        lastLine before ++ (shown ++ after) := by
      rw [← line]
      exact String.toList_ofList
    refine ⟨lastLine before, after, by rw [String.toList_ofList]; exact shown, rfl, underlines,
      fun narrow => underlines.marked fun c member => ?_⟩
    rcases List.mem_append.mp member with member | member
    · rcases List.mem_append.mp member with number | member
      · exact Excerpt.narrow_number _ c number
      · rcases List.mem_append.mp member with bar | member
        · exact Excerpt.narrow_bar c bar
        · exact narrow c (List.mem_append_left _ ((List.dropWhile_suffix _).subset member))
    · exact narrow c (List.mem_append_right _ member)
  · refine absurd (Span.lexeme_empty ?_) some
    rw [last]
    exact Cursor.tokensWithin_empty _ _

set_option maxRecDepth 100000 in
/-- A character that starts no token, behind others of one byte. -/
theorem parse_carets_unrecognised :
    let source := "var a: i64 = #;"
    ∃ diagnostic ∈ (parse source).analysis.report.diagnostics,
      diagnostic.span.start.line = diagnostic.span.stop.line ∧ diagnostic.span.lexeme ≠ "" ∧
      (Excerpt.ofSpan diagnostic.span).marked = diagnostic.span.lexeme := by
  intro source
  have spans : (parse source).analysis.report.diagnostics.toList.map Diagnostic.span =
      [⟨⟨1, 13, source⟩, ⟨1, 14, source⟩⟩] := by decide +kernel
  obtain ⟨diagnostic, others, listed, place, -⟩ := List.map_eq_cons_iff.mp spans
  have member : diagnostic ∈ (parse source).analysis.report.diagnostics := by
    simp [Array.mem_def, listed]
  have oneLine : diagnostic.span.start.line = diagnostic.span.stop.line := by rw [place]
  have some : diagnostic.span.lexeme ≠ "" := by
    rw [place]
    decide +kernel
  have narrow : ∀ c ∈ diagnostic.span.start.lineText.toList, c.utf8Size = 1 := by
    rw [place]
    exact Excerpt.narrow_of_all (by decide)
  obtain ⟨before, after, line, -, -, marked⟩ := parse_carets source diagnostic member oneLine some
  refine ⟨diagnostic, member, oneLine, some, marked fun c inside => narrow c ?_⟩
  rw [line, ← List.append_assoc]
  exact List.mem_append_left _ inside

/-- Behind a character of two bytes the caret is one place too far to the right. -/
example : (Excerpt.ofSpan ⟨⟨1, 9, "/* é */ #"⟩, ⟨1, 10, "/* é */ #"⟩⟩).marked = "" := by
  decide +kernel

end Session

end ScalarLang
