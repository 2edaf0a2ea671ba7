/-! Widths and slices of text counted in UTF-8 bytes. A slice exists only between character
boundaries. -/

namespace ScalarLang.Text

def byteWidth : List Char → Nat
  | [] => 0
  | c :: rest => c.utf8Size + byteWidth rest

@[simp] theorem byteWidth_nil : byteWidth [] = 0 := rfl

@[simp] theorem byteWidth_cons (c : Char) (rest : List Char) :
    byteWidth (c :: rest) = c.utf8Size + byteWidth rest := rfl

@[simp] theorem byteWidth_append (left right : List Char) :
    byteWidth (left ++ right) = byteWidth left + byteWidth right := by
  induction left with
  | nil => simp
  | cons c left ih => simp [ih, Nat.add_assoc]

/-- Cuts the text after `count` bytes. -/
def splitBytes? : Nat → List Char → Option (List Char × List Char)
  | 0, text => some ([], text)
  | _ + 1, [] => none
  | count + 1, c :: rest =>
    if c.utf8Size ≤ count + 1 then
      (splitBytes? (count + 1 - c.utf8Size) rest).map fun parts => (c :: parts.1, parts.2)
    else none

/-- The bytes from `start` up to `stop`. -/
def sliceBytes? (text : List Char) (start stop : Nat) : Option (List Char) := do
  let (_, rest) ← splitBytes? start text
  let (slice, _) ← splitBytes? (stop - start) rest
  return slice

end ScalarLang.Text
