import DocAudit.Text.Ranges

/-!
White space: the separators of every script and the control characters that move the print
position. `strip` and its one-sided halves take it off a text.
-/

namespace DocAudit.Text

def blankRanges : Ranges :=
  [(0x09, 0x0D), (0x1C, 0x20), (0x85, 0x85), (0xA0, 0xA0), (0x1680, 0x1680), (0x2000, 0x200A),
   (0x2028, 0x2029), (0x202F, 0x202F), (0x205F, 0x205F), (0x3000, 0x3000)]

def isBlank (c : Char) : Bool :=
  blankRanges.contains c

theorem isBlank_of_isWhitespace {c : Char} (h : c.isWhitespace = true) : isBlank c = true := by
  simp only [Char.isWhitespace, Bool.or_eq_true, decide_eq_true_eq] at h
  rcases h with ((h | h) | h) | h <;> subst h <;> decide

def stripLeft (text : List Char) : List Char :=
  text.dropWhile isBlank

def stripRight (text : List Char) : List Char :=
  (text.reverse.dropWhile isBlank).reverse

def strip (text : List Char) : List Char :=
  stripRight (stripLeft text)

def hasText (text : List Char) : Bool :=
  text.any fun c => !isBlank c

example : strip [' ', 'a', ' ', 'b', '\u3000'] = ['a', ' ', 'b'] := by decide

end DocAudit.Text
