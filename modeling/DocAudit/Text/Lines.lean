/-!
Texts as lists of characters and as lists of lines, and searching and covering pieces of them.
-/

namespace DocAudit.Text

def lines (text : List Char) : List (List Char) :=
  text.splitOn '\n'

def unlines (lines : List (List Char)) : List Char :=
  ['\n'].intercalate lines

@[simp] theorem unlines_lines (text : List Char) : unlines (lines text) = text :=
  List.intercalate_splitOn '\n'

theorem lines_ne_nil (text : List Char) : lines text ≠ [] :=
  List.splitOnP_ne_nil _ text

/-- Each item beside its successor. -/
def withNext {α : Type} (items : List α) : List (α × Option α) :=
  items.zip (items.tail.map some ++ [none])

@[simp] theorem withNext_nil {α : Type} : withNext ([] : List α) = [] := rfl

@[simp] theorem withNext_singleton {α : Type} (item : α) :
    withNext [item] = [(item, none)] := rfl

@[simp] theorem withNext_cons_cons {α : Type} (first second : α) (rest : List α) :
    withNext (first :: second :: rest) = (first, some second) :: withNext (second :: rest) := rfl

/-- A carriage return ends a line, with or without a line feed after it. -/
def unifyNewlines (text : List Char) : List Char :=
  (withNext text).flatMap fun (c, next) =>
    if c ≠ '\r' then [c] else if next = some '\n' then [] else ['\n']

/-- Whether `piece` stands somewhere in the text. -/
def occursIn (piece : List Char) : List Char → Bool
  | [] => piece.isEmpty
  | c :: rest => piece.isPrefixOf (c :: rest) || occursIn piece rest

/-- Whether the text ends in `ending`. -/
def endsWith (text ending : List Char) : Bool :=
  ending.isSuffixOf text

/-- Writes blanks over the occurrences of `piece`, from the left and without overlaps; `covered`
characters still belong to the occurrence that has been met last. -/
def blankOccurrences.from (piece : List Char) (covered : Nat) : List Char → List Char
  | [] => []
  | c :: rest =>
    match covered with
    | left + 1 => ' ' :: blankOccurrences.from piece left rest
    | 0 =>
      if piece ≠ [] ∧ piece.isPrefixOf (c :: rest) then
        ' ' :: blankOccurrences.from piece (piece.length - 1) rest
      else c :: blankOccurrences.from piece 0 rest

def blankOccurrences (piece text : List Char) : List Char :=
  blankOccurrences.from piece 0 text

theorem length_blankOccurrences_from (piece : List Char) (covered : Nat) (text : List Char) :
    (blankOccurrences.from piece covered text).length = text.length := by
  induction text generalizing covered with
  | nil => rfl
  | cons c rest ih =>
    unfold blankOccurrences.from
    split
    · simp [ih]
    · split <;> simp [ih]

example : lines ['a', '\n', '\n', 'b'] = [['a'], [], ['b']] := by decide

example : unifyNewlines ['a', '\r', '\n', '\r', 'b'] = ['a', '\n', '\n', 'b'] := by decide

example : blankOccurrences ['a', 'a'] ['a', 'a', 'a', 'b'] = [' ', ' ', 'a', 'b'] := by decide

end DocAudit.Text
