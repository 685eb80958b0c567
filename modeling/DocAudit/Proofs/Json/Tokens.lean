import DocAudit.Json.Parser
import DocAudit.Json.Printer

/-!
What a reader makes of the parts of a JSON text: strings, numbers, and the blanks between the parts.
A part is read the same way whatever has been read before it, so positions are left out.
-/

namespace DocAudit.Json

variable {start fuel : Nat} {source : Source} {read tail : List Char} {c mark : Char}

/-- A reader has read a content and stands before the rest. -/
def Reads {α : Type} (outcome : Except Stop (α × Source)) (content : α) (rest : List Char) : Prop :=
  ∃ position, outcome = .ok (content, ⟨position, rest⟩)

theorem rest_drop (front : List Char) (rest : source.rest = front ++ tail) :
    (source.drop front.length).rest = tail := by
  rw [Source.drop, rest]
  exact List.drop_left

/-! ## Strings -/

theorem hexNumber?_hexadecimal :
    ∀ code < 0x20, hexNumber? (Text.hexadecimal 4 code) = some code := by
  decide

theorem length_hexadecimal : ∀ code < 0x20, (Text.hexadecimal 4 code).length = 4 := by
  decide

theorem stringBody_simple (rest : source.rest = '\\' :: mark :: tail)
    (simple : simpleEscape? mark = some c) :
    stringBody start (fuel + 1) source read =
      stringBody start fuel (source.drop 2) (c :: read) := by
  have notCode : mark ≠ 'u' := by
    rintro rfl
    cases simple
  rw [stringBody, rest]
  split
  · next h => cases h
  · next h => cases h
  · next h => cases h
  · next h => exact absurd (List.cons.inj (List.cons.inj h).2).1 notCode
  · next h =>
    obtain ⟨rfl, -⟩ := List.cons.inj (List.cons.inj h).2
    rw [simple]
  · next escapes h =>
    obtain ⟨rfl, rfl⟩ := List.cons.inj h
    exact absurd rfl (escapes _ _ rfl)

theorem stringBody_code (rest : source.rest = '\\' :: 'u' :: (Text.hexadecimal 4 c.toNat ++ tail))
    (further : tail ≠ []) (control : c.toNat < 0x20) :
    stringBody start (fuel + 1) source read =
      stringBody start fuel ((source.drop 2).drop 4) (c :: read) := by
  have width := length_hexadecimal c.toNat control
  have digits : (source.drop 2).rest = Text.hexadecimal 4 c.toNat ++ tail :=
    rest_drop ['\\', 'u'] rest
  have code : unicodeEscape (source.drop 2) = .ok c.toNat := by
    have longer : ¬ (Text.hexadecimal 4 c.toNat ++ tail).length ≤ 4 := by
      have more := List.length_pos_iff.mpr further
      rw [List.length_append, width]
      omega
    rw [unicodeEscape, digits, if_neg longer, List.take_left' width,
      hexNumber?_hexadecimal _ control]
  have high : isHighSurrogate c.toNat = false := by
    simp [isHighSurrogate]
    omega
  have low : isLowSurrogate c.toNat = false := by
    simp [isLowSurrogate]
    omega
  rw [stringBody, rest]
  simp only [bind, Except.bind, code, high, low, Bool.false_eq_true, if_false, characterOf,
    Bool.or_false, Char.ofNat_toNat]

theorem stringBody_plain (rest : source.rest = c :: tail) (noMark : c ≠ '"')
    (noEscape : c ≠ '\\') (noControl : ¬ c.toNat < 0x20) :
    stringBody start (fuel + 1) source read =
      stringBody start fuel (source.drop 1) (c :: read) := by
  rw [stringBody, rest]
  split
  · next h => cases h
  · next h => exact absurd (List.cons.inj h).1 noMark
  · next h => exact absurd (List.cons.inj h).1 noEscape
  · next h => exact absurd (List.cons.inj h).1 noEscape
  · next h => exact absurd (List.cons.inj h).1 noEscape
  · next h =>
    obtain ⟨rfl, rfl⟩ := List.cons.inj h
    rw [if_neg noControl]

/-- One escaped character is read as itself, where anything follows it, as the closing mark does. -/
theorem stringBody_escaped (start fuel : Nat) (read : List Char)
    (rest : source.rest = escaped c ++ tail) (further : tail ≠ []) :
    ∃ next : Source, next.rest = tail ∧
      stringBody start (fuel + 1) source read = stringBody start fuel next (c :: read) := by
  have simple (mark : Char) (isMark : escaped c = ['\\', mark])
      (found : simpleEscape? mark = some c) : ∃ next : Source, next.rest = tail ∧
        stringBody start (fuel + 1) source read = stringBody start fuel next (c :: read) := by
    rw [isMark] at rest
    exact ⟨source.drop 2, rest_drop ['\\', mark] rest, stringBody_simple rest found⟩
  by_cases quote : c = '"'
  · exact simple '"' (by rw [quote]; rfl) (by rw [quote]; rfl)
  by_cases backslash : c = '\\'
  · exact simple '\\' (by rw [backslash]; rfl) (by rw [backslash]; rfl)
  by_cases newline : c = '\n'
  · exact simple 'n' (by rw [newline]; rfl) (by rw [newline]; rfl)
  by_cases carriage : c = '\r'
  · exact simple 'r' (by rw [carriage]; rfl) (by rw [carriage]; rfl)
  by_cases tab : c = '\t'
  · exact simple 't' (by rw [tab]; rfl) (by rw [tab]; rfl)
  by_cases backspace : c = '\x08'
  · exact simple 'b' (by rw [backspace]; rfl) (by rw [backspace]; rfl)
  by_cases feed : c = '\x0c'
  · exact simple 'f' (by rw [feed]; rfl) (by rw [feed]; rfl)
  rw [escaped, if_neg quote, if_neg backslash, if_neg newline, if_neg carriage, if_neg tab,
    if_neg backspace, if_neg feed] at rest
  by_cases control : c.toNat < 0x20
  · rw [if_pos control] at rest
    refine ⟨(source.drop 2).drop 4, ?_, stringBody_code rest further control⟩
    rw [← length_hexadecimal _ control]
    exact rest_drop _ (rest_drop ['\\', 'u'] rest)
  · rw [if_neg control] at rest
    exact ⟨source.drop 1, rest_drop [c] rest, stringBody_plain rest quote backslash control⟩

theorem reads_stringBody (start fuel : Nat) (source : Source) (read content : List Char)
    (rest : source.rest = content.flatMap escaped ++ '"' :: tail) (enough : content.length < fuel) :
    Reads (stringBody start fuel source read) (String.ofList (read.reverse ++ content)) tail := by
  obtain ⟨left, rfl⟩ : ∃ left, fuel = left + 1 := ⟨fuel - 1, by omega⟩
  induction content generalizing left source read with
  | nil =>
    refine ⟨source.position + 1, ?_⟩
    rw [List.flatMap_nil, List.nil_append] at rest
    simp [stringBody, rest, Source.drop]
  | cons c further induction =>
    rw [List.flatMap_cons, List.append_assoc] at rest
    rw [List.length_cons] at enough
    obtain ⟨fewer, rfl⟩ : ∃ fewer, left = fewer + 1 := ⟨left - 1, by omega⟩
    obtain ⟨next, nextRest, step⟩ := stringBody_escaped start (fewer + 1) read rest (by simp)
    rw [step]
    have reads := induction next (c :: read) nextRest fewer (by omega)
    rwa [List.reverse_cons, List.append_assoc] at reads

/-! ## Numbers -/

theorem isDecimalDigit_of_isDigit {c : Char} (digit : c.isDigit = true) :
    isDecimalDigit c = true := by
  simpa [isDecimalDigit, Char.isDigit, Char.le_def] using digit

theorem decimalValue_toDigits (number : Nat) : decimalValue (Nat.toDigits 10 number) = number :=
  Nat.ofDigitChars_eq_foldl.symm.trans Nat.ofDigitChars_ten_toDigits

theorem head?_toDigits (number : Nat) (positive : 0 < number) :
    (Nat.toDigits 10 number).head? ≠ some '0' := by
  induction number using Nat.strongRecOn with
  | ind number induction =>
    rw [Nat.toDigits_eq_if (by decide)]
    split
    · next small =>
      have digits : ∀ digit < 10, 0 < digit → [Nat.digitChar digit].head? ≠ some '0' := by
        decide
      exact digits number small positive
    · next large =>
      have shorter := induction (number / 10) (by omega) (by omega)
      rwa [List.head?_append, Option.or_of_isSome]
      rw [List.isSome_head?]
      exact Nat.toDigits_ne_nil

/-- What follows a number and does not go on with it. -/
def EndsNumber (rest : List Char) : Prop :=
  ∀ c ∈ rest.head?, isDecimalDigit c = false ∧ c ≠ '.' ∧ c ≠ 'e' ∧ c ≠ 'E'

theorem isDecimalDigit_of_mem_toDigits (number : Nat) :
    ∀ c ∈ Nat.toDigits 10 number, isDecimalDigit c = true :=
  fun _ member =>
    isDecimalDigit_of_isDigit (Nat.isDigit_of_mem_toDigits (by decide) (by decide) member)

theorem takeWhile_digits (number : Nat) (ends : EndsNumber tail) :
    (Nat.toDigits 10 number ++ tail).takeWhile isDecimalDigit = Nat.toDigits 10 number := by
  rw [List.takeWhile_append_of_pos (isDecimalDigit_of_mem_toDigits number)]
  cases tail with
  | nil => simp
  | cons c further =>
    rw [List.takeWhile_cons_of_neg (by simp [(ends c rfl).1]), List.append_nil]

theorem fractionDigits_eq_nil (ends : EndsNumber tail) : fractionDigits tail = [] := by
  rw [fractionDigits.eq_def]
  split
  · exact absurd rfl (ends '.' rfl).2.1
  · rfl

theorem exponentParts_eq_none (ends : EndsNumber tail) : exponentParts tail = none := by
  cases tail with
  | nil => rfl
  | cons c further =>
    have follows := ends c rfl
    rw [exponentParts.eq_def]
    exact if_neg (not_or.mpr ⟨follows.2.2.1, follows.2.2.2⟩)

/-- The digits of a number are read up to its end, where a zero stands alone. -/
theorem number?_digits (number : Nat) (negative : Bool) (unsigned : Source)
    (sign : (source.rest.head? == some '-') = negative)
    (behindSign : (if negative then source.drop 1 else source) = unsigned)
    (rest : unsigned.rest = Nat.toDigits 10 number ++ tail) (ends : EndsNumber tail) :
    ∃ next : Source, next.rest = tail ∧
      number? source = some (.int (if negative then -number else number), next) := by
  have afterWhole := rest_drop _ rest
  refine ⟨unsigned.drop (Nat.toDigits 10 number).length, afterWhole, ?_⟩
  have value := decimalValue_toDigits number
  have whole := takeWhile_digits number ends
  rcases Nat.eq_zero_or_pos number with rfl | positive
  · rw [Nat.toDigits_zero, List.length_singleton] at afterWhole
    rw [Nat.toDigits_zero, List.singleton_append] at rest
    simp [number?, sign, behindSign, rest, afterWhole, fractionDigits_eq_nil ends,
      exponentParts_eq_none ends, decimalValue]
  · have unzero := head?_toDigits number positive
    cases digits : Nat.toDigits 10 number with
    | nil => exact absurd digits Nat.toDigits_ne_nil
    | cons c further =>
      rw [digits] at rest afterWhole value whole unzero
      have notZero : c ≠ '0' := fun zero => unzero (congrArg some zero)
      rw [List.cons_append] at rest whole
      rw [List.length_cons] at afterWhole
      simp [number?, sign, behindSign, rest, afterWhole, value, whole, fractionDigits_eq_nil ends,
        exponentParts_eq_none ends, notZero]

theorem exists_toDigits_eq_cons (number : Nat) :
    ∃ c further, Nat.toDigits 10 number = c :: further ∧ isDecimalDigit c = true := by
  cases digits : Nat.toDigits 10 number with
  | nil => exact absurd digits Nat.toDigits_ne_nil
  | cons c further =>
    refine ⟨c, further, rfl, isDecimalDigit_of_mem_toDigits number c ?_⟩
    rw [digits]
    exact List.mem_cons_self

theorem ne_of_isDecimalDigit {c other : Char} (digit : isDecimalDigit c = true)
    (noDigit : isDecimalDigit other = false) : c ≠ other := by
  rintro rfl
  rw [digit] at noDigit
  cases noDigit

theorem head?_toDigits_ne_minus (number : Nat) :
    ((Nat.toDigits 10 number ++ tail).head? == some '-') = false := by
  obtain ⟨c, further, digits, digit⟩ := exists_toDigits_eq_cons number
  have unsigned : c ≠ '-' := ne_of_isDecimalDigit digit rfl
  simp [digits, unsigned]

theorem exists_toString_eq_cons (number : Int) :
    ∃ c further, (toString number).toList = c :: further ∧
      (isDecimalDigit c = true ∨ c = '-') := by
  rw [Int.toString_eq_repr, Int.repr_eq_if]
  split
  · obtain ⟨c, further, digits, digit⟩ := exists_toDigits_eq_cons number.toNat
    exact ⟨c, further, by rw [Nat.toList_repr, digits], .inl digit⟩
  · exact ⟨'-', _, String.toList_append, .inr rfl⟩

theorem ne_of_beginsInt {c other : Char} (begins : isDecimalDigit c = true ∨ c = '-')
    (noDigit : isDecimalDigit other = false) (noSign : other ≠ '-') : c ≠ other := by
  rcases begins with digit | rfl
  · exact ne_of_isDecimalDigit digit noDigit
  · exact noSign.symm

theorem number?_int (number : Int) (rest : source.rest = (toString number).toList ++ tail)
    (ends : EndsNumber tail) :
    ∃ next : Source, next.rest = tail ∧ number? source = some (.int number, next) := by
  rw [Int.toString_eq_repr, Int.repr_eq_if] at rest
  by_cases natural : 0 ≤ number
  · rw [if_pos natural, Nat.toList_repr] at rest
    have unsigned : (source.rest.head? == some '-') = false := by
      rw [rest]
      exact head?_toDigits_ne_minus _
    obtain ⟨next, nextRest, found⟩ :=
      number?_digits number.toNat false source unsigned (if_neg Bool.false_ne_true) rest ends
    rw [if_neg Bool.false_ne_true, Int.toNat_of_nonneg natural] at found
    exact ⟨next, nextRest, found⟩
  · rw [if_neg natural, String.toList_append, Nat.toList_repr] at rest
    have signed : (source.rest.head? == some '-') = true := by
      rw [rest]
      rfl
    have digits : (source.drop 1).rest = Nat.toDigits 10 (-number).toNat ++ tail :=
      rest_drop ['-'] rest
    obtain ⟨next, nextRest, found⟩ :=
      number?_digits (-number).toNat true (source.drop 1) signed (if_pos rfl) digits ends
    rw [if_pos rfl, Int.toNat_of_nonneg (by omega), Int.neg_neg] at found
    exact ⟨next, nextRest, found⟩

theorem word?_int (number : Int) (rest : source.rest = (toString number).toList ++ tail) :
    word? source = none := by
  rw [Int.toString_eq_repr, Int.repr_eq_if] at rest
  by_cases natural : 0 ≤ number
  · obtain ⟨c, further, digits, digit⟩ := exists_toDigits_eq_cons number.toNat
    rw [if_pos natural, Nat.toList_repr, digits, List.cons_append] at rest
    have differs (other : Char) (noDigit : isDecimalDigit other = false) : (other == c) = false :=
      beq_eq_false_iff_ne.mpr (ne_of_isDecimalDigit digit noDigit).symm
    simp [word?, words, rest, List.isPrefixOf, differs 'n' rfl, differs 't' rfl, differs 'f' rfl,
      differs 'N' rfl, differs 'I' rfl, differs '-' rfl]
  · obtain ⟨c, further, digits, digit⟩ := exists_toDigits_eq_cons (-number).toNat
    rw [if_neg natural, String.toList_append, Nat.toList_repr, digits] at rest
    have signed : source.rest = '-' :: c :: (further ++ tail) := rest
    have differs : ('I' == c) = false :=
      beq_eq_false_iff_ne.mpr (ne_of_isDecimalDigit digit rfl).symm
    simp [word?, words, signed, List.isPrefixOf, differs]

/-! ## Blanks -/

/-- The characters between the parts of a JSON text. -/
def IsSpace (c : Char) : Prop :=
  c = ' ' ∨ c = '\t' ∨ c = '\n' ∨ c = '\r'

theorem rest_skipBlanks (spaces : List Char) (rest : source.rest = spaces ++ tail)
    (blank : ∀ c ∈ spaces, IsSpace c) (begins : ∀ c ∈ tail.head?, ¬ IsSpace c) :
    source.skipBlanks.rest = tail := by
  have passed :
      source.rest.takeWhile (fun c => c = ' ' ∨ c = '\t' ∨ c = '\n' ∨ c = '\r') = spaces := by
    rw [rest, List.takeWhile_append_of_pos fun c member => by simpa [IsSpace] using blank c member]
    cases tail with
    | nil => simp
    | cons c further =>
      rw [List.takeWhile_cons_of_neg (by simpa [IsSpace] using begins c rfl), List.append_nil]
  rw [Source.skipBlanks, passed]
  exact rest_drop spaces rest

theorem not_isSpace_of_mem_head_cons {mark : Char} {further : List Char}
    (noSpace : ¬ IsSpace mark) :
    ∀ c ∈ (mark :: further).head?, ¬ IsSpace c := by
  rintro _ ⟨⟩
  exact noSpace

theorem rest_skipBlanks_mark {mark : Char} {further : List Char}
    (rest : source.rest = mark :: further) (noSpace : ¬ IsSpace mark) :
    source.skipBlanks.rest = mark :: further :=
  rest_skipBlanks [] rest (by simp) (not_isSpace_of_mem_head_cons noSpace)

namespace Layout

theorem isSpace_of_mem_lineBreak (layout : Layout) (depth : Nat) :
    ∀ c ∈ (layout.lineBreak depth).toList, IsSpace c := by
  intro c member
  cases layout with
  | oneLine => simp [lineBreak] at member
  | indented width =>
    simp only [lineBreak, String.toList_ofList, List.mem_cons, List.mem_replicate] at member
    rcases member with rfl | ⟨-, rfl⟩
    · exact .inr (.inr (.inl rfl))
    · exact .inl rfl

theorem comma_eq (layout : Layout) (depth : Nat) :
    ∃ spaces, (layout.comma depth).toList = ',' :: spaces ∧ ∀ c ∈ spaces, IsSpace c := by
  cases layout with
  | oneLine =>
    refine ⟨[' '], by simp [comma], ?_⟩
    intro c member
    exact .inl (List.mem_singleton.mp member)
  | indented width =>
    refine ⟨_, ?_, isSpace_of_mem_lineBreak (.indented width) depth⟩
    simp [comma]

end Layout

end DocAudit.Json
