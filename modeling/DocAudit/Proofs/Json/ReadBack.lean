import DocAudit.Proofs.Json.Tokens

/-!
A value that is written as JSON is read as itself. This is shown for one value at a time, whatever
stands behind it, so that lists and tables follow from what they hold.
-/

namespace DocAudit.Json

variable {fuel : Nat} {source : Source} {tail : List Char}

/-! ## Values -/

/-- Values that come back as they are: no floats, whose digits are not looked into here, no tuples,
which come back as lists, and no table with a key twice. -/
inductive IsPlain : Value → Prop where
  | null : IsPlain .null
  | bool (truth : Bool) : IsPlain (.bool truth)
  | int (number : Int) : IsPlain (.int number)
  | text (content : String) : IsPlain (.text content)
  | list (items : List Value) (each : ∀ item ∈ items, IsPlain item) : IsPlain (.list items)
  | table (entries : Entries) (distinct : entries.keys.Nodup)
      (each : ∀ entry ∈ entries, IsPlain entry.2) : IsPlain (.table entries)

/-- How the text of a value begins: neither with a blank nor with a mark that ends a list. -/
def BeginsValue (text : List Char) : Prop :=
  ∃ c further, text = c :: further ∧ ¬ IsSpace c ∧ c ≠ ']' ∧ c ≠ '\uFEFF'

theorem beginsValue_text {value : Value} (plain : IsPlain value) (layout : Layout) (depth : Nat) :
    BeginsValue (text layout depth value).toList := by
  cases plain with
  | null =>
    rw [text]
    exact ⟨'n', _, rfl, by simp [IsSpace]⟩
  | bool truth =>
    rw [text]
    cases truth with
    | false => exact ⟨'f', _, rfl, by simp [IsSpace]⟩
    | true => exact ⟨'t', _, rfl, by simp [IsSpace]⟩
  | int number =>
    rw [text]
    obtain ⟨c, further, digits, begins⟩ := exists_toString_eq_cons number
    have differs {other : Char} (noDigit : isDecimalDigit other = false) (noSign : other ≠ '-') :
        c ≠ other := ne_of_beginsInt begins noDigit noSign
    refine ⟨c, further, digits, ?_, differs rfl (by decide), differs rfl (by decide)⟩
    rintro (rfl | rfl | rfl | rfl) <;> exact differs rfl (by decide) rfl
  | text content =>
    rw [text, stringText, String.toList_ofList]
    exact ⟨'"', _, rfl, by simp [IsSpace]⟩
  | list items each =>
    rw [text]
    split
    · exact ⟨'[', _, rfl, by simp [IsSpace]⟩
    · simp only [Layout.enclosed, String.toList_append]
      exact ⟨'[', _, rfl, by simp [IsSpace]⟩
  | table entries distinct each =>
    rw [text]
    split
    · exact ⟨'\x7b', _, rfl, by simp [IsSpace]⟩
    · simp only [Layout.enclosed, String.toList_append]
      exact ⟨'\x7b', _, rfl, by simp [IsSpace]⟩

/-- A value reads back from its text, whatever follows, with enough fuel for the text. -/
def ReadsBack (value : Value) : Prop :=
  ∀ (layout : Layout) (depth fuel : Nat) (source : Source) (tail : List Char),
    source.rest = (text layout depth value).toList ++ tail → EndsNumber tail →
    (text layout depth value).toList.length < fuel → Reads (Json.value fuel source) value tail

theorem endsNumber_cons {c : Char} {further : List Char} (noDigit : isDecimalDigit c = false)
    (noPoint : c ≠ '.') (noMark : c ≠ 'e' ∧ c ≠ 'E') : EndsNumber (c :: further) := by
  rintro _ ⟨⟩
  exact ⟨noDigit, noPoint, noMark⟩

/-- Blanks and the mark behind them end a number. -/
theorem endsNumber_spaces {spaces : List Char} (blank : ∀ c ∈ spaces, IsSpace c)
    (ends : EndsNumber tail) : EndsNumber (spaces ++ tail) := by
  cases spaces with
  | nil => exact ends
  | cons c further =>
    rcases blank c List.mem_cons_self with rfl | rfl | rfl | rfl <;>
      exact endsNumber_cons rfl (by decide) (by decide)

/-- Words and numbers are read where no string, list or table begins. -/
theorem value_of_word {value : Value} {next : Source} {c : Char} {further : List Char}
    (rest : source.rest = c :: further) (bare : c ≠ '"' ∧ c ≠ '[' ∧ c ≠ '\x7b')
    (found : (word? source).orElse (fun _ => number? source) = some (value, next)) :
    Json.value (fuel + 1) source = .ok (value, next) := by
  rw [Json.value, rest]
  split
  · next h => exact absurd (List.cons.inj h).1 bare.1
  · next h => exact absurd (List.cons.inj h).1 bare.2.2
  · next h => exact absurd (List.cons.inj h).1 bare.2.1
  · simp only [found]

theorem reads_word (word : String) {value : Value} {c : Char} {further : List Char}
    (rest : source.rest = word.toList ++ tail) (begins : word.toList = c :: further)
    (bare : c ≠ '"' ∧ c ≠ '[' ∧ c ≠ '\x7b')
    (found : word? source = some (value, source.drop word.length)) :
    Reads (Json.value (fuel + 1) source) value tail := by
  have after := rest_drop word.toList rest
  rw [String.length_toList] at after
  rw [begins] at rest
  refine ⟨source.position + word.length, ?_⟩
  rw [← after]
  exact value_of_word rest bare (by rw [found]; rfl)

theorem readsBack_null : ReadsBack .null := by
  intro layout depth fuel source tail rest ends enough
  rw [text] at rest enough
  obtain ⟨left, rfl⟩ := Nat.exists_eq_add_of_lt enough
  have begins : source.rest = 'n' :: 'u' :: 'l' :: 'l' :: tail := rest
  apply reads_word "null" rest rfl (by decide)
  simp [word?, words, begins, List.isPrefixOf]

theorem readsBack_bool (truth : Bool) : ReadsBack (.bool truth) := by
  intro layout depth fuel source tail rest ends enough
  rw [text] at rest enough
  obtain ⟨left, rfl⟩ := Nat.exists_eq_add_of_lt enough
  cases truth with
  | false =>
    have begins : source.rest = 'f' :: 'a' :: 'l' :: 's' :: 'e' :: tail := rest
    apply reads_word "false" rest rfl (by decide)
    simp [word?, words, begins, List.isPrefixOf]
  | true =>
    have begins : source.rest = 't' :: 'r' :: 'u' :: 'e' :: tail := rest
    apply reads_word "true" rest rfl (by decide)
    simp [word?, words, begins, List.isPrefixOf]

theorem readsBack_int (number : Int) : ReadsBack (.int number) := by
  intro layout depth fuel source tail rest ends enough
  rw [text] at rest enough
  obtain ⟨left, rfl⟩ := Nat.exists_eq_add_of_lt enough
  obtain ⟨⟨position, _⟩, rfl, found⟩ := number?_int number rest ends
  obtain ⟨c, further, digits, begins⟩ := exists_toString_eq_cons number
  have differs {other : Char} (noDigit : isDecimalDigit other = false) (noSign : other ≠ '-') :
      c ≠ other := ne_of_beginsInt begins noDigit noSign
  refine ⟨position, value_of_word (rest.trans (congrArg (· ++ _) digits))
    ⟨differs rfl (by decide), differs rfl (by decide), differs rfl (by decide)⟩ ?_⟩
  rw [word?_int number rest]
  exact found

theorem length_le_flatMap_escaped (content : List Char) :
    content.length ≤ (content.flatMap escaped).length := by
  induction content with
  | nil => exact Nat.le_refl 0
  | cons c further induction =>
    have one : 0 < (escaped c).length := by
      unfold escaped
      repeat' split
      all_goals exact Nat.zero_lt_succ _
    rw [List.flatMap_cons, List.length_append, List.length_cons]
    omega

theorem reads_string {content : String} (rest : source.rest = (stringText content).toList ++ tail)
    (enough : (stringText content).toList.length ≤ fuel) :
    Reads (string fuel (source.drop 1)) content tail := by
  rw [stringText, String.toList_ofList] at rest enough
  have opened : source.rest = '"' :: (content.toList.flatMap escaped ++ '"' :: tail) := by
    rw [rest, List.cons_append, List.cons_append, List.append_assoc, List.singleton_append]
  have body := rest_drop ['"'] opened
  have length := length_le_flatMap_escaped content.toList
  have reads := reads_stringBody ((source.drop 1).position - 1) fuel (source.drop 1) []
    content.toList body (by simp at enough length ⊢; omega)
  rwa [List.reverse_nil, List.nil_append, String.ofList_toList] at reads

theorem readsBack_text (content : String) : ReadsBack (.text content) := by
  intro layout depth fuel source tail rest ends enough
  rw [text] at rest enough
  obtain ⟨left, rfl⟩ := Nat.exists_eq_add_of_lt enough
  obtain ⟨further, begins⟩ : ∃ further, source.rest = '"' :: further := by
    rw [rest, stringText, String.toList_ofList]
    exact ⟨_, rfl⟩
  obtain ⟨position, read⟩ := reads_string rest (Nat.le_of_lt enough)
  refine ⟨position, ?_⟩
  rw [Json.value, begins]
  simp only [bind, Except.bind, read]
  rfl

/-! ## Lists and tables -/

theorem BeginsValue.not_isSpace_of_mem_head {text : List Char} (begins : BeginsValue text)
    (tail : List Char) :
    ∀ c ∈ (text ++ tail).head?, ¬ IsSpace c := by
  obtain ⟨c, further, rfl, noSpace, -⟩ := begins
  exact not_isSpace_of_mem_head_cons noSpace

/-- A comma and the blanks behind it lead to the next part. -/
theorem rest_behind_comma (source : Source) {gap part : List Char}
    (rest : source.rest = ',' :: (gap ++ part)) (blank : ∀ c ∈ gap, IsSpace c)
    (begins : ∀ c ∈ part.head?, ¬ IsSpace c) :
    source.skipBlanks.rest = ',' :: (gap ++ part) ∧
      (source.skipBlanks.drop 1).skipBlanks.rest = part := by
  have mark := rest_skipBlanks_mark rest (by simp [IsSpace])
  exact ⟨mark, rest_skipBlanks gap (rest_drop [','] mark) blank begins⟩

theorem elementsText_cons_cons (layout : Layout) (depth : Nat) (item next : Value)
    (rest : List Value) :
    elementsText layout depth (item :: next :: rest) =
      text layout depth item ++ layout.comma depth ++ elementsText layout depth (next :: rest) := by
  rw [elementsText]
  simp

/-- The text of elements begins like that of the first of them. -/
theorem exists_elementsText_eq (layout : Layout) (depth : Nat) (item : Value) (rest : List Value) :
    ∃ further, (elementsText layout depth (item :: rest)).toList =
      (text layout depth item).toList ++ further := by
  cases rest with
  | nil => exact ⟨[], by rw [elementsText, List.append_nil]⟩
  | cons next rest =>
    rw [elementsText_cons_cons, String.toList_append, String.toList_append, List.append_assoc]
    exact ⟨_, rfl⟩

theorem beginsValue_elementsText {first : Value} (items : List Value) (plain : IsPlain first)
    (layout : Layout) (depth : Nat) :
    BeginsValue (elementsText layout depth (first :: items)).toList := by
  obtain ⟨further, begins⟩ := exists_elementsText_eq layout depth first items
  obtain ⟨c, rest, text, visible⟩ := beginsValue_text plain layout depth
  exact ⟨c, rest ++ further, by rw [begins, text]; rfl, visible⟩

theorem reads_drop_one {α : Type} (content : α) {mark : Char} (rest : source.rest = mark :: tail) :
    Reads (.ok (content, source.drop 1)) content tail := by
  refine ⟨source.position + 1, ?_⟩
  rw [← rest_drop [mark] rest]
  rfl

theorem reads_elements (layout : Layout) (depth fuel : Nat) (first : Value) (items : List Value)
    (plain : ∀ item ∈ first :: items, IsPlain item)
    (back : ∀ item ∈ first :: items, ReadsBack item) {spaces : List Char}
    (blank : ∀ c ∈ spaces, IsSpace c)
    (rest : source.rest =
      (elementsText layout depth (first :: items)).toList ++ (spaces ++ ']' :: tail))
    (enough : (elementsText layout depth (first :: items)).toList.length + 1 < fuel)
    (done : List Value) :
    Reads (elements fuel source done) (.list (done.reverse ++ first :: items)) tail := by
  -- Each element that is read takes one step of the fuel and at least one character of the text,
  -- so what is left of the one stays above what is left of the other.
  obtain ⟨left, rfl⟩ : ∃ left, fuel = left + 1 := ⟨fuel - 1, by omega⟩
  induction items generalizing first left source done with
  | nil =>
    rw [elementsText] at rest enough
    have ends : EndsNumber (spaces ++ ']' :: tail) :=
      endsNumber_spaces blank (endsNumber_cons rfl (by decide) (by decide))
    obtain ⟨position, read⟩ := back first List.mem_cons_self layout depth left source _ rest ends
      (by omega)
    have close : (Source.mk position (spaces ++ ']' :: tail)).skipBlanks.rest = ']' :: tail :=
      rest_skipBlanks spaces rfl blank (not_isSpace_of_mem_head_cons (by simp [IsSpace]))
    have finished := reads_drop_one (Value.list (first :: done).reverse) close
    rw [elements]
    simp only [bind, Except.bind, read, close]
    rwa [List.reverse_cons] at finished ⊢
  | cons next items induction =>
    obtain ⟨gap, comma, gapBlank⟩ := layout.comma_eq depth
    rw [elementsText_cons_cons, String.toList_append, String.toList_append, comma,
      List.append_assoc, List.append_assoc, List.cons_append] at rest
    rw [elementsText_cons_cons, String.toList_append, String.toList_append, comma,
      List.length_append, List.length_append, List.length_cons] at enough
    obtain ⟨position, read⟩ := back first List.mem_cons_self layout depth left source _ rest
      (endsNumber_cons rfl (by decide) (by decide)) (by omega)
    have nextBegins := beginsValue_elementsText items (plain next (by simp)) layout depth
    obtain ⟨-, nextRest⟩ :=
      rest_behind_comma ⟨position, _⟩ rfl gapBlank (nextBegins.not_isSpace_of_mem_head _)
    obtain ⟨inner, rfl⟩ : ∃ inner, left = inner + 1 := ⟨left - 1, by omega⟩
    rw [elements]
    simp only [bind, Except.bind, read]
    have reads := induction next (fun item member => plain item (List.mem_cons_of_mem _ member))
      (fun item member => back item (List.mem_cons_of_mem _ member)) nextRest (first :: done) inner
      (by omega)
    rwa [List.reverse_cons, List.append_assoc] at reads

theorem readsBack_list (items : List Value) (plain : ∀ item ∈ items, IsPlain item)
    (back : ∀ item ∈ items, ReadsBack item) : ReadsBack (.list items) := by
  intro layout depth fuel source tail rest ends enough
  rw [text] at rest enough
  obtain ⟨left, rfl⟩ : ∃ left, fuel = left + 1 := ⟨fuel - 1, by omega⟩
  cases items with
  | nil =>
    rw [List.isEmpty_nil, if_pos rfl] at rest
    have opened : source.rest = '[' :: ']' :: tail := rest
    have inside : (source.drop 1).skipBlanks.rest = ']' :: tail :=
      rest_skipBlanks_mark (rest_drop ['['] opened) (by simp [IsSpace])
    rw [Json.value, opened]
    simp only [inside, List.head?_cons, if_true]
    exact reads_drop_one _ inside
  | cons first items =>
    rw [List.isEmpty_cons, if_neg Bool.false_ne_true] at rest enough
    simp only [Layout.enclosed, String.toList_append, List.append_assoc] at rest
    simp only [Layout.enclosed, String.toList_append, List.length_append] at enough
    have begins := beginsValue_elementsText items (plain first List.mem_cons_self) layout
      (depth + 1)
    have inside : (source.drop 1).skipBlanks.rest =
        (elementsText layout (depth + 1) (first :: items)).toList ++
          ((layout.lineBreak depth).toList ++ ']' :: tail) :=
      rest_skipBlanks _ (rest_drop ['['] rest) (layout.isSpace_of_mem_lineBreak (depth + 1))
        (begins.not_isSpace_of_mem_head _)
    have notClosed : (source.drop 1).skipBlanks.rest.head? ≠ some ']' := by
      obtain ⟨c, further, text, -, noMark, -⟩ := begins
      rw [inside, text]
      exact fun closed => noMark (Option.some.inj closed)
    obtain ⟨further, opened⟩ : ∃ further, source.rest = '[' :: further := ⟨_, rest⟩
    rw [Json.value, opened]
    simp only [if_neg notClosed]
    exact reads_elements layout (depth + 1) left first items plain back
      (layout.isSpace_of_mem_lineBreak depth) inside (by simp at enough ⊢; omega) []

theorem membersText_cons_cons (layout : Layout) (depth : Nat) (key : String) (item : Value)
    (next : String × Value) (rest : Entries) :
    membersText layout depth ((key, item) :: next :: rest) =
      stringText key ++ ": " ++ text layout depth item ++ layout.comma depth ++
        membersText layout depth (next :: rest) := by
  rw [membersText]
  simp

/-- The text of members begins with the mark of the first key. -/
theorem exists_membersText_eq (layout : Layout) (depth : Nat) (first : String × Value)
    (rest : Entries) :
    ∃ further, (membersText layout depth (first :: rest)).toList = '"' :: further := by
  obtain ⟨key, item⟩ := first
  cases rest with
  | nil =>
    rw [membersText]
    simp only [stringText, String.toList_append, String.toList_ofList]
    exact ⟨_, rfl⟩
  | cons next rest =>
    rw [membersText_cons_cons]
    simp only [stringText, String.toList_append, String.toList_ofList]
    exact ⟨_, rfl⟩

/-- One member is read, and what follows it decides how reading goes on. -/
theorem members_of_member {layout : Layout} {depth : Nat} (left : Nat) {key : String}
    {item : Value} {further : List Char} (plain : IsPlain item) (back : ReadsBack item)
    (rest : source.rest = (stringText key).toList ++
      (':' :: ' ' :: ((text layout depth item).toList ++ further)))
    (ends : EndsNumber further)
    (enoughKey : (stringText key).toList.length ≤ left + 1)
    (enough : (text layout depth item).toList.length < left) (done : Entries) :
    ∃ position, members (left + 1) source done =
      let next := (Source.mk position further).skipBlanks
      match next.rest with
      | '\x7d' :: _ => .ok (.table (Entries.ofList ((key, item) :: done).reverse), next.drop 1)
      | ',' :: _ => members left (next.drop 1).skipBlanks ((key, item) :: done)
      | _ => next.stop .expectedComma := by
  have opened : source.rest.head? = some '"' := by
    rw [rest, stringText, String.toList_ofList]
    rfl
  obtain ⟨keyEnd, readKey⟩ := reads_string rest enoughKey
  generalize behindKey : Source.mk keyEnd _ = afterKey at readKey
  have colon : afterKey.skipBlanks.rest =
      ':' :: ' ' :: ((text layout depth item).toList ++ further) :=
    rest_skipBlanks_mark (behindKey ▸ rfl) (by simp [IsSpace])
  have content : (afterKey.skipBlanks.drop 1).skipBlanks.rest =
      (text layout depth item).toList ++ further :=
    rest_skipBlanks [' '] (rest_drop [':'] colon) (by simp [IsSpace])
      ((beginsValue_text plain layout depth).not_isSpace_of_mem_head _)
  obtain ⟨position, read⟩ := back layout depth left _ further content ends enough
  refine ⟨position, ?_⟩
  rw [members]
  simp only [bind, Except.bind, opened, readKey, colon, read, ne_eq, not_true_eq_false, if_false,
    List.head?_cons]
  rfl

theorem reads_members (layout : Layout) (depth fuel : Nat) (first : String × Value)
    (entries : Entries) (plain : ∀ entry ∈ first :: entries, IsPlain entry.2)
    (back : ∀ entry ∈ first :: entries, ReadsBack entry.2) {spaces : List Char}
    (blank : ∀ c ∈ spaces, IsSpace c)
    (rest : source.rest =
      (membersText layout depth (first :: entries)).toList ++ (spaces ++ '\x7d' :: tail))
    (enough : (membersText layout depth (first :: entries)).toList.length + 1 < fuel)
    (done : Entries) :
    Reads (members fuel source done) (.table (Entries.ofList (done.reverse ++ first :: entries)))
      tail := by
  -- The induction is that of `reads_elements`, with a key in front of each value.
  obtain ⟨left, rfl⟩ : ∃ left, fuel = left + 1 := ⟨fuel - 1, by omega⟩
  induction entries generalizing first left source done with
  | nil =>
    obtain ⟨key, item⟩ := first
    rw [membersText, String.toList_append, String.toList_append] at rest enough
    have ends : EndsNumber (spaces ++ '\x7d' :: tail) :=
      endsNumber_spaces blank (endsNumber_cons rfl (by decide) (by decide))
    simp only [List.append_assoc] at rest
    simp only [List.length_append] at enough
    obtain ⟨position, read⟩ := members_of_member left (plain (key, item) List.mem_cons_self)
      (back (key, item) List.mem_cons_self) rest ends (by omega) (by dsimp only; omega) done
    have close : (Source.mk position (spaces ++ '\x7d' :: tail)).skipBlanks.rest = '\x7d' :: tail :=
      rest_skipBlanks spaces rfl blank (not_isSpace_of_mem_head_cons (by simp [IsSpace]))
    have finished :=
      reads_drop_one (Value.table (Entries.ofList ((key, item) :: done).reverse)) close
    rw [read]
    simp only [close]
    rwa [List.reverse_cons] at finished ⊢
  | cons next entries induction =>
    obtain ⟨key, item⟩ := first
    obtain ⟨gap, comma, gapBlank⟩ := layout.comma_eq depth
    obtain ⟨further, begins⟩ := exists_membersText_eq layout depth next entries
    simp only [membersText_cons_cons, String.toList_append, comma, List.append_assoc,
      List.cons_append] at rest
    simp only [membersText_cons_cons, String.toList_append, comma, List.length_append,
      List.length_cons] at enough
    obtain ⟨position, read⟩ := members_of_member left (plain (key, item) List.mem_cons_self)
      (back (key, item) List.mem_cons_self) rest (endsNumber_cons rfl (by decide) (by decide))
      (by omega) (by dsimp only; omega) done
    have nextBegins : ∀ c ∈ ((membersText layout depth (next :: entries)).toList ++
        (spaces ++ '\x7d' :: tail)).head?, ¬ IsSpace c := by
      rw [begins]
      exact not_isSpace_of_mem_head_cons (by simp [IsSpace])
    obtain ⟨mark, nextRest⟩ := rest_behind_comma ⟨position, _⟩ rfl gapBlank nextBegins
    obtain ⟨inner, rfl⟩ : ∃ inner, left = inner + 1 := ⟨left - 1, by omega⟩
    rw [read]
    simp only [mark]
    have reads := induction next (fun entry member => plain entry (List.mem_cons_of_mem _ member))
      (fun entry member => back entry (List.mem_cons_of_mem _ member)) nextRest
      ((key, item) :: done) inner (by omega)
    rwa [List.reverse_cons, List.append_assoc] at reads

/-- Entries of distinct keys stay as they are. -/
theorem foldl_insert (before after : Entries) (distinct : (before ++ after).keys.Nodup) :
    after.foldl (fun entries (entry : String × Value) => entries.insert entry.1 entry.2) before =
      before ++ after := by
  induction after generalizing before with
  | nil => rw [List.foldl_nil, List.append_nil]
  | cons entry rest induction =>
    have fresh : before.any (·.1 == entry.1) = false := by
      rw [Entries.keys, List.map_append, List.nodup_append] at distinct
      rw [List.any_eq_false]
      intro other member same
      exact distinct.2.2 _ (List.mem_map_of_mem member) _ List.mem_cons_self (eq_of_beq same)
    rw [List.foldl_cons, Entries.insert, if_neg (by simp [fresh]),
      induction (before ++ [entry]) (by simpa using distinct), List.append_assoc]
    rfl

theorem ofList_of_nodup (entries : Entries) (distinct : entries.keys.Nodup) :
    Entries.ofList entries = entries :=
  foldl_insert [] entries distinct

theorem readsBack_table (entries : Entries) (distinct : entries.keys.Nodup)
    (plain : ∀ entry ∈ entries, IsPlain entry.2) (back : ∀ entry ∈ entries, ReadsBack entry.2) :
    ReadsBack (.table entries) := by
  intro layout depth fuel source tail rest ends enough
  rw [text] at rest enough
  obtain ⟨left, rfl⟩ : ∃ left, fuel = left + 1 := ⟨fuel - 1, by omega⟩
  cases entries with
  | nil =>
    rw [List.isEmpty_nil, if_pos rfl] at rest
    have opened : source.rest = '\x7b' :: '\x7d' :: tail := rest
    have inside : (source.drop 1).skipBlanks.rest = '\x7d' :: tail :=
      rest_skipBlanks_mark (rest_drop ['\x7b'] opened) (by simp [IsSpace])
    rw [Json.value, opened]
    simp only [inside, List.head?_cons, if_true]
    exact reads_drop_one _ inside
  | cons first entries =>
    rw [List.isEmpty_cons, if_neg Bool.false_ne_true] at rest enough
    simp only [Layout.enclosed, String.toList_append, List.append_assoc] at rest
    simp only [Layout.enclosed, String.toList_append, List.length_append] at enough
    obtain ⟨further, begins⟩ := exists_membersText_eq layout (depth + 1) first entries
    have inside : (source.drop 1).skipBlanks.rest =
        (membersText layout (depth + 1) (first :: entries)).toList ++
          ((layout.lineBreak depth).toList ++ '\x7d' :: tail) := by
      apply rest_skipBlanks _ (rest_drop ['\x7b'] rest)
        (layout.isSpace_of_mem_lineBreak (depth + 1))
      rw [begins]
      exact not_isSpace_of_mem_head_cons (by simp [IsSpace])
    have notClosed : (source.drop 1).skipBlanks.rest.head? ≠ some '\x7d' := by
      rw [inside, begins]
      simp
    obtain ⟨behind, opened⟩ : ∃ behind, source.rest = '\x7b' :: behind := ⟨_, rest⟩
    rw [Json.value, opened]
    simp only [if_neg notClosed]
    have reads := reads_members layout (depth + 1) left first entries plain back
      (layout.isSpace_of_mem_lineBreak depth) inside (by simp at enough ⊢; omega) []
    rwa [List.reverse_nil, List.nil_append, ofList_of_nodup _ distinct] at reads

theorem IsPlain.readsBack {value : Value} (plain : IsPlain value) : ReadsBack value := by
  induction plain with
  | null => exact readsBack_null
  | bool truth => exact readsBack_bool truth
  | int number => exact readsBack_int number
  | text content => exact readsBack_text content
  | list items each back => exact readsBack_list items each back
  | table entries distinct each back => exact readsBack_table entries distinct each back

/-- A plain value that is written as JSON is read as itself. -/
theorem parse_text {value : Value} (plain : IsPlain value) (layout : Layout) :
    parse (text layout 0 value).toList = .ok value := by
  obtain ⟨c, further, begins, noSpace, -, noMark⟩ := beginsValue_text plain layout 0
  have start : (Source.mk 0 (text layout 0 value).toList).skipBlanks.rest =
      (text layout 0 value).toList ++ [] := by
    rw [begins, List.append_nil]
    exact rest_skipBlanks_mark rfl noSpace
  obtain ⟨position, read⟩ := plain.readsBack layout 0
    (2 * (text layout 0 value).toList.length + 2) _ [] start (by rintro _ ⟨⟩) (by omega)
  have unmarked : (text layout 0 value).toList.head? ≠ some '\uFEFF' := by
    rw [begins]
    exact fun marked => noMark (Option.some.inj marked)
  rw [parse]
  simp only [bind, Except.bind, if_neg unmarked, read]
  rfl

end DocAudit.Json
