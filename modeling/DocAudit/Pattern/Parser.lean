import DocAudit.Pattern.Basic
import DocAudit.Pattern.Fault

/-!
Reading regular expressions. An expression is a row of tokens: single characters, and characters
behind a backslash. Reading goes from the left and stops at the first fault.
-/

namespace DocAudit.Pattern

abbrev Token := List Char

def tokens : List Char → List Token
  | [] => []
  | ['\\'] => [['\\']]
  | '\\' :: c :: rest => ['\\', c] :: tokens rest
  | c :: rest => [c] :: tokens rest

/-- The letters of the flags in force. -/
abbrev Flags := List Char

namespace Flags

def letters : List Char := ['i', 'L', 'm', 's', 'x', 'a', 't', 'u']

/-- Letters of which a part follows at most one. -/
def typeLetters : List Char := ['a', 'L', 'u']

/-- Letters that concern a whole expression only. -/
def globalLetters : List Char := ['t']

def within (flags added removed : Flags) : Flags :=
  let kept :=
    if added.any typeLetters.contains then flags.filter (!typeLetters.contains ·) else flags
  (kept ++ added).filter (!removed.contains ·)

def asciiOnly (flags : Flags) : Bool :=
  flags.contains 'a'

def caseMode (flags : Flags) : CaseMode :=
  if !flags.contains 'i' then .exact else if flags.asciiOnly then .ascii else .unicode

end Flags

/-- What has been read and what is known of the expression so far. Captures are numbered from one;
`closed` holds the widths of those that are complete. Inside a look-behind, `inside` is the
number of captures opened before it, and `conditions` holds the captures that conditionals name,
latest first, with the places where they do. -/
structure State where
  tokens : List Token
  position : Nat
  flags : Flags
  captures : Nat
  names : List (List Char × Nat)
  closed : List (Nat × Width)
  inside : Option Nat
  conditions : List (Nat × Nat)

abbrev Reader := StateT State (Except Stop)

namespace Reader

def stopAt {α : Type} (position : Nat) (cause : Cause) : Reader α :=
  fun _ => .error ⟨cause, some position⟩

def position : Reader Nat :=
  return (← get).position

/-- Stops `back` characters before the next token. -/
def stop {α : Type} (cause : Cause) (back : Nat) : Reader α := do
  stopAt ((← position) - back) cause

def peek : Reader (Option Token) :=
  return (← get).tokens.head?

/-- A lone backslash at the end is a fault as soon as it comes next. -/
def checkNext : Reader Unit := do
  if (← peek) = some ['\\'] then stop .danglingBackslash 0

def skip : Reader Unit := do
  modify fun state => { state with
    tokens := state.tokens.drop 1
    position := state.position + (state.tokens.head?.getD []).length }
  checkNext

def next : Reader (Option Token) := do
  let token ← peek
  skip
  return token

def accept (c : Char) : Reader Bool := do
  if (← peek) = some [c] then
    skip
    return true
  return false

/-- At most `most` characters of a class. -/
def takeClass (holds : Char → Bool) : Nat → Reader (List Char)
  | 0 => return []
  | most + 1 => do
    match ← peek with
    | some [c] =>
      if holds c then
        skip
        return c :: (← takeClass holds most)
      return []
    | _ => return []

/-- The text up to a terminator, which is read too. -/
def takeUntil (terminator : Char) (what : String) : Nat → List Char → Reader (List Char)
  | 0, _ => stop (.missing what) 0
  | fuel + 1, read => do
    match ← next with
    | none =>
      if read.isEmpty then stop (.missing what) 0
      stop (.unterminatedName terminator) read.length
    | some token =>
      if token = [terminator] then
        if read.isEmpty then stop (.missing what) 1
        return read
      takeUntil terminator what fuel (read ++ token)

def takeName (terminator : Char) (what : String) : Reader (List Char) := do
  takeUntil terminator what ((← get).tokens.length + 1) []

def checkGroupName (name : List Char) : Reader Unit := do
  if !Text.isName name then stop (.badGroupName name) (name.length + 1)

def isClosed (group : Nat) : Reader Bool :=
  return ((← get).closed.lookup group).isSome

/-- Inside a look-behind, only captures completed before it can be referred to. -/
def checkLookBehind (group : Nat) : Reader Unit := do
  match (← get).inside with
  | none => return
  | some opened =>
    if !(← isClosed group) then stop .openGroupReference 0
    if opened < group then stop .lookBehindReference 0

end Reader

open Reader

def isOctalDigit (c : Char) : Bool :=
  '0' ≤ c && c ≤ '7'

def isAsciiDigit (c : Char) : Bool :=
  '0' ≤ c && c ≤ '9'

def hexDigit? (c : Char) : Option Nat :=
  if isAsciiDigit c then some (c.toNat - 0x30)
  else if 'a' ≤ c ∧ c ≤ 'f' then some (c.toNat - 0x61 + 10)
  else if 'A' ≤ c ∧ c ≤ 'F' then some (c.toNat - 0x41 + 10)
  else none

def numberIn (base : Nat) (digits : List Char) : Nat :=
  digits.foldl (fun value c => base * value + (hexDigit? c).getD 0) 0

/-- Escapes that stand for a control character or for the backslash. -/
def controlEscape? : Char → Option Nat
  | 'a' => some 7
  | 'f' => some 12
  | 'n' => some 10
  | 'r' => some 13
  | 't' => some 9
  | 'v' => some 11
  | '\\' => some 0x5C
  | _ => none

def categoryEscape? : Char → Option SetItem
  | 'd' => some (.category .digit false)
  | 'D' => some (.category .digit true)
  | 's' => some (.category .blank false)
  | 'S' => some (.category .blank true)
  | 'w' => some (.category .word false)
  | 'W' => some (.category .word true)
  | _ => none

def anchorEscape? (flags : Flags) : Char → Option Anchor
  | 'A' => some .textStart
  | 'Z' => some .textEnd
  | 'b' => some (.boundary flags.asciiOnly)
  | 'B' => some (.noBoundary flags.asciiOnly)
  | _ => none

/-- An escape with a fixed count of hexadecimal digits. -/
def hexEscape (c : Char) (count : Nat) : Reader Nat := do
  let digits ← takeClass (fun digit => (hexDigit? digit).isSome) count
  let escape := '\\' :: c :: digits
  if digits.length ≠ count then stop (.incompleteEscape escape) escape.length
  let code := numberIn 16 digits
  if 0x10FFFF < code then stop (.badEscape escape) escape.length
  return code

/-- An escape by character name; no names are known. -/
def nameEscape : Reader Nat := do
  if !(← accept '\x7b') then stop (.missing "\x7b") 0
  let name ← takeName '\x7d' "character name"
  stop (.unknownCharacterName name) (name.length + 4)

/-- The escapes that mean one character inside and outside of sets, the digits apart. -/
def characterEscape (c : Char) : Reader Nat := do
  match controlEscape? c with
  | some code => return code
  | none =>
    if c = 'x' then hexEscape c 2
    else if c = 'u' then hexEscape c 4
    else if c = 'U' then hexEscape c 8
    else if c = 'N' then nameEscape
    else if c.isAlpha || isAsciiDigit c then stop (.badEscape ['\\', c]) 2
    else return c.toNat

def octalEscape (digits : List Char) : Reader Nat := do
  let code := numberIn 8 digits
  let escape := '\\' :: digits
  if 0o377 < code then stop (.octalTooLarge escape) escape.length
  return code

/-- An escape inside a set. -/
def setEscape (c : Char) : Reader SetItem := do
  match categoryEscape? c with
  | some item => return item
  | none =>
    if c = 'b' then return .single 8
    else if isOctalDigit c then
      return .single (← octalEscape (c :: (← takeClass isOctalDigit 2)))
    else return .single (← characterEscape c)

def literal (flags : Flags) (code : Nat) : Part :=
  .one (.set false [.single code] flags.caseMode flags.asciiOnly)

/-- A reference by number. -/
def numberedReference (flags : Flags) (digits : List Char) : Reader Part := do
  let group := numberIn 10 digits
  if (← get).captures < group then stop (.invalidReference group) digits.length
  match (← get).closed.lookup group with
  | none => stop .openGroupReference (digits.length + 1)
  | some width =>
    checkLookBehind group
    return .reference group width flags.caseMode

/-- Three octal digits mean a character, other digits a reference. -/
def digitEscape (flags : Flags) (c : Char) : Reader Part := do
  if c = '0' then
    return literal flags (numberIn 8 (← takeClass isOctalDigit 2))
  match ← takeClass isAsciiDigit 1 with
  | [second] =>
    if isOctalDigit c && isOctalDigit second then
      match ← takeClass isOctalDigit 1 with
      | [third] => return literal flags (← octalEscape [c, second, third])
      | _ => numberedReference flags [c, second]
    else numberedReference flags [c, second]
  | _ => numberedReference flags [c]

/-- An escape outside of sets. -/
def partEscape (flags : Flags) (c : Char) : Reader Part := do
  match anchorEscape? flags c with
  | some place => return .anchor place
  | none =>
    match categoryEscape? c with
    | some item => return .one (.set false [item] flags.caseMode flags.asciiOnly)
    | none =>
      if isAsciiDigit c then digitEscape flags c
      else return literal flags (← characterEscape c)

/-- What one token inside a set stands for. -/
def setMember : Token → Reader SetItem
  | ['\\', c] => setEscape c
  | token => return .single ((token.head?.getD '\\').toNat)

/-- The rest of a set that was opened at `start`; `read` holds its items, backwards. -/
def setItems (start : Nat) : Nat → List SetItem → Reader (List SetItem)
  | 0, _ => stopAt start .unterminatedSet
  | fuel + 1, read => do
    let some token ← next | stopAt start .unterminatedSet
    if token = [']'] && !read.isEmpty then return read.reverse
    let item ← setMember token
    if !(← accept '-') then
      setItems start fuel (item :: read)
    else
      let some last ← next | stopAt start .unterminatedSet
      if last = [']'] then return (.single 0x2D :: item :: read).reverse
      match item, ← setMember last with
      | .single low, .single high =>
        if high < low then
          stop (.badRange token last) (token.length + 1 + last.length)
        setItems start fuel (.range low high :: read)
      | _, _ => stop (.badRange token last) (token.length + 1 + last.length)

/-- A set whose opening bracket has just been read. -/
def set (flags : Flags) : Reader Part := do
  let start := (← position) - 1
  let negated ← accept '^'
  let items ← setItems start ((← get).tokens.length + 1) []
  return .one (.set negated items flags.caseMode flags.asciiOnly)

/-- From this count on a repetition is too large. -/
def repetitionLimit : Nat := Nat.pow 2 32 - 1

def checkRepetition (digits : List Char) : Reader Nat := do
  let count := numberIn 10 digits
  if repetitionLimit ≤ count then throw ⟨.repetitionTooLarge, none⟩
  return count

/-- The bounds of a repetition in braces whose opening brace has just been read, or nothing where
the brace stands for itself; then nothing but the brace has been read. -/
def bracedBounds : Reader (Option (Nat × Option Nat)) := do
  let start ← get
  if (← peek) = some ['\x7d'] then return none
  let fuel := start.tokens.length
  let low ← takeClass isAsciiDigit fuel
  let high ← if ← accept ',' then takeClass isAsciiDigit fuel else pure low
  if !(← accept '\x7d') then
    set start
    return none
  let least ← if low.isEmpty then pure 0 else checkRepetition low
  if high.isEmpty then return some (least, none)
  let most ← checkRepetition high
  if most < least then stopAt start.position .repeatBounds
  return some (least, some most)
where
  set (state : State) : Reader Unit := fun _ => .ok ((), state)

def bounds : Char → Reader (Option (Nat × Option Nat))
  | '?' => return some (0, some 1)
  | '*' => return some (0, none)
  | '+' => return some (1, none)
  | _ => bracedBounds

def eagerness : Reader Eagerness := do
  if ← accept '?' then return .lazy
  if ← accept '+' then return .possessive
  return .greedy

/-- Puts a repetition on the latest of the parts read. -/
def repeatLatest (mark : Nat) (least : Nat) (most : Option Nat) (read : List Part) :
    Reader (List Part) := do
  match read with
  | [] => stopAt mark .nothingToRepeat
  | .anchor _ :: _ => stopAt mark .nothingToRepeat
  | .repeated .. :: _ => stopAt mark .multipleRepeat
  | body :: earlier => return .repeated (← eagerness) least most body :: earlier

/-- Flag letters from `c` on up to the character behind them. -/
def addedFlags : Nat → Char → Flags → Reader (Flags × Char)
  | 0, _, _ => stop (.missing "-, : or )") 0
  | fuel + 1, c, added => do
    if c = 'L' then stop .localeFlag 0
    let added := added ++ [c]
    if Flags.typeLetters.contains c
        && added.any (fun other => other != c && Flags.typeLetters.contains other) then
      stop .incompatibleFlags 0
    let some token ← next | stop (.missing "-, : or )") 0
    match token with
    | [c] =>
      if c = ')' || c = '-' || c = ':' then return (added, c)
      if Flags.letters.contains c then addedFlags fuel c added
      else if Text.isLetter c then stop .unknownFlag 1
      else stop (.missing "-, : or )") 1
    | _ => stop (.missing "-, : or )") token.length

/-- Flag letters behind a minus sign. -/
def removedFlags : Nat → String → Flags → Reader Flags
  | 0, _, _ => stop (.missing ":") 0
  | fuel + 1, awaited, removed => do
    let some token ← next | stop (.missing awaited) 0
    match token with
    | [c] =>
      if c = ':' && !removed.isEmpty then return removed
      if Flags.letters.contains c then
        if Flags.typeLetters.contains c then stop .typeFlagTurnedOff 0
        removedFlags fuel ":" (removed ++ [c])
      else if Text.isLetter c then stop .unknownFlag 1
      else stop (.missing awaited) 1
    | _ => stop (.missing awaited) token.length

/-- Inline flags from `c` on: flags for the whole expression, or flags added and removed for the
group that begins here. -/
inductive InlineFlags where
  | global (added : Flags)
  | scoped (added removed : Flags)

def inlineFlags (c : Char) : Reader InlineFlags := do
  let fuel := (← get).tokens.length + 1
  let (added, behind) ← if c = '-' then pure ([], '-') else addedFlags fuel c []
  if behind = ')' then return .global added
  if added.any Flags.globalLetters.contains then stop .globalFlagTurnedOn 1
  let removed ← if behind = '-' then removedFlags fuel "flag" [] else pure []
  if removed.any Flags.globalLetters.contains then stop .globalFlagTurnedOff 1
  if added.any removed.contains then stop .flagTurnedOnAndOff 1
  return .scoped added removed

/-- The number by which a conditional names a capture, if it does: digits of any script, with a
sign, with blanks around them and with single underscores between them. -/
def conditionNumber? (name : List Char) : Option Nat :=
  let stripped := Text.strip name
  let (negative, digits) := match stripped with
    | '-' :: rest => (true, rest)
    | '+' :: rest => (false, rest)
    | rest => (false, rest)
  let groups := digits.splitOn '_'
  if groups.any List.isEmpty || groups.any (fun group => group.any fun c => !Text.isDigit c) then
    none
  else
    let number := Text.digitsValue groups.flatten
    if negative && number ≠ 0 then none else some number

def captureLimit : Nat := Nat.pow 2 30 - 1

/-- The capture that a conditional asks about. -/
def condition : Reader Nat := do
  let name ← takeName ')' "group name"
  let back := name.length + 1
  let group ←
    if Text.isName name then
      match (← get).names.lookup name with
      | none => stop (.unknownGroupName name) back
      | some group => pure group
    else
      match conditionNumber? name with
      | none => stop (.badGroupName name) back
      | some 0 => stop .badGroupNumber back
      | some group =>
        if captureLimit ≤ group then stop (.invalidReference group) back
        let place := (← position) - back
        modify fun state =>
          if (state.conditions.lookup group).isSome then state
          else { state with conditions := (group, place) :: state.conditions }
        pure group
  checkLookBehind group
  return group

/-- A reference by name. -/
def namedReference (flags : Flags) : Reader Part := do
  let name ← takeName ')' "group name"
  checkGroupName name
  match (← get).names.lookup name with
  | none => stop (.unknownGroupName name) (name.length + 1)
  | some group =>
    match (← get).closed.lookup group with
    | none => stop .openGroupReference (name.length + 1)
    | some width =>
      checkLookBehind group
      return .reference group width flags.caseMode

/-- Skips a comment that was opened at `start`. -/
def comment (start : Nat) : Nat → Reader Unit
  | 0 => stopAt start .unterminatedComment
  | fuel + 1 => do
    let some token ← next | stopAt start .unterminatedComment
    if token = [')'] then return
    comment start fuel

/-- Skips the rest of a line in a verbose expression. -/
def lineComment : Nat → Reader Unit
  | 0 => return
  | fuel + 1 => do
    let some token ← next | return
    if token = ['\n'] then return
    lineComment fuel

def openCapture (name : Option (List Char)) : Reader Nat := do
  let group := (← get).captures + 1
  modify fun state => { state with captures := group }
  match name with
  | none => return group
  | some name =>
    match (← get).names.lookup name with
    | some earlier => stop (.redefinedGroup name group earlier) (name.length + 1)
    | none =>
      modify fun state => { state with names := (name, group) :: state.names }
      return group

def closeCapture (group : Nat) (body : Part) : Reader Unit :=
  modify fun state => { state with closed := (group, body.width) :: state.closed }

/-- What an opening parenthesis begins, once the marks behind it have been read. -/
inductive Opening where
  | capture (name : Option (List Char))
  | group (added removed : Flags)
  | atomic
  | lookAhead (positive : Bool)
  | lookBehind (positive : Bool)
  | conditional (group : Nat)
  | reference (part : Part)
  | comment
  | flags (added : Flags)

def lookBehindOpening : Reader Opening := do
  match ← next with
  | none => stop .unexpectedEnd 0
  | some ['='] => return .lookBehind true
  | some ['!'] => return .lookBehind false
  | some token => stop (.unknownExtension ("?<".toList ++ token)) (token.length + 2)

def namedOpening (flags : Flags) : Reader Opening := do
  if ← accept '<' then
    let name ← takeName '>' "group name"
    checkGroupName name
    return .capture (some name)
  if ← accept '=' then return .reference (← namedReference flags)
  match ← next with
  | none => stop .unexpectedEnd 0
  | some token => stop (.unknownExtension ("?P".toList ++ token)) (token.length + 2)

/-- The marks behind an opening parenthesis at `start`. -/
def opening (flags : Flags) (start : Nat) : Reader Opening := do
  if !(← accept '?') then return .capture none
  match ← next with
  | none => stop .unexpectedEnd 0
  | some ['P'] => namedOpening flags
  | some [':'] => return .group [] []
  | some ['#'] =>
    comment start ((← get).tokens.length + 1)
    return .comment
  | some ['='] => return .lookAhead true
  | some ['!'] => return .lookAhead false
  | some ['<'] => lookBehindOpening
  | some ['('] => return .conditional (← condition)
  | some ['>'] => return .atomic
  | some token =>
    match token with
    | [c] =>
      if c = '-' || Flags.letters.contains c then
        match ← inlineFlags c with
        | .global added => return .flags added
        | .scoped added removed => return .group added removed
      else stop (.unknownExtension ['?', c]) 2
    | _ => stop (.unknownExtension ('?' :: token)) (token.length + 1)

def closeGroup (start : Nat) : Reader Unit := do
  if !(← accept ')') then stopAt start .unterminatedGroup

mutual

/-- Alternatives up to a closing parenthesis or the end. At the top the flags are those of the
whole expression, and only its first alternative may set them. -/
def alternatives : Nat → (top first : Bool) → Flags → Reader Part
  | 0, _, _, _ => stop .unterminatedGroup 0
  | fuel + 1, top, first, flags => do
    let part ← items fuel (top && first) flags []
    if ← accept '|' then
      let current := (← get).flags
      let rest ← alternatives fuel top false (if top then current else flags)
      return .choice part rest
    return part

/-- The items of one alternative; `read` holds earlier ones, backwards. -/
def items : Nat → (mayFlag : Bool) → Flags → List Part → Reader Part
  | 0, _, _, _ => stop .unterminatedGroup 0
  | fuel + 1, mayFlag, flags, read => do
    match ← peek with
    | none => return Part.ofList read.reverse
    | some ['|'] => return Part.ofList read.reverse
    | some [')'] => return Part.ofList read.reverse
    | some token =>
      let mark ← position
      skip
      match token with
      | [c] =>
        if flags.contains 'x' && (c = ' ' || (9 ≤ c.toNat && c.toNat ≤ 13)) then
          items fuel mayFlag flags read
        else if flags.contains 'x' && c = '#' then
          lineComment ((← get).tokens.length + 1)
          items fuel mayFlag flags read
        else if c = '[' then items fuel mayFlag flags ((← set flags) :: read)
        else if c = '.' then
          let test := if flags.contains 's' then Single.any else .anyInLine
          items fuel mayFlag flags (.one test :: read)
        else if c = '^' then
          let place := if flags.contains 'm' then Anchor.lineStart else .textStart
          items fuel mayFlag flags (.anchor place :: read)
        else if c = '$' then
          let place := if flags.contains 'm' then Anchor.lineEnd else .lastLineEnd
          items fuel mayFlag flags (.anchor place :: read)
        else if c = '(' then
          match ← opening flags mark with
          | .comment => items fuel mayFlag flags read
          | .reference part => items fuel mayFlag flags (part :: read)
          | .flags added =>
            modify fun state => { state with flags := state.flags ++ added }
            if !mayFlag || !read.isEmpty then stopAt mark .lateFlags
            items fuel mayFlag (← get).flags read
          | .capture name =>
            let group ← openCapture name
            let body ← alternatives fuel false false flags
            closeGroup mark
            closeCapture group body
            items fuel mayFlag flags (.capture group body :: read)
          | .group added removed =>
            let body ← alternatives fuel false false (flags.within added removed)
            closeGroup mark
            items fuel mayFlag flags (.group body :: read)
          | .atomic =>
            let body ← alternatives fuel false false flags
            closeGroup mark
            items fuel mayFlag flags (.atomic body :: read)
          | .lookAhead positive =>
            let body ← alternatives fuel false false flags
            closeGroup mark
            items fuel mayFlag flags (.lookAhead positive body :: read)
          | .lookBehind positive =>
            let outer := (← get).inside
            if outer.isNone then
              modify fun state => { state with inside := some state.captures }
            let body ← alternatives fuel false false flags
            modify fun state => { state with inside := outer }
            closeGroup mark
            items fuel mayFlag flags (.lookBehind positive body :: read)
          | .conditional group =>
            let met ← items fuel false flags []
            let unmet ← if ← accept '|' then items fuel false flags [] else pure .empty
            if (← peek) = some ['|'] then stop .thirdConditionalBranch 0
            closeGroup mark
            items fuel mayFlag flags (.conditional group met unmet :: read)
        else if c = '*' || c = '+' || c = '?' || c = '\x7b' then
          match ← bounds c with
          | none => items fuel mayFlag flags (literal flags c.toNat :: read)
          | some (least, most) =>
            items fuel mayFlag flags (← repeatLatest mark least most read)
        else items fuel mayFlag flags (literal flags c.toNat :: read)
      | [escape, c] =>
        if escape = '\\' then items fuel mayFlag flags ((← partEscape flags c) :: read)
        else stop .danglingBackslash 0
      | _ => stop .danglingBackslash 0

end

/-- The first part that reads well but cannot be matched: a look-behind whose body has no one
width, or a repetition in a template. -/
def unmatchable? (template : Bool) : Part → Option Cause
  | .empty => none
  | .one _ => none
  | .anchor _ => none
  | .reference .. => none
  | .group body => unmatchable? template body
  | .capture _ body => unmatchable? template body
  | .sequence first second =>
    (unmatchable? template first).orElse fun _ => unmatchable? template second
  | .choice first second =>
    (unmatchable? template first).orElse fun _ => unmatchable? template second
  | .repeated eagerness _ _ body =>
    if template then
      some <| .repeatInTemplate <| match eagerness with
        | .greedy => "MAX_REPEAT"
        | .lazy => "MIN_REPEAT"
        | .possessive => "POSSESSIVE_REPEAT"
    else unmatchable? template body
  | .lookAhead _ body => unmatchable? template body
  | .lookBehind _ body =>
    if repetitionLimit < body.width.least then some .lookBehindTooWide
    else if body.width.least ≠ body.width.most then some .lookBehindWidth
    else unmatchable? template body
  | .atomic body => unmatchable? template body
  | .conditional _ met unmet =>
    (unmatchable? template met).orElse fun _ => unmatchable? template unmet

/-- A whole expression. -/
def expression (fuel : Nat) : Reader Part := do
  checkNext
  let part ← alternatives fuel true true []
  let state ← get
  if state.flags.contains 'a' && state.flags.contains 'u' then
    throw ⟨.incompatibleGlobalFlags, none⟩
  if (← peek).isSome then stop .unbalancedParenthesis 0
  match state.conditions.reverse.find? fun (group, _) => state.captures < group with
  | some (group, place) => stopAt place (.invalidReference group)
  | none =>
    match unmatchable? (state.flags.contains 't') part with
    | some cause => throw ⟨cause, none⟩
    | none => return part

end DocAudit.Pattern

namespace DocAudit

/-- A regular expression that has been read, with the names of its captures. -/
structure Pattern where
  part : Pattern.Part
  names : List (List Char × Nat)

/-- Every nesting and every item takes a token, and each takes at most two steps of reading. -/
def Pattern.parse (text : List Char) : Except Pattern.Stop Pattern := do
  let tokens := Pattern.tokens text
  let start : Pattern.State := ⟨tokens, 0, [], 0, [], [], none, []⟩
  let (part, state) ← (Pattern.expression (2 * tokens.length + 2)).run start
  return ⟨part, state.names⟩

end DocAudit
