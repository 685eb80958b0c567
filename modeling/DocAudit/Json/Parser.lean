import DocAudit.Value.Basic

/-!
Reading JSON text. Beside the standard, `NaN`, `Infinity` and `-Infinity` are numbers, integers
may have any size, and a repeated key takes its last value. Every fault names the place at which
reading stopped.

A string is a list of characters here, so half of a surrogate pair that stands alone in an escape
becomes U+FFFD.
-/

namespace DocAudit.Json

inductive Cause where
  | byteOrderMark
  | expectedValue
  | expectedKey
  | expectedColon
  | expectedComma
  | unterminatedString
  | controlCharacter
  | badEscape
  | badUnicodeEscape
  | extraData
  deriving DecidableEq, Repr

def Cause.message : Cause → String
  | .byteOrderMark => "Unexpected UTF-8 BOM (decode using utf-8-sig)"
  | .expectedValue => "Expecting value"
  | .expectedKey => "Expecting property name enclosed in double quotes"
  | .expectedColon => "Expecting ':' delimiter"
  | .expectedComma => "Expecting ',' delimiter"
  | .unterminatedString => "Unterminated string starting at"
  | .controlCharacter => "Invalid control character at"
  | .badEscape => "Invalid \\escape"
  | .badUnicodeEscape => "Invalid \\uXXXX escape"
  | .extraData => "Extra data"

/-- A cause and the number of characters before the place it names. -/
structure Stop where
  cause : Cause
  position : Nat
  deriving DecidableEq, Repr

/-- What is still to be read, and how many characters have been read. -/
structure Source where
  position : Nat
  rest : List Char

namespace Source

def stop {α : Type} (source : Source) (cause : Cause) : Except Stop α :=
  .error ⟨cause, source.position⟩

def drop (source : Source) (count : Nat) : Source where
  position := source.position + count
  rest := source.rest.drop count

def skipBlanks (source : Source) : Source :=
  source.drop (source.rest.takeWhile fun c => c = ' ' ∨ c = '\t' ∨ c = '\n' ∨ c = '\r').length

end Source

def hexValue? (c : Char) : Option Nat :=
  if '0' ≤ c ∧ c ≤ '9' then some (c.toNat - 0x30)
  else if 'a' ≤ c ∧ c ≤ 'f' then some (c.toNat - 0x61 + 10)
  else if 'A' ≤ c ∧ c ≤ 'F' then some (c.toNat - 0x41 + 10)
  else none

def hexNumber? (digits : List Char) : Option Nat :=
  digits.foldl (fun value c => do return 16 * (← value) + (← hexValue? c)) (some 0)

def isHighSurrogate (code : Nat) : Bool :=
  0xD800 ≤ code && code < 0xDC00

def isLowSurrogate (code : Nat) : Bool :=
  0xDC00 ≤ code && code < 0xE000

def characterOf (code : Nat) : Char :=
  if isHighSurrogate code || isLowSurrogate code then '\uFFFD' else Char.ofNat code

def simpleEscape? : Char → Option Char
  | '"' => some '"'
  | '\\' => some '\\'
  | '/' => some '/'
  | 'b' => some '\x08'
  | 'f' => some '\x0c'
  | 'n' => some '\n'
  | 'r' => some '\r'
  | 't' => some '\t'
  | _ => none

/-- The four digits after `\u`; a further character has to follow them. -/
def unicodeEscape (source : Source) : Except Stop Nat :=
  if source.rest.length ≤ 4 then .error ⟨.badUnicodeEscape, source.position - 1⟩
  else match hexNumber? (source.rest.take 4) with
    | some code => .ok code
    | none => .error ⟨.badUnicodeEscape, source.position - 1⟩

/-- The low half that follows a high surrogate, if an escape for one does. -/
def lowSurrogate (source : Source) : Except Stop (Option Nat) :=
  match source.rest with
  | '\\' :: 'u' :: digits =>
    if digits.length ≤ 4 then .ok none
    else match hexNumber? (digits.take 4) with
      | some code => .ok (if isLowSurrogate code then some code else none)
      | none => .error ⟨.badUnicodeEscape, source.position + 1⟩
  | _ => .ok none

/-- The rest of a string whose opening mark stands at `start`; `read` holds what has been read,
backwards. -/
def stringBody (start : Nat) : Nat → Source → List Char → Except Stop (String × Source)
  | 0, _, _ => .error ⟨.unterminatedString, start⟩
  | fuel + 1, source, read =>
    match source.rest with
    | [] => .error ⟨.unterminatedString, start⟩
    | '"' :: _ => .ok (String.ofList read.reverse, source.drop 1)
    | ['\\'] => .error ⟨.unterminatedString, start⟩
    | '\\' :: 'u' :: _ => do
      let digits := source.drop 2
      let code ← unicodeEscape digits
      let after := digits.drop 4
      let low ← if isHighSurrogate code then lowSurrogate after else .ok none
      match low with
      | some low =>
        let joined := 0x10000 + (code - 0xD800) * 0x400 + (low - 0xDC00)
        stringBody start fuel (after.drop 6) (Char.ofNat joined :: read)
      | none => stringBody start fuel after (characterOf code :: read)
    | '\\' :: c :: _ =>
      match simpleEscape? c with
      | some escaped => stringBody start fuel (source.drop 2) (escaped :: read)
      | none => source.stop .badEscape
    | c :: _ =>
      if c.toNat < 0x20 then source.stop .controlCharacter
      else stringBody start fuel (source.drop 1) (c :: read)

/-- A string whose opening mark has just been read; `fuel` exceeds what is still to be read. -/
def string (fuel : Nat) (source : Source) : Except Stop (String × Source) :=
  stringBody (source.position - 1) fuel source []

def isDecimalDigit (c : Char) : Bool :=
  '0' ≤ c && c ≤ '9'

def decimalValue (digits : List Char) : Nat :=
  digits.foldl (fun value c => 10 * value + (c.toNat - 0x30)) 0

/-- The floating-point number nearest to `digits * 10 ^ power`. Powers beyond any such number are
cut off so that no larger power than needed is formed. -/
def nearestFloat (negative : Bool) (digits : Nat) (power : Int) : Float :=
  let size := (Nat.toDigits 10 digits).length
  let magnitude : Float :=
    if digits = 0 ∨ power + size < -400 then 0
    else if power > 400 then 1 / 0
    else if power < 0 then Float.ofScientific digits true (-power).toNat
    else Float.ofScientific digits false power.toNat
  if negative then -magnitude else magnitude

/-- The digits behind a decimal point, if there are any. -/
def fractionDigits : List Char → List Char
  | '.' :: rest => rest.takeWhile isDecimalDigit
  | _ => []

/-- Mark, sign and digits of an exponent, if there are any. -/
def exponentParts : List Char → Option (Nat × Bool × List Char)
  | mark :: rest =>
    if mark = 'e' ∨ mark = 'E' then
      let (signs, negative) := match rest with
        | '-' :: _ => (1, true)
        | '+' :: _ => (1, false)
        | _ => (0, false)
      let digits := (rest.drop signs).takeWhile isDecimalDigit
      if digits.isEmpty then none else some (1 + signs, negative, digits)
    else none
  | [] => none

def number? (source : Source) : Option (Value × Source) :=
  let negative := source.rest.head? == some '-'
  let unsigned := if negative then source.drop 1 else source
  let whole := match unsigned.rest with
    | '0' :: _ => ['0']
    | rest => rest.takeWhile isDecimalDigit
  if whole.isEmpty then none
  else
    let afterWhole := unsigned.drop whole.length
    let fraction := fractionDigits afterWhole.rest
    let afterFraction :=
      if fraction.isEmpty then afterWhole else afterWhole.drop (1 + fraction.length)
    match exponentParts afterFraction.rest with
    | some (marks, negativeExponent, digits) =>
      let exponent : Int := decimalValue digits
      let power := (if negativeExponent then -exponent else exponent) - fraction.length
      some (.float (nearestFloat negative (decimalValue (whole ++ fraction)) power),
        afterFraction.drop (marks + digits.length))
    | none =>
      if fraction.isEmpty then
        let number : Int := decimalValue whole
        some (.int (if negative then -number else number), afterWhole)
      else
        some (.float (nearestFloat negative (decimalValue (whole ++ fraction))
          (-(fraction.length : Int))), afterFraction)

/-- The words that stand for values. -/
def words : List (String × Value) :=
  [("null", .null), ("true", .bool true), ("false", .bool false), ("NaN", .float (0 / 0)),
   ("Infinity", .float (1 / 0)), ("-Infinity", .float (-1 / 0))]

def word? (source : Source) : Option (Value × Source) :=
  (words.find? fun (word, _) => word.toList.isPrefixOf source.rest).map
    fun (word, value) => (value, source.drop word.length)

mutual

def value : Nat → Source → Except Stop (Value × Source)
  | 0, source => source.stop .expectedValue
  | fuel + 1, source =>
    match source.rest with
    | '"' :: _ => do
      let (content, rest) ← string (fuel + 1) (source.drop 1)
      return (.text content, rest)
    | '\x7b' :: _ =>
      let inside := (source.drop 1).skipBlanks
      if inside.rest.head? = some '\x7d' then .ok (.table [], inside.drop 1)
      else members fuel inside []
    | '[' :: _ =>
      let inside := (source.drop 1).skipBlanks
      if inside.rest.head? = some ']' then .ok (.list [], inside.drop 1)
      else elements fuel inside []
    | _ =>
      match (word? source).orElse fun _ => number? source with
      | some read => .ok read
      | none => source.stop .expectedValue

/-- The members of an object from a key on; `read` holds earlier ones, backwards. -/
def members : Nat → Source → List (String × Value) → Except Stop (Value × Source)
  | 0, source, _ => source.stop .expectedKey
  | fuel + 1, source, read => do
    if source.rest.head? ≠ some '"' then source.stop .expectedKey
    let (key, afterKey) ← string (fuel + 1) (source.drop 1)
    let colon := afterKey.skipBlanks
    if colon.rest.head? ≠ some ':' then colon.stop .expectedColon
    let (content, afterValue) ← value fuel (colon.drop 1).skipBlanks
    let next := afterValue.skipBlanks
    let read := (key, content) :: read
    match next.rest with
    | '\x7d' :: _ => return (.table (Entries.ofList read.reverse), next.drop 1)
    | ',' :: _ => members fuel (next.drop 1).skipBlanks read
    | _ => next.stop .expectedComma

/-- The elements of an array from one of them on; `read` holds earlier ones, backwards. -/
def elements : Nat → Source → List Value → Except Stop (Value × Source)
  | 0, source, _ => source.stop .expectedValue
  | fuel + 1, source, read => do
    let (content, afterValue) ← value fuel source
    let next := afterValue.skipBlanks
    let read := content :: read
    match next.rest with
    | ']' :: _ => return (.list read.reverse, next.drop 1)
    | ',' :: _ => elements fuel (next.drop 1).skipBlanks read
    | _ => next.stop .expectedComma

end

/-- The one value that a whole text holds. Each nesting and each element takes a character, which
bounds the depth of reading. -/
def parse (text : List Char) : Except Stop Value := do
  if text.head? = some '\uFEFF' then throw ⟨.byteOrderMark, 0⟩
  let start : Source := (Source.mk 0 text).skipBlanks
  let (content, rest) ← value (2 * text.length + 2) start
  let finish := rest.skipBlanks
  if finish.rest.isEmpty then return content else finish.stop .extraData

/-- A stop as it is reported, with the line and the column of its place. -/
def Stop.message (stop : Stop) (text : List Char) : String :=
  let before := text.take stop.position
  let line := before.count '\n' + 1
  let column := (before.reverse.takeWhile (· ≠ '\n')).length + 1
  s!"{stop.cause.message}: line {line} column {column} (char {stop.position})"

end DocAudit.Json
