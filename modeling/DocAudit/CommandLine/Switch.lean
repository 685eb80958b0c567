import DocAudit.Text.Digit
import DocAudit.Text.Quoted

/-!
Reading the switches of a command line. A long switch may be cut short as long as one switch alone
begins like it; its value follows behind an equals sign or as the next argument. Short switches
may be written in one argument. What is neither a switch nor the value of one is left over.
-/

namespace DocAudit.CommandLine

inductive Arity where
  | help
  | flag
  /-- A value, which is one of the choices where there are any. -/
  | value (choices : List String)
  deriving DecidableEq, Repr

structure Switch where
  /-- The ways to write the switch, the long one last. -/
  spellings : List String
  arity : Arity
  summary : String
  deriving DecidableEq, Repr

namespace Switch

def name (switch : Switch) : String :=
  switch.spellings.getLast?.getD ""

def fullName (switch : Switch) : String :=
  "/".intercalate switch.spellings

def takesValue (switch : Switch) : Bool :=
  match switch.arity with
  | .value _ => true
  | _ => false

end Switch

/-- Why arguments are not read to their end. -/
inductive Stop where
  | help
  | misuse (message : String)
  deriving DecidableEq, Repr

def quotedChoices (choices : List String) : String :=
  ", ".intercalate (choices.map Text.quotedString)

def invalidChoice (name value : String) (choices : List String) : Stop :=
  .misuse <|
    s!"argument {name}: invalid choice: {Text.quotedString value} "
      ++ s!"(choose from {quotedChoices choices})"

/-! ## Single arguments -/

/-- A switch as an argument writes it. -/
structure Mention where
  switch : Switch
  spelling : String
  explicit : Option (List Char)
  deriving DecidableEq, Repr

/-- An argument: no switch, the mark behind which there are none, or a switch, known or not. -/
inductive Word where
  | plain
  | separator
  | mention (mention : Option Mention)
  deriving DecidableEq, Repr

def isLong (spelling : String) : Bool :=
  match spelling.toList with
  | '-' :: '-' :: _ => true
  | _ => false

/-- An argument cut at its first equals sign. -/
def splitEquals (argument : String) : String × Option (List Char) :=
  let characters := argument.toList
  let before := characters.takeWhile (· ≠ '=')
  match characters.drop before.length with
  | [] => (argument, none)
  | _ :: explicit => (String.ofList before, some explicit)

/-- The mentions that an argument may be meant for, given that it is written in full for none. -/
def mentions (switches : List Switch) (argument : String) : List Mention :=
  let spelled := switches.flatMap fun switch => switch.spellings.map (switch, ·)
  let beginsWith (spelling beginning : String) : Bool :=
    beginning.toList.isPrefixOf spelling.toList
  if isLong argument then
    let (beginning, explicit) := splitEquals argument
    (spelled.filter fun (_, spelling) => beginsWith spelling beginning).map
      fun (switch, spelling) => ⟨switch, spelling, explicit⟩
  else
    let short := String.ofList (argument.toList.take 2)
    spelled.filterMap fun (switch, spelling) =>
      if spelling == short then some ⟨switch, spelling, some (argument.toList.drop 2)⟩
      else if beginsWith spelling argument then some ⟨switch, spelling, none⟩
      else none

def mentionExact? (switches : List Switch) (spelling : String) (explicit : Option (List Char)) :
    Option Mention :=
  (switches.find? (·.spellings.contains spelling)).map fun switch => ⟨switch, spelling, explicit⟩

def withoutFinalNewline (characters : List Char) : List Char :=
  if characters.getLast? = some '\n' then characters.dropLast else characters

/-- A minus sign and digits, perhaps with a point before the last of them; a line feed at the end
does not count. -/
def isNegativeNumber (argument : String) : Bool :=
  match withoutFinalNewline argument.toList with
  | '-' :: digits =>
    let whole := digits.takeWhile Text.isDigit
    match digits.drop whole.length with
    | [] => !whole.isEmpty
    | '.' :: places => !places.isEmpty && places.all Text.isDigit
    | _ => false
  | _ => false

/-- An argument that begins with a hyphen and is written in full for no switch. -/
def readShortened (switches : List Switch) (argument : String) : Except Stop Word :=
  match mentions switches argument with
  | [mention] => .ok (.mention (some mention))
  | [] =>
    if isNegativeNumber argument || argument.toList.contains ' ' then .ok .plain
    else .ok (.mention none)
  | several =>
    let spellings := ", ".intercalate (several.map (·.spelling))
    .error (.misuse s!"ambiguous option: {argument} could match {spellings}")

def readWord (switches : List Switch) (argument : String) : Except Stop Word :=
  if argument.toList.head? ≠ some '-' then .ok .plain
  else
    match mentionExact? switches argument none with
    | some mention => .ok (.mention (some mention))
    | none =>
      if argument == "-" then .ok .plain
      else
        let exact := match splitEquals argument with
          | (spelling, some explicit) => mentionExact? switches spelling (some explicit)
          | _ => none
        match exact with
        | some mention => .ok (.mention (some mention))
        | none => readShortened switches argument

/-- Every argument with what it reads as. -/
def readWords (switches : List Switch) : List String → Except Stop (List (String × Word))
  | [] => .ok []
  | "--" :: rest => .ok (("--", .separator) :: rest.map (·, .plain))
  | argument :: rest => do
    let word ← readWord switches argument
    return (argument, word) :: (← readWords switches rest)

/-! ## Runs of arguments -/

/-- What arguments set, the latest first, and what is left over. -/
structure Reading where
  settings : List (String × String) := []
  leftOver : List String := []
  deriving DecidableEq, Repr

namespace Reading

def isSet (reading : Reading) (name : String) : Bool :=
  reading.settings.any (·.1 == name)

def value? (reading : Reading) (name : String) : Option String :=
  reading.settings.lookup name

/-- Sets a switch. One that asks for help ends the reading. -/
def set (reading : Reading) (switch : Switch) (value : String) : Except Stop Reading :=
  match switch.arity with
  | .help => .error .help
  | .flag => .ok { reading with settings := (switch.name, value) :: reading.settings }
  | .value choices =>
    if choices.isEmpty || choices.contains value then
      .ok { reading with settings := (switch.name, value) :: reading.settings }
    else .error (invalidChoice switch.fullName value choices)

def leave (reading : Reading) (argument : String) : Reading :=
  { reading with leftOver := reading.leftOver ++ [argument] }

end Reading

def ignoredExplicit (switch : Switch) (explicit : List Char) : Stop :=
  .misuse <|
    s!"argument {switch.fullName}: ignored explicit argument "
      ++ Text.quotedString (String.ofList explicit)

/-- The switches that a mention stands for, more than one where short ones are written together,
and what is given to the last of them. -/
def unfoldMention (switches : List Switch) (switch : Switch) (spelling : String) :
    Option (List Char) → Except Stop (List Switch × Option (List Char))
  | none => .ok ([switch], none)
  | some explicit =>
    if switch.takesValue then .ok ([switch], some explicit)
    else unfoldShort switch spelling explicit
where
  unfoldShort (switch : Switch) (spelling : String) :
      List Char → Except Stop (List Switch × Option (List Char))
    | [] => .error (ignoredExplicit switch [])
    | c :: rest =>
      if isLong spelling then .error (ignoredExplicit switch (c :: rest))
      else
        let next := String.ofList ['-', c]
        match switches.find? (·.spellings.contains next) with
        | none => .error (ignoredExplicit switch (c :: rest))
        | some further =>
          if rest.isEmpty then .ok ([switch, further], none)
          else if further.takesValue then .ok ([switch, further], some rest)
          else do
            let (others, explicit) ← unfoldShort further next rest
            return (switch :: others, explicit)

def setAll (reading : Reading) (switches : List Switch) (value : String) : Except Stop Reading :=
  switches.foldlM (fun reading switch => reading.set switch value) reading

/-- Reads words up to their end. -/
def readSettings (switches : List Switch) :
    Reading → List (String × Word) → Except Stop Reading
  | reading, [] => .ok reading
  | reading, (argument, .plain) :: rest => readSettings switches (reading.leave argument) rest
  | reading, (argument, .separator) :: rest => readSettings switches (reading.leave argument) rest
  | reading, (argument, .mention none) :: rest =>
    readSettings switches (reading.leave argument) rest
  | reading, (_, .mention (some mention)) :: rest => do
    let (meant, explicit) ← unfoldMention switches mention.switch mention.spelling mention.explicit
    match explicit with
    | some value => readSettings switches (← setAll reading meant (String.ofList value)) rest
    | none =>
      if (meant.getLast?.map Switch.takesValue).getD false then
        match rest with
        | (value, .plain) :: rest => readSettings switches (← setAll reading meant value) rest
        | _ => .error (.misuse s!"argument {mention.switch.fullName}: expected one argument")
      else readSettings switches (← setAll reading meant "") rest

example : mentions [⟨["--only"], .value [], ""⟩] "--on=x"
    = [⟨⟨["--only"], .value [], ""⟩, "--only", some ['x']⟩] := by decide +kernel

end DocAudit.CommandLine
