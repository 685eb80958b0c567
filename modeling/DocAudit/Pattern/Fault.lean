import DocAudit.Text.Quoted

/-!
What can be wrong with a regular expression.
-/

namespace DocAudit.Pattern

inductive Cause where
  | danglingBackslash
  | badEscape (escape : List Char)
  | incompleteEscape (escape : List Char)
  | octalTooLarge (escape : List Char)
  | unknownCharacterName (name : List Char)
  | missing (what : String)
  | unterminatedName (terminator : Char)
  | openGroupReference
  | lookBehindReference
  | invalidReference (group : Nat)
  | unterminatedSet
  | badRange (first last : List Char)
  | repeatBounds
  | nothingToRepeat
  | multipleRepeat
  | unterminatedGroup
  | unterminatedComment
  | unexpectedEnd
  | unknownExtension (text : List Char)
  | badGroupName (name : List Char)
  | unknownGroupName (name : List Char)
  | badGroupNumber
  | redefinedGroup (name : List Char) (group earlier : Nat)
  | thirdConditionalBranch
  | lateFlags
  | localeFlag
  | incompatibleFlags
  | unknownFlag
  | globalFlagTurnedOn
  | typeFlagTurnedOff
  | globalFlagTurnedOff
  | flagTurnedOnAndOff
  | unbalancedParenthesis
  | lookBehindWidth
  | lookBehindTooWide
  | repeatInTemplate (operator : String)
  | incompatibleGlobalFlags
  | repetitionTooLarge
  deriving DecidableEq, Repr

def Cause.message : Cause → String
  | .danglingBackslash => "bad escape (end of pattern)"
  | .badEscape escape => "bad escape " ++ String.ofList escape
  | .incompleteEscape escape => "incomplete escape " ++ String.ofList escape
  | .octalTooLarge escape =>
    "octal escape value " ++ String.ofList escape ++ " outside of range 0-0o377"
  | .unknownCharacterName name =>
    "undefined character name " ++ String.ofList (Text.quoted name)
  | .missing what => "missing " ++ what
  | .unterminatedName terminator => s!"missing {terminator}, unterminated name"
  | .openGroupReference => "cannot refer to an open group"
  | .lookBehindReference => "cannot refer to group defined in the same lookbehind subpattern"
  | .invalidReference group => s!"invalid group reference {group}"
  | .unterminatedSet => "unterminated character set"
  | .badRange first last =>
    "bad character range " ++ String.ofList first ++ "-" ++ String.ofList last
  | .repeatBounds => "min repeat greater than max repeat"
  | .nothingToRepeat => "nothing to repeat"
  | .multipleRepeat => "multiple repeat"
  | .unterminatedGroup => "missing ), unterminated subpattern"
  | .unterminatedComment => "missing ), unterminated comment"
  | .unexpectedEnd => "unexpected end of pattern"
  | .unknownExtension text => "unknown extension " ++ String.ofList text
  | .badGroupName name => "bad character in group name " ++ String.ofList (Text.quoted name)
  | .unknownGroupName name => "unknown group name " ++ String.ofList (Text.quoted name)
  | .badGroupNumber => "bad group number"
  | .redefinedGroup name group earlier =>
    let name := String.ofList (Text.quoted name)
    s!"redefinition of group name {name} as group {group}; was group {earlier}"
  | .thirdConditionalBranch => "conditional backref with more than two branches"
  | .lateFlags => "global flags not at the start of the expression"
  | .localeFlag => "bad inline flags: cannot use 'L' flag with a str pattern"
  | .incompatibleFlags => "bad inline flags: flags 'a', 'u' and 'L' are incompatible"
  | .unknownFlag => "unknown flag"
  | .globalFlagTurnedOn => "bad inline flags: cannot turn on global flag"
  | .typeFlagTurnedOff => "bad inline flags: cannot turn off flags 'a', 'u' and 'L'"
  | .globalFlagTurnedOff => "bad inline flags: cannot turn off global flag"
  | .flagTurnedOnAndOff => "bad inline flags: flag turned on and off"
  | .unbalancedParenthesis => "unbalanced parenthesis"
  | .lookBehindWidth => "look-behind requires fixed-width pattern"
  | .lookBehindTooWide => "looks too much behind"
  | .repeatInTemplate operator => "internal: unsupported template operator " ++ operator
  | .incompatibleGlobalFlags => "ASCII and UNICODE flags are incompatible"
  | .repetitionTooLarge => "the repetition number is too large"

/-- A cause and, for most, the place in the expression that it names. -/
structure Stop where
  cause : Cause
  position : Option Nat
  deriving DecidableEq, Repr

/-- A stop as it is reported for `text`. The line and the column of its place are told where the
expression has several lines. -/
def Stop.message (stop : Stop) (text : List Char) : String :=
  match stop.position with
  | none => stop.cause.message
  | some position =>
    let place := s!"{stop.cause.message} at position {position}"
    if text.contains '\n' then
      let before := text.take position
      let line := before.count '\n' + 1
      let column := (before.reverse.takeWhile (· ≠ '\n')).length + 1
      s!"{place} (line {line}, column {column})"
    else place

end DocAudit.Pattern
