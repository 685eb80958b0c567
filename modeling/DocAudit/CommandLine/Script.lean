import DocAudit.Console.Terminal

/-!
Scripts: what a command does, as data. A command works out its effects in their order and its exit
code; performing them stops at the first one that fails.
-/

namespace DocAudit.CommandLine

inductive Event where
  | log (level : Level) (markup : String)
  | print (text : String)
  | printError (text : String)
  | display (markup : String)
  | displayError (markup : String)
  | save (disk : Disk)

/-- The effect of an event. A logged message takes effect only where its level is shown. -/
def Event.perform (threshold : Level) (terminal : Terminal) : Event → Except Fault Terminal
  | log level markup =>
    if threshold.shows level then terminal.log level markup else .ok terminal
  | print text => .ok (terminal.print text)
  | printError text => .ok (terminal.printError text)
  | display markup => terminal.display markup
  | displayError markup => terminal.displayError markup
  | save disk => .ok { terminal with disk := disk }

structure Script where
  events : List Event
  exit : Except Fault Nat

/-- Performs events up to the first that fails; what has been written stays. -/
def performAll (threshold : Level) (terminal : Terminal) :
    List Event → Terminal × Except Fault Unit
  | [] => (terminal, .ok ())
  | event :: rest =>
    match event.perform threshold terminal with
    | .ok next => performAll threshold next rest
    | .error fault => (terminal, .error fault)

namespace Script

def perform (threshold : Level) (terminal : Terminal) (script : Script) :
    Terminal × Except Fault Nat :=
  match performAll threshold terminal script.events with
  | (terminal, .ok ()) => (terminal, script.exit)
  | (terminal, .error fault) => (terminal, .error fault)

/-- What a script would print, without printing it. -/
def capture (threshold : Level) (disk : Disk) (script : Script) : Except Fault (String × Nat) :=
  let (terminal, exit) := script.perform threshold { disk := disk }
  return (terminal.out, ← exit)

/-- More events in front of a script. -/
def after (events : List Event) (script : Script) : Script :=
  { script with events := events ++ script.events }

/-- Messages that are logged one after another, up to the first that cannot be written. -/
def ofMessages (exit : Nat) : List (Except Fault String) → Script
  | [] => ⟨[], .ok exit⟩
  | .ok message :: rest => after [.log .info message] (ofMessages exit rest)
  | .error fault :: _ => ⟨[], .error fault⟩

def debug (messages : List String) : List Event :=
  messages.map (.log .debug ·)

/-- Faults that a command tells of in a line of its own. Any other one ends the program. -/
def isReported : Fault → Bool
  | .badSeverity .. | .ruleShape .. | .optionsNotTaken .. | .badOptions .. | .listExpected ..
  | .rulesExpected | .terminologyExpected | .terminologyListExpected .. | .badTerminology ..
  | .languagesExpected | .objectExpected | .configMissing .. | .badJson .. | .docsMissing ..
  | .noDocuments .. | .templateMissing .. | .unknownRules .. => true
  | _ => false

def ofFault (fault : Fault) : Script :=
  if isReported fault then ⟨[.print s!"Error: {fault.message}\n"], .ok 1⟩ else ⟨[], .error fault⟩

end Script

end DocAudit.CommandLine
