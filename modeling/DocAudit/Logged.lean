import DocAudit.Fault

/-!
Outcomes with the debug messages on the way to them, which are there after a fault, too.
-/

namespace DocAudit

structure Logged (α : Type) where
  log : List String := []
  outcome : Except Fault α

namespace Logged

def ofOutcome {α : Type} (outcome : Except Fault α) : Logged α where
  outcome := outcome

/-- Goes on after a success; the messages of the second part follow those of the first. -/
def andThen {α β : Type} (first : Logged α) (second : α → Logged β) : Logged β :=
  match first.outcome with
  | .error fault => { log := first.log, outcome := .error fault }
  | .ok value =>
    let next := second value
    { log := first.log ++ next.log, outcome := next.outcome }

end Logged

end DocAudit
