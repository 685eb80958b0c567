import DocAudit.Fault
import DocAudit.Text.Case

/-!
Levels of log messages. A message is shown when its level is at least that of its logger.
-/

namespace DocAudit

inductive Level where
  /-- The level of a logger that leaves the decision to the one above it. -/
  | unset
  | debug
  | info
  | warning
  | error
  | critical
  deriving DecidableEq, Repr

namespace Level

def rank : Level → Nat
  | unset => 0
  | debug => 10
  | info => 20
  | warning => 30
  | error => 40
  | critical => 50

def name : Level → String
  | unset => "NOTSET"
  | debug => "DEBUG"
  | info => "INFO"
  | warning => "WARNING"
  | error => "ERROR"
  | critical => "CRITICAL"

/-- Every name of a level; two levels have two. -/
def named : List (String × Level) :=
  [("CRITICAL", critical), ("FATAL", critical), ("ERROR", error), ("WARN", warning),
    ("WARNING", warning), ("INFO", info), ("DEBUG", debug), ("NOTSET", unset)]

/-- The level of a name in any case. -/
def ofName (name : String) : Except Fault Level :=
  let upper := String.ofList (Text.toUpper name.toList)
  match named.lookup upper with
  | some level => .ok level
  | none => .error (.unknownLevel upper)

/-- Whether a logger of this level shows a message. -/
def shows (threshold level : Level) : Bool :=
  threshold.rank ≤ level.rank

theorem lookup_name (level : Level) : named.lookup level.name = some level := by
  cases level <;> rfl

end Level

end DocAudit
