import DocAudit.Text.Case
import DocAudit.Tree.Path

/-!
The variables that the program reads from its environment. A variable that is not set differs
from one that is empty.
-/

namespace DocAudit

abbrev Environment := List (String × String)

namespace Environment

def set (environment : Environment) (name value : String) : Environment :=
  (name, value) :: environment.filter (·.1 != name)

def value? (environment : Environment) (name : String) : Option String :=
  environment.lookup name

/-- The path of the configuration, if one is named. -/
def configPath? (environment : Environment) : Option String :=
  (environment.value? "DOCS_LINT_CONFIG").filter (· ≠ "")

def standardDocsDir : String := "./docs"

def docsDir (environment : Environment) : String :=
  (environment.value? "DOCS_LINT_DOCS_DIR").getD standardDocsDir

def standardLevel : String := "INFO"

/-- The name of the logging level, in upper case. -/
def logLevel (environment : Environment) (standard : String := standardLevel) : String :=
  String.ofList (Text.toUpper ((environment.value? "LOG_LEVEL").getD standard).toList)

end Environment

end DocAudit
