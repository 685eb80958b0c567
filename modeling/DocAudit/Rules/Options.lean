import DocAudit.Tree.Basic
import DocAudit.Value.Access

/-!
Reading the options of a rule by name. A name that the rule does not know is refused; a value is
taken as it is, whatever its shape.
-/

namespace DocAudit.Entries

/-- Refuses options that are not among the known ones. -/
def requireKnown (known : List String) (given : Entries) : Except Fault Unit :=
  let unknown := given.keys.filter fun name => !known.contains name
  if unknown.isEmpty then .ok () else .error (.unknownOptions (Disk.sortedNames unknown))

/-- The value given for an option, or else its default. -/
def option (given : Entries) (name : String) (default : Value) : Value :=
  match given.lookup name with
  | some value => value.fixed
  | none => default

end DocAudit.Entries
