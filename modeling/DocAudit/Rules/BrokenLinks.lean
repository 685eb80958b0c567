import DocAudit.Docs
import DocAudit.Rules.Options

/-!
Links to Markdown files that are not there. What a target leads to is decided by the disk, from
the folder of the source.
-/

namespace DocAudit.BrokenLinks

structure Options where
  /-- Globs of sources that are not checked. -/
  excludePaths : Value := .ofTexts []

namespace Options

def toEntries (options : Options) : Entries :=
  [("exclude_paths", options.excludePaths)]

def ofEntries (given : Entries) : Except Fault Options := do
  let standard : Options := {}
  given.requireKnown standard.toEntries.keys
  return { excludePaths := given.option "exclude_paths" standard.excludePaths }

end Options

def finding (file : String) (link : Link) : Issue where
  file := file
  line := some link.line
  message := .text s!"Broken link to \"{String.ofList link.target}\""
  suggestion := some "Verify the file exists or update the link"

def isBroken (docs : Docs) (file : String) (link : Link) : Except Fault Bool :=
  return !(← docs.disk.isPresent ((docs.path file).parent.child (String.ofList link.target)))

def check (docs : Docs) (files : List String) (options : Options := {}) :
    Except Fault (List Issue) :=
  Docs.inEach files fun file => do
    if ← options.excludePaths.anyGlobMatches file then return []
    let document ← docs.document file
    return (← document.relativeLinks.filterM (isBroken docs file)).map (finding file)

end DocAudit.BrokenLinks
