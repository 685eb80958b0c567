import DocAudit.Docs
import DocAudit.Text.Blank
import DocAudit.Text.Case
import DocAudit.Text.Digit

/-!
Folders of languages: one for each language, each with copies of the same documents. The folder of
the source language is compared with the docs themselves, and, where this is asked for, the folders
of the target languages are compared with that of the source.
-/

namespace DocAudit.LanguageFolders

structure Languages where
  source : Value
  targets : List Value := []
  folder : Value := .text "translations"
  checkSync : Bool := false

/-- Two lower-case letters, perhaps with a hyphen and two upper-case ones; all of them ASCII. One
line feed at the end does not count. -/
def isLanguageFolder (name : String) : Bool :=
  let name := name.toList
  let name := if name.getLast? = some '\n' then name.dropLast else name
  (name.take 2).length == 2
    && (name.take 2).all Char.isLower
    && match name.drop 2 with
      | [] => true
      | ['-', first, second] => first.isUpper && second.isUpper
      | _ => false

/-! The version of a document is the number in the first version marker of its text. -/

def markerNames : List (List Char) := ["バージョン".toList, "Version".toList]

def markerStars : List Char := ['*', '*']

def markerEnd : List Char := ['*', '*', ':']

def behind? (piece text : List Char) : Option (List Char) :=
  if piece.isPrefixOf text then some (text.drop piece.length) else none

/-- What is left of a text behind a name that begins it in some case. -/
def behindName? : List Char → List Char → Option (List Char)
  | [], text => some text
  | _ :: _, [] => none
  | expected :: name, c :: text =>
    if Text.sameLetter expected c then behindName? name text else none

/-- Runs of digits with single dots between them. `inRun` says that the last character was a
digit. -/
def versionNumber : (inRun : Bool) → List Char → List Char
  | _, [] => []
  | inRun, c :: rest =>
    if Text.isDigit c then c :: versionNumber true rest
    else if inRun && c == '.' && rest.head?.any Text.isDigit then c :: versionNumber false rest
    else []

/-- The version in a marker that begins a text. -/
def versionAt? (text : List Char) : Option (List Char) := do
  let name ← behind? markerStars text
  let ending ← markerNames.findSome? (behindName? · name)
  let number ← behind? markerEnd ending
  let version := versionNumber false (Text.stripLeft number)
  if version.isEmpty then none else some version

def version? : List Char → Option (List Char)
  | [] => none
  | c :: rest => (versionAt? (c :: rest)).or (version? rest)

/-- How many headings of the first two levels a text has. -/
def headingCounts (text : List Char) : Nat × Nat :=
  let document := Document.ofText "" text
  (document.countHeadings 1, document.countHeadings 2)

/-- Every visible Markdown file below a folder, in order. -/
def markdownFiles (node : Node) : List String :=
  Disk.sortedNames ((Discovery.visibleFiles node).filter fun file =>
    Text.endsWith file.toList ['.', 'm', 'd'])

def invalidFolder (folder name : String) : Issue where
  file := s!"{folder}/{name}"
  message := .text s!"Invalid language folder name: {name}"
  suggestion := some "Use an ISO language code (e.g., en, ja, vi, en-US)"

def missingSource (folder source : String) : Issue where
  file := folder
  message := .text s!"Source language folder missing: {source}"
  suggestion := some s!"Create {folder}/{source}/ and copy source files"

def missingTarget (folder language : String) : Issue where
  file := folder
  message := .text s!"Target language folder missing: {language}"
  suggestion := some s!"Create {folder}/{language}/"

def missingCopy (folder source language file : String) : Issue where
  file := s!"{folder}/{source}/{file}"
  message := .text s!"Missing {language} translation"
  suggestion := some s!"Create {folder}/{language}/{file}"

def strayCopy (folder source language file : String) : Issue where
  file := s!"{folder}/{language}/{file}"
  message := .text "Translation without source file"
  suggestion := some s!"Add source file at {folder}/{source}/{file}"

def staleCopy (folder source file : String) : Issue where
  file := s!"{folder}/{source}/{file}"
  message := .text "Source language copy may be out of sync with main docs"
  suggestion := some s!"Update from {file}"

def versionMismatch (label : String) (source target : List Char) : Issue where
  file := label
  message := .text <|
    s!"Version mismatch: source={String.ofList source}, "
      ++ s!"translation={String.ofList target}"
  suggestion := some s!"Update translation to match source version {String.ofList source}"

def structureMismatch (label : String) (source target : Nat × Nat) : Issue where
  file := label
  message := .text <|
    s!"Structure mismatch: source has {source.1}xH1/{source.2}xH2, "
      ++ s!"translation has {target.1}xH1/{target.2}xH2"
  suggestion := some "Review translation structure to match source"

/-- Differences between a document and its copy in a target language. -/
def comparison (label : String) (source target : List Char) : List Issue :=
  let versions := match version? source, version? target with
    | some left, some right => if left = right then [] else [versionMismatch label left right]
    | _, _ => []
  let left := headingCounts source
  let right := headingCounts target
  versions ++ if left = right then [] else [structureMismatch label left right]

/-- The folder that holds the folders of languages, with their names. -/
structure Layout where
  docs : Docs
  folder : String
  path : FilePath
  languages : List String

namespace Layout

def languagePath (layout : Layout) (language : String) : FilePath :=
  layout.path.child language

/-- The Markdown files of a language, each by its path from the folder of the language. -/
def filesOf (layout : Layout) (language : String) : Except Fault (List String) := do
  match ← layout.docs.disk.node? (layout.languagePath language) with
  | some node => return markdownFiles node
  | none => return []

/-- The name of the language that a value means, if it has a folder. -/
def language? (layout : Layout) (value : Value) : Option String :=
  layout.languages.find? (value.isText ·)

/-- What one target language lacks and what it has too much. -/
def coverage (layout : Layout) (source : String) (files : List String) (target : Value) :
    Except Fault (List Issue) := do
  match layout.language? target with
  | none => return [missingTarget layout.folder target.plain]
  | some language =>
    let present ← layout.filesOf language
    let missing := files.filter (!present.contains ·)
    let stray := present.filter (!files.contains ·)
    return missing.map (missingCopy layout.folder source language)
      ++ stray.map (strayCopy layout.folder source language)

/-- Whether the docs hold a file or folder under the path of a copy, and not one as large. Nothing
is as large as a folder. -/
def isStale (layout : Layout) (source file : String) : Except Fault Bool := do
  let copy := (layout.languagePath source).child file
  match ← layout.docs.disk.node? (layout.docs.path file) with
  | none => return false
  | some (.folder _) => return true
  | some (.file content) => return content.size != (← layout.docs.disk.readBytes copy).size

/-- Differences between the documents of the source language and those of one target language. -/
def comparisons (layout : Layout) (source : String) (files : List String) (language : String) :
    Except Fault (List Issue) :=
  Docs.inEach files fun file => do
    let disk := layout.docs.disk
    let copy := (layout.languagePath language).child file
    if ← disk.isPresent copy then
      let text ← disk.readText ((layout.languagePath source).child file)
      return comparison s!"{layout.folder}/{language}/{file}" text (← disk.readText copy)
    return []

def findings (layout : Layout) (languages : Languages) (source : String) :
    Except Fault (List Issue) := do
  let files ← layout.filesOf source
  let covered ←
    if languages.checkSync then languages.targets.mapM (layout.coverage source files)
    else pure []
  let stale ← files.filterM (layout.isStale source)
  let compared ←
    if languages.checkSync then
      (languages.targets.filterMap layout.language?).mapM (layout.comparisons source files)
    else pure []
  return covered.flatten ++ stale.map (staleCopy layout.folder source) ++ compared.flatten

end Layout

def checkLanguages (docs : Docs) (languages : Languages) : Except Fault (List Issue) := do
  let folder ← languages.folder.pathPart
  let path := docs.path folder
  if !(← docs.disk.isPresent path) then return []
  let layout : Layout := ⟨docs, folder, path, ← docs.disk.visibleFolders path⟩
  let invalid := (layout.languages.filter (!isLanguageFolder ·)).map (invalidFolder folder)
  match layout.language? languages.source with
  | none => return invalid ++ [missingSource folder languages.source.plain]
  | some source => return invalid ++ (← layout.findings languages source)

/-- Without languages there is nothing to check. -/
def check (docs : Docs) (languages : Option Languages) : Except Fault (List Issue) :=
  match languages with
  | none => .ok []
  | some languages => checkLanguages docs languages

example : isLanguageFolder "en-US" = true := by decide +kernel

example : version? "**version**: 1.2.x".toList = some ['1', '.', '2'] := by decide +kernel

end DocAudit.LanguageFolders
