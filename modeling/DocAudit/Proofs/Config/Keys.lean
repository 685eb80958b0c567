import DocAudit.Config.Basic
import DocAudit.Proofs.Faults

/-!
What a configuration is read from. Each field comes from the value under one key, and the values
are read one after another up to the first that is at fault.
-/

namespace DocAudit.Config

def textsGiven (key : String) (standard : List String) : Option Value → Except Fault (List String)
  | none => .ok standard
  | some (.list items) => .ok (items.map Value.plain)
  | some _ => .error (.listExpected key)

def termsGiven : Option Value → Except Fault (List Terminology.Term)
  | none => .ok []
  | some value => readTerms value

/-- What is read under each key. -/
structure Reads (environment : Environment) (given : String → Option Value) (config : Config) :
    Prop where
  docsDir : config.docsDir = ((given "docsDir").map Value.plain).getD environment.docsDir
  included : textsGiven "include" Discovery.defaultIncluded (given "include") = .ok config.included
  excluded : textsGiven "exclude" Discovery.defaultExcluded (given "exclude") = .ok config.excluded
  requiredFiles : textsGiven "requiredFiles" [] (given "requiredFiles") = .ok config.requiredFiles
  rules : ∃ read, (standard environment).readRules ((given "rules").getD .null) = .ok read ∧
    config.settings = read.settings ∧ config.others = read.others
  terms : termsGiven (given "terminology") = .ok config.terms
  languages : readOptionalLanguages (given "i18n") = .ok config.languages

theorem readTexts_eq (entries : Entries) (key : String) (standard : List String) :
    readTexts entries key standard = textsGiven key standard (entries.lookup key) := by
  rw [readTexts.eq_def]
  rfl

/-- What has been read, put together. -/
def assemble (environment : Environment) (given : String → Option Value)
    (included excluded requiredFiles : List String) (rules : Config)
    (terms : List Terminology.Term) (languages : Option LanguageFolders.Languages) : Config :=
  { rules with
    docsDir := ((given "docsDir").map Value.plain).getD environment.docsDir
    included := included
    excluded := excluded
    requiredFiles := requiredFiles
    terms := terms
    languages := languages }

theorem ofEntries_eq (environment : Environment) (entries : Entries) :
    ofEntries environment entries = do
      let included ← textsGiven "include" Discovery.defaultIncluded (entries.lookup "include")
      let excluded ← textsGiven "exclude" Discovery.defaultExcluded (entries.lookup "exclude")
      let requiredFiles ← textsGiven "requiredFiles" [] (entries.lookup "requiredFiles")
      let rules ← (standard environment).readRules ((entries.lookup "rules").getD .null)
      let terms ← termsGiven (entries.lookup "terminology")
      let languages ← readOptionalLanguages (entries.lookup "i18n")
      return assemble environment (entries.lookup ·) included excluded requiredFiles rules terms
        languages := by
  rw [ofEntries]
  simp only [readTexts_eq]
  cases entries.lookup "terminology" <;> rfl

theorem ofEntries_eq_ok_iff {environment : Environment} {entries : Entries} {config : Config} :
    ofEntries environment entries = .ok config ↔
      Reads environment (entries.lookup ·) config := by
  rw [ofEntries_eq]
  constructor
  · intro read
    obtain ⟨included, readIncluded, read⟩ := exists_of_bind_eq_ok read
    obtain ⟨excluded, readExcluded, read⟩ := exists_of_bind_eq_ok read
    obtain ⟨requiredFiles, readRequired, read⟩ := exists_of_bind_eq_ok read
    obtain ⟨rules, readRules, read⟩ := exists_of_bind_eq_ok read
    obtain ⟨terms, readTerms, read⟩ := exists_of_bind_eq_ok read
    obtain ⟨languages, readLanguages, ⟨⟩⟩ := exists_of_bind_eq_ok read
    exact ⟨rfl, readIncluded, readExcluded, readRequired, ⟨rules, readRules, rfl, rfl⟩, readTerms,
      readLanguages⟩
  · rintro ⟨docsDir, included, excluded, required, ⟨rules, readRules, settings, others⟩, terms,
      languages⟩
    rw [included, excluded, required, readRules, terms, languages]
    change Except.ok (assemble ..) = Except.ok config
    cases config
    cases docsDir
    cases settings
    cases others
    rfl

end DocAudit.Config
