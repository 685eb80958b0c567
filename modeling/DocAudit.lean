import DocAudit.Main
import DocAudit.Proofs.Audit.RulesOff
import DocAudit.Proofs.Config.TakenSettings
import DocAudit.Proofs.Fixing.Verdict
import DocAudit.Proofs.Glob.Language
import DocAudit.Proofs.Report.Outputs
import DocAudit.Proofs.Traceability.IdGuard
import DocAudit.Proofs.Traceability.Pairing
import DocAudit.Proofs.References.Orphans
import DocAudit.Proofs.References.BackReferences
import DocAudit.Proofs.References.BrokenLinks
import DocAudit.Proofs.References.LinkRoutes
import DocAudit.Proofs.Tree.StandardDiscovery
import DocAudit.Proofs.Document.Views
import DocAudit.Proofs.Document.CodeChange
import DocAudit.Proofs.Rules.CodeIgnored
import DocAudit.Proofs.TodoComments.Spellings
import DocAudit.Proofs.Terminology.AddedException
import DocAudit.Proofs.Terminology.ExceptionOrder
import DocAudit.Proofs.FolderNumbering.Reports
import DocAudit.Proofs.Outline.UnlabelledBlocks
import DocAudit.Proofs.Outline.HeadingJumps
import DocAudit.Proofs.Rules.SharedTitles
import DocAudit.Proofs.Traceability.PairedAlone
import DocAudit.Proofs.Traceability.CoverageBound
import DocAudit.Proofs.Tree.Placing
import DocAudit.Proofs.Tree.Contents
import DocAudit.Proofs.Sync.Listing
import DocAudit.Proofs.Sync.Steps
import DocAudit.Proofs.Sync.Writes
import DocAudit.Proofs.Sync.Convergence
import DocAudit.Proofs.Sync.Drift
import DocAudit.Proofs.Fixing.Calls
import DocAudit.Proofs.Fixing.DryRun
import DocAudit.Proofs.Fixing.LineEnds
import DocAudit.Proofs.Tree.Relisted
import DocAudit.Proofs.Tree.RelistedDisk
import DocAudit.Proofs.Rules.ListingOrder
import DocAudit.Proofs.Audit.ListingOrder
import DocAudit.Proofs.CommandLine.JsonOutput
import DocAudit.Proofs.Config.Overrides
import DocAudit.Proofs.Rules.NameConflicts
import DocAudit.Proofs.Rules.TranslationSync
import DocAudit.Proofs.Document.LinkWalk
import DocAudit.Proofs.Document.InlineExpression
import DocAudit.Proofs.Glob.LoosePatterns
import DocAudit.Proofs.Logging.Records
import DocAudit.Proofs.CommandLine.FixedNames
import DocAudit.Proofs.Config.KeptOptions
