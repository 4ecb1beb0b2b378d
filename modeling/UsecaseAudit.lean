import UsecaseAudit.Main
import UsecaseAudit.Proofs.Lists
import UsecaseAudit.Proofs.Places
import UsecaseAudit.Proofs.Visited
import UsecaseAudit.Proofs.Walk
import UsecaseAudit.Proofs.Conversion
import UsecaseAudit.Proofs.Evidence
import UsecaseAudit.Proofs.IdleActions
import UsecaseAudit.Proofs.IdleTasks
import UsecaseAudit.Proofs.Discovered
import UsecaseAudit.Proofs.Outcome
import UsecaseAudit.Proofs.Verbatim
import UsecaseAudit.Proofs.ReportNumbers
import UsecaseAudit.Proofs.JsonGrammar
import UsecaseAudit.Proofs.JsonReader
import UsecaseAudit.Proofs.ReportReadBack
import UsecaseAudit.Proofs.ProperNames
import UsecaseAudit.Proofs.SpecConvention
import UsecaseAudit.Proofs.SpecCollisions
import UsecaseAudit.Proofs.Exclusion
import UsecaseAudit.Proofs.DiskShape
import UsecaseAudit.Proofs.Isolation
import UsecaseAudit.Proofs.DiskGrowth
import UsecaseAudit.Proofs.FileOpening
import UsecaseAudit.Proofs.FolderMaking
import UsecaseAudit.Proofs.FileMaking
import UsecaseAudit.Proofs.SpecsAdded
import UsecaseAudit.Proofs.CheckCommand
import UsecaseAudit.Proofs.DiskEffects
import UsecaseAudit.Proofs.LogRecords
import UsecaseAudit.Proofs.Verbosity
import UsecaseAudit.Proofs.CodeShape
import UsecaseAudit.Proofs.UsecaseSearch
import UsecaseAudit.Proofs.ReadCalls
import UsecaseAudit.Proofs.RunFailures
import UsecaseAudit.Proofs.Origins
import UsecaseAudit.Proofs.PassedOver
import UsecaseAudit.Proofs.CodeScans
import UsecaseAudit.Proofs.RoleFiles
import UsecaseAudit.Proofs.Utf8Text
import UsecaseAudit.Proofs.FirstFault
import UsecaseAudit.Proofs.ReadOutcome
import UsecaseAudit.Proofs.SettingsForm
import UsecaseAudit.Proofs.QualifiedNames
import UsecaseAudit.Proofs.SettingsSchema
import UsecaseAudit.Proofs.SettingsEdits
import UsecaseAudit.Proofs.LogRuns
import UsecaseAudit.Proofs.TextRanges
import UsecaseAudit.Proofs.Preorder
