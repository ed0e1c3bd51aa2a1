import LamTo.Analysis.AccessSteps
import LamTo.Analysis.AccountBuckets
import LamTo.Analysis.Anchoring
import LamTo.Analysis.AnnouncementFeed
import LamTo.Analysis.ArchiveSteps
import LamTo.Analysis.BackupDrills
import LamTo.Analysis.BillLifecycle
import LamTo.Analysis.BillTables
import LamTo.Analysis.Books
import LamTo.Analysis.CanonicalForm
import LamTo.Analysis.CaseSteps
import LamTo.Analysis.ChainAgreement
import LamTo.Analysis.ChainConsulted
import LamTo.Analysis.ChainMatch
import LamTo.Analysis.ChainSteps
import LamTo.Analysis.ClosedCases
import LamTo.Analysis.CompletedWork
import LamTo.Analysis.CredentialEnds
import LamTo.Analysis.DailyCap
import LamTo.Analysis.Decisions
import LamTo.Analysis.DeliverySteps
import LamTo.Analysis.DispositionNames
import LamTo.Analysis.DocumentLinks
import LamTo.Analysis.DraftOrder
import LamTo.Analysis.DraftSteps
import LamTo.Analysis.DraftsCleared
import LamTo.Analysis.ExplorerAccess
import LamTo.Analysis.ExportFiles
import LamTo.Analysis.FaceCalls
import LamTo.Analysis.FaceMatches
import LamTo.Analysis.FaceTables
import LamTo.Analysis.FaceTies
import LamTo.Analysis.FinanceSteps
import LamTo.Analysis.FundCalendar
import LamTo.Analysis.FundConservation
import LamTo.Analysis.FundSeries
import LamTo.Analysis.GateEvents
import LamTo.Analysis.GateSteps
import LamTo.Analysis.InfoRequests
import LamTo.Analysis.IntactDocuments
import LamTo.Analysis.LiveTokens
import LamTo.Analysis.LockLasts
import LamTo.Analysis.LockedLogin
import LamTo.Analysis.LogTokens
import LamTo.Analysis.LoginSteps
import LamTo.Analysis.MaintenanceSteps
import LamTo.Analysis.MismatchAlerts
import LamTo.Analysis.MismatchRecorded
import LamTo.Analysis.NoticeLinks
import LamTo.Analysis.OfferedLocations
import LamTo.Analysis.OpenCases
import LamTo.Analysis.OpenMismatches
import LamTo.Analysis.PayloadShapes
import LamTo.Analysis.PhotoKeys
import LamTo.Analysis.PhotoObjects
import LamTo.Analysis.PhotoOrphans
import LamTo.Analysis.PhotoSteps
import LamTo.Analysis.PhotoSubmissions
import LamTo.Analysis.PlateLetters
import LamTo.Analysis.PlateRows
import LamTo.Analysis.PriceComparisons
import LamTo.Analysis.PrivateReports
import LamTo.Analysis.ProceedingCases
import LamTo.Analysis.ProposalChain
import LamTo.Analysis.ProposalSteps
import LamTo.Analysis.PublishedEntries
import LamTo.Analysis.PublishedEvidence
import LamTo.Analysis.PurgeRuns
import LamTo.Analysis.PushOwners
import LamTo.Analysis.QuarantineRegister
import LamTo.Analysis.QueuedEvidence
import LamTo.Analysis.RegistrationLifecycle
import LamTo.Analysis.RegistrationSteps
import LamTo.Analysis.RegistrationThrottle
import LamTo.Analysis.RegistryInvariant
import LamTo.Analysis.ReportSteps
import LamTo.Analysis.ReportSubmissions
import LamTo.Analysis.ResidentDownloads
import LamTo.Analysis.RetryDiscipline
import LamTo.Analysis.Scans
import LamTo.Analysis.ServedDocuments
import LamTo.Analysis.SettlementAccepted
import LamTo.Analysis.SignatureForm
import LamTo.Analysis.SingleSend
import LamTo.Analysis.SpendingDecisions
import LamTo.Analysis.StaleCleanup
import LamTo.Analysis.SubmittedOnce
import LamTo.Analysis.SweepProgress
import LamTo.Analysis.TamperEvidence
import LamTo.Analysis.Tenants
import LamTo.Analysis.TerminalReports
import LamTo.Analysis.TerminalStatus
import LamTo.Analysis.Timestamps
import LamTo.Analysis.TokenCap
import LamTo.Analysis.TransactionHash
import LamTo.Analysis.TriageOnce
import LamTo.Analysis.TriageOutcomes
import LamTo.Analysis.TriagePrompts
import LamTo.Analysis.TriageSteps
import LamTo.Analysis.UploadSteps
import LamTo.Analysis.WorkerSteps
import LamTo.Analysis.WriteAuthorization
import LamTo.Library.Best
import LamTo.Library.Binary64
import LamTo.Library.Calendar
import LamTo.Library.Constraint
import LamTo.Library.Csv
import LamTo.Library.DayNumbers
import LamTo.Library.FilteredSums
import LamTo.Library.FirstOfKey
import LamTo.Library.Framing
import LamTo.Library.GoneRows
import LamTo.Library.HeaderParameters
import LamTo.Library.Hex
import LamTo.Library.Holding
import LamTo.Library.Json
import LamTo.Library.JsonCharacters
import LamTo.Library.JsonRoundTrip
import LamTo.Library.Linked
import LamTo.Library.Outcome
import LamTo.Library.ParentChain
import LamTo.Library.PercentEncoding
import LamTo.Library.Redaction
import LamTo.Library.Separated
import LamTo.Library.Sha256
import LamTo.Library.Sweep
import LamTo.Library.Table
import LamTo.Library.Transition
import LamTo.Library.Turns
import LamTo.Library.Utf8
import LamTo.Library.Versions
import LamTo.Model.ActionInbox
import LamTo.Model.Announcements
import LamTo.Model.Archive
import LamTo.Model.Backups
import LamTo.Model.BillCalls
import LamTo.Model.Canonical
import LamTo.Model.ChainClient
import LamTo.Model.ChainSteps
import LamTo.Model.Database
import LamTo.Model.Deliveries
import LamTo.Model.Downloads
import LamTo.Model.Evidence
import LamTo.Model.Exports
import LamTo.Model.FundCharts
import LamTo.Model.GateDevices
import LamTo.Model.GatePhotos
import LamTo.Model.GateReaders
import LamTo.Model.Integrity
import LamTo.Model.IntegrityBatch
import LamTo.Model.Locations
import LamTo.Model.LogFilters
import LamTo.Model.Login
import LamTo.Model.Maintenance
import LamTo.Model.Notifications
import LamTo.Model.Outbox
import LamTo.Model.Plates
import LamTo.Model.PricePredictions
import LamTo.Model.Proposals
import LamTo.Model.PushLinks
import LamTo.Model.Registrations
import LamTo.Model.Registry
import LamTo.Model.ReportDrafts
import LamTo.Model.Requests
import LamTo.Model.ResidentAccess
import LamTo.Model.Scanner
import LamTo.Model.Selectors
import LamTo.Model.Services
import LamTo.Model.Settlements
import LamTo.Model.Signatures
import LamTo.Model.Submissions
import LamTo.Model.TenantIntegrity
import LamTo.Model.Tokens
import LamTo.Model.TriageJobs
import LamTo.Model.Uploads
import LamTo.Model.Worker
import LamTo.Model.WriteAuthorization
