import HAtom.Main
import HAtom.Markup.Cursor
import HAtom.Proofs.AuthorReports
import HAtom.Proofs.Breakdown
import HAtom.Proofs.CuttingEffect
import HAtom.Proofs.DateTexts
import HAtom.Proofs.EarlierFindings
import HAtom.Proofs.EntryLocality
import HAtom.Proofs.EntryReports
import HAtom.Proofs.ExitStatus
import HAtom.Proofs.ExtensionForms
import HAtom.Proofs.ImplicitFeed
import HAtom.Proofs.Interleaving
import HAtom.Proofs.Journal
import HAtom.Proofs.KeyReports
import HAtom.Proofs.Matching
import HAtom.Proofs.Misplaced
import HAtom.Proofs.Padding
import HAtom.Proofs.PassedOver
import HAtom.Proofs.Positions
import HAtom.Proofs.RegistryHistory
import HAtom.Proofs.SessionLife
import HAtom.Proofs.SessionsMade
import HAtom.Proofs.ShownTimes
import HAtom.Proofs.SpacedWords
import HAtom.Proofs.StrayScans
import HAtom.Proofs.UniqueNames
import HAtom.Proofs.Verdict
import HAtom.Report.Exchange
import HAtom.Proofs.DocumentsFound
import HAtom.Proofs.BatchCounts
import HAtom.Proofs.JsonLayout
import HAtom.Proofs.ReportExchange
import HAtom.Proofs.ResultsShown
