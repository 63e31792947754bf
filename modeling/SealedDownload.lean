import SealedDownload.Config.Wire
import SealedDownload.Json.Fault
import SealedDownload.Progress.Wire
import SealedDownload.Proofs.Admission.Slots
import SealedDownload.Simulation.Bench
import SealedDownload.Simulation.Fleet
import SealedDownload.Simulation.Solo
import SealedDownload.Simulation.Turns
import SealedDownload.Simulation.Web
import SealedDownload.Proofs.Admission.Steps
import SealedDownload.Proofs.Admission.Marks
import SealedDownload.Proofs.Admission.Accounting
import SealedDownload.Proofs.Admission.Order
import SealedDownload.Proofs.Transfer.Steps
import SealedDownload.Proofs.Transfer.Tokens
import SealedDownload.Proofs.Sealing.Blocks
import SealedDownload.Proofs.Sealing.Opening
import SealedDownload.Proofs.Transfer.Ceiling
import SealedDownload.Proofs.Downloader.Steps
import SealedDownload.Proofs.Pipeline.Steps
import SealedDownload.Proofs.Downloader.Transfers
import SealedDownload.Proofs.Downloader.Ceiling
import SealedDownload.Proofs.Pipeline.Marks
import SealedDownload.Proofs.Pipeline.Order
import SealedDownload.Proofs.Pipeline.Progress
import SealedDownload.Proofs.Pipeline.Serial
import SealedDownload.Proofs.Pipeline.Clearing
import SealedDownload.Proofs.Json.Text
import SealedDownload.Proofs.Json.Number
import SealedDownload.Proofs.Json.Reading
import SealedDownload.Proofs.Http.Tokens
import SealedDownload.Http.Chain
import SealedDownload.Proofs.Http.Steps
import SealedDownload.Proofs.Http.Resumption
import SealedDownload.Proofs.Json.Record
import SealedDownload.Proofs.Transfer.Attempts
import SealedDownload.Proofs.Transfer.Course
import SealedDownload.Proofs.Downloader.Linking
import SealedDownload.Proofs.Downloader.Words
import SealedDownload.Http.Session
import SealedDownload.Proofs.Http.Custody
import SealedDownload.Proofs.Http.Sessions
import SealedDownload.Proofs.Sealing.RoundTrip
import SealedDownload.Proofs.Downloader.Shutdown
import SealedDownload.Proofs.Pipeline.Delivery
import SealedDownload.Proofs.Downloader.CutOff
import SealedDownload.Proofs.Pipeline.Notice
import SealedDownload.Proofs.Downloader.Isolation
import SealedDownload.Proofs.Downloader.Contents
import SealedDownload.Proofs.Pipeline.Works
import SealedDownload.Proofs.Downloader.Handing
import SealedDownload.Proofs.Downloader.Outcome
import SealedDownload.Http.Watch
import SealedDownload.Proofs.Http.Watch
import SealedDownload.Proofs.Http.Drops
import SealedDownload.Proofs.Admission.Absence
import SealedDownload.Proofs.Sealing.Authentication
import SealedDownload.Proofs.Http.Following
import SealedDownload.Proofs.Http.Ranges
import SealedDownload.Proofs.Http.Message
import SealedDownload.Proofs.Http.Completion
import SealedDownload.Proofs.Http.Overrun
import SealedDownload.Proofs.Http.Totals
import SealedDownload.Proofs.Http.Interruption
import SealedDownload.Proofs.Http.Location
import SealedDownload.Proofs.Text.Percent
import SealedDownload.Proofs.Url.Path
import SealedDownload.Proofs.Url.Relative
import SealedDownload.Proofs.Double.Order
import SealedDownload.Proofs.Progress.Tracker
import SealedDownload.Proofs.Downloader.Publication
import SealedDownload.Proofs.Downloader.Estimate
import SealedDownload.Proofs.Pipeline.Agreement
import SealedDownload.Proofs.Http.Consumption
import SealedDownload.Proofs.Config.Acceptance
import SealedDownload.Proofs.Config.RoundTrip
import SealedDownload.Proofs.Double.Finite
import SealedDownload.Proofs.Event.RoundTrip
import SealedDownload.Proofs.Double.Grid
import SealedDownload.Proofs.Double.Rounding
import SealedDownload.Proofs.Double.Arithmetic
import SealedDownload.Proofs.Decimal.Magnitude
import SealedDownload.Proofs.Span.Seconds
import SealedDownload.Proofs.Retry.Pauses
