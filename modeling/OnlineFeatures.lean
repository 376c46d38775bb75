import OnlineFeatures.Client.Session
import OnlineFeatures.Main
import OnlineFeatures.Rpc.Server
import OnlineFeatures.Proofs.Message.RoundTrip
import OnlineFeatures.Proofs.Conversion.Supported
import OnlineFeatures.Proofs.Conversion.NormalForm
import OnlineFeatures.Proofs.Row.Fault
import OnlineFeatures.Proofs.Row.History
import OnlineFeatures.Proofs.Row.Snapshot
import OnlineFeatures.Proofs.Client.Answer
import OnlineFeatures.Proofs.Client.Outcome
import OnlineFeatures.Proofs.Client.Accounting
import OnlineFeatures.Proofs.Cli.Outcome
import OnlineFeatures.Proofs.Client.Credentials
import OnlineFeatures.Proofs.Cli.Overrides
import OnlineFeatures.Proofs.Settings.EnvFile
import OnlineFeatures.Proofs.Settings.Sources
import OnlineFeatures.Proofs.Cli.Configuration
import OnlineFeatures.Proofs.Client.Confidential
import OnlineFeatures.Proofs.Reference.Grammar
import OnlineFeatures.Proofs.Row.Rebuilt
import OnlineFeatures.Proofs.Cli.EntityRows
import OnlineFeatures.Proofs.Cli.Acceptance
import OnlineFeatures.Proofs.Calendar
import OnlineFeatures.Proofs.Message.TimestampText
import OnlineFeatures.Proofs.Conversion.Moment
import OnlineFeatures.Proofs.Row.Instants
import OnlineFeatures.Proofs.Number.Product
import OnlineFeatures.Proofs.Conversion.Seconds
import OnlineFeatures.Proofs.Row.Renderable
import OnlineFeatures.Proofs.Message.Lists
import OnlineFeatures.Proofs.Message.Combined
import OnlineFeatures.Proofs.Number.Rounding
import OnlineFeatures.Proofs.Conversion.Stored
import OnlineFeatures.Proofs.Metrics.Collectors
import OnlineFeatures.Proofs.Text.JsonGrammar
import OnlineFeatures.Proofs.Text.JsonWalk
import OnlineFeatures.Proofs.Text.JsonReading
import OnlineFeatures.Proofs.Text.Json
import OnlineFeatures.Proofs.Cli.Printed
