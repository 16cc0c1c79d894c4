import LanguageClient.Main
import LanguageClient.Proofs.Bridge.Forwards
import LanguageClient.Proofs.Client.Charge
import LanguageClient.Proofs.Client.Overtaken
import LanguageClient.Proofs.Client.WireOrder
import LanguageClient.Proofs.Connection.Requests
import LanguageClient.Proofs.Connection.Responses
import LanguageClient.Proofs.Range.Permutation
import LanguageClient.Proofs.Range.Report
import LanguageClient.Proofs.Relay.Indicator
import LanguageClient.Proofs.Relay.Service
import LanguageClient.Proofs.Roster.Dismissal
import LanguageClient.Proofs.Roster.Round
import LanguageClient.Proofs.Settings.Construction
import LanguageClient.Proofs.Settings.Loading
import LanguageClient.Proofs.Settings.Owners
import LanguageClient.Proofs.Wire.Spelling
import LanguageClient.Proofs.Wire.Stray
