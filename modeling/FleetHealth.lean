import FleetHealth.Fleet.Api
import FleetHealth.Main
import FleetHealth.Proofs.Fleet.History
import FleetHealth.Proofs.Fleet.Interleaving
import FleetHealth.Proofs.Fleet.KeyIdentity
import FleetHealth.Proofs.Fleet.Leaders
import FleetHealth.Proofs.Fleet.TableAccounts
import FleetHealth.Proofs.Fleet.Validators
import FleetHealth.Proofs.Fleet.Accounting
import FleetHealth.Proofs.Fleet.Alongside
import FleetHealth.Proofs.Fleet.Delivery
import FleetHealth.Proofs.Fleet.Geolocation
import FleetHealth.Proofs.Fleet.Isolation
import FleetHealth.Proofs.Metrics.Windowless
import FleetHealth.Proofs.Settings.Validation
import FleetHealth.Proofs.Fleet.PolledUrls
import FleetHealth.Proofs.Fleet.Published
import FleetHealth.Proofs.Fleet.Totals
import FleetHealth.Proofs.Settings.FileRoundTrip
import FleetHealth.Proofs.Chain.PriceStatistics
import FleetHealth.Proofs.Chain.RaisedQuotes
import FleetHealth.Proofs.Chain.SlashingReports
import FleetHealth.Proofs.Exposition.PageTexts
import FleetHealth.Proofs.Fleet.Reporting
import FleetHealth.Proofs.Metrics.WindowHistory
import FleetHealth.Proofs.Metrics.Refusal
import FleetHealth.Proofs.Metrics.Consistency
import FleetHealth.Proofs.Metrics.EpochSource
import FleetHealth.Proofs.Metrics.OwnFields
import FleetHealth.Proofs.Fleet.Selection
import FleetHealth.Proofs.Fleet.Spellings
import FleetHealth.Proofs.Exposition.SelectedSeries
import FleetHealth.Proofs.Settings.UsableUrls
import FleetHealth.Proofs.Metrics.UptimeTexts
import FleetHealth.Proofs.Fleet.TelemetryPages
import FleetHealth.Proofs.Net.Multiaddrs
