import DominionSilver.Library.Accounts
import DominionSilver.Library.Buckets
import DominionSilver.Library.Buffers
import DominionSilver.Library.Bytes
import DominionSilver.Library.Checked
import DominionSilver.Library.Contests
import DominionSilver.Library.Countdown
import DominionSilver.Library.Decimals
import DominionSilver.Library.Doubles
import DominionSilver.Library.Formats
import DominionSilver.Library.Journal
import DominionSilver.Library.Legs
import DominionSilver.Library.Limiter
import DominionSilver.Library.Listing
import DominionSilver.Library.Registry
import DominionSilver.Library.Shares
import DominionSilver.Library.Sizes
import DominionSilver.Library.Slices
import DominionSilver.Library.Sliding
import DominionSilver.Library.Splits
import DominionSilver.Library.Tokens
import DominionSilver.Library.Traces
import DominionSilver.Spec.Admin
import DominionSilver.Spec.AdminActions
import DominionSilver.Spec.Amounts
import DominionSilver.Spec.Args
import DominionSilver.Spec.Basic
import DominionSilver.Spec.Clients
import DominionSilver.Spec.Events
import DominionSilver.Spec.Execute
import DominionSilver.Spec.Guard
import DominionSilver.Spec.Initialize
import DominionSilver.Spec.Layouts
import DominionSilver.Spec.Lazer
import DominionSilver.Spec.LazerAssembly
import DominionSilver.Spec.LazerTx
import DominionSilver.Spec.Main
import DominionSilver.Spec.Math
import DominionSilver.Spec.Numbers
import DominionSilver.Spec.Payload
import DominionSilver.Spec.Priced
import DominionSilver.Spec.Propose
import DominionSilver.Spec.Proxy
import DominionSilver.Spec.Squads
import DominionSilver.Spec.State
import DominionSilver.Spec.Storage
import DominionSilver.Spec.Wallets
import DominionSilver.Spec.World
import DominionSilver.Sanity.Applied
import DominionSilver.Sanity.Counter
import DominionSilver.Sanity.Decode
import DominionSilver.Sanity.Effects
import DominionSilver.Sanity.Emitted
import DominionSilver.Sanity.Errors
import DominionSilver.Sanity.Inversion
import DominionSilver.Sanity.Numbers
import DominionSilver.Sanity.Proxy
import DominionSilver.Sanity.Quotes
import DominionSilver.Sanity.Reference
import DominionSilver.Sanity.Roles
import DominionSilver.Sanity.Vaults
import DominionSilver.Proofs.Amounts
import DominionSilver.Proofs.Arithmetic
import DominionSilver.Proofs.Assembly
import DominionSilver.Proofs.Backlog
import DominionSilver.Proofs.Books
import DominionSilver.Proofs.Bounds
import DominionSilver.Proofs.Breaker
import DominionSilver.Proofs.Budget
import DominionSilver.Proofs.Cadence
import DominionSilver.Proofs.Cancel
import DominionSilver.Proofs.Charging
import DominionSilver.Proofs.Clients
import DominionSilver.Proofs.Console
import DominionSilver.Proofs.Contention
import DominionSilver.Proofs.Disarm
import DominionSilver.Proofs.Drain
import DominionSilver.Proofs.Exemption
import DominionSilver.Proofs.Fits
import DominionSilver.Proofs.Freeze
import DominionSilver.Proofs.Freshness
import DominionSilver.Proofs.Gate
import DominionSilver.Proofs.Grammar
import DominionSilver.Proofs.Guardians
import DominionSilver.Proofs.Handover
import DominionSilver.Proofs.Keys
import DominionSilver.Proofs.Kyc
import DominionSilver.Proofs.Layouts
import DominionSilver.Proofs.Loosening
import DominionSilver.Proofs.Maximum
import DominionSilver.Proofs.Money
import DominionSilver.Proofs.Notice
import DominionSilver.Proofs.Policy
import DominionSilver.Proofs.Posture
import DominionSilver.Proofs.Prints
import DominionSilver.Proofs.Proposals
import DominionSilver.Proofs.Removal
import DominionSilver.Proofs.Repricing
import DominionSilver.Proofs.Rosters
import DominionSilver.Proofs.Rotation
import DominionSilver.Proofs.Routing
import DominionSilver.Proofs.Splitting
import DominionSilver.Proofs.Staging
import DominionSilver.Proofs.Supply
import DominionSilver.Proofs.Timelock
import DominionSilver.Proofs.Trading
import DominionSilver.Proofs.Unblock
import DominionSilver.Proofs.Undo
import DominionSilver.Proofs.Unpause
import DominionSilver.Proofs.Views
import DominionSilver.Proofs.Waivers
import DominionSilver.Proofs.Wallets
import DominionSilver.Proofs.Window
