import Spellcasting.Casting.Batch
import Spellcasting.Casting.Limits
import Spellcasting.Casting.State
import Spellcasting.Command
import Spellcasting.Command.Line
import Spellcasting.Config.Template
import Spellcasting.Decimal.Binary64
import Spellcasting.Decimal.Fixed
import Spellcasting.Decimal.Nearest
import Spellcasting.Decimal.Power
import Spellcasting.Decimal.Reading
import Spellcasting.Decimal.Shortest
import Spellcasting.Double
import Spellcasting.Entity
import Spellcasting.Entity.Id
import Spellcasting.Environment
import Spellcasting.Hand
import Spellcasting.Host
import Spellcasting.Host.Path
import Spellcasting.Host.Store
import Spellcasting.Iota
import Spellcasting.Iota.Comparison
import Spellcasting.Item
import Spellcasting.Json.Printer
import Spellcasting.Json.Reader
import Spellcasting.Loading
import Spellcasting.Main
import Spellcasting.Media.Amount
import Spellcasting.Media.Holder
import Spellcasting.Media.Registry
import Spellcasting.Mishap
import Spellcasting.Operator
import Spellcasting.Operator.Arguments
import Spellcasting.Operator.Arithmetic
import Spellcasting.Operator.Battery
import Spellcasting.Operator.Lists
import Spellcasting.Operator.Recharge
import Spellcasting.Operator.Stock
import Spellcasting.Scenario
import Spellcasting.Scenario.Outcome
import Spellcasting.Scenario.Prepare
import Spellcasting.Serial.Iota
import Spellcasting.Serial.Mishap
import Spellcasting.Serial.Report
import Spellcasting.Serial.Rules
import Spellcasting.Serial.Scenario
import Spellcasting.Serial.Settings
import Spellcasting.Serial.Values
import Spellcasting.Spray
import Spellcasting.Text.Hexadecimal
import Spellcasting.Text.Scalar
import Spellcasting.Text.Terminal
import Spellcasting.Toml.Number
import Spellcasting.Toml.Reader
import Spellcasting.Toml.Table
import Spellcasting.Toml.Text
import Spellcasting.Tree
import Spellcasting.Vec3
import Spellcasting.World
import Spellcasting.World.HalfPaying
import Spellcasting.World.Roster
import Spellcasting.Proofs.Steps
import Spellcasting.Proofs.Evaluation
import Spellcasting.Proofs.Rejection
import Spellcasting.Proofs.Commits
import Spellcasting.Proofs.StockPrograms
import Spellcasting.Proofs.Conservation
import Spellcasting.Proofs.Confinement
import Spellcasting.Proofs.References
import Spellcasting.Proofs.Agreement
import Spellcasting.Proofs.Payment
import Spellcasting.Proofs.FullEffect
import Spellcasting.Proofs.RepeatedRecharge
import Spellcasting.Proofs.Framing
import Spellcasting.Proofs.Renaming
import Spellcasting.Proofs.Mirrors
import Spellcasting.Proofs.RenamedCasts
import Spellcasting.Proofs.Identities
import Spellcasting.Proofs.Gates
import Spellcasting.Proofs.Tally
import Spellcasting.Proofs.Continuations
import Spellcasting.Proofs.Preludes
import Spellcasting.Proofs.Doubles
import Spellcasting.Proofs.SingleBottle
import Spellcasting.Proofs.WrittenIdentities
import Spellcasting.Proofs.RoundTrip
import Spellcasting.Proofs.StaleCommits
import Spellcasting.Proofs.Books
import Spellcasting.Proofs.CheckOrder
import Spellcasting.Proofs.Budget
import Spellcasting.Proofs.Misfits
import Spellcasting.Proofs.Preparation
import Spellcasting.Proofs.FullBatteries
import Spellcasting.Proofs.IndependentCommits
import Spellcasting.Proofs.Sameness
import Spellcasting.Proofs.Tolerance
import Spellcasting.Proofs.Sequences
