import DiceBot.Bytes.Base64
import DiceBot.Bytes.Hex
import DiceBot.Bytes.Utf8
import DiceBot.Console.Arguments
import DiceBot.Console.Command
import DiceBot.Console.Doctor
import DiceBot.Console.Overview
import DiceBot.Crypto.Aes
import DiceBot.Crypto.Gcm
import DiceBot.Crypto.Hmac
import DiceBot.Crypto.Sha256
import DiceBot.Database.Disk
import DiceBot.Database.Location
import DiceBot.Database.Record
import DiceBot.Database.Schema
import DiceBot.Failure
import DiceBot.Install.StateToken
import DiceBot.Json.Double
import DiceBot.Json.Read
import DiceBot.Json.Value
import DiceBot.Json.Write
import DiceBot.Main
import DiceBot.Proofs.Bytes.Base64
import DiceBot.Proofs.Bytes.Hex
import DiceBot.Proofs.Bytes.Marked
import DiceBot.Proofs.Bytes.Utf8
import DiceBot.Proofs.Console.Attribution
import DiceBot.Proofs.Console.Readiness
import DiceBot.Proofs.Console.Secrets
import DiceBot.Proofs.Console.Session
import DiceBot.Proofs.Crypto.Gcm
import DiceBot.Proofs.Crypto.Lengths
import DiceBot.Proofs.Database.Disk
import DiceBot.Proofs.Database.Location
import DiceBot.Proofs.Database.Schema
import DiceBot.Proofs.Install.Age
import DiceBot.Proofs.Install.StateToken
import DiceBot.Proofs.Json.Field
import DiceBot.Proofs.Outcome
import DiceBot.Proofs.Roll.Fairness
import DiceBot.Proofs.Roll.Grammar
import DiceBot.Proofs.Roll.Message
import DiceBot.Proofs.Roll.Outcome
import DiceBot.Proofs.Roll.Reply
import DiceBot.Proofs.Roll.Tally
import DiceBot.Proofs.Roll.Truth
import DiceBot.Proofs.Server.CallbackGate
import DiceBot.Proofs.Server.CommandGate
import DiceBot.Proofs.Server.Grant
import DiceBot.Proofs.Server.Handshake
import DiceBot.Proofs.Server.Provenance
import DiceBot.Proofs.Server.Secrecy
import DiceBot.Proofs.Settings.Document
import DiceBot.Proofs.Settings.Environment
import DiceBot.Proofs.Settings.Interpolation
import DiceBot.Proofs.Settings.Layering
import DiceBot.Proofs.Settings.Reading
import DiceBot.Proofs.Settings.Secrets
import DiceBot.Proofs.Settings.Table
import DiceBot.Proofs.Slack.Answers
import DiceBot.Proofs.Slack.Calls
import DiceBot.Proofs.Slack.Command
import DiceBot.Proofs.Slack.Reply
import DiceBot.Proofs.Team.Alike
import DiceBot.Proofs.Team.Atomic
import DiceBot.Proofs.Team.Holding
import DiceBot.Proofs.Team.Lifecycle
import DiceBot.Proofs.Team.Mirror
import DiceBot.Proofs.Team.Refinement
import DiceBot.Proofs.Team.Seal
import DiceBot.Proofs.Text.Ascii
import DiceBot.Proofs.Text.Numeral
import DiceBot.Proofs.Text.Run
import DiceBot.Proofs.Text.Split
import DiceBot.Proofs.Text.Trim
import DiceBot.Proofs.Time.Calendar
import DiceBot.Proofs.Time.Stamp
import DiceBot.Proofs.Toml.Braces
import DiceBot.Proofs.Toml.Difference
import DiceBot.Proofs.Toml.Lines
import DiceBot.Proofs.Web.Form
import DiceBot.Proofs.Web.Header
import DiceBot.Proofs.Web.Url
import DiceBot.Roll.Dice
import DiceBot.Roll.Message
import DiceBot.Roll.Notation
import DiceBot.Roll.Outcome
import DiceBot.Roll.Record
import DiceBot.Roll.Reply
import DiceBot.Roll.Request
import DiceBot.Server.Bot
import DiceBot.Server.Health
import DiceBot.Server.HomePage
import DiceBot.Server.Installation
import DiceBot.Server.Routes
import DiceBot.Server.Start
import DiceBot.Settings.Basic
import DiceBot.Settings.Environment
import DiceBot.Settings.Error
import DiceBot.Settings.File
import DiceBot.Settings.Interpolation
import DiceBot.Settings.Layer
import DiceBot.Settings.Load
import DiceBot.Settings.Validation
import DiceBot.Slack.Api
import DiceBot.Slack.Client
import DiceBot.Slack.Command
import DiceBot.Slack.Delivery
import DiceBot.Slack.Reply
import DiceBot.Team.Credentials
import DiceBot.Team.Id
import DiceBot.Team.Repository
import DiceBot.Team.Seal
import DiceBot.Team.Store
import DiceBot.Team.Vault
import DiceBot.Text.Blank
import DiceBot.Text.Numeral
import DiceBot.Text.Split
import DiceBot.Time.Calendar
import DiceBot.Time.Instant
import DiceBot.Time.Stamp
import DiceBot.Toml.Read
import DiceBot.Toml.Scalar
import DiceBot.Toml.Value
import DiceBot.Web.Form
import DiceBot.Web.Host
import DiceBot.Web.Html
import DiceBot.Web.Http
import DiceBot.Web.Punycode
import DiceBot.Web.Url
import DiceBot.Word
