import FleetDeploy.App.Config
import FleetDeploy.App.File
import FleetDeploy.App.Identity
import FleetDeploy.App.Static
import FleetDeploy.ConfigFile
import FleetDeploy.Content.Extension
import FleetDeploy.Content.Sniff
import FleetDeploy.Credential.Scope
import FleetDeploy.Credential.Sealed
import FleetDeploy.Crypto.Aes
import FleetDeploy.Crypto.Gcm
import FleetDeploy.Crypto.Sha256
import FleetDeploy.Decimal.Shortest
import FleetDeploy.Json.Decode
import FleetDeploy.Json.Printer
import FleetDeploy.Json.Raw
import FleetDeploy.Json.Value
import FleetDeploy.Local.Path
import FleetDeploy.Local.Tree
import FleetDeploy.Machine.Basic
import FleetDeploy.Machine.Error
import FleetDeploy.Machine.Fleet
import FleetDeploy.Machine.Guest
import FleetDeploy.Machine.Leased
import FleetDeploy.Machine.Repair
import FleetDeploy.Machine.Size
import FleetDeploy.Order.Ascending
import FleetDeploy.Order.Linear
import FleetDeploy.Order.Map
import FleetDeploy.Program.Basic
import FleetDeploy.Proofs.Credential.Issuer
import FleetDeploy.Proofs.Credential.Scope
import FleetDeploy.Proofs.Credential.Sealed
import FleetDeploy.Proofs.Crypto.Gcm
import FleetDeploy.Proofs.Json.Document
import FleetDeploy.Proofs.Json.Escape
import FleetDeploy.Proofs.Json.Record
import FleetDeploy.Proofs.Local.Leads
import FleetDeploy.Proofs.Local.Path
import FleetDeploy.Proofs.Local.Walk
import FleetDeploy.Proofs.Machine.Asked
import FleetDeploy.Proofs.Machine.Bracket
import FleetDeploy.Proofs.Machine.Exit
import FleetDeploy.Proofs.Machine.Named
import FleetDeploy.Proofs.Machine.Overrun
import FleetDeploy.Proofs.Machine.Progress
import FleetDeploy.Proofs.Machine.Repair
import FleetDeploy.Proofs.Machine.Roster
import FleetDeploy.Proofs.Machine.Run
import FleetDeploy.Proofs.Machine.Scale
import FleetDeploy.Proofs.Machine.Turn
import FleetDeploy.Proofs.Machine.Visits
import FleetDeploy.Proofs.Order.Map
import FleetDeploy.Proofs.Program.Run
import FleetDeploy.Proofs.Program.Trace
import FleetDeploy.Proofs.Provision.Bucket
import FleetDeploy.Proofs.Provision.Haiku
import FleetDeploy.Proofs.Provision.History
import FleetDeploy.Proofs.Provision.Metadata
import FleetDeploy.Proofs.Provision.Protocol
import FleetDeploy.Proofs.Provision.Resources
import FleetDeploy.Proofs.Rehearsal.Course
import FleetDeploy.Proofs.Rehearsal.Removal
import FleetDeploy.Proofs.Release.Apart
import FleetDeploy.Proofs.Release.BestEffort
import FleetDeploy.Proofs.Release.Deadline
import FleetDeploy.Proofs.Release.Deploy
import FleetDeploy.Proofs.Release.History
import FleetDeploy.Proofs.Release.Interruption
import FleetDeploy.Proofs.Release.Layout
import FleetDeploy.Proofs.Release.Preparation
import FleetDeploy.Proofs.Release.Push
import FleetDeploy.Proofs.Release.Rewrite
import FleetDeploy.Proofs.Store.Holdings
import FleetDeploy.Proofs.Store.Key
import FleetDeploy.Proofs.Store.Objects
import FleetDeploy.Proofs.Store.Relative
import FleetDeploy.Proofs.Sync.Batches
import FleetDeploy.Proofs.Sync.Bucket
import FleetDeploy.Proofs.Sync.Cleanup
import FleetDeploy.Proofs.Sync.Collision
import FleetDeploy.Proofs.Sync.Directory
import FleetDeploy.Proofs.Sync.Effects
import FleetDeploy.Proofs.Sync.Inside
import FleetDeploy.Proofs.Sync.Interruption
import FleetDeploy.Proofs.Sync.Pool.Account
import FleetDeploy.Proofs.Sync.Pool.Run
import FleetDeploy.Proofs.Sync.Reading
import FleetDeploy.Proofs.Sync.Replacing
import FleetDeploy.Proofs.Sync.Retention
import FleetDeploy.Proofs.Sync.Thinning
import FleetDeploy.Proofs.Sync.Upload
import FleetDeploy.Proofs.Sync.Uploads
import FleetDeploy.Proofs.Text.Base64Url
import FleetDeploy.Proofs.Text.Numeral
import FleetDeploy.Proofs.Text.Utf8
import FleetDeploy.Provision.Bucket
import FleetDeploy.Provision.Error
import FleetDeploy.Provision.Haiku
import FleetDeploy.Provision.Resource
import FleetDeploy.Rehearsal.Alias
import FleetDeploy.Rehearsal.ContentTypes
import FleetDeploy.Rehearsal.Host
import FleetDeploy.Rehearsal.Provider
import FleetDeploy.Rehearsal.Script
import FleetDeploy.Rehearsal.Stage
import FleetDeploy.Rehearsal.Storage
import FleetDeploy.Release.Context
import FleetDeploy.Release.Deploy
import FleetDeploy.Release.Error
import FleetDeploy.Release.Push
import FleetDeploy.Report
import FleetDeploy.Settings.Basic
import FleetDeploy.Settings.Home
import FleetDeploy.Store.Error
import FleetDeploy.Store.Key
import FleetDeploy.Store.Objects
import FleetDeploy.Store.Target
import FleetDeploy.Sync.Bucket
import FleetDeploy.Sync.Cleanup
import FleetDeploy.Sync.Directory
import FleetDeploy.Sync.Pool
import FleetDeploy.Sync.Retention
import FleetDeploy.Sync.Service
import FleetDeploy.Text.Base64Url
import FleetDeploy.Text.Blank
import FleetDeploy.Text.Hex
import FleetDeploy.Text.Hidden
import FleetDeploy.Text.Numeral
import FleetDeploy.Text.Quoted
import FleetDeploy.Text.Search
import FleetDeploy.Text.Utf8
import FleetDeploy.Time.Timestamp
import FleetDeploy.Yaml.Character
import FleetDeploy.Yaml.Cursor
import FleetDeploy.Yaml.Decode
import FleetDeploy.Yaml.Grammar
import FleetDeploy.Yaml.Layout
import FleetDeploy.Yaml.Node
import FleetDeploy.Yaml.Printer
import FleetDeploy.Yaml.Scalar.Block
import FleetDeploy.Yaml.Scalar.Gap
import FleetDeploy.Yaml.Scalar.Plain
import FleetDeploy.Yaml.Scalar.Quoted
import FleetDeploy.Yaml.Scalar.Style
import FleetDeploy.Yaml.Schema
import FleetDeploy.Yaml.Tag
import FleetDeploy.Yaml.Token
import FleetDeploy.Proofs.Store.Layout
import FleetDeploy.Proofs.Credential.Canonical
import FleetDeploy.Proofs.Json.Domain
import FleetDeploy.Proofs.Settings.Home
import FleetDeploy.Proofs.Content.Stability
