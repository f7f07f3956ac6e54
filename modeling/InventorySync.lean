import InventorySync.Agenda
import InventorySync.Backoff
import InventorySync.Bootstrap
import InventorySync.Cache
import InventorySync.Calendar
import InventorySync.Calendar.Digits
import InventorySync.Calendar.TimeOfDay
import InventorySync.Calendar.Timestamp
import InventorySync.Calendar.Upcoming
import InventorySync.Calendar.Zone
import InventorySync.Cluster.Discovery
import InventorySync.Cluster.Object
import InventorySync.Cluster.Resource
import InventorySync.Cluster.Server
import InventorySync.Cluster.Shape
import InventorySync.Cluster.Stream
import InventorySync.Config
import InventorySync.Digest.Md5
import InventorySync.Duration
import InventorySync.Gate
import InventorySync.Json.Basic
import InventorySync.Json.Reader
import InventorySync.Json.Writer
import InventorySync.Number.Binary64
import InventorySync.Number.Shortest
import InventorySync.Pipeline.Activity
import InventorySync.Pipeline.Basic
import InventorySync.Pipeline.Flush
import InventorySync.Pipeline.Forward
import InventorySync.Pipeline.Job
import InventorySync.Pipeline.Sweep
import InventorySync.Record
import InventorySync.Record.Normalize
import InventorySync.Remote.Address
import InventorySync.Remote.Http
import InventorySync.Remote.Memory
import InventorySync.Remote.Reply
import InventorySync.Retry
import InventorySync.Schema
import InventorySync.Schema.Catalog
import InventorySync.Settings
import InventorySync.Settings.Arguments
import InventorySync.Settings.Draft
import InventorySync.Settings.Flag
import InventorySync.Settings.Usage
import InventorySync.Text.Blank
import InventorySync.Text.Hidden
import InventorySync.Text.Percent
import InventorySync.Text.Quoted
import InventorySync.Text.Split
import InventorySync.Timeline
import InventorySync.Timetable
import InventorySync.Watch.Basic
import InventorySync.Watch.Informer
import InventorySync.Watch.Paged
import InventorySync.Watch.Rehearsal
import InventorySync.Watch.Script
import InventorySync.Watch.Supervisor
import InventorySync.Watch.Watcher
import InventorySync.Wire
import InventorySync.Wire.Fields
import InventorySync.Main
import InventorySync.Proofs.Cache
import InventorySync.Proofs.Gate
import InventorySync.Proofs.Holdings
import InventorySync.Proofs.Retry
import InventorySync.Proofs.Activity
import InventorySync.Proofs.World
import InventorySync.Proofs.Agreement
import InventorySync.Proofs.SweepRace
import InventorySync.Proofs.NoLostUpdate
import InventorySync.Proofs.Sequential
import InventorySync.Proofs.LostReply
import InventorySync.Proofs.View
import InventorySync.Proofs.Reconciliation
import InventorySync.Proofs.Resurrection
import InventorySync.Proofs.Chronicle
import InventorySync.Proofs.MarkAndSweep
import InventorySync.Proofs.Relisting
import InventorySync.Proofs.Decimal
import InventorySync.Proofs.NumberText
import InventorySync.Proofs.CompactText
import InventorySync.Proofs.Members
import InventorySync.Proofs.Fingerprint
import InventorySync.Proofs.Strides
import InventorySync.Proofs.Vigil
import InventorySync.Proofs.Resync
import InventorySync.Proofs.Cursor
import InventorySync.Proofs.Errand
import InventorySync.Proofs.Window
import InventorySync.Proofs.Mirror
import InventorySync.Proofs.Strategies
import InventorySync.Proofs.Timetable
import InventorySync.Proofs.Admission
import InventorySync.Proofs.Announced
import InventorySync.Proofs.RealChanges
import InventorySync.Proofs.Commands
import InventorySync.Proofs.Backlog
import InventorySync.Proofs.Tickets
import InventorySync.Proofs.Lists
import InventorySync.Proofs.CacheHistory
import InventorySync.Proofs.FlushEffect
import InventorySync.Proofs.Supervision
import InventorySync.Proofs.Events
import InventorySync.Proofs.SweepEffect
import InventorySync.Proofs.Doubling
import InventorySync.Proofs.Delays
import InventorySync.Proofs.Cancellation
import InventorySync.Proofs.Paths
import InventorySync.Proofs.Acceptance
import InventorySync.Proofs.Payload
import InventorySync.Proofs.DueTimes
import InventorySync.Proofs.Creations
import InventorySync.Proofs.SchemaKeys
import InventorySync.Proofs.Dates
import InventorySync.Proofs.Timestamps
import InventorySync.Proofs.NextOccurrence
import InventorySync.Proofs.PercentDecoding
import InventorySync.Proofs.Locations
import InventorySync.Proofs.WireForms
import InventorySync.Proofs.CommandLine
