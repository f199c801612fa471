import Playfield.Bench
import Playfield.Http.EventStream
import Playfield.Settings
import Playfield.Proofs.Board
import Playfield.Proofs.Coil.Bank
import Playfield.Proofs.Coil.Job
import Playfield.Proofs.Coil.Worksite
import Playfield.Proofs.Run
import Playfield.Proofs.Coil.Record
import Playfield.Proofs.Platform.Coils
import Playfield.Proofs.Platform.Worksite
import Playfield.Proofs.Platform.Record
import Playfield.Proofs.Platform.Release
import Playfield.Proofs.Coil.Turn
import Playfield.Proofs.Coil.Crew
import Playfield.Proofs.Coil.Serial
import Playfield.Proofs.Coil.Explains
import Playfield.Proofs.Coil.Linearizable
import Playfield.Proofs.Stream.Channel
import Playfield.Proofs.Stream.Reader
import Playfield.Proofs.Stream.Delivery
import Playfield.Proofs.Platform.Effects
import Playfield.Proofs.Platform.Switches
import Playfield.Proofs.Platform.Changes
import Playfield.Proofs.Map
import Playfield.Proofs.Rule.Table
import Playfield.Proofs.Platform.Rules
import Playfield.Proofs.Platform.Progress
import Playfield.Proofs.Platform.Firing
import Playfield.Proofs.Platform.Removal
import Playfield.Proofs.Switch.Registry
import Playfield.Proofs.Switch.History
import Playfield.Proofs.Switch.Desk
import Playfield.Proofs.Light.History
import Playfield.Proofs.Stream.Signal
import Playfield.Proofs.Stream.Closing
import Playfield.Proofs.Platform.Rejection
import Playfield.Proofs.Coil.Refusal
import Playfield.Proofs.Rule.Flat
import Playfield.Proofs.Device.Inventory
import Playfield.Proofs.Platform.Known
import Playfield.Proofs.Platform.Listing
import Playfield.Proofs.Platform.Devices
import Playfield.Proofs.Platform.Waiting
import Playfield.Proofs.Text.Normal
import Playfield.Proofs.Json.Codec
import Playfield.Proofs.Json.Record
import Playfield.Proofs.Wire.Scalar
import Playfield.Proofs.Wire.Hardware
import Playfield.Proofs.Wire.Request
import Playfield.Proofs.Platform.Start
import Playfield.Proofs.Coil.Independence
import Playfield.Proofs.Text.Utf8
import Playfield.Proofs.Likeness
import Playfield.Proofs.Http.Percent
import Playfield.Proofs.Http.Route
import Playfield.Proofs.Http.Exchange
import Playfield.Proofs.Switch.Debounce
import Playfield.Proofs.Platform.Debounce
import Playfield.Proofs.Request
import Playfield.Proofs.Coil.Disabling
import Playfield.Proofs.Platform.Sweep
import Playfield.Proofs.Platform.Disable
import Playfield.Proofs.Platform.Bare
import Playfield.Proofs.Platform.Lights
import Playfield.Proofs.Platform.Reset
import Playfield.Proofs.Light.Order
import Playfield.Proofs.Light.Sampling
import Playfield.Proofs.Stream.Capacity
import Playfield.Proofs.Platform.Launch
import Playfield.Proofs.Double
import Playfield.Proofs.UnitInterval
import Playfield.Proofs.Last
import Playfield.Proofs.Board.Replay
import Playfield.Proofs.Stream.Shutdown
import Playfield.Proofs.Device.Query
import Playfield.Proofs.Device.Registration
import Playfield.Proofs.Board.Driver
import Playfield.Proofs.Light.Color
import Playfield.Proofs.Address
import Playfield.Proofs.Json.Text
import Playfield.Proofs.Stream.Numbering
import Playfield.Proofs.Http.EventSource
import Playfield.Proofs.Http.EventStream
