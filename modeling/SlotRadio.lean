import SlotRadio.Audio.Arithmetic
import SlotRadio.Audio.BlockFilter
import SlotRadio.Audio.Clip
import SlotRadio.Audio.Conversion
import SlotRadio.Audio.Fourier
import SlotRadio.Audio.Linear
import SlotRadio.Audio.MixPlan
import SlotRadio.Audio.Mixer
import SlotRadio.Audio.Resampler
import SlotRadio.Config.Basic
import SlotRadio.Config.Fault
import SlotRadio.Contact.Automaton
import SlotRadio.Contact.Band
import SlotRadio.Contact.Basic
import SlotRadio.Contact.Phase
import SlotRadio.Decimal.Binary32
import SlotRadio.Decimal.Digits
import SlotRadio.Decimal.Shortest
import SlotRadio.Engine.Basic
import SlotRadio.Engine.Event
import SlotRadio.Engine.Operators
import SlotRadio.Engine.Playback
import SlotRadio.Engine.Request
import SlotRadio.Engine.Roster
import SlotRadio.Engine.Tick
import SlotRadio.Json.Choice
import SlotRadio.Json.Codec
import SlotRadio.Json.Document
import SlotRadio.Json.Number
import SlotRadio.Json.Reader
import SlotRadio.Json.Record
import SlotRadio.Json.Single
import SlotRadio.Json.Skip
import SlotRadio.Json.Text
import SlotRadio.Message.Basic
import SlotRadio.Message.Parser
import SlotRadio.Message.Printer
import SlotRadio.Message.Token
import SlotRadio.Station.Arbitration
import SlotRadio.Station.Basic
import SlotRadio.Station.TurnSet
import SlotRadio.Text.Blank
import SlotRadio.Text.Letter
import SlotRadio.Timing.Mode
import SlotRadio.Timing.Reading
import SlotRadio.Timing.Schedule
import SlotRadio.Timing.Slot
import SlotRadio.Timing.Tracker
import SlotRadio.Wire.Config
import SlotRadio.Wire.Contact
import SlotRadio.Wire.Timing
import SlotRadio.Word
import SlotRadio.Proofs.Contact.Course
import SlotRadio.Proofs.Contact.Discipline
import SlotRadio.Proofs.Contact.Hearing
import SlotRadio.Proofs.Message.Reading
import SlotRadio.Proofs.Message.NormalForm
import SlotRadio.Proofs.Contact.Stance
import SlotRadio.Proofs.Contact.Accord
import SlotRadio.Proofs.Contact.Agreement
import SlotRadio.Proofs.Station.Granting
import SlotRadio.Proofs.Station.Setup
import SlotRadio.Proofs.Timing.Following
import SlotRadio.Proofs.Engine.Booking
import SlotRadio.Proofs.Audio.Storage
import SlotRadio.Proofs.Audio.Cache
import SlotRadio.Proofs.Engine.Playing
import SlotRadio.Proofs.Engine.Freshness
import SlotRadio.Proofs.Timing.Announcing
import SlotRadio.Proofs.Audio.Staging
import SlotRadio.Proofs.Engine.Mixing
import SlotRadio.Proofs.Engine.Handling
import SlotRadio.Proofs.Engine.Retention
import SlotRadio.Proofs.Engine.Continuity
import SlotRadio.Proofs.Timing.Releasing
import SlotRadio.Proofs.Timing.Accounting
import SlotRadio.Proofs.Contact.Stamping
import SlotRadio.Proofs.Engine.Attribution
import SlotRadio.Proofs.Engine.Registration
import SlotRadio.Proofs.Station.Precedence
import SlotRadio.Proofs.Audio.Ledger
import SlotRadio.Proofs.Audio.Minding
import SlotRadio.Proofs.Engine.HandOver
import SlotRadio.Proofs.Engine.Working
import SlotRadio.Proofs.Engine.Removal
import SlotRadio.Proofs.Contact.Poise
import SlotRadio.Proofs.Contact.Patience
import SlotRadio.Proofs.Contact.Closing
import SlotRadio.Proofs.Contact.Reporting
import SlotRadio.Proofs.Contact.ByHand
import SlotRadio.Proofs.Contact.Inbox
import SlotRadio.Proofs.Contact.Opening
import SlotRadio.Proofs.Contact.Partner
import SlotRadio.Proofs.Contact.Rest
import SlotRadio.Proofs.Timing.Noticing
import SlotRadio.Proofs.Timing.Promptness
import SlotRadio.Proofs.Timing.Polling
import SlotRadio.Proofs.Contact.Turns
import SlotRadio.Proofs.Contact.Exchange
import SlotRadio.Proofs.Audio.Admission
import SlotRadio.Proofs.Audio.Emptying
import SlotRadio.Proofs.Engine.Answering
import SlotRadio.Proofs.Audio.Shape
import SlotRadio.Proofs.Audio.Debouncing
import SlotRadio.Proofs.Audio.Trimming
import SlotRadio.Proofs.Audio.Flushing
import SlotRadio.Proofs.Json.Grammar
import SlotRadio.Proofs.Json.Skipping
import SlotRadio.Proofs.Json.Numbers
import SlotRadio.Proofs.Json.Values
import SlotRadio.Proofs.Json.Records
import SlotRadio.Proofs.Wire.Settings
import SlotRadio.Proofs.Audio.Loudness
import SlotRadio.Proofs.Audio.Blending
import SlotRadio.Proofs.Audio.Interpolating
import SlotRadio.Proofs.Json.Writing
import SlotRadio.Proofs.Wire.Survival
