import AjarConnectors.Framing.Format
import AjarConnectors.Transition.Run
import AjarConnectors.Text.Strings
import AjarConnectors.Spool.Record
import AjarConnectors.Spool.Directory
import AjarConnectors.Spool.Operations
import AjarConnectors.Spool.Layout
import AjarConnectors.Spool.Refinement
import AjarConnectors.Spool.Appending
import AjarConnectors.Spool.Runs
import AjarConnectors.Spool.FailedAppends
import AjarConnectors.Spool.CleanRuns
import AjarConnectors.Spool.Crash
import AjarConnectors.Seal.Envelope
import AjarConnectors.Runtime.Drain
import AjarConnectors.HashChain.Links
import AjarConnectors.Event.Types
import AjarConnectors.Sink.Store
import AjarConnectors.Sink.Audit
import AjarConnectors.Sink.History
import AjarConnectors.Sink.Columns
import AjarConnectors.Sink.Tamper
import AjarConnectors.Sink.Handles
import AjarConnectors.KeyMap.Sorted
import AjarConnectors.Egress.Render
import AjarConnectors.Egress.Delivery
import AjarConnectors.Egress.Content
import AjarConnectors.Builder.Agreement
import AjarConnectors.Builder.Verdicts
import AjarConnectors.Consumer.Handlers
import AjarConnectors.File.Delivery
import AjarConnectors.Sapient.Passes
import AjarConnectors.Stanag4676.Labels
import AjarConnectors.Http.Delivery
import AjarConnectors.Http.Framing
import AjarConnectors.Http.Connections
import AjarConnectors.Adsb.Parser
import AjarConnectors.Adsb.Positions
import AjarConnectors.Ais.Bits
import AjarConnectors.Ais.Conservation
import AjarConnectors.Asterix.Datagrams
import AjarConnectors.Asterix.Atomicity
import AjarConnectors.Cot.Parser
import AjarConnectors.Cot.Render
import AjarConnectors.Cot.RoundTrip
import AjarConnectors.Egress.Loop
import AjarConnectors.Mavlink.Conservation
import AjarConnectors.Sapient.ReportParser
import AjarConnectors.Sapient.Published
import AjarConnectors.Up.Configs
import AjarConnectors.Up.Confinement
import AjarConnectors.Egress.Relays
import AjarConnectors.Marking.Labels
import AjarConnectors.Spool.Bounded
import AjarConnectors.Runtime.LossCounter
import AjarConnectors.File.Rotation
import AjarConnectors.Ontology.Validate
import AjarConnectors.Stanag4676.Isolation
import AjarConnectors.Stanag4676.Velocity
import AjarConnectors.Stream.Lines
import AjarConnectors.File.Lines
import AjarConnectors.Http.Budget
import AjarConnectors.Builder.Order
import AjarConnectors.Builder.Rfc3339
import AjarConnectors.Replay.Writing
import AjarConnectors.Replay.Whole
import AjarConnectors.Adsb.Isolation
import AjarConnectors.Gmti.Uids
import AjarConnectors.Ais.Armour
import AjarConnectors.Ais.Reassembly
import AjarConnectors.Ais.Panics
import AjarConnectors.Mavlink.Corruption
import AjarConnectors.Mavlink.WireForms
import AjarConnectors.Asterix.Total
import AjarConnectors.SapientEgress.Identity
import AjarConnectors.Builder.Instants
import AjarConnectors.Cot.Staleness
import AjarConnectors.Sapient.Classifications
import AjarConnectors.ByteString.BigEndian
import AjarConnectors.Ber.Items
import AjarConnectors.Klv.Parser
import AjarConnectors.Klv.Grammar
import AjarConnectors.Klv.Acceptance
import AjarConnectors.Klv.RoundTrip
import AjarConnectors.Stanag4586.Parser
import AjarConnectors.Stanag4586.Walk
import AjarConnectors.Gmti.RoundTrip
import AjarConnectors.Cot.Optional
import AjarConnectors.Cot.Confidence
import AjarConnectors.Stanag4676.Uids
import AjarConnectors.Spool.TornTail
import AjarConnectors.Asterix.Compounds
import AjarConnectors.Drop.Settling
import AjarConnectors.Drop.Reading
import AjarConnectors.Verify.Keys
import AjarConnectors.Producer.Lineage
import AjarConnectors.Generic.Columns
import AjarConnectors.Generic.Timestamps
import AjarConnectors.Generic.Collisions
import AjarConnectors.SapientEgress.Ulid
import AjarConnectors.Sapient.Handshake
import AjarConnectors.Stream.Sources
import AjarConnectors.Runtime.Loop
import AjarConnectors.Sink.Ingest
import AjarConnectors.Sink.Registration
import AjarConnectors.Config.Hints
import AjarConnectors.Asterix.Events
import AjarConnectors.Asterix.Uids
