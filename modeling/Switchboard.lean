import Switchboard.Text.Blank
import Switchboard.Audit.Record
import Switchboard.Dispatch.Network
import Switchboard.Audit.Trail
import Switchboard.Audit.Disk
import Switchboard.Attribute.Table
import Switchboard.Attribute.Line
import Switchboard.Attribute.Registry
import Switchboard.Attribute.Console
import Switchboard.Device.Guard
import Switchboard.Worker.Generator
import Switchboard.Context.Basic
import Switchboard.Command.Edit
import Switchboard.Scenario.Step
import Switchboard.Scenario.Answer
import Switchboard.Scenario.World
import Switchboard.Scenario.Devices
import Switchboard.Scenario.Attributes
import Switchboard.Scenario.Workers
import Switchboard.Scenario.Session
import Switchboard.Proofs.Dispatch.System
import Switchboard.Proofs.Dispatch.Turn
import Switchboard.Proofs.Dispatch.Gate
import Switchboard.Proofs.Dispatch.Ledger
import Switchboard.Proofs.Dispatch.Calls
import Switchboard.Proofs.Dispatch.Session
import Switchboard.Proofs.Dispatch.Custody
import Switchboard.Proofs.Dispatch.Precedence
import Switchboard.Proofs.Attribute.Coherence
import Switchboard.Proofs.Dispatch.Marking
import Switchboard.Proofs.Audit.Decoding
import Switchboard.Proofs.Device.Catalogue
import Switchboard.Proofs.Device.Refinement
import Switchboard.Proofs.Attribute.Ledger
import Switchboard.Proofs.Attribute.Listing
import Switchboard.Proofs.Attribute.Reclaiming
import Switchboard.Proofs.Attribute.Dropping
import Switchboard.Proofs.Attribute.Parsing
import Switchboard.Proofs.Attribute.Serving
import Switchboard.Proofs.Attribute.Exposure
import Switchboard.Proofs.Dispatch.Forgetting
import Switchboard.Proofs.Scenario.Requests
import Switchboard.Proofs.Dispatch.Flattening
import Switchboard.Proofs.Context.Shutdown
import Switchboard.Proofs.Worker.Accounting
import Switchboard.Proofs.Attribute.Tables
import Switchboard.Proofs.Dispatch.Draining
import Switchboard.Proofs.Dispatch.Cycle
import Switchboard.Proofs.Scenario.Returning
import Switchboard.Proofs.Audit.Delivery
import Switchboard.Proofs.Audit.Lines
import Switchboard.Proofs.Attribute.Naming
import Switchboard.Proofs.Dispatch.Roll
import Switchboard.Proofs.Device.RoundTrip
import Switchboard.Proofs.Attribute.Rollback
import Switchboard.Proofs.Command.Parameters
import Switchboard.Proofs.Attribute.Forwarding
import Switchboard.Proofs.Dispatch.Minting
import Switchboard.Proofs.Worker.Mustering
import Switchboard.Proofs.Worker.Outliving
import Switchboard.Proofs.Context.Sleepers
import Switchboard.Proofs.Dispatch.Unwinding
