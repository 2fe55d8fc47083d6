import Veos.Dashboard.Exclusivity
import Veos.Dashboard.Lifecycle
import Veos.Dashboard.MainActivity
import Veos.Java.Values
import Veos.Library.Base128
import Veos.Library.BoundedPrograms
import Veos.Library.CallPrograms
import Veos.Library.CommutingPrograms
import Veos.Library.DecimalText
import Veos.Library.LastWrite
import Veos.Library.Narrowing
import Veos.Library.Observations
import Veos.Library.PartialRuns
import Veos.Library.ProgramBlocks
import Veos.Library.ProgramEnsures
import Veos.Library.ProtoGenerated
import Veos.Library.ProtoMessage
import Veos.Library.ProtoRecords
import Veos.Library.ProtoSizes
import Veos.Library.ProtoWire
import Veos.Library.Reduction
import Veos.Library.TracedRuns
import Veos.Radio.ServiceRuns
import Veos.Radio.Tea5767
import Veos.Someip.DataHandler
import Veos.Someip.MessageFormat
import Veos.Someip.Messages
import Veos.Someip.PlaintextLength
import Veos.Someip.ReceivePaths
import Veos.Someip.SecureChannel
import Veos.Someip.StatusRuns
import Veos.Someip.VehicleState
import Veos.Telemetry.ControlCalls
import Veos.Telemetry.ControlRuns
import Veos.Telemetry.FieldIsolation
import Veos.Telemetry.Lifecycle
import Veos.Telemetry.PayloadKeys
import Veos.Telemetry.Polling
import Veos.Telemetry.Readings
import Veos.Telemetry.ResponseBodies
import Veos.Telemetry.Responses
import Veos.Telemetry.RoundTrip
import Veos.Telemetry.Service
import Veos.Tool.VehicleTool
import Veos.Vehicle.Atomicity
import Veos.Vehicle.CachedControls
import Veos.Vehicle.Callbacks
import Veos.Vehicle.Displayed
import Veos.Vehicle.Endings
import Veos.Vehicle.Indicators
import Veos.Vehicle.Interleavings
import Veos.Vehicle.MessageOrder
import Veos.Vehicle.NonInterference
import Veos.Vehicle.Processes
import Veos.Vehicle.Provenance
import Veos.Vehicle.Settled
import Veos.Vehicle.Sweeps
import Veos.Vehicle.UnsignedValues
import Veos.Vehicle.WaitFree
import Veos.Vehicle.Writers
import Veos.Vhal.Client
import Veos.Vhal.HandleRuns
import Veos.Vhal.Native
import Veos.Vhal.Programs
import Veos.Vhal.Shim
import Veos.Vhal.TypedStore
