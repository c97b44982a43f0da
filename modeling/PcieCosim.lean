import PcieCosim.Lib.Kernel
import PcieCosim.Lib.Bytes
import PcieCosim.Lib.Transition
import PcieCosim.Lib.Variant
import PcieCosim.Lib.Interaction
import PcieCosim.Lib.Clients
import PcieCosim.Lib.Attached
import PcieCosim.Lib.Shared
import PcieCosim.Lib.Layers
import PcieCosim.Lib.Ledger
import PcieCosim.Lib.Store
import PcieCosim.Lib.Binary32
import PcieCosim.Lib.HexText
import PcieCosim.Endpoint.Device
import PcieCosim.Endpoint.Machine
import PcieCosim.Endpoint.Steps
import PcieCosim.Endpoint.Discipline
import PcieCosim.Endpoint.Handshake
import PcieCosim.Endpoint.Progress
import PcieCosim.Endpoint.Reset
import PcieCosim.Endpoint.Interrupt
import PcieCosim.Endpoint.Polling
import PcieCosim.Endpoint.Parameters
import PcieCosim.Endpoint.RegisterFile
import PcieCosim.Endpoint.Widths
import PcieCosim.Endpoint.Reads
import PcieCosim.Endpoint.HostMemory
import PcieCosim.Endpoint.Bounds
import PcieCosim.Endpoint.Programming
import PcieCosim.Endpoint.Product
import PcieCosim.Endpoint.Job
import PcieCosim.Endpoint.Sessions
import PcieCosim.Endpoint.Exact
import PcieCosim.Endpoint.Timed
import PcieCosim.Endpoint.Recovery
import PcieCosim.Testbench.Sequence
import PcieCosim.Testbench.Scenes
import PcieCosim.Testbench.Completion
import PcieCosim.Testbench.Main
import PcieCosim.Driver.Ioctl
import PcieCosim.Driver.Reference
import PcieCosim.Driver.Results
import PcieCosim.Driver.Atomicity
import PcieCosim.Driver.Agreement
import PcieCosim.Driver.IrqHandler
import PcieCosim.Driver.Probe
import PcieCosim.Driver.Binding
import PcieCosim.Driver.Deployment
import PcieCosim.Driver.Application
import PcieCosim.Dump.Filter
import PcieCosim.Dump.Capture
import PcieCosim.Dump.Output
