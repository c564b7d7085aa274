import UdpEthTunnel.Lib.Runs
import UdpEthTunnel.Lib.TwoChoice
import UdpEthTunnel.Lib.PairedSlots
import UdpEthTunnel.IpAddr
import UdpEthTunnel.EndpointMap.Basic
import UdpEthTunnel.EndpointMap.Refinement
import UdpEthTunnel.EndpointMap.Add
import UdpEthTunnel.EndpointMap.Separation
import UdpEthTunnel.EndpointMap.Retry
import UdpEthTunnel.Tunnel.Basic
import UdpEthTunnel.Tunnel.Worker
import UdpEthTunnel.Tunnel.Steps
import UdpEthTunnel.Tunnel.AllocTap
import UdpEthTunnel.Tunnel.Locks
import UdpEthTunnel.Tunnel.Create
import UdpEthTunnel.Tunnel.Agreement
import UdpEthTunnel.Tunnel.FiniteMap
import UdpEthTunnel.Tunnel.Devices
import UdpEthTunnel.Tunnel.Trace
import UdpEthTunnel.Tunnel.Forwarding
import UdpEthTunnel.Tunnel.Heap
import UdpEthTunnel.Tunnel.CurrentMap
import UdpEthTunnel.EndpointMap.Entries
import UdpEthTunnel.Tunnel.Admission
import UdpEthTunnel.Tunnel.Truncation
import UdpEthTunnel.Tunnel.Delete
import UdpEthTunnel.Config.Basic
import UdpEthTunnel.Config.Sections
import UdpEthTunnel.Config.Ini
import UdpEthTunnel.Config.Values
import UdpEthTunnel.Config.Comments
import UdpEthTunnel.RemotePort
import UdpEthTunnel.Tunnel.Signals
import UdpEthTunnel.Net
import UdpEthTunnel.Tunnel.Link
import UdpEthTunnel.Tunnel.Queues
import UdpEthTunnel.Tunnel.Statistics
import UdpEthTunnel.Address.Text
import UdpEthTunnel.Address.Network
import UdpEthTunnel.Address.List
import UdpEthTunnel.Address.Match
import UdpEthTunnel.EndpointMap.Growth
import UdpEthTunnel.EndpointMap.Remove
import UdpEthTunnel.Net.Tap
import UdpEthTunnel.Tunnel.AllOrNothing
import UdpEthTunnel.EndpointMap.Assignment
import UdpEthTunnel.EndpointMap.Atomic
import UdpEthTunnel.Address.RoundTrip
import UdpEthTunnel.Config.AllowedHosts
import UdpEthTunnel.Config.Classify
import UdpEthTunnel.Config.DefaultEndpoint
import UdpEthTunnel.Tunnel.Rearm
import UdpEthTunnel.Tunnel.List
import UdpEthTunnel.Lib.Ledger
import UdpEthTunnel.Tunnel.CreateFails
import UdpEthTunnel.Tunnel.CreateAgrees
import UdpEthTunnel.Config.AllowedUnion
import UdpEthTunnel.Net.Lookup
import UdpEthTunnel.Tunnel.TimeSince
import UdpEthTunnel.Net.Exits
import UdpEthTunnel.Net.TapName
import UdpEthTunnel.Config.Render
import UdpEthTunnel.Lib.Flow
import UdpEthTunnel.Tunnel.Conduit
import UdpEthTunnel.Lib.Potential
import UdpEthTunnel.Lib.Simulation
import UdpEthTunnel.Tunnel.Hub
import UdpEthTunnel.Tunnel.Progress
import UdpEthTunnel.Tunnel.Table
import UdpEthTunnel.Config.Startup
import UdpEthTunnel.EndpointMap.Size
import UdpEthTunnel.Tunnel.EpollData
import UdpEthTunnel.Tunnel.Memory
import UdpEthTunnel.Config.Reading
import UdpEthTunnel.Lib.Family
import UdpEthTunnel.Program
