import SeastarExperiments.BaseCsv
import SeastarExperiments.BaseGate
import SeastarExperiments.BaseGroupBy
import SeastarExperiments.BaseNetwork
import SeastarExperiments.BasePipe
import SeastarExperiments.BaseTransition
import SeastarExperiments.BaseWindows
import SeastarExperiments.Benchmarks
import SeastarExperiments.ClientProcess
import SeastarExperiments.DatagramAccounts
import SeastarExperiments.DatagramPeers
import SeastarExperiments.DatagramProcess
import SeastarExperiments.DatagramService
import SeastarExperiments.Duplex
import SeastarExperiments.DuplexDeadlock
import SeastarExperiments.DuplexLane
import SeastarExperiments.Loops
import SeastarExperiments.MainChain
import SeastarExperiments.Measurement
import SeastarExperiments.MeasurementCalls
import SeastarExperiments.PingClient
import SeastarExperiments.PingPong
import SeastarExperiments.PingPongLockStep
import SeastarExperiments.PingStream
import SeastarExperiments.PlotResults
import SeastarExperiments.ReplyLoop
import SeastarExperiments.Report
import SeastarExperiments.ServerShard
import SeastarExperiments.ServerShutdown
import SeastarExperiments.ServiceMeasurement
import SeastarExperiments.ServiceProcess
import SeastarExperiments.ServiceTeardown
import SeastarExperiments.ShardMeasurement
import SeastarExperiments.TcpAccounts
import SeastarExperiments.TcpExchange
import SeastarExperiments.TcpStream
import SeastarExperiments.TcpWiring
import SeastarExperiments.UdpAccounts
import SeastarExperiments.UdpExchange
import SeastarExperiments.UdpPeers
import SeastarExperiments.UdpPorts
import SeastarExperiments.UdpProcess
import SeastarExperiments.UdpShard
import SeastarExperiments.TcpConnection
import SeastarExperiments.TcpDeadlock
