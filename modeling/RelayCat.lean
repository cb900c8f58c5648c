import RelayCat.Automaton.Machine
import RelayCat.Automaton.Stream
import RelayCat.Automaton.Fifo
import RelayCat.Automaton.Threads
import RelayCat.Go.Errors
import RelayCat.Go.Utf8
import RelayCat.Go.Url
import RelayCat.Go.Base64
import RelayCat.Go.Exec
import RelayCat.Go.CommandLine
import RelayCat.Go.Net
import RelayCat.Go.Time
import RelayCat.Posix.Directory
import RelayCat.Posix.Ownership
import RelayCat.Json.Text
import RelayCat.Json.Scanner
import RelayCat.Protobuf.Wire
import RelayCat.Protobuf.Reader
import RelayCat.Wire.Messages
import RelayCat.AccessCode.Code
import RelayCat.AccessCode.State
import RelayCat.AccessCode.Concurrent
import RelayCat.AccessCode.Recovery
import RelayCat.Noise.Transport
import RelayCat.Noise.Handshake
import RelayCat.Endpoint.Bridge
import RelayCat.Endpoint.Loops
import RelayCat.Endpoint.Pair
import RelayCat.Endpoint.Integrity
import RelayCat.Endpoint.Completion
import RelayCat.Endpoint.Handshake
import RelayCat.Endpoint.Reconnect
import RelayCat.Endpoint.Client
import RelayCat.Endpoint.Idle
import RelayCat.Endpoint.Target
import RelayCat.Endpoint.Dial
import RelayCat.Relay.Registry
import RelayCat.Relay.Pipes
import RelayCat.Relay.Metrics
import RelayCat.Relay.Lifetime
import RelayCat.Relay.Ownership
import RelayCat.Relay.Isolation
import RelayCat.Relay.Auth
import RelayCat.Relay.Deadline
import RelayCat.Relay.Server
import RelayCat.SSHServer.HostKey
import RelayCat.SSHServer.Server
import RelayCat.SSHServer.Environment
import RelayCat.SSHServer.Session
import RelayCat.Systemd.Command
import RelayCat.Systemd.Unit
import RelayCat.WinService.Render
import RelayCat.WinService.Directives
import RelayCat.WinService.Install
import RelayCat.WinService.Windows
import RelayCat.WinService.Control
import RelayCat.Go.Strconv
import RelayCat.Go.Csv
import RelayCat.Cobra.Command
import RelayCat.Cobra.Args
import RelayCat.Cli.Commands
import RelayCat.Cli.Config
import RelayCat.Go.Filepath
import RelayCat.Cli.Constraints
import RelayCat.Cli.SSHOptions
import RelayCat.Cli.ConnectionCode
import RelayCat.Cli.SSH
import RelayCat.Cli.OpenSSH
import RelayCat.Cli.TemporaryTunnel
import RelayCat.Tunnel.Compose
import RelayCat.Tunnel.Moves
import RelayCat.Tunnel.Delivery
import RelayCat.Tunnel.Sides
import RelayCat.Tunnel.HalfClose
import RelayCat.Tunnel.CleanClose
