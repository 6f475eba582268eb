import Fluxpeer.Tunnel.Sending
import Fluxpeer.Node.Replay
import Fluxpeer.Node.Delivery
import Fluxpeer.Relay.Sessions
import Fluxpeer.Dns.Restoration
import Fluxpeer.Control.Pools
import Fluxpeer.Control.Pulls
import Fluxpeer.Control.Invites
import Fluxpeer.Control.Possession
import Fluxpeer.Relay.Streams
import Fluxpeer.Relay.Bonds
import Fluxpeer.Node.DiscoCodec
import Fluxpeer.Control.Addressing
import Fluxpeer.Node.Ladder
import Fluxpeer.Node.Membership
import Fluxpeer.Control.Overlay
import Fluxpeer.Control.Containment
import Fluxpeer.Control.Migration
import Fluxpeer.Firewall.Leases
import Fluxpeer.Node.Adoption
import Fluxpeer.Node.Shutdown
import Fluxpeer.Node.Gso
import Fluxpeer.Node.Pings
import Fluxpeer.Tunnel.Counters
import Fluxpeer.Node.TcpDirect
import Fluxpeer.Host.Routes
import Fluxpeer.Host.Bypass
import Fluxpeer.Host.FullTunnel
import Fluxpeer.Node.NatObligations
import Fluxpeer.Firewall.Exclusive
import Fluxpeer.Control.PasswordChanges
import Fluxpeer.Engine.ServerWorker
import Fluxpeer.Engine.BondSize
