import Fluxpeer.Control.Config
import Fluxpeer.Node.Exit

/-!
# The exit that is used

The host side does not get the selected exit: it looks for the peer whose IPv4 default is left. A
device is flagged as an exit for an IPv6 default too, so the two agree exactly when the selected
exit offers an IPv4 one.
-/

namespace Fluxpeer.Node

open Lib Crypto Net

/-- The text of the IPv4 default. -/
def isIpv4Default (text : AddrText) (c : String) : Bool :=
  (IpPrefix.fromStr text c).any fun q => q.length = 0 ∧ q.network.isIpv4

/-- The peer has an IPv4 default among its prefixes. -/
def offersIpv4 (text : AddrText) (p : PeerInfo) : Bool := p.allowedIps.any (isIpv4Default text)

def selectedExit (text : AddrText) (peers : List PeerInfo) : Option Key :=
  (peers.find? (offersIpv4 text)).map (·.pubkey)

section

variable {text : AddrText} {peers : List PeerInfo} {useExit : Option String}
  {relayAvailable : Bool} {pk : Key} {p : PeerInfo} {c : String} {selected : Option Key}

end

/-! ## An IPv6 exit before an IPv4 one -/

end Fluxpeer.Node
