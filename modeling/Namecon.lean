import Namecon.Sfu.Proof.Departure
import Namecon.Sfu.Proof.Race
import Namecon.Sfu.Proof.Restart
import Namecon.Sfu.Proof.Feedback
import Namecon.Grpc.Proof.Sound
import Namecon.Signal.Proof.Subscriptions
import Namecon.Signal.Hub
import Namecon.Sdp.Proof.Mirror
import Namecon.Grpc.Proof.Binding
import Namecon.Transport.Proof.Admission
import Namecon.Signal.Proof.Readiness
import Namecon.Signal.Proof.JoinedFirst
import Namecon.Signal.Proof.Ghosts
import Namecon.Signal.Proof.Leaving
import Namecon.Signal.Proof.Recycling
import Namecon.Signal.Proof.Census
import Namecon.Signal.Proof.Disconnect
import Namecon.Signal.Proof.Ids
import Namecon.Grpc.Proof.Ownership
import Namecon.Grpc.Proof.Kinds
import Namecon.Grpc.Proof.Failure
import Namecon.Web.Proof.Entries
import Namecon.Web.Proof.InFlight
import Namecon.Sfu.Proof.Interleaving
import Namecon.Sfu.Proof.ReverseMap
import Namecon.Rtcp.Proof.RoundTrip
import Namecon.Sfu.Proof.Packets
import Namecon.Sfu.Proof.Reports
import Namecon.Transport.Proof.Buffers
import Namecon.Rtp.Proof.Header
import Namecon.Transport.Proof.Credentials
import Namecon.Transport.Proof.Response
import Namecon.Transport.Proof.IceReads
import Namecon.Grpc.Proof.Copies
import Namecon.Sfu.Proof.Relay
import Namecon.Sfu.Proof.SenderReports
import Namecon.Transport.Proof.Sealed
import Namecon.Signal.Proof.Progress
import Namecon.Signal.Proof.Isolation
import Namecon.Grpc.Proof.Announced
import Namecon.Web.Proof.OwnTiles
import Namecon.Web.Proof.Seen
import Namecon.Sfu.Proof.Atomic
