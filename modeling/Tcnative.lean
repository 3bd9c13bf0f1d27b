import Tcnative.Base.Machine
import Tcnative.Base.RingBuffer
import Tcnative.Base.LengthPrefixed
import Tcnative.Base.CallLog
import Tcnative.Base.Descriptor
import Tcnative.Bio.Stream
import Tcnative.Bio.Accounting
import Tcnative.Bio.Draining
import Tcnative.Bio.Retry
import Tcnative.Protocol.Wire
import Tcnative.Protocol.Stored
import Tcnative.Ticket.Snapshot
import Tcnative.Library.Initialize
import Tcnative.Chain.History
import Tcnative.Chain.Install
import Tcnative.Context.Password
import Tcnative.Context.Credentials
import Tcnative.Context.VerifySettings
import Tcnative.Context.Targets
import Tcnative.Context.PrivateKeyModes
import Tcnative.Context.Compression
import Tcnative.Peer.Certificates
import Tcnative.KeyMaterial.ClientSide
import Tcnative.Tasks.Verify
import Tcnative.Tasks.PrivateKey
import Tcnative.Tasks.Modes
import Tcnative.Tasks.Completion
import Tcnative.Tasks.VerifierArray
import Tcnative.Sessions.References
import Tcnative.Lifetime.Views
import Tcnative.Credential.Contents
import Tcnative.Locks.Exclusion
