import Yonaa.Server
import Yonaa.Effects
import Yonaa.Runs
import Yonaa.Moves
import Yonaa.Registry
import Yonaa.Callbacks
import Yonaa.Pieces
import Yonaa.Streams
import Yonaa.Locality
import Yonaa.Stopping
import Yonaa.Removal
import Yonaa.Machine
import Yonaa.Releases
import Yonaa.Servers
import Yonaa.Lifecycle
import Yonaa.Overloads
import Yonaa.Ownership
import Yonaa.Objects
import Yonaa.Descriptors
import Yonaa.Client
import Yonaa.ClientRuns
import Yonaa.Reports
import Yonaa.Reading
import Yonaa.Shutdown
import Yonaa.Outbound
import Yonaa.Sharing
import Yonaa.Polling
import Yonaa.HangUps
import Yonaa.Receives
import Yonaa.Endpoints
import Yonaa.Groups
import Yonaa.Messages
import Yonaa.Broadcasts
import Yonaa.Sweeping
import Yonaa.Accepting
import Yonaa.Decimal
import Yonaa.Equality
import Yonaa.Queries
import Yonaa.Texts
import Yonaa.Codes
import Yonaa.Crashes
import Yonaa.Deeds
import Yonaa.Histories
import Yonaa.Inbound
import Yonaa.Lifetime
import Yonaa.Phases
import Yonaa.Timely
import Yonaa.Wire
import Yonaa.Attention
import Yonaa.Listening
