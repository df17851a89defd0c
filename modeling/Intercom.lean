import Intercom.Bytes
import Intercom.Bytes.Hex
import Intercom.Bytes.Lemmas
import Intercom.Crypto.Aes
import Intercom.Crypto.Block
import Intercom.Crypto.CounterMode
import Intercom.Crypto.Crc32
import Intercom.Crypto.Hmac
import Intercom.Crypto.Sha1
import Intercom.Crypto.Sha256
import Intercom.Double
import Intercom.Dtls.Record
import Intercom.Handshake.Line
import Intercom.Http.Exposition
import Intercom.Http.Request
import Intercom.Http.Router
import Intercom.Json.Number
import Intercom.Json.Parse
import Intercom.Json.Token
import Intercom.Json.Value
import Intercom.Main
import Intercom.Net.Endpoint
import Intercom.Net.EndpointText
import Intercom.Relay.Basic
import Intercom.Relay.Handle
import Intercom.Relay.Metrics
import Intercom.Relay.Outbox
import Intercom.Relay.Receive
import Intercom.Rtp
import Intercom.Sdp
import Intercom.Server
import Intercom.Session.Id
import Intercom.Session.NamePool
import Intercom.Session.Table
import Intercom.Settings.Basic
import Intercom.Settings.Reading
import Intercom.Signaling.Connection
import Intercom.Signaling.Host
import Intercom.Signaling.Hub
import Intercom.Signaling.Message
import Intercom.Signaling.Roster
import Intercom.Srtp.Context
import Intercom.Srtp.KeyingMaterial
import Intercom.Srtp.SessionKeys
import Intercom.Stun.Attribute
import Intercom.Stun.Attribute.Lemmas
import Intercom.Stun.Binding
import Intercom.Stun.Error
import Intercom.Stun.Message
import Intercom.Stun.MessageType
import Intercom.Text.Blank
import Intercom.Text.Reader
import Intercom.Text.Utf8
import Intercom.Toml.Document
import Intercom.Toml.Fields
import Intercom.Toml.Scalar
import Intercom.Toml.Value
import Intercom.Proofs.Session.Index
import Intercom.Proofs.Relay.Receive
import Intercom.Proofs.Relay.Run
import Intercom.Proofs.Relay.Authentication
import Intercom.Proofs.Relay.Forwarding
import Intercom.Proofs.Stun.Attribute
import Intercom.Proofs.Stun.RoundTrip
import Intercom.Proofs.Rtp.RoundTrip
import Intercom.Proofs.Srtp.RoundTrip
import Intercom.Proofs.Stun.Coverage
import Intercom.Proofs.Handshake.Shared
import Intercom.Proofs.Session.Security
import Intercom.Proofs.Relay.Handshakes
import Intercom.Proofs.Relay.Keys
import Intercom.Proofs.Relay.KeyHistory
import Intercom.Proofs.Handshake.Reports
import Intercom.Proofs.Srtp.Keystream
import Intercom.Proofs.Relay.Openings
import Intercom.Proofs.Relay.Keystream
import Intercom.Proofs.Relay.EndToEnd
import Intercom.Proofs.Stun.Acceptance
import Intercom.Proofs.Relay.Unauthenticated
import Intercom.Proofs.Relay.SharedPort
import Intercom.Proofs.Relay.OwnBinding
import Intercom.Proofs.Relay.Sessions
import Intercom.Proofs.Rtp.Canonical
import Intercom.Proofs.Srtp.Authenticity
import Intercom.Proofs.Text.Lossy
import Intercom.Proofs.Text.Pattern
import Intercom.Proofs.Sdp.Search
import Intercom.Proofs.Sdp.Lines
import Intercom.Proofs.Stun.UserName
import Intercom.Proofs.Relay.InvalidName
import Intercom.Proofs.Handshake.Holding
import Intercom.Proofs.Handshake.Queue
import Intercom.Proofs.Relay.Counters
import Intercom.Proofs.Stun.Reply
import Intercom.Proofs.Relay.Answers
import Intercom.Proofs.Relay.Responder
import Intercom.Proofs.Relay.Handle
import Intercom.Proofs.Signaling.Roster
import Intercom.Proofs.Signaling.Moves
import Intercom.Proofs.Signaling.Holders
import Intercom.Proofs.Signaling.Lifecycle
import Intercom.Proofs.Signaling.Lists
import Intercom.Proofs.Signaling.Convergence
import Intercom.Proofs.Signaling.Greeting
import Intercom.Proofs.Json.Number
import Intercom.Proofs.Json.Tokens
import Intercom.Proofs.Json.RoundTrip
import Intercom.Proofs.Signaling.Message
import Intercom.Proofs.Signaling.Texts
import Intercom.Proofs.Signaling.Directory
import Intercom.Proofs.Signaling.Audience
import Intercom.Proofs.Signaling.RosterHistory
import Intercom.Proofs.Rtp.Header
import Intercom.Proofs.Rtp.Grammar
import Intercom.Proofs.Rtp.Writing
import Intercom.Proofs.Srtp.Sender
import Intercom.Proofs.Relay.Replies
import Intercom.Proofs.Relay.Retransmission
import Intercom.Proofs.Bytes.Checked
import Intercom.Proofs.Rtp.Checked
import Intercom.Proofs.Srtp.Checked
import Intercom.Proofs.Stun.CheckedAttribute
import Intercom.Proofs.Stun.Checked
import Intercom.Proofs.Relay.InBounds
import Intercom.Proofs.Text.Place
import Intercom.Proofs.Signaling.Host
import Intercom.Proofs.Bytes.Mask
import Intercom.Proofs.Srtp.Derivation
import Intercom.Proofs.Settings.Exact
import Intercom.Proofs.Text.Reader
import Intercom.Proofs.Net.AddressText
import Intercom.Proofs.Net.AddressReading
import Intercom.Proofs.Settings.Bind
