/-! How far a negotiation has come, on two axes: what has happened on the link, and whether a dialback
request is wanted, possible or sent. A restart of the stream moves the first axis back and leaves the
second alone. -/
namespace Interdomain

/-- What has happened on the link of a negotiation. -/
inductive Stage where
  | created
  | connecting
  | connected
  | gotHeader
  | awaitingFeatures
  | gotFeatures
  | sentRequest
  | dialbackSucceeded
  | dialbackFailed
  | saslStarted
  | saslFailed
  | saslSucceeded
  deriving Repr, DecidableEq

namespace Stage

def all : List Stage := [created, connecting, connected, gotHeader, awaitingFeatures, gotFeatures,
  sentRequest, dialbackSucceeded, dialbackFailed, saslStarted, saslFailed, saslSucceeded]

def name : Stage → String
  | created => "created"
  | connecting => "connecting"
  | connected => "connected"
  | gotHeader => "got_stream_root"
  | awaitingFeatures => "waiting_features"
  | gotFeatures => "got_features"
  | sentRequest => "sent_db_request"
  | dialbackSucceeded => "db_succeeded"
  | dialbackFailed => "db_failed"
  | saslStarted => "sasl_started"
  | saslFailed => "sasl_failed"
  | saslSucceeded => "sasl_succeeded"

/-- What the negotiation is doing, in the words of a bounce. -/
def describe : Stage → String
  | created => "connection object just created"
  | connecting => "connecting to other host"
  | connected => "connected to other host"
  | gotHeader => "got the stream root"
  | awaitingFeatures => "waiting for stream features on XMPP stream"
  | gotFeatures => "got stream features on XMPP stream"
  | sentRequest => "sent out dialback request"
  | dialbackSucceeded => "dialback succeeded"
  | dialbackFailed => "dialback failed"
  | saslStarted => "started using SASL"
  | saslFailed => "failed to auth using SASL"
  | saslSucceeded => "SASL succeeded"

end Stage

inductive Request where
  /-- Nothing waits for the pair to be authorized. -/
  | notRequested
  /-- The stream is ready, so a request can be sent as soon as it is wanted. -/
  | couldRequest
  /-- Stanzas wait, so the request is sent as soon as the stream is ready. -/
  | wantRequest
  | sentRequest
  deriving Repr, DecidableEq

def Request.name : Request → String
  | notRequested => "not_requested"
  | couldRequest => "could_request"
  | wantRequest => "want_request"
  | sentRequest => "sent_request"

end Interdomain
