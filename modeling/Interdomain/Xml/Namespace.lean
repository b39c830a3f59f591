/-! The XML namespaces of server-to-server streams. -/
namespace Interdomain.Xml.Namespace

/-- Stanzas between servers; the default namespace of a stream. -/
def server : String := "jabber:server"

def dialback : String := "jabber:server:dialback"

/-- The stream itself: its header, features and errors. -/
def stream : String := "http://etherx.jabber.org/streams"

/-- The conditions of a stream error. -/
def streamErrors : String := "urn:ietf:params:xml:ns:xmpp-streams"

def tls : String := "urn:ietf:params:xml:ns:xmpp-tls"

def sasl : String := "urn:ietf:params:xml:ns:xmpp-sasl"

/-- The token in a stream header by which a server recognises itself. -/
def loopcheck : String := "http://jabberd.org/ns/loopcheck"

end Interdomain.Xml.Namespace
