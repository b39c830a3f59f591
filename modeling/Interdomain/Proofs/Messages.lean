import Interdomain.Gateway.Greeting
import Interdomain.Proofs.Inquiries

/-! Messages between two servers. What one side writes about a pair of domains the other reads as it was meant:
the keys, the requests and answers of dialback, and the headers of streams on links without protection. -/
namespace Interdomain

open Protocol (Dialback)

theorem Text.isBlank_hexDigit : ∀ n < 16, isBlank (hexDigit n) = false := by decide

theorem Text.not_isBlank_of_mem_hexChars {bytes : List UInt8} {c : Char} (h : c ∈ hexChars bytes) :
    isBlank c = false := by
  obtain ⟨b, _, hc⟩ := List.mem_flatMap.mp h
  have hb : b.toNat < 256 := b.toNat_lt
  simp only [List.mem_cons, List.not_mem_nil, or_false] at hc
  rcases hc with rfl | rfl
  · exact isBlank_hexDigit _ (by omega)
  · exact isBlank_hexDigit _ (by omega)

theorem Text.trimChars_eq_self {cs : List Char} (h : ∀ c ∈ cs, isBlank c = false) : trimChars cs = cs := by
  have hd : cs.dropWhile isBlank = cs := by
    cases cs with
    | nil => rfl
    | cons c cs => simp [h c (by simp)]
  rw [trimChars, hd]
  exact dropEndWhile_eq_self fun c hc => h c (List.mem_of_getLast? hc)

/-- The keys that a server gives out have no blanks to lose. -/
theorem Signer.trim_key (secret a b challenge : String) :
    Text.trim ((ofSecret secret).key a b challenge) = (ofSecret secret).key a b challenge := by
  have trim_hex (bytes : List UInt8) : Text.trim (Text.hex bytes) = Text.hex bytes := by
    simp only [Text.trim, Text.hex, String.toList_ofList]
    rw [Text.trimChars_eq_self fun c hc => Text.not_isBlank_of_mem_hexChars hc]
  exact trim_hex _

theorem Jid.fits_of_parseDomain {d : String} (h : parseDomain d = .ok d) : d.utf8ByteSize ≤ maxDomainBytes := by
  rw [parseDomain, ofChars?_of_isNormal (isNormal_of_parseDomain h)] at h
  exact Decidable.byContradiction fun hd => by simp [hd] at h

/-- The request about a claim between two servers goes to the authority. -/
theorem Claim.goesTo_inquiry {k : Claim} (source : Jid.parseDomain k.source = .ok k.source)
    (destination : Jid.parseDomain k.destination = .ok k.destination) (key : String) :
    Gateway.GoesTo (k.inquiry key) k.route :=
  Gateway.goesTo_inquiry (Jid.isNormal_of_parseDomain source) (Jid.isNormal_of_parseDomain destination)
    ⟨Jid.fits_of_parseDomain source, Jid.fits_of_parseDomain destination⟩

namespace Protocol.Dialback

variable {a b : String} (ha : Jid.parseDomain a = .ok a) (hb : Jid.parseDomain b = .ok b)
include ha hb

/-- An element between two servers is read as it is written. -/
theorem ofElement_of_addresses {e : Xml.Element} (recipient : e.attribute? "to" = some a)
    (sender : e.attribute? "from" = some b) :
    ofElement e = .ok ⟨a, b, e.attribute? "id", e.attribute? "type", Text.trim e.text⟩ := by
  simp only [ofElement, serverDomain, recipient, sender, ha, hb]
  rfl

theorem ofElement_result (key : String) : ofElement (result a b key) = .ok ⟨a, b, none, none, Text.trim key⟩ := by
  rw [ofElement_of_addresses ha hb (by simp [result]) (by simp [result]), result,
    Xml.Element.text_appendText (by rfl)]
  simp

theorem ofElement_resultReply (valid : Bool) :
    ofElement (resultReply a b valid) = .ok ⟨a, b, none, some (verdict valid), ""⟩ := by
  rw [ofElement_of_addresses ha hb (by simp [resultReply]) (by simp [resultReply])]
  simp [resultReply]
  rfl

theorem ofElement_verify (id key : String) :
    ofElement (verify a b id key) = .ok ⟨a, b, some id, none, Text.trim key⟩ := by
  rw [ofElement_of_addresses ha hb (by simp [verify]) (by simp [verify]), verify,
    Xml.Element.text_appendText (by rfl)]
  simp

theorem ofElement_verifyReply (id : String) (valid : Bool) :
    ofElement (verifyReply a b id valid) = .ok ⟨a, b, some id, some (verdict valid), ""⟩ := by
  rw [ofElement_of_addresses ha hb (by simp [verifyReply]) (by simp [verifyReply])]
  simp [verifyReply]
  rfl

end Protocol.Dialback

/-- The link is unprotected, and TLS is set up for no domain. -/
def Link.IsPlain (l : Link) : Prop := l.level = 0 ∧ ∀ domain, l.offersTls domain = false

namespace Setup

variable {s : Setup} {link : Link} {header : Stream.Header} {host peer : String}

theorem offer_of_isPlain (hl : link.IsPlain) (terms : Policy.Terms) (authenticated : Bool) (host : String)
    (peer : Option String) (version : Nat) :
    offer terms link authenticated host peer version = ⟨false, false⟩ := by
  simp [offer, hl.1, hl.2]

/-- On an unprotected link, a stream between two servers that speak both dialback and XMPP 1.0 is accepted with
nothing else on offer. -/
theorem greet_of_isPlain (hl : link.IsPlain) (recipient : header.recipient = some host)
    (sender : header.sender = some peer) (hhost : Jid.parseDomain host = .ok host)
    (hpeer : Jid.parseDomain peer = .ok peer) (ns : header.ns = Xml.Namespace.server)
    (dialback : header.dialback = some Xml.Namespace.dialback) (version : header.version = some "1.0")
    (own : header.loopToken ≠ some s.signer.loopToken)
    (allows : (s.policy.lookup peer).version ≠ .disabled) :
    s.greet link false header = .accepted (replyTo (s.policy.lookup peer) (some host) (some peer) 1) host (some peer)
      1 ⟨false, false⟩ := by
  have hv : header.majorVersion = 1 := by
    rw [Stream.Header.majorVersion, version]
    decide
  have hd : header.declaresDialback = true := by simp [Stream.Header.declaresDialback, dialback]
  simp [greet, recipient, sender, optionalDomain?, Jid.domain?, hhost, hpeer, Except.toOption, hasNamespaces, ns,
    dialback, versionFor, allows, hv, greetAt, hd, own, offer_of_isPlain hl]

end Setup

end Interdomain
