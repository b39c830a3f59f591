import Interdomain.Gateway.Basic
import Interdomain.Protocol.Dialback

/-! Verification. A verify request asks whether a key is one of this server's, which is answered on the
same stream. A verify reply, from whatever stream, settles the claim that it names, if that claim is still
open: the claim is authorized or not, and the peer that made it gets its result. -/
namespace Interdomain.Gateway

open Protocol (Dialback)

def closeClaim (g : Gateway) (claim : Claim) : Gateway :=
  { g with challenges := g.challenges.modify claim.challenge fun c =>
      { c with claims := c.claims.erase claim } }

def sendResult (g : Gateway) (link : LinkId) (claim : Claim) (valid : Bool) : Gateway :=
  g.act (·.sendElement link (Dialback.resultReply claim.source claim.destination valid))

/-- Accepts a claim that its authority has confirmed, unless the policy for the authority refuses the
stream. -/
def confirm (g : Gateway) (link : LinkId) (claim : Claim) : Gateway :=
  match g.setup.policy.check claim.source .dialback (g.world.link link).level with
  | .ok () => (g.authorize claim link).sendResult link claim true
  | .error violation =>
    (g.sendResult link claim false).act
      (·.fail link ⟨.policyViolation, some violation.message⟩)

/-- Settles an open claim; one that is not open is left alone. -/
def settle (g : Gateway) (claim : Claim) (valid : Bool) : Gateway :=
  match g.challenges.get? claim.challenge with
  | none => g
  | some challenge =>
    if claim ∈ challenge.claims then
      let g := g.closeClaim claim
      if valid then g.confirm challenge.link claim else g.sendResult challenge.link claim false
    else g

/-- Settles as refused the claim that a verify request could not be sent for. -/
def failVerify (g : Gateway) (request : Xml.Element) : Gateway :=
  match request.attribute? "to", request.attribute? "from", request.attribute? "id" with
  | some authority, some host, some id => g.settle ⟨id, host, authority⟩ false
  | _, _, _ => g

/-- The key shown in a verify request is the one that this server gives out. -/
def knowsKey (g : Gateway) (m : Dialback) (id : String) : Bool :=
  g.setup.signer.key m.sender m.recipient id = m.key

def onVerify (g : Gateway) (link : LinkId) (element : Xml.Element) : Gateway :=
  match Dialback.ofElement element with
  | .error fault => g.act (·.fail link fault.toError)
  | .ok m =>
    match m.id with
    | none => g.act (·.fail link ⟨.invalidId, some "dialback verify without an id"⟩)
    | some id =>
      if m.isReply then g.settle ⟨id, m.recipient, m.sender⟩ m.isValid
      else g.act (·.sendElement link
        (Dialback.verifyReply m.sender m.recipient id (g.knowsKey m id)))

end Interdomain.Gateway
