import Interdomain.Proofs.Conversation

/-! What becomes of the headers of peers, in terms of the headers. A header is understood if its addresses, its
namespaces and its version are in order, and every other one is refused. One that is understood and has neither
a version nor dialback is admitted without authentication where the settings allow that, whatever the link and
whatever else stands in the header; and otherwise one of this server's own is refused. -/
namespace Interdomain

/-- The header with which a greeting is answered. -/
def Greeting.reply : Greeting → Stream.Header
  | refused reply _ | legacy reply _ | accepted reply .. => reply

namespace Setup

variable (s : Setup) {header : Stream.Header} {host name : String} {peer : Option String}

/-- The terms for a peer, which need not have given its name. -/
def termsFor (peer : Option String) : Policy.Terms := s.policy.lookup (peer.getD "")

/-- The header names a local domain, and its sender if it names one, in the right namespaces, and it has a version
if the terms for its sender demand that. -/
structure Understands (header : Stream.Header) (host : String) (peer : Option String) : Prop where
  recipient : header.recipient.bind Jid.domain? = some host
  sender : optionalDomain? header.sender = some peer
  namespaces : hasNamespaces header = true
  version : (s.termsFor peer).version = .forced → versionFor (s.termsFor peer) header ≠ 0

/-- The header is from before dialback, and the settings admit such streams. -/
structure AdmitsUnproved (header : Stream.Header) (peer : Option String) : Prop where
  allowed : s.settings.allowLegacy = true
  understood : ∃ host, s.Understands header host peer
  version : versionFor (s.termsFor peer) header = 0
  undeclared : header.declaresDialback = false

/-- The answer to a header, but for its id. -/
def replyFor (header : Stream.Header) (peer : Option String) : Stream.Header :=
  replyTo (s.termsFor peer) (header.recipient.bind Jid.domain?) peer (versionFor (s.termsFor peer) header)

variable {s}

/-- A header is understood in one way at most. -/
theorem Understands.unique {host' : String} {peer' : Option String} (h : s.Understands header host peer)
    (h' : s.Understands header host' peer') : host' = host ∧ peer' = peer := by
  have hs := h.sender
  have hr := h.recipient
  rw [h'.sender] at hs
  rw [h'.recipient] at hr
  exact ⟨Option.some.inj hr, Option.some.inj hs⟩

theorem reply_greetAt (terms : Policy.Terms) (link : Link) (authenticated : Bool) (header reply : Stream.Header)
    (host : String) (peer : Option String) (version : Nat) :
    (s.greetAt terms link authenticated header reply host peer version).reply = reply := by
  simp only [greetAt]
  repeat' split
  all_goals rfl

/-- A header whose sender cannot be read is answered without addressing it, and every other one on the terms for
its sender. -/
theorem reply_greet (s : Setup) (link : Link) (authenticated : Bool) (header : Stream.Header) :
    (s.greet link authenticated header).reply = { sender := header.recipient.bind Jid.domain? } ∨
      ∃ peer, optionalDomain? header.sender = some peer ∧
        (s.greet link authenticated header).reply = s.replyFor header peer := by
  unfold greet
  dsimp only
  split
  · exact .inl rfl
  · rename_i peer sender
    refine .inr ⟨peer, sender, ?_⟩
    split
    · rfl
    · split
      · rfl
      · split
        · rfl
        · exact reply_greetAt ..

/-- No version is announced to a peer whose streams are those from before there were versions. -/
theorem version_reply (link : Link) (authenticated : Bool)
    (named : (s.greet link authenticated header).reply.recipient = some name)
    (disabled : (s.policy.lookup name).version = .disabled) :
    (s.greet link authenticated header).reply.version = none := by
  rcases s.reply_greet link authenticated header with reply | ⟨peer, _, reply⟩
  · rw [reply]
  · rw [reply] at named ⊢
    have hp : peer = some name := named
    subst hp
    simp [replyFor, replyTo, versionFor, termsFor, disabled]

/-- For a header that is understood, its version and its ways to go on decide. -/
theorem greet_of_understands (h : s.Understands header host peer) (link : Link) (authenticated : Bool) :
    s.greet link authenticated header = s.greetAt (s.termsFor peer) link authenticated header
      (s.replyFor header peer) host peer (versionFor (s.termsFor peer) header) := by
  have hv : ¬ ((s.policy.lookup (peer.getD "")).version = .forced ∧
      versionFor (s.policy.lookup (peer.getD "")) header = 0) := fun hf => h.version hf.1 hf.2
  simp only [greet, replyFor, h.sender, h.recipient, h.namespaces, Bool.not_true, Bool.false_eq_true, if_false,
    if_neg hv]
  rfl

/-- A header that is not understood is refused. -/
theorem greet_of_not_understands (h : ∀ host peer, ¬ s.Understands header host peer) (link : Link)
    (authenticated : Bool) : ∃ reply reason, s.greet link authenticated header = .refused reply reason := by
  unfold greet
  dsimp only
  split
  · exact ⟨_, _, rfl⟩
  · rename_i peer sender
    split
    · exact ⟨_, _, rfl⟩
    · rename_i namespaces
      split
      · exact ⟨_, _, rfl⟩
      · rename_i version
        split
        · exact ⟨_, _, rfl⟩
        · rename_i host recipient
          exact absurd ⟨recipient, sender, by simpa using namespaces, fun hf h0 => version ⟨hf, h0⟩⟩ (h host peer)

/-- A header that is not refused is understood. -/
theorem understands_of_not_refused {link : Link} {authenticated : Bool}
    (h : ∀ reply reason, s.greet link authenticated header ≠ .refused reply reason) :
    ∃ host peer, s.Understands header host peer := by
  refine Classical.byContradiction fun hn => ?_
  obtain ⟨reply, reason, refused⟩ :=
    greet_of_not_understands (fun host peer hu => hn ⟨host, peer, hu⟩) link authenticated
  exact h reply reason refused

/-- Admission without authentication hangs on the settings, the terms and the header, and not on the link. -/
theorem greet_legacy_iff {reply : Stream.Header} (link : Link) (authenticated : Bool) :
    s.greet link authenticated header = .legacy reply name ↔
      ∃ peer, s.AdmitsUnproved header peer ∧ name = peer.getD "unknown" ∧ reply = s.replyFor header peer := by
  constructor
  · intro hg
    have admitted : ∀ reply reason, s.greet link authenticated header ≠ .refused reply reason := by simp [hg]
    obtain ⟨host, peer, h⟩ := understands_of_not_refused admitted
    rw [greet_of_understands h] at hg
    simp only [greetAt] at hg
    split at hg
    · rename_i bare
      split at hg
      · rename_i allowed
        cases hg
        exact ⟨peer, ⟨allowed, ⟨host, h⟩, bare.1, bare.2⟩, rfl, rfl⟩
      · cases hg
    · repeat' split at hg
      all_goals cases hg
  · rintro ⟨peer, admits, rfl, rfl⟩
    obtain ⟨host, h⟩ := admits.understood
    rw [greet_of_understands h]
    simp only [greetAt]
    rw [if_pos ⟨admits.version, admits.undeclared⟩, if_pos admits.allowed]

/-- What is known of a header that is accepted. -/
theorem understands_of_greet {link : Link} {authenticated : Bool} {reply : Stream.Header} {version : Nat}
    {offer : Offer} (hg : s.greet link authenticated header = .accepted reply host peer version offer) :
    s.Understands header host peer ∧ version = versionFor (s.termsFor peer) header ∧
      reply = s.replyFor header peer ∧ header.loopToken ≠ some s.signer.loopToken := by
  have admitted : ∀ reply reason, s.greet link authenticated header ≠ .refused reply reason := by simp [hg]
  obtain ⟨host', peer', h⟩ := understands_of_not_refused admitted
  rw [greet_of_understands h] at hg
  simp only [greetAt] at hg
  repeat' split at hg
  all_goals cases hg
  exact ⟨h, rfl, rfl, ‹_›⟩

/-- One of this server's own headers is refused, unless it is taken for one from before dialback. -/
theorem greet_own (own : header.loopToken = some s.signer.loopToken) (link : Link) (authenticated : Bool) :
    (∃ reply reason, s.greet link authenticated header = .refused reply reason) ∨
      ∃ peer, s.AdmitsUnproved header peer ∧
        s.greet link authenticated header = .legacy (s.replyFor header peer) (peer.getD "unknown") := by
  cases hg : s.greet link authenticated header with
  | refused reply reason => exact .inl ⟨reply, reason, rfl⟩
  | legacy reply name =>
    obtain ⟨peer, admits, rfl, rfl⟩ := (greet_legacy_iff link authenticated).mp hg
    exact .inr ⟨peer, admits, rfl⟩
  | accepted reply host peer version offer => exact absurd own (understands_of_greet hg).2.2.2

end Setup

end Interdomain
