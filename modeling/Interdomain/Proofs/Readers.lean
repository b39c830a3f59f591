import Interdomain.Proofs.Messages

/-! What is written is read back. The elements of dialback, the identity in a SASL request and stream errors are each
written by one function and read by another; for domains in the form in which they are kept, and keys without blanks
around them, the reader gives back what the writer was given. -/
namespace Interdomain

open Protocol (Dialback)

namespace Text.Base64

theorem decodeDigit?_encodeDigit {n : Nat} (h : n < 64) : decodeDigit? (encodeDigit n) = some n := by
  revert n
  decide

theorem encodeDigit_ne_padding {n : Nat} (h : n < 64) : encodeDigit n ≠ '=' := by
  revert n
  decide

theorem isBlank_encodeDigit {n : Nat} (h : n < 64) : isBlank (encodeDigit n) = false := by
  revert n
  decide

/-- A byte is put together from the upper bits of one digit and the lower bits of another. -/
theorem ofNat_eq {n : Nat} {a : UInt8} (h : n = a.toNat) : UInt8.ofNat n = a := by
  rw [h, UInt8.ofNat_toNat]

theorem first_lt (a : UInt8) : a.toNat / 4 < 64 := by
  have := a.toNat_lt
  omega

theorem second_lt (a b : UInt8) : a.toNat % 4 * 16 + b.toNat / 16 < 64 := by
  have := b.toNat_lt
  omega

theorem third_lt (b c : UInt8) : b.toNat % 16 * 4 + c.toNat / 64 < 64 := by
  have := c.toNat_lt
  omega

theorem fourth_lt (c : UInt8) : c.toNat % 64 < 64 := Nat.mod_lt _ (by decide)

theorem decodeLast?_one (a : UInt8) :
    decodeLast? (encodeDigit (a.toNat / 4)) (encodeDigit (a.toNat % 4 * 16)) '=' '=' = some [a] := by
  have digit : a.toNat % 4 * 16 < 64 := second_lt a 0
  have first : a.toNat / 4 * 4 + a.toNat % 4 * 16 / 16 = a.toNat := by omega
  simp only [decodeLast?, decodeDigit?_encodeDigit (first_lt a), decodeDigit?_encodeDigit digit,
    Option.bind_eq_bind, Option.bind_some, and_self, if_true, Nat.mul_mod_left, ofNat_eq first]

theorem decodeLast?_two (a b : UInt8) :
    decodeLast? (encodeDigit (a.toNat / 4)) (encodeDigit (a.toNat % 4 * 16 + b.toNat / 16))
      (encodeDigit (b.toNat % 16 * 4)) '=' = some [a, b] := by
  have hb := b.toNat_lt
  have digit : b.toNat % 16 * 4 < 64 := third_lt b 0
  have first : a.toNat / 4 * 4 + (a.toNat % 4 * 16 + b.toNat / 16) / 16 = a.toNat := by omega
  have second : (a.toNat % 4 * 16 + b.toNat / 16) % 16 * 16 + b.toNat % 16 * 4 / 4 = b.toNat := by omega
  simp only [decodeLast?, decodeDigit?_encodeDigit (first_lt a), decodeDigit?_encodeDigit (second_lt a b),
    decodeDigit?_encodeDigit digit, encodeDigit_ne_padding digit, Option.bind_eq_bind, Option.bind_some, false_and,
    if_false, if_true, Nat.mul_mod_left, ofNat_eq first, ofNat_eq second]

/-- Three bytes are read from their digits in the same way whether or not others follow. -/
theorem decodeGroup?_three (a b c : UInt8) :
    decodeGroup? (encodeDigit (a.toNat / 4)) (encodeDigit (a.toNat % 4 * 16 + b.toNat / 16))
      (encodeDigit (b.toNat % 16 * 4 + c.toNat / 64)) (encodeDigit (c.toNat % 64)) = some [a, b, c] := by
  have hb := b.toNat_lt
  have hc := c.toNat_lt
  have first : a.toNat / 4 * 4 + (a.toNat % 4 * 16 + b.toNat / 16) / 16 = a.toNat := by omega
  have second : (a.toNat % 4 * 16 + b.toNat / 16) % 16 * 16 + (b.toNat % 16 * 4 + c.toNat / 64) / 4 = b.toNat := by
    omega
  have third : (b.toNat % 16 * 4 + c.toNat / 64) % 4 * 64 + c.toNat % 64 = c.toNat := by omega
  simp only [decodeGroup?, decodeDigit?_encodeDigit (first_lt a), decodeDigit?_encodeDigit (second_lt a b),
    decodeDigit?_encodeDigit (third_lt b c), decodeDigit?_encodeDigit (fourth_lt c), Option.bind_eq_bind,
    Option.bind_some, ofNat_eq first, ofNat_eq second, ofNat_eq third]

theorem decodeLast?_eq_decodeGroup? {w x y z : Char} (hy : y ≠ '=') (hz : z ≠ '=') :
    decodeLast? w x y z = decodeGroup? w x y z := by
  simp only [decodeLast?, decodeGroup?, hy, hz, false_and, if_false]

theorem decode?_group {w x y z : Char} {rest : List Char} (h : rest ≠ []) :
    decode? (w :: x :: y :: z :: rest) =
      (decodeGroup? w x y z).bind fun group => (decode? rest).bind fun bytes => some (group ++ bytes) := by
  cases rest with
  | nil => exact absurd rfl h
  | cons _ _ => rfl

theorem encode_ne_nil {bytes : List UInt8} (h : bytes ≠ []) : encode bytes ≠ [] := by
  fun_cases encode bytes <;> simp_all

/-- What is encoded is decoded again. -/
theorem decode?_encode (bytes : List UInt8) : decode? (encode bytes) = some bytes := by
  fun_induction encode bytes with
  | case1 => rfl
  | case2 a => exact decodeLast?_one a
  | case3 a b => exact decodeLast?_two a b
  | case4 a b c rest ih =>
    by_cases last : rest = []
    · subst last
      rw [encode, decode?, decodeLast?_eq_decodeGroup? (encodeDigit_ne_padding (third_lt b c))
        (encodeDigit_ne_padding (fourth_lt c)), decodeGroup?_three]
    · rw [decode?_group (encode_ne_nil last), decodeGroup?_three, ih]
      rfl

theorem isBlank_of_mem_encode {bytes : List UInt8} {x : Char} (h : x ∈ encode bytes) : isBlank x = false := by
  fun_induction encode bytes with
  | case1 => cases h
  | case2 a =>
    simp only [List.mem_cons, List.not_mem_nil, or_false] at h
    rcases h with rfl | rfl | rfl | rfl
    · exact isBlank_encodeDigit (first_lt a)
    · exact isBlank_encodeDigit (second_lt a 0)
    · rfl
    · rfl
  | case3 a b =>
    simp only [List.mem_cons, List.not_mem_nil, or_false] at h
    rcases h with rfl | rfl | rfl | rfl
    · exact isBlank_encodeDigit (first_lt a)
    · exact isBlank_encodeDigit (second_lt a b)
    · exact isBlank_encodeDigit (third_lt b 0)
    · rfl
  | case4 a b c rest ih =>
    simp only [List.mem_cons] at h
    rcases h with rfl | rfl | rfl | rfl | h
    · exact isBlank_encodeDigit (first_lt a)
    · exact isBlank_encodeDigit (second_lt a b)
    · exact isBlank_encodeDigit (third_lt b c)
    · exact isBlank_encodeDigit (fourth_lt c)
    · exact ih h

end Text.Base64

/-- The bytes of a text are read as the text. -/
theorem fromUTF8?_bytes (s : String) : String.fromUTF8? ⟨s.toUTF8.data.toList.toArray⟩ = some s := by
  rw [Array.toArray_toList]
  unfold String.fromUTF8?
  rw [String.toUTF8_eq_toByteArray, dif_pos s.isValidUTF8]
  rfl

namespace Protocol

theorem saslIdentity_saslAuth {d : String} (hd : Jid.parseDomain d = .ok d) :
    saslIdentity (saslAuth d).text = .ok ⟨none, d, none⟩ := by
  have text : (saslAuth d).text = String.ofList (Text.Base64.encode d.toUTF8.data.toList) :=
    Xml.Element.text_appendText rfl _
  have untrimmed : Text.trimChars (Text.Base64.encode d.toUTF8.data.toList) =
      Text.Base64.encode d.toUTF8.data.toList :=
    Text.trimChars_eq_self fun _ => Text.Base64.isBlank_of_mem_encode
  have address : Jid.parse d = .ok ⟨none, d, none⟩ := Jid.parse_eq_ok.mpr (Jid.parseDomain_eq_ok.mp hd)
  simp only [saslIdentity, text, String.toList_ofList, untrimmed, Text.Base64.decode?_encode, fromUTF8?_bytes, address]

namespace Dialback

theorem isValid_verdict {m : Dialback} (valid : Bool) (h : m.kind = some (verdict valid)) :
    m.isValid = valid := by
  cases valid <;> simp [isValid, h, verdict]

end Dialback

end Protocol

namespace Stream

theorem Condition.name_ne_text (c : Condition) : c.name ≠ "text" := by cases c <;> decide

namespace Error

theorem readChild_condition (e : Error) (c : Condition) :
    e.readChild { name := c.name, ns := Xml.Namespace.streamErrors } = { e with condition := c } := by
  simp [readChild, c.name_ne_text]

/-- A text is read as it was written, also the empty one, for which no node is written. -/
theorem readChild_text (e : Error) (text : String) :
    e.readChild (({ name := "text", ns := Xml.Namespace.streamErrors } : Xml.Element).appendText text) =
      { e with text := some text } := by
  simp [readChild, Xml.Element.text_appendText]

theorem ofElement_toElement (e : Error) : ofElement e.toElement = e := by
  obtain ⟨condition, text⟩ := e
  cases text with
  | none =>
    simp only [toElement, ofElement, Xml.Element.children_appendChild, List.foldl_append]
    exact readChild_condition _ condition
  | some text =>
    simp only [toElement, ofElement, Xml.Element.children_appendChild, List.foldl_append]
    exact (congrArg (readChild · _) (readChild_condition _ condition)).trans (readChild_text _ text)

end Error

end Stream

/-- What a reader makes of an element is what its builder was given: the domains, the id and the key or the verdict of
dialback, the identity in a SASL request, and a stream error with its text. -/
theorem written_is_read :
    (∀ (recipient sender id key : String) (valid : Bool), Jid.parseDomain recipient = .ok recipient →
      Jid.parseDomain sender = .ok sender → Text.trim key = key →
      (∃ m, Dialback.ofElement (Dialback.result recipient sender key) = .ok m ∧
        m = ⟨recipient, sender, none, none, key⟩ ∧ m.isReply = false ∧ m.isValid = false) ∧
      (∃ m, Dialback.ofElement (Dialback.resultReply recipient sender valid) = .ok m ∧
        m = ⟨recipient, sender, none, some (Dialback.verdict valid), ""⟩ ∧ m.isReply = true ∧ m.isValid = valid) ∧
      (∃ m, Dialback.ofElement (Dialback.verify recipient sender id key) = .ok m ∧
        m = ⟨recipient, sender, some id, none, key⟩ ∧ m.isReply = false ∧ m.isValid = false) ∧
      ∃ m, Dialback.ofElement (Dialback.verifyReply recipient sender id valid) = .ok m ∧
        m = ⟨recipient, sender, some id, some (Dialback.verdict valid), ""⟩ ∧ m.isReply = true ∧
          m.isValid = valid) ∧
    (∀ d, Jid.parseDomain d = .ok d → Protocol.saslIdentity (Protocol.saslAuth d).text = .ok ⟨none, d, none⟩) ∧
    ∀ e : Stream.Error, Stream.Error.ofElement e.toElement = e := by
  refine ⟨?_, fun d => Protocol.saslIdentity_saslAuth, Stream.Error.ofElement_toElement⟩
  intro recipient sender id key valid hr hs hk
  refine ⟨⟨_, ?_, rfl, rfl, rfl⟩, ⟨_, Dialback.ofElement_resultReply hr hs valid, rfl, rfl, ?_⟩,
    ⟨_, ?_, rfl, rfl, rfl⟩, ⟨_, Dialback.ofElement_verifyReply hr hs id valid, rfl, rfl, ?_⟩⟩
  · rw [Dialback.ofElement_result hr hs, hk]
  · exact Dialback.isValid_verdict valid rfl
  · rw [Dialback.ofElement_verify hr hs, hk]
  · exact Dialback.isValid_verdict valid rfl

/-- A request without a key, an identity and an error with the empty text are read as they were written. -/
theorem bare_messages_read :
    Jid.parseDomain "a.example" = .ok "a.example" ∧ Jid.parseDomain "b.example" = .ok "b.example" ∧
      Dialback.ofElement (Dialback.verify "b.example" "a.example" " one " "") =
        .ok ⟨"b.example", "a.example", some " one ", none, ""⟩ ∧
      Protocol.saslIdentity (Protocol.saslAuth "a.example").text = .ok ⟨none, "a.example", none⟩ ∧
      Stream.Error.ofElement (Stream.Error.toElement ⟨.conflict, some ""⟩) = ⟨.conflict, some ""⟩ := by
  have a : Jid.parseDomain "a.example" = .ok "a.example" := Jid.parseDomain_eq_ok.mpr (by decide +kernel)
  have b : Jid.parseDomain "b.example" = .ok "b.example" := Jid.parseDomain_eq_ok.mpr (by decide +kernel)
  obtain ⟨dialback, sasl, error⟩ := written_is_read
  obtain ⟨-, -, ⟨m, read, rfl, -⟩, -⟩ := dialback "b.example" "a.example" " one " "" true b a rfl
  exact ⟨a, b, read, sasl _ a, error _⟩

end Interdomain
