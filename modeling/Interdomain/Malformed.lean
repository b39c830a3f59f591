/-! Texts that are not a value of the kind they were read as. -/
namespace Interdomain

/-- What a refused text was read as, with the text itself. -/
inductive Malformed where
  | tlsRequirement (text : String)
  | authRequirement (text : String)
  | versionRequirement (text : String)
  | jid (text : String)
  | direction (text : String)
  | condition (text : String)
  deriving Repr, DecidableEq

def Malformed.message : Malformed → String
  | .tlsRequirement text =>
    "invalid TLS requirement '" ++ text ++ "' (expected \"no\", \"force\" or a protection level)"
  | .authRequirement text =>
    "invalid auth requirement '" ++ text ++ "' (expected \"db\" or \"sasl\")"
  | .versionRequirement text =>
    "invalid XMPP version requirement '" ++ text ++ "' (expected \"no\" or \"force\")"
  | .jid text => "invalid JID '" ++ text ++ "'"
  | .direction text => "invalid direction '" ++ text ++ "' (expected \"in\" or \"out\")"
  | .condition text => "unknown stream error condition '" ++ text ++ "'"

end Interdomain
