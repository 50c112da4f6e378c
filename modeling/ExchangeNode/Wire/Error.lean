import ExchangeNode.Directory.Basic

/-!
# Failures of a remote call

What can go wrong between the two ends of a connection. A failure that the other end reports keeps
its code and text; every other one has a code of its own for when it is reported in turn.
-/

namespace ExchangeNode

/-- Why reading, writing or dialing failed. -/
inductive IoCause where
  | unexpectedEnd
  | connectionRefused
  | networkUnreachable
  | other (message : String)
  deriving DecidableEq, Repr

namespace IoCause

def message : IoCause → String
  | .unexpectedEnd => "early eof"
  | .connectionRefused => "Connection refused (os error 111)"
  | .networkUnreachable => "Network is unreachable (os error 101)"
  | .other message => message

end IoCause

inductive WireError where
  | io (cause : IoCause)
  /-- A body that is no message. -/
  | malformed (message : String)
  | connectionClosed
  | tooLarge (size limit : UInt32)
  /-- The other end answered with an error. -/
  | remote (code : Int32) (message : String)
  /-- The answer to the method is of another kind, or belongs to another call. -/
  | unexpectedResponse (method : String)
  deriving DecidableEq, Repr

namespace WireError

def message : WireError → String
  | .io cause => "IO error: " ++ cause.message
  | .malformed message => "JSON error: " ++ message
  | .connectionClosed => "Connection closed"
  | .tooLarge size limit =>
    "Message too large: " ++ toString size.toNat ++ " bytes (max " ++ toString limit.toNat ++ ")"
  | .remote code message => "Remote error " ++ toString code.toInt ++ ": " ++ message
  | .unexpectedResponse method => "Unexpected response to " ++ method

/-- Whether the bytes have ended too early, so that more of them could have helped. -/
def isShortage : WireError → Bool
  | .connectionClosed => true
  | .io .unexpectedEnd => true
  | _ => false

/-- The code under which the failure is reported to the other end. -/
def code : WireError → Int32
  | .remote code _ => code
  | .malformed _ => 400
  | _ => 500

/-- The text under which the failure is reported to the other end. -/
def report : WireError → String
  | .remote _ message => message
  | e => e.message

/-- How the other end sees a failure that was reported to it. -/
def reported (e : WireError) : WireError := .remote e.code e.report

end WireError

end ExchangeNode
