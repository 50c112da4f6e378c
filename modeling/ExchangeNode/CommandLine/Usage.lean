import ExchangeNode.CommandLine.Invocation

/-!
# Usage

What is said when the arguments are no invocation.
-/

namespace ExchangeNode

namespace Misuse

def message : Misuse → String
  | .helpWanted => ""
  | .versionWanted => ""
  | .nothingGiven => ""
  | .missingCommand => "a command is required"
  | .unknownCommand => "unrecognized command"
  | .missingOperand => "a required argument was not provided"
  | .unknownArgument => "unexpected argument found"
  | .missingValue => "a value is required"
  | .unknownChoice => "invalid value: neither demand nor supply"
  | .malformedNumber => "invalid value: not a channel type"
  | .unwantedValue => "unexpected value found"
  | .repeatedOption => "an option cannot be used multiple times"

/-- Whether the user has asked for what is said. -/
def isRequest : Misuse → Bool
  | .helpWanted => true
  | .versionWanted => true
  | _ => false

def usage : String := String.intercalate "\n" [
  "Usage: agora [--config <PATH>] <COMMAND>",
  "",
  "Commands:",
  "  register        Register with the directory and keep heartbeating until Ctrl-C",
  "  demand <NAME>   Broadcast a demand (--json <TEXT>, --channel <TYPE>)",
  "  supply <NAME>   Broadcast a supply (--json <TEXT>, --channel <TYPE>)",
  "  watch <KIND>    Print demands or supplies arriving on a channel (--channel <TYPE>, --raw)",
  "  help            Print this message"]

/-- What is said, given the version of the program. -/
def answer (version : String) : Misuse → String
  | .helpWanted => usage
  | .nothingGiven => usage
  | .versionWanted => "agora " ++ version
  | m => "error: " ++ m.message ++ "\n\n" ++ usage

end Misuse

end ExchangeNode
