import ExchangeNode.Configuration.Basic
import ExchangeNode.Toml.Reader

/-!
# The configuration file

A file that is missing, or that is no configuration, stands for the defaults: one bad field discards
the whole file.
-/

namespace ExchangeNode.Configuration

/-- What a document, as read, configures. -/
def ofDocument (document : Json) : Configuration :=
  (decode? .document document).getD standard

/-- What a file configures; `none` is a file that cannot be read. -/
def ofFile (contents : Option (List UInt8)) : Configuration :=
  let document := do
    let bytes ← contents
    let text ← String.fromUTF8? bytes.toByteArray
    Toml.read? text.toList
  (document.map ofDocument).getD standard

/-- Add a name to the path of a directory. -/
def joinPath (directory name : String) : String :=
  if directory.isEmpty || directory.endsWith "/" then directory ++ name
  else directory ++ "/" ++ name

/-- The home directory: as the environment says, or else as the account does. -/
def homeDirectory (environment : Option String) (account : String) : String :=
  match environment with
  | some home => if home.isEmpty then account else home
  | none => account

/-- Where the file is looked for when no path is given. -/
def standardPath (home : String) : String := joinPath (joinPath home ".agora") "config.toml"

end ExchangeNode.Configuration
