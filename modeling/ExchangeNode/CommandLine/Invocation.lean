import ExchangeNode.Exchange.Basic

/-!
# Invocations

What the arguments of the command line ask for. A command takes options, which are spelled with two
dashes and may stand anywhere, and at most one operand. After `--` everything is an operand. The
path of the configuration file may be given before the command or after it.

The value of an option or operand is judged only once the next known option begins or the arguments
end, so an unknown option is reported before a bad value that precedes it.
-/

namespace ExchangeNode

inductive Command where
  /-- Stay registered until interrupted. -/
  | register
  | advertise (side : Side) (name argument : String) (channel : Option UInt32)
  /-- Show the adverts on a channel, as text or as they are. -/
  | watch (side : Side) (channel : Option UInt32) (raw : Bool)
  deriving DecidableEq, Repr

/-- The argument of an advert or a channel where nothing is to be said. -/
def Command.noArgument : String := "\x7b\x7d"

structure Invocation where
  command : Command
  /-- The path of the configuration file. -/
  configuration : Option String
  deriving DecidableEq, Repr

/-- Why arguments are no invocation. -/
inductive Misuse where
  | helpWanted
  | versionWanted
  /-- There is nothing but perhaps `--`. -/
  | nothingGiven
  | missingCommand
  | unknownCommand
  | missingOperand
  /-- An option or operand that the command does not take. -/
  | unknownArgument
  | missingValue
  /-- An operand that is none of the words to choose from. -/
  | unknownChoice
  | malformedNumber
  /-- An option that takes no value was given one. -/
  | unwantedValue
  | repeatedOption
  deriving DecidableEq, Repr

/-- An argument by its form. -/
inductive Token where
  /-- Two dashes, after which there are no more options. -/
  | escape
  | long (name : String) (value : Option String)
  | short (letters : List Char)
  | word (text : String)
  deriving DecidableEq, Repr

namespace Token

def ofLong (cs : List Char) : Token :=
  let name := String.ofList (cs.takeWhile (· ≠ '='))
  match cs.dropWhile (· ≠ '=') with
  | [] => .long name none
  | _ :: value => .long name (some (String.ofList value))

def ofString (s : String) : Token :=
  match s.toList with
  | ['-', '-'] => .escape
  | '-' :: '-' :: cs => ofLong cs
  | '-' :: c :: cs => .short (c :: cs)
  | _ => .word s

end Token

/-- What takes a value. -/
inductive Slot where
  | configuration
  | argument
  | channel
  | operand
  deriving DecidableEq, Repr

inductive Switch where
  | raw
  | help
  | version
  deriving DecidableEq, Repr

/-- The commands, before their arguments are known. -/
inductive Verb where
  | register
  | advertise (side : Side)
  | watch
  deriving DecidableEq, Repr

instance : Choice Verb where
  all := [.register, .advertise .demand, .advertise .supply, .watch]
  name
    | .register => "register"
    | .advertise side => side.name
    | .watch => "watch"

instance : Choice Side where
  all := [.demand, .supply]
  name := Side.name

/-- What may be given in one place. -/
structure Form where
  options : List (String × Slot)
  switches : List (String × Switch)
  /-- Switches of one letter, spelled with one dash. -/
  letters : List (Char × Switch)
  hasOperand : Bool
  /-- Whether the operand is a side. -/
  choosesSide : Bool

namespace Form

/-- Before the command. -/
def top : Form where
  options := [("config", .configuration)]
  switches := [("help", .help), ("version", .version)]
  letters := [('h', .help), ('V', .version)]
  hasOperand := false
  choosesSide := false

def ofVerb : Verb → Form
  | .register => { top with switches := [("help", .help)], letters := [('h', .help)] }
  | .advertise _ => {
      options := [("json", .argument), ("channel", .channel), ("config", .configuration)]
      switches := [("help", .help)]
      letters := [('h', .help)]
      hasOperand := true
      choosesSide := false }
  | .watch => {
      options := [("channel", .channel), ("config", .configuration)]
      switches := [("raw", .raw), ("help", .help)]
      letters := [('h', .help)]
      hasOperand := true
      choosesSide := true }

end Form

/-- A value that has still to come, or has not been judged yet. -/
inductive Expected where
  | value (slot : Slot)
  | verdict (slot : Slot) (value : String)
  deriving DecidableEq, Repr

/-- What has been read so far. -/
structure Reading where
  expected : Option Expected
  configuration : Option String
  argument : Option String
  channel : Option UInt32
  operand : Option String
  raw : Bool
  deriving DecidableEq, Repr

namespace Reading

def blank : Reading := ⟨none, none, none, none, none, false⟩

/-- A number in decimal digits, perhaps with a sign. -/
def number? (s : String) : Option Int :=
  let digits (cs : List Char) : Option Nat :=
    if !cs.isEmpty && cs.all Char.isDigit then some (Nat.ofDigitChars 10 cs 0) else none
  match s.toList with
  | '+' :: cs => (digits cs).map fun n => (n : Int)
  | '-' :: cs => (digits cs).map fun n => -(n : Int)
  | cs => (digits cs).map fun n => (n : Int)

def channel? (s : String) : Option UInt32 := do
  let n ← number? s
  if 0 ≤ n ∧ n < 0x100000000 then some (UInt32.ofNat n.toNat) else none

/-- Take the value of an option or operand. -/
def store (f : Form) (r : Reading) (slot : Slot) (value : String) : Except Misuse Reading :=
  match slot with
  | .configuration =>
    if r.configuration.isSome then .error .repeatedOption
    else if value.isEmpty then .error .missingValue
    else .ok { r with configuration := some value }
  | .argument =>
    if r.argument.isSome then .error .repeatedOption
    else .ok { r with argument := some value }
  | .channel =>
    if r.channel.isSome then .error .repeatedOption
    else match channel? value with
      | some n => .ok { r with channel := some n }
      | none => .error .malformedNumber
  | .operand =>
    if f.choosesSide && (Choice.ofName? value : Option Side).isNone then .error .unknownChoice
    else .ok { r with operand := some value }

/-- Judge the value that is expected. -/
def settle (f : Form) (r : Reading) : Except Misuse Reading :=
  match r.expected with
  | none => .ok r
  | some (.value _) => .error .missingValue
  | some (.verdict slot value) => { r with expected := none }.store f slot value

def press (f : Form) (r : Reading) (switch : Switch) : Except Misuse Reading := do
  let r ← r.settle f
  match switch with
  | .help => .error .helpWanted
  | .version => .error .versionWanted
  | .raw => if r.raw then .error .repeatedOption else .ok { r with raw := true }

/-- An option spelled with two dashes. -/
def long (f : Form) (r : Reading) (name : String) (value : Option String) :
    Except Misuse Reading :=
  match f.options.lookup name, f.switches.lookup name, value with
  | some slot, _, some value => do
    let r ← r.settle f
    r.store f slot value
  | some slot, _, none => do
    let r ← r.settle f
    .ok { r with expected := some (.value slot) }
  | none, some _, some _ => .error .unwantedValue
  | none, some switch, none => r.press f switch
  | none, none, _ => .error .unknownArgument

/-- Switches spelled with one dash. -/
def short (f : Form) (r : Reading) : List Char → Except Misuse Reading
  | [] => .ok r
  | c :: rest =>
    match f.letters.lookup c with
    | some switch => do
      let r ← r.press f switch
      r.short f rest
    | none => .error .unknownArgument

/-- A word where no option waits for its value. -/
def word (f : Form) (r : Reading) (text : String) : Except Misuse Reading :=
  let taken := match r.expected with
    | some (.verdict .operand _) => true
    | _ => r.operand.isSome
  if f.hasOperand && !taken then do
    let r ← r.settle f
    .ok { r with expected := some (.verdict .operand text) }
  else .error .unknownArgument

/-- Words after two dashes. -/
def words (f : Form) (r : Reading) : List String → Except Misuse Reading
  | [] => r.settle f
  | text :: rest => do
    let r ← r.word f text
    r.words f rest

/-- The arguments of a command. -/
def all (f : Form) (r : Reading) : List String → Except Misuse Reading
  | [] => r.settle f
  | text :: rest =>
    match Token.ofString text, r.expected with
    | .escape, _ => r.words f rest
    | .long name value, _ => do
      let r ← r.long f name value
      r.all f rest
    | .short letters, _ => do
      let r ← r.short f letters
      r.all f rest
    | .word text, some (.value slot) =>
      { r with expected := some (.verdict slot text) }.all f rest
    | .word text, _ => do
      let r ← r.word f text
      r.all f rest

/-- The command that a reading is about. -/
def command (r : Reading) (verb : Verb) : Except Misuse Command :=
  match verb, r.operand with
  | .register, _ => .ok .register
  | .advertise side, some name =>
    .ok (.advertise side name (r.argument.getD Command.noArgument) r.channel)
  | .watch, some word =>
    match Choice.ofName? word with
    | some side => .ok (.watch side r.channel r.raw)
    | none => .error .unknownChoice
  | _, none => .error .missingOperand

end Reading

namespace Invocation

/-- The arguments end before a command. -/
def withoutCommand (r : Reading) : Misuse :=
  match r.settle .top with
  | .error e => e
  | .ok r => if r.configuration.isSome then .missingCommand else .nothingGiven

/-- Help is asked for on a command, or on help itself. -/
def help : List String → Misuse
  | [] => .helpWanted
  | [topic] =>
    if topic = "help" || (Choice.ofName? topic : Option Verb).isSome then .helpWanted
    else .unknownCommand
  | _ => .unknownCommand

/-- The arguments from the command on. One that is told where its configuration is does not heed
what was said before it. -/
def ofVerb (r : Reading) (verb : Verb) (arguments : List String) : Except Misuse Invocation := do
  let own ← Reading.blank.all (.ofVerb verb) arguments
  let command ← own.command verb
  let r ← r.settle .top
  return ⟨command, own.configuration.or r.configuration⟩

/-- The arguments from the first one, or from one before the command, on. -/
def ofArguments (r : Reading) : List String → Except Misuse Invocation
  | [] => .error (withoutCommand r)
  | text :: rest =>
    match Token.ofString text, r.expected with
    | .escape, _ =>
      match rest with
      | [] => .error (withoutCommand r)
      | word :: _ =>
        if word = "help" || (Choice.ofName? word : Option Verb).isSome then
          .error .unknownArgument
        else .error .unknownCommand
    | .long name value, _ => do
      let r ← r.long .top name value
      ofArguments r rest
    | .short letters, _ => do
      let r ← r.short .top letters
      ofArguments r rest
    | .word text, some (.value slot) =>
      ofArguments { r with expected := some (.verdict slot text) } rest
    | .word text, _ =>
      if text = "help" then .error (help rest)
      else match Choice.ofName? text with
        | some verb => ofVerb r verb rest
        | none => .error .unknownCommand

/-- What the arguments of the command line ask for. -/
def parse (arguments : List String) : Except Misuse Invocation := ofArguments .blank arguments

end Invocation

end ExchangeNode
