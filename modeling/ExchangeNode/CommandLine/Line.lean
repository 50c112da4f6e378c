import ExchangeNode.Exchange.Basic
import ExchangeNode.Json.Printer

/-!
# Lines on the terminal

What commands print, as text or with colours.
-/

namespace ExchangeNode

/-- How a piece of text stands out. -/
inductive Style where
  | bold
  | dimmed
  | yellow
  | brightRed
  | brightGreen
  | brightYellow
  | brightCyan
  | boldBrightCyan
  deriving DecidableEq, Repr

namespace Style

def code : Style → String
  | .bold => "1"
  | .dimmed => "2"
  | .yellow => "33"
  | .brightRed => "91"
  | .brightGreen => "92"
  | .brightYellow => "93"
  | .brightCyan => "96"
  | .boldBrightCyan => "1;96"

def on (style : Style) : String := "\x1b[" ++ style.code ++ "m"

def off : String := "\x1b[0m"

/-- A text in a style. Where the text itself turns styles off, the style is turned on again. -/
def paint (style : Style) (colours : Bool) (text : String) : String :=
  if colours then style.on ++ text.replace off (off ++ style.on) ++ off else text

end Style

inductive Line where
  | section (title : String)
  | success (text : String)
  | warning (text : String)
  | error (text : String)
  | entry (label value : String)
  | hint (text : String)
  /-- An advert. -/
  | advert (side : Side) (id sender : UInt64) (name argument : String)
  /-- A text as it is. -/
  | raw (text : String)
  deriving DecidableEq, Repr

namespace Line

def padRight (width : Nat) (s : String) : String :=
  s ++ String.ofList (List.replicate (width - s.length) ' ')

/-- A sign and a text, indented. -/
def signed (sign text : String) : String := "  " ++ sign ++ " " ++ text

open Style in
def render (colours : Bool) : Line → String
  | .section title => signed (paint boldBrightCyan colours ">>") (paint bold colours title)
  | .success text => signed (paint brightGreen colours "✔") text
  | .warning text => signed (paint brightYellow colours "-") (paint yellow colours text)
  | .error text => signed (paint brightRed colours "✘") (paint brightRed colours text)
  | .entry label value => "  " ++ padRight 13 (label ++ ":") ++ value
  | .hint text => signed (paint dimmed colours "hint:") (paint dimmed colours text)
  | .advert side id sender name argument =>
    " ".intercalate ["  " ++ paint brightCyan colours side.name, padRight 20 (toString id.toNat),
      paint dimmed colours ("from " ++ toString sender.toNat), paint bold colours name, argument]
  | .raw text => text

/-- The line that shows an advert. -/
def ofAdvert {side : Side} (asItIs : Bool) (a : Advert side) : Line :=
  if asItIs then .raw (encode a).text else .advert side a.id a.sender a.name a.argument

end Line

end ExchangeNode
