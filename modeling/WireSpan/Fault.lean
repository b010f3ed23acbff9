import WireSpan.Failure
import WireSpan.Settings

/-! All that can end an operation without a result. A failure to match is one case; the others are
mistakes in how a reader was put together or asked, and no choice or repetition recovers from
them. -/

namespace WireSpan

/-- The form of a result that a function was given. -/
inductive Shape where
  | absent
  | bytes
  | text
  | number
  | tuple
deriving DecidableEq, Repr

def Shape.name : Shape → String
  | absent => "NoneType"
  | bytes => "bytes"
  | text => "str"
  | number => "int"
  | tuple => "tuple"

/-- What was asked of a result that only results of another shape have. -/
inductive Wanted where
  | start
  | stop
  | map
  | value
  | decode
deriving DecidableEq, Repr

def Wanted.name : Wanted → String
  | start => "start"
  | stop => "end"
  | map => "map"
  | value => "value"
  | decode => "decode"

inductive Use where
  | size
  | numeral
  | parts
deriving DecidableEq, Repr

inductive Fault where
  | failed (failure : Failure)
  | lacks (shape : Shape) (wanted : Wanted)
  | unsuited (shape : Shape) (use : Use)
  | invalidRepetition (minimum : Int) (maximum : Option Int)
  | noAlternative
  | numeral (error : Decimal.WholeError)
  | settings (error : SettingsError)
  | raised (text : String)
deriving DecidableEq, Repr

namespace Fault

def message : Fault → String
  | failed failure => failure.message
  | lacks shape wanted => s!"'{shape.name}' object has no attribute '{wanted.name}'"
  | unsuited shape .size => s!"object of type '{shape.name}' has no len()"
  | unsuited shape .numeral =>
    "int() argument must be a string, a bytes-like object or a real number, not '" ++
      shape.name ++ "'"
  | unsuited shape .parts => s!"'{shape.name}' object is not iterable"
  | invalidRepetition minimum none => s!"invalid repetition bounds min={minimum} max=None"
  | invalidRepetition minimum (some maximum) =>
    s!"invalid repetition bounds min={minimum} max={maximum}"
  | noAlternative => "alternation() needs at least one matcher"
  | numeral error => error.message
  | settings error => error.message
  | raised text => text

def reportedBy (fault : Fault) (layer : Layer) : Fault :=
  match fault with
  | failed failure => failed (failure.reportedBy layer)
  | other => other

def shiftBy (fault : Fault) (distance : Nat) : Fault :=
  match fault with
  | failed failure => failed (failure.shiftBy distance)
  | other => other

end Fault

end WireSpan
