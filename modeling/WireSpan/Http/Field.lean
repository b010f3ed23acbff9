import WireSpan.Ascii
import WireSpan.Text.Case

/-! Header and trailer fields, and how they are found by name. -/

namespace WireSpan.Http

structure Field where
  name : Located String
  value : Located Bytes
deriving DecidableEq, Repr

namespace Field

/-- Names are compared without regard to letter case. -/
def isNamed (field : Field) (name : String) : Bool :=
  Text.lower field.name.value == Text.lower name

def text (field : Field) : String := Ascii.latin1 field.value.value

end Field

abbrev Fields := List (Located Field)

namespace Fields

def named (fields : Fields) (name : String) : Fields := fields.filter (·.value.isNamed name)

def first? (fields : Fields) (name : String) : Option (Located Field) :=
  fields.find? (·.value.isNamed name)

def value? (fields : Fields) (name : String) (default : Option Bytes) : Option Bytes :=
  match fields.first? name with
  | some field => some field.value.value.value
  | none => default

end Fields

end WireSpan.Http
