import WireSpan.Decimal.Binary64
import WireSpan.Span

/-! JSON values as trees in which every part knows its place. Members of an object keep the order
of the document, and keys may repeat. -/

namespace WireSpan

/-- The value of a numeral. A numeral without fraction and exponent is exact, whatever its
length. -/
inductive Number where
  | integer (value : Int)
  | decimal (value : Int)
  | float (value : Decimal.Binary64)
deriving DecidableEq, Repr

structure Member (α : Type) where
  key : Located String
  value : Located α
deriving DecidableEq, Repr

inductive Json where
  | null
  | bool (value : Bool)
  | number (value : Number) (text : String)
  | string (value : String)
  | array (items : List (Located Json))
  | object (members : List (Member Json))
deriving Repr

namespace Json

inductive Form where
  | null
  | bool
  | number
  | string
  | array
  | object
deriving DecidableEq, Repr

def form : Json → Form
  | null => .null
  | bool _ => .bool
  | number .. => .number
  | string _ => .string
  | array _ => .array
  | object _ => .object

def Form.name : Form → String
  | null => "JsonNull"
  | bool => "JsonBool"
  | number => "JsonNumber"
  | string => "JsonString"
  | array => "JsonArray"
  | object => "JsonObject"

mutual

def depth : Json → Nat
  | array items => depthOfItems items + 1
  | object members => depthOfMembers members + 1
  | _ => 0

def depthOfItems : List (Located Json) → Nat
  | [] => 0
  | ⟨value, _⟩ :: items => max (depth value) (depthOfItems items)

def depthOfMembers : List (Member Json) → Nat
  | [] => 0
  | ⟨_, ⟨value, _⟩⟩ :: members => max (depth value) (depthOfMembers members)

end

mutual

def shiftBy (distance : Nat) : Json → Json
  | array items => array (shiftItems distance items)
  | object members => object (shiftMembers distance members)
  | other => other

def shiftItems (distance : Nat) : List (Located Json) → List (Located Json)
  | [] => []
  | ⟨value, span⟩ :: items =>
    ⟨shiftBy distance value, span.shiftBy distance⟩ :: shiftItems distance items

def shiftMembers (distance : Nat) : List (Member Json) → List (Member Json)
  | [] => []
  | ⟨key, ⟨value, span⟩⟩ :: members =>
    ⟨key.shiftBy distance, ⟨shiftBy distance value, span.shiftBy distance⟩⟩ ::
      shiftMembers distance members

end

mutual

/-- Trees agree if their values, their numerals and the places of all their parts do. -/
def agrees : Json → Json → Bool
  | null, null => true
  | bool a, bool b => a == b
  | number a text, number b text' => a == b && text == text'
  | string a, string b => a == b
  | array items, array items' => itemsAgree items items'
  | object members, object members' => membersAgree members members'
  | _, _ => false

def itemsAgree : List (Located Json) → List (Located Json) → Bool
  | [], [] => true
  | ⟨value, span⟩ :: items, ⟨value', span'⟩ :: items' =>
    agrees value value' && span == span' && itemsAgree items items'
  | _, _ => false

def membersAgree : List (Member Json) → List (Member Json) → Bool
  | [], [] => true
  | ⟨key, ⟨value, span⟩⟩ :: members, ⟨key', ⟨value', span'⟩⟩ :: members' =>
    key == key' && agrees value value' && span == span' && membersAgree members members'
  | _, _ => false

end

def agreesAt (a b : Located Json) : Bool := agrees a.value b.value && a.span == b.span

def items : Json → List (Located Json)
  | array items => items
  | _ => []

def members : Json → List (Member Json)
  | object members => members
  | _ => []

def keys (value : Json) : List String := value.members.map (·.key.value)

def getAll (value : Json) (key : String) : List (Located Json) :=
  (value.members.filter (·.key.value == key)).map (·.value)

def get? (value : Json) (key : String) : Option (Located Json) :=
  (value.members.find? (·.key.value == key)).map (·.value)

/-- An item of an array; an index below zero counts from the end. -/
def item? (value : Json) (index : Int) : Option (Located Json) :=
  let count := value.items.length
  let index := if index < 0 then index + count else index
  if index < 0 then none else value.items[index.toNat]?

inductive Step where
  | key (name : String)
  | index (index : Int)
deriving DecidableEq, Repr

inductive StepError where
  | noKeys (form : Form)
  | noItems (form : Form)
  | outOfRange
deriving DecidableEq, Repr

def StepError.message : StepError → String
  | noKeys form => s!"'{form.name}' object has no attribute 'get'"
  | noItems form => s!"'{form.name}' object has no attribute 'items'"
  | outOfRange => "tuple index out of range"

/-- Where a step leads. A key that an object does not have leads nowhere, and is no error. -/
def child? (value : Json) : Step → Except StepError (Option (Located Json))
  | .key name =>
    if value.form = .object then .ok (value.get? name) else .error (.noKeys value.form)
  | .index index =>
    if value.form = .array then
      match value.item? index with
      | some item => .ok (some item)
      | none => .error .outOfRange
    else .error (.noItems value.form)

def follow? (node : Located Json) : List Step → Except StepError (Option (Located Json))
  | [] => .ok (some node)
  | step :: path =>
    match node.value.child? step with
    | .ok (some child) => follow? child path
    | .ok none => .ok none
    | .error error => .error error

end Json

end WireSpan
