import WireSpan.Json.Tree
import WireSpan.Text.Quoted

/-! Documents without places: what is left when only the values matter. -/

namespace WireSpan

/-- A plain value. The entries of a record have distinct keys. -/
inductive Plain where
  | null
  | bool (value : Bool)
  | number (value : Number)
  | text (value : String)
  | list (values : List Plain)
  | record (entries : List (String × Plain))
deriving Repr

namespace Plain

/-- Gives `key` the value `value`: in its place where it has one, and at the end otherwise. -/
def put {α : Type} (entries : List (String × α)) (key : String) (value : α) : List (String × α) :=
  match entries with
  | [] => [(key, value)]
  | (key', value') :: rest =>
    if key' = key then (key, value) :: rest else (key', value') :: put rest key value

end Plain

namespace Json

mutual

/-- The plain value. A key that repeats keeps its first place and its last value. -/
def plain : Json → Plain
  | null => .null
  | bool value => .bool value
  | number value _ => .number value
  | string value => .text value
  | array items => .list (plainItems items)
  | object members => .record (plainMembers [] members)

def plainItems : List (Located Json) → List Plain
  | [] => []
  | ⟨value, _⟩ :: items => plain value :: plainItems items

def plainMembers (entries : List (String × Plain)) : List (Member Json) → List (String × Plain)
  | [] => entries
  | ⟨key, ⟨value, _⟩⟩ :: members => plainMembers (Plain.put entries key.value (plain value)) members

end

end Json

namespace Number

def sameValue : Number → Number → Bool
  | float x, float y => x.sameValue y
  | float x, integer n => x.isWhole n
  | float x, decimal n => x.isWhole n
  | integer n, float x => x.isWhole n
  | decimal n, float x => x.isWhole n
  | integer n, integer m => n == m
  | integer n, decimal m => n == m
  | decimal n, integer m => n == m
  | decimal n, decimal m => n == m

def ofBool (value : Bool) : Number := integer (if value then 1 else 0)

end Number

namespace Plain

mutual

/-- Plain values are equal if they hold equal values; the order of entries does not matter. -/
def same : Plain → Plain → Bool
  | null, null => true
  | bool a, bool b => a == b
  | bool a, number b => (Number.ofBool a).sameValue b
  | number a, bool b => a.sameValue (Number.ofBool b)
  | number a, number b => a.sameValue b
  | text a, text b => a == b
  | list values, list values' => sameValues values values'
  | record entries, record entries' =>
    entries.length == entries'.length && sameEntries entries entries'
  | _, _ => false

def sameValues : List Plain → List Plain → Bool
  | [], [] => true
  | value :: values, value' :: values' => same value value' && sameValues values values'
  | _, _ => false

def sameEntries : List (String × Plain) → List (String × Plain) → Bool
  | [], _ => true
  | (key, value) :: entries, entries' =>
    (match entries'.lookup key with
      | some value' => same value value'
      | none => false) && sameEntries entries entries'

end

end Plain

/-- Something handed in as a JSON value that is none. -/
inductive Foreign where
  | nothing
  | bool (value : Bool)
  | whole (value : Int)
  | text (value : String)
  | list (values : List Foreign)
deriving Inhabited

namespace Foreign

mutual

def shown : Foreign → String
  | nothing => "None"
  | bool true => "True"
  | bool false => "False"
  | whole value => toString value
  | text value => Text.quoteText value
  | list values => "[" ++ ", ".intercalate (shownAll values) ++ "]"

def shownAll : List Foreign → List String
  | [] => []
  | value :: values => shown value :: shownAll values

end

def message (value : Foreign) : String := s!"not a JSON value: {value.shown}"

end Foreign

end WireSpan
