import WireSpan.Json.Tree

/-! Walks through a document, in the order of its bytes. -/

namespace WireSpan.Json

inductive Subject where
  | key (text : String)
  | value (value : Json)

/-- One stop of a walk, with the number of containers around it. A key is at the depth of the value
that belongs to it. -/
structure Visit where
  depth : Nat
  subject : Subject
  span : Span

mutual

/-- All stops in a value: the value itself, and then its parts unless its form is left out. -/
def visits (leaveOut : Form → Bool) (depth : Nat) (span : Span) : Json → List Visit
  | array items =>
    ⟨depth, .value (array items), span⟩ ::
      if leaveOut .array then [] else itemVisits leaveOut (depth + 1) items
  | object members =>
    ⟨depth, .value (object members), span⟩ ::
      if leaveOut .object then [] else memberVisits leaveOut (depth + 1) members
  | other => [⟨depth, .value other, span⟩]

def itemVisits (leaveOut : Form → Bool) (depth : Nat) : List (Located Json) → List Visit
  | [] => []
  | ⟨value, span⟩ :: items =>
    visits leaveOut depth span value ++ itemVisits leaveOut depth items

def memberVisits (leaveOut : Form → Bool) (depth : Nat) : List (Member Json) → List Visit
  | [] => []
  | ⟨key, ⟨value, span⟩⟩ :: members =>
    ⟨depth, .key key.value, key.span⟩ ::
      (visits leaveOut depth span value ++ memberVisits leaveOut depth members)

end

def walk (leaveOut : Form → Bool) (node : Located Json) : List Visit :=
  visits leaveOut 0 node.span node.value

def fullWalk (node : Located Json) : List Visit := walk (fun _ => false) node

def fill (span : Span) (byte : UInt8) (buffer : Bytes) : Bytes :=
  let middle := span.slice buffer
  buffer.take span.start ++ List.replicate middle.length byte ++
    buffer.drop (span.start + middle.length)

def inner (span : Span) : Span := Span.between (span.start + 1) (span.stop - 1)

/-- What a visit hides: a number behind nines, and the text of a string value behind stars. -/
def Visit.hide (visit : Visit) (buffer : Bytes) : Bytes :=
  match visit.subject with
  | .value (number ..) => fill visit.span 0x39 buffer
  | .value (string _) => fill (inner visit.span) 0x2a buffer
  | _ => buffer

def mask (node : Located Json) (buffer : Bytes) : Bytes :=
  (fullWalk node).foldl (fun buffer visit => visit.hide buffer) buffer

end WireSpan.Json
