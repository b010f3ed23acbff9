import Mathlib.Logic.ExistsUnique
import WireSpan.Proofs.Json.WalkOrder

/-! A walk comes by everything in a tree once. What it leaves out is what lies strictly inside the
containers of the forms that are left out. -/

namespace WireSpan.Json

/-- The visit to a value. -/
def Visit.ofValue (depth : Nat) (node : Located Json) : Visit :=
  ⟨depth, .value node.value, node.span⟩

/-- The visit to a key. -/
def Visit.ofKey (depth : Nat) (key : Located String) : Visit := ⟨depth, .key key.value, key.span⟩

/-- The visit is to a value or a key in the tree. -/
def ComesFrom (root : Located Json) (visit : Visit) : Prop :=
  (∃ node, Inside root node ∧ visit = .ofValue visit.depth node) ∨
    ∃ key, KeyInside root key ∧ visit = .ofKey visit.depth key

mutual

/-- The number of values and keys in a tree. -/
def tally : Json → Nat
  | array items => tallyOfItems items + 1
  | object members => tallyOfMembers members + 1
  | _ => 1

def tallyOfItems : List (Located Json) → Nat
  | [] => 0
  | ⟨value, _⟩ :: items => tally value + tallyOfItems items

def tallyOfMembers : List (Member Json) → Nat
  | [] => 0
  | ⟨_, ⟨value, _⟩⟩ :: members => tally value + tallyOfMembers members + 1

end

/-- A walk comes by every value and every key of a tree at one place, and by nothing else. It goes
through the bytes from left to right, comes by a container before everything in it, and by a key
directly before the value that belongs to it. -/
structure WalksThrough (root : Located Json) (walked : List Visit) : Prop where
  values : ∀ node, Inside root node →
    ∃! place : Nat, ∃ depth, walked[place]? = some (Visit.ofValue depth node)
  keys : ∀ key, KeyInside root key →
    ∃! place : Nat, ∃ depth, walked[place]? = some (Visit.ofKey depth key)
  only : ∀ visit ∈ walked, ComesFrom root visit
  count : walked.length = tally root.value
  increasing : walked.Pairwise fun first second => first.span.start < second.span.start
  value_behind : ∀ node part, Inside root node → Inside node part → part ≠ node →
    ∃ outer inner, [.ofValue outer node, .ofValue inner part].Sublist walked
  key_behind : ∀ node key, Inside root node → KeyInside node key →
    ∃ outer inner, [.ofValue outer node, .ofKey inner key].Sublist walked
  key_first : ∀ node member, Inside root node → member ∈ node.value.members →
    ∃ depth, [.ofKey depth member.key, .ofValue depth member.value] <:+: walked

/-- The span lies strictly inside a container of a form that is left out. -/
def LeftOutAround (leaveOut : Form → Bool) (root : Located Json) (span : Span) : Prop :=
  ∃ container, Inside root container ∧
    (container.value.form = .array ∨ container.value.form = .object) ∧
      leaveOut container.value.form = true ∧ strictlyInside span container.span = true

variable {buffer : Bytes} {root node part : Located Json} {key : Located String} {depth : Nat}
  {walked : List Visit} {visit : Visit}

section Contents

theorem ComesFrom.of_inside (inside : Inside root node) (comes : ComesFrom node visit) :
    ComesFrom root visit := by
  rcases comes with ⟨part, within, same⟩ | ⟨key, within, same⟩
  · exact .inl ⟨part, inside.trans within, same⟩
  · cases within with
    | key within listed => exact .inr ⟨_, .key (inside.trans within) listed, same⟩

theorem ComesFrom.head {value : Json} {span : Span} :
    ComesFrom ⟨value, span⟩ ⟨depth, .value value, span⟩ := .inl ⟨_, .root, rfl⟩

mutual

theorem comesFrom_of_mem (depth : Nat) (span : Span) : (value : Json) →
    ∀ visit ∈ visits (fun _ => false) depth span value, ComesFrom ⟨value, span⟩ visit
  | .array items => by
    refine List.forall_mem_cons.mpr ⟨.head, fun visit member => ?_⟩
    obtain ⟨item, listed, comes⟩ := comesFrom_of_mem_items (depth + 1) items visit member
    exact comes.of_inside (Inside.root.item listed)
  | .object members => by
    refine List.forall_mem_cons.mpr ⟨.head, fun visit member => ?_⟩
    obtain ⟨entry, listed, named | comes⟩ :=
      comesFrom_of_mem_members (depth + 1) members visit member
    · exact .inr ⟨_, .key .root listed, named⟩
    · exact comes.of_inside (Inside.root.value listed)
  | .null | .bool _ | .number .. | .string _ => List.forall_mem_singleton.mpr .head

theorem comesFrom_of_mem_items (depth : Nat) : (items : List (Located Json)) →
    ∀ visit ∈ itemVisits (fun _ => false) depth items, ∃ item ∈ items, ComesFrom item visit
  | [] => nofun
  | ⟨value, span⟩ :: items => by
    intro visit member
    rcases List.mem_append.mp member with here | later
    · exact ⟨_, List.mem_cons_self, comesFrom_of_mem depth span value visit here⟩
    · obtain ⟨item, listed, comes⟩ := comesFrom_of_mem_items depth items visit later
      exact ⟨item, List.mem_cons_of_mem _ listed, comes⟩

theorem comesFrom_of_mem_members (depth : Nat) : (members : List (Member Json)) →
    ∀ visit ∈ memberVisits (fun _ => false) depth members,
      ∃ member ∈ members, visit = .ofKey visit.depth member.key ∨ ComesFrom member.value visit
  | [] => nofun
  | ⟨key, ⟨value, span⟩⟩ :: members => by
    intro visit member
    rcases List.mem_cons.mp member with rfl | member
    · exact ⟨_, List.mem_cons_self, .inl rfl⟩
    rcases List.mem_append.mp member with here | later
    · exact ⟨_, List.mem_cons_self, .inr (comesFrom_of_mem depth span value visit here)⟩
    · obtain ⟨entry, listed, comes⟩ := comesFrom_of_mem_members depth members visit later
      exact ⟨entry, List.mem_cons_of_mem _ listed, comes⟩

end

mutual

private theorem visits_length (depth : Nat) (span : Span) : (value : Json) →
    (visits (fun _ => false) depth span value).length = tally value
  | .array items => congrArg (· + 1) (itemVisits_length (depth + 1) items)
  | .object members => congrArg (· + 1) (memberVisits_length (depth + 1) members)
  | .null | .bool _ | .number .. | .string _ => rfl

theorem itemVisits_length (depth : Nat) : (items : List (Located Json)) →
    (itemVisits (fun _ => false) depth items).length = tallyOfItems items
  | [] => rfl
  | ⟨value, span⟩ :: items => by
    rw [itemVisits, List.length_append, visits_length, itemVisits_length, tallyOfItems]

theorem memberVisits_length (depth : Nat) : (members : List (Member Json)) →
    (memberVisits (fun _ => false) depth members).length = tallyOfMembers members
  | [] => rfl
  | ⟨key, ⟨value, span⟩⟩ :: members => by
    rw [memberVisits, List.length_cons, List.length_append, visits_length, memberVisits_length,
      tallyOfMembers]

end

/-- A walk through a value begins with the value. -/
theorem visits_cons (leaveOut : Form → Bool) (depth : Nat) (node : Located Json) :
    ∃ rest, visits leaveOut depth node.span node.value = .ofValue depth node :: rest := by
  obtain ⟨value, span⟩ := node
  cases value <;> exact ⟨_, rfl⟩

private theorem visits_within_items {item : Located Json} {items : List (Located Json)}
    (depth : Nat)
    (listed : item ∈ items) : visits (fun _ => false) depth item.span item.value <:+:
      itemVisits (fun _ => false) depth items := by
  induction items with
  | nil => cases listed
  | cons first items ih =>
    rcases List.mem_cons.mp listed with rfl | later
    · exact (List.prefix_append _ _).isInfix
    · exact (ih later).trans (List.suffix_append _ _).isInfix

private theorem visits_within_members {member : Member Json} {members : List (Member Json)}
    (depth : Nat)
    (listed : member ∈ members) :
    .ofKey depth member.key :: visits (fun _ => false) depth member.value.span member.value.value
      <:+: memberVisits (fun _ => false) depth members := by
  induction members with
  | nil => cases listed
  | cons first members ih =>
    rcases List.mem_cons.mp listed with rfl | later
    · exact ((List.prefix_cons_inj _).mpr (List.prefix_append _ _)).isInfix
    · refine (ih later).trans (List.IsSuffix.isInfix ?_)
      exact (List.suffix_append _ _).trans (List.suffix_cons _ _)

private theorem visits_within_item {item : Located Json} (depth : Nat)
    (listed : item ∈ node.value.items) :
    visits (fun _ => false) (depth + 1) item.span item.value <:+:
      visits (fun _ => false) depth node.span node.value := by
  obtain ⟨value, span⟩ := node
  cases value with
  | array items => exact (visits_within_items (depth + 1) listed).trans (List.suffix_cons _ _).isInfix
  | _ => cases listed

private theorem visits_within_member {member : Member Json} (depth : Nat)
    (listed : member ∈ node.value.members) :
    .ofKey (depth + 1) member.key ::
        visits (fun _ => false) (depth + 1) member.value.span member.value.value <:+:
      visits (fun _ => false) depth node.span node.value := by
  obtain ⟨value, span⟩ := node
  cases value with
  | object members =>
    exact (visits_within_members (depth + 1) listed).trans (List.suffix_cons _ _).isInfix
  | _ => cases listed

/-- The walk through a value is a stretch of the walk through a tree that contains it. -/
theorem Inside.visits_within (inside : Inside root node) (depth : Nat) :
    ∃ inner, visits (fun _ => false) inner node.span node.value <:+:
      visits (fun _ => false) depth root.span root.value := by
  induction inside with
  | root => exact ⟨depth, List.infix_refl _⟩
  | item _ listed ih =>
    obtain ⟨inner, stretch⟩ := ih
    exact ⟨inner + 1, (visits_within_item inner listed).trans stretch⟩
  | value _ listed ih =>
    obtain ⟨inner, stretch⟩ := ih
    have behind := (List.suffix_cons _ _).isInfix.trans (visits_within_member inner listed)
    exact ⟨inner + 1, behind.trans stretch⟩

theorem Inside.visited (inside : Inside root node) (depth : Nat) :
    ∃ inner, .ofValue inner node ∈ visits (fun _ => false) depth root.span root.value := by
  obtain ⟨inner, stretch⟩ := inside.visits_within depth
  obtain ⟨rest, begins⟩ := visits_cons (fun _ => false) inner node
  rw [begins] at stretch
  exact ⟨inner, stretch.subset List.mem_cons_self⟩

theorem KeyInside.visited (inside : KeyInside root key) (depth : Nat) :
    ∃ inner, .ofKey inner key ∈ visits (fun _ => false) depth root.span root.value := by
  cases inside with
  | key inside listed =>
    obtain ⟨inner, stretch⟩ := inside.visits_within depth
    have named := (visits_within_member inner listed).trans stretch
    exact ⟨inner + 1, named.subset List.mem_cons_self⟩

end Contents

section Documents

/-- Of a strictly increasing walk, one place at most belongs to a span. -/
theorem place_unique {one two : Visit} {first second : Nat}
    (increasing : walked.Pairwise fun first second => first.span.start < second.span.start)
    (here : walked[first]? = some one) (there : walked[second]? = some two)
    (same : one.span = two.span) : first = second := by
  obtain ⟨inFirst, rfl⟩ := List.getElem?_eq_some_iff.mp here
  obtain ⟨inSecond, rfl⟩ := List.getElem?_eq_some_iff.mp there
  have ordered := List.pairwise_iff_getElem.mp increasing
  rcases Nat.lt_trichotomy first second with before | equal | behind
  · have later := ordered first second inFirst inSecond before
    rw [same] at later
    exact absurd later (Nat.lt_irrefl _)
  · exact equal
  · have later := ordered second first inSecond inFirst behind
    rw [same] at later
    exact absurd later (Nat.lt_irrefl _)

/-- What is visited in an increasing walk is visited once. -/
theorem visited_once {visitAt : Nat → Visit} {span : Span}
    (increasing : walked.Pairwise fun first second => first.span.start < second.span.start)
    (located : ∀ depth, (visitAt depth).span = span) (visited : ∃ depth, visitAt depth ∈ walked) :
    ∃! place : Nat, ∃ depth, walked[place]? = some (visitAt depth) := by
  obtain ⟨depth, member⟩ := visited
  obtain ⟨place, here⟩ := List.mem_iff_getElem?.mp member
  refine ⟨place, ⟨depth, here⟩, fun other there => ?_⟩
  obtain ⟨inner, there⟩ := there
  exact place_unique increasing there here ((located inner).trans (located depth).symm)

private theorem ofKey_ne_ofValue {inner outer : Nat} :
    Visit.ofKey inner key ≠ Visit.ofValue outer node := by
  simp [Visit.ofKey, Visit.ofValue]

/-- What a walk through a value comes by after the value itself. -/
theorem sublist_of_visited (depth : Nat) (other : visit ≠ .ofValue depth node)
    (member : visit ∈ visits (fun _ => false) depth node.span node.value) :
    [.ofValue depth node, visit].Sublist (visits (fun _ => false) depth node.span node.value) := by
  obtain ⟨rest, begins⟩ := visits_cons (fun _ => false) depth node
  rw [begins] at member ⊢
  have later := List.mem_of_ne_of_mem other member
  exact (List.singleton_sublist.mpr later).cons_cons _

theorem AllPlaced.walksThrough (placed : AllPlaced buffer root) :
    WalksThrough root (fullWalk root) := by
  have preceding := (visits_ordered 0 root.span root.value placed).preceding
  have increasing := preceding.imp And.left
  refine ⟨fun node inside => ?_, fun key inside => ?_, comesFrom_of_mem 0 root.span root.value,
    visits_length 0 root.span root.value, increasing, fun node part inside within other => ?_,
    fun node key inside within => ?_, fun node member inside listed => ?_⟩
  · exact visited_once increasing (fun _ => rfl) (inside.visited 0)
  · exact visited_once increasing (fun _ => rfl) (inside.visited 0)
  · obtain ⟨outer, stretch⟩ := inside.visits_within 0
    obtain ⟨inner, member⟩ := within.visited outer
    refine ⟨outer, inner, (sublist_of_visited outer (fun same => other ?_) member).trans
      stretch.sublist⟩
    injection same with _ subject span
    injection subject with value
    exact congrArg₂ Located.mk value span
  · obtain ⟨outer, stretch⟩ := inside.visits_within 0
    obtain ⟨inner, member⟩ := within.visited outer
    exact ⟨outer, inner, (sublist_of_visited outer ofKey_ne_ofValue member).trans stretch.sublist⟩
  · obtain ⟨outer, stretch⟩ := inside.visits_within 0
    have named := (visits_within_member outer listed).trans stretch
    obtain ⟨rest, begins⟩ := visits_cons (fun _ => false) (outer + 1) member.value
    rw [begins] at named
    refine ⟨outer + 1, List.IsInfix.trans ?_ named⟩
    exact (List.prefix_append [_, _] rest).isInfix

private theorem leftOut_ofValue {leaveOut : Form → Bool} :
    (Visit.ofValue depth node).leftOut leaveOut = true ↔
      (node.value.form = .array ∨ node.value.form = .object) ∧
        leaveOut node.value.form = true := by
  obtain ⟨value, span⟩ := node
  cases value <;> simp [Visit.leftOut, Visit.ofValue, form]

/-- A visit is hidden if its span lies inside a container that is left out. -/
theorem hidden_fullWalk {leaveOut : Form → Bool} :
    hidden leaveOut (fullWalk root) visit = true ↔ LeftOutAround leaveOut root visit.span := by
  simp only [hidden, List.any_eq_true, Bool.and_eq_true]
  constructor
  · rintro ⟨outer, member, left, inside⟩
    rcases comesFrom_of_mem 0 root.span root.value outer member with
      ⟨container, within, same⟩ | ⟨key, -, same⟩
    · rw [same] at left inside
      obtain ⟨form, left⟩ := leftOut_ofValue.mp left
      exact ⟨container, within, form, left, inside⟩
    · rw [same] at left
      cases left
  · rintro ⟨container, within, form, left, inside⟩
    obtain ⟨depth, member⟩ := within.visited 0
    exact ⟨_, member, leftOut_ofValue.mpr ⟨form, left⟩, inside⟩

theorem parse_allPlaced {settings : Settings} {trailing : Option Bool}
    (parsed : parse settings trailing buffer = .ok root) : AllPlaced buffer root := by
  obtain ⟨before, text, after, same, -, spelled, -⟩ := parse_stands parsed
  intro node inside
  have placed := inside.placed spelled ⟨before, after, same, rfl⟩
  exact ⟨placed.nonempty, placed.partitioned⟩

/-- The full walk through a document comes by everything once and in order. A walk that leaves the
parts of some containers out consists of the visits of the full walk that are not strictly inside
such a container. -/
theorem walk_document (settings : Settings) (trailing : Option Bool) (buffer : Bytes)
    (root : Located Json) (parsed : parse settings trailing buffer = .ok root) :
    WalksThrough root (fullWalk root) ∧
      ∀ leaveOut : Form → Bool, ∃ kept : Visit → Bool,
        (∀ visit, kept visit = true ↔ ¬ LeftOutAround leaveOut root visit.span) ∧
          walk leaveOut root = (fullWalk root).filter kept := by
  have placed := parse_allPlaced parsed
  refine ⟨placed.walksThrough, fun leaveOut =>
    ⟨fun visit => !hidden leaveOut (fullWalk root) visit, fun visit => ?_,
      visits_prune 0 root.span root.value placed⟩⟩
  rw [← hidden_fullWalk, Bool.not_eq_true', Bool.not_eq_true]

/-- An object that holds an array that holds a number and an object. -/
theorem walk_document_nested :
    ∃ root, parse .standard none (Ascii.bytes ['\x7b', '\x22', 'a', '\x22', ':', '[', '1', ',',
        '\x7b', '\x7d', ']', '\x7d']) = .ok root ∧
      WalksThrough root (fullWalk root) ∧
      ∀ leaveOut : Form → Bool, ∃ kept : Visit → Bool,
        (∀ visit, kept visit = true ↔ ¬ LeftOutAround leaveOut root visit.span) ∧
          walk leaveOut root = (fullWalk root).filter kept :=
  ⟨_, rfl, walk_document .standard none (Ascii.bytes ['\x7b', '\x22', 'a', '\x22', ':', '[', '1',
    ',', '\x7b', '\x7d', ']', '\x7d']) _ rfl⟩

end Documents

end WireSpan.Json
