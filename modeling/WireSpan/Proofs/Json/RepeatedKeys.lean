import Mathlib.Data.List.Induction
import WireSpan.Json.Plain
import WireSpan.Proofs.Json.Spans

/-! Keys that repeat in an object. Each accessor has its own way with them: the plain value keeps
the first place and the last value of a key, a lookup gives the first value, and a list of all
values gives them in the order of the document. For every object of a document they agree. -/

namespace WireSpan

variable {α β : Type} {entries : List (String × α)} {key other : String} {value : α}

namespace Plain

private theorem keys_put : (put entries key value).map Prod.fst =
    if key ∈ entries.map Prod.fst then entries.map Prod.fst
    else entries.map Prod.fst ++ [key] := by
  induction entries with
  | nil => rfl
  | cons entry entries ih =>
    rw [put]
    by_cases same : entry.1 = key
    · rw [if_pos same, if_pos (same ▸ List.mem_cons_self), List.map_cons, List.map_cons, same]
    · have elsewhere : key ∈ (entry :: entries).map Prod.fst ↔ key ∈ entries.map Prod.fst := by
        rw [List.map_cons, List.mem_cons, or_iff_right (Ne.symm same)]
      rw [if_neg same, List.map_cons, ih]
      simp only [elsewhere]
      split <;> rfl

private theorem lookup_cons : ((key, value) :: entries).lookup other =
    if other = key then some value else entries.lookup other := by
  rw [List.lookup_cons]
  by_cases found : other = key
  · rw [if_pos found, beq_iff_eq.mpr found]
  · rw [if_neg found, beq_eq_false_iff_ne.mpr found]

private theorem lookup_put : (put entries key value).lookup other =
    if other = key then some value else entries.lookup other := by
  induction entries with
  | nil => exact lookup_cons
  | cons entry entries ih =>
    obtain ⟨name, held⟩ := entry
    rw [put, lookup_cons]
    by_cases same : name = key
    · rw [if_pos same, lookup_cons, same]
      split <;> rfl
    · rw [if_neg same, lookup_cons, ih]
      by_cases found : other = name
      · rw [if_pos found, if_pos found, if_neg (found ▸ same)]
      · rw [if_neg found, if_neg found]

end Plain

private theorem eraseDups_append_singleton (keys : List String) (key : String) :
    (keys ++ [key]).eraseDups =
      if key ∈ keys.eraseDups then keys.eraseDups else keys.eraseDups ++ [key] := by
  rw [List.eraseDups_append, List.removeAll]
  by_cases known : key ∈ keys
  · simp [known]
  · simp [known, List.eraseDups_cons]

private theorem nodup_eraseDups (keys : List String) : keys.eraseDups.Nodup := by
  induction keys using List.reverseRecOn with
  | nil => exact List.nodup_nil
  | append_singleton keys key ih =>
    rw [eraseDups_append_singleton]
    split
    · exact ih
    · next new =>
      refine List.nodup_append.mpr ⟨ih, List.pairwise_singleton _ _, ?_⟩
      intro known listed last here
      rintro rfl
      exact new (List.mem_singleton.mp here ▸ listed)

/-- Grouped by distinct keys, the entries are those that have one of the keys. -/
theorem flatMap_filter_perm (keyOf : β → String) (list : List β) {keys : List String}
    (distinct : keys.Nodup) :
    (keys.flatMap fun key => list.filter (keyOf · == key)).Perm
      (list.filter fun entry => decide (keyOf entry ∈ keys)) := by
  induction keys with
  | nil => simp
  | cons key keys ih =>
    obtain ⟨fresh, distinct⟩ := List.nodup_cons.mp distinct
    let listed := list.filter fun entry => decide (keyOf entry ∈ key :: keys)
    have first : listed.filter (keyOf · == key) = list.filter (keyOf · == key) := by
      rw [List.filter_filter]
      refine List.filter_congr fun entry _ => ?_
      by_cases here : keyOf entry = key <;> simp [here]
    have others : listed.filter (fun entry => !(keyOf entry == key)) =
        list.filter fun entry => decide (keyOf entry ∈ keys) := by
      rw [List.filter_filter]
      refine List.filter_congr fun entry _ => ?_
      by_cases here : keyOf entry = key <;> simp [here, fresh]
    have parts := List.filter_append_perm (keyOf · == key) listed
    rw [first, others] at parts
    exact ((ih distinct).append_left _).trans parts

namespace Json

/-- How the accessors of an object treat keys, repeated or not. -/
structure KeyAccess (buffer : Bytes) (object : Json) : Prop where
  /-- Keys that are spelled differently are the same if they denote the same text. -/
  spelled : ∀ member ∈ object.members, ∀ key, member.key.value = key ↔
    ∃ bytes, member.key.span.extract? buffer = .ok bytes ∧ StringText bytes key
  plain : ∃ entries, object.plain = .record entries ∧
    entries.map Prod.fst = object.keys.eraseDups ∧
      ∀ key, entries.lookup key = (object.getAll key).getLast?.map (·.value.plain)
  first : ∀ key, object.get? key = (object.getAll key).head?
  missing : ∀ key, object.get? key = none ↔ object.getAll key = []
  ordered : ∀ key, (object.getAll key).Pairwise fun earlier later =>
    earlier.span.start < later.span.start ∧ earlier.span.stop ≤ later.span.start
  complete : (object.keys.eraseDups.flatMap object.getAll).Perm (object.members.map (·.value))

variable {members : List (Member Json)} {member : Member Json} {buffer text : Bytes}
  {value : String}

private theorem plainMembers_append_singleton {entries : List (String × Plain)} :
    plainMembers entries (members ++ [member]) =
      Plain.put (plainMembers entries members) member.key.value member.value.value.plain := by
  induction members generalizing entries with
  | nil => rfl
  | cons head members ih => exact ih

private theorem keys_plainMembers :
    (plainMembers [] members).map Prod.fst = (object members).keys.eraseDups := by
  induction members using List.reverseRecOn with
  | nil => rfl
  | append_singleton members member ih =>
    have keys : (object (members ++ [member])).keys =
        (object members).keys ++ [member.key.value] := List.map_append
    rw [plainMembers_append_singleton, Plain.keys_put, ih, keys, eraseDups_append_singleton]

private theorem lookup_plainMembers : (plainMembers [] members).lookup key =
    ((object members).getAll key).getLast?.map (·.value.plain) := by
  induction members using List.reverseRecOn with
  | nil => rfl
  | append_singleton members member ih =>
    have found : (object (members ++ [member])).getAll key = (object members).getAll key ++
        (object [member]).getAll key := by
      simp only [getAll, Json.members, List.filter_append, List.map_append]
    rw [plainMembers_append_singleton, Plain.lookup_put, ih, found, List.getLast?_append]
    by_cases last : key = member.key.value
    · simp [getAll, Json.members, last]
    · simp [getAll, Json.members, last, Ne.symm last]

/-- The spans of the values are among those of all parts. -/
theorem valueSpans_sublist {holds : Bytes → Prop} :
    (members.map (·.value.span)).Sublist
      ((entryParts memberParts holds members).map Prod.snd) := by
  induction members generalizing holds with
  | nil => exact List.Sublist.refl _
  | cons member members ih => exact (ih.cons_cons member.value.span).cons member.key.span

private theorem getAll_ordered {span : Span}
    (partitioned : ContainerPartitioned buffer ⟨object members, span⟩) (key : String) :
    ((object members).getAll key).Pairwise fun earlier later =>
      earlier.span.start < later.span.start ∧ earlier.span.stop ≤ later.span.start := by
  have parts : Partitioned buffer span _ _ (entryParts memberParts BlankText members) := partitioned
  have spans : ((entryParts memberParts BlankText members).map Prod.snd).Pairwise
      fun earlier later => earlier.start < later.start ∧ earlier.stop ≤ later.start :=
    List.pairwise_map.mpr (parts.ordered.imp fun apart => ⟨apart.1, apart.2.1⟩)
  have values := List.pairwise_map.mp (spans.sublist valueSpans_sublist)
  exact List.pairwise_map.mpr (values.sublist List.filter_sublist)

/-- Together the values of all distinct keys are the values of all members. -/
theorem flatMap_getAll_perm : ((object members).keys.eraseDups.flatMap (object members).getAll).Perm
    (members.map (·.value)) := by
  have grouped := flatMap_filter_perm (·.key.value) members
    (nodup_eraseDups (object members).keys)
  have all : members.filter (fun member => decide (member.key.value ∈
      (object members).keys.eraseDups)) = members := by
    refine List.filter_eq_self.mpr fun member listed => ?_
    rw [decide_eq_true_iff, List.mem_eraseDups]
    exact List.mem_map.mpr ⟨member, listed, rfl⟩
  rw [all] at grouped
  have values := grouped.map (·.value)
  rwa [List.map_flatMap] at values

private theorem keyAccess_of_placed {span : Span}
    (partitioned : ContainerPartitioned buffer ⟨object members, span⟩)
    (quoted : ∀ member ∈ members, ∃ bytes, member.key.span.extract? buffer = .ok bytes ∧
      StringText bytes member.key.value) : KeyAccess buffer (object members) where
  spelled := by
    intro member listed key
    obtain ⟨bytes, extracted, denoted⟩ := quoted member listed
    constructor
    · rintro rfl
      exact ⟨bytes, extracted, denoted⟩
    · rintro ⟨others, again, spelled⟩
      obtain rfl : bytes = others := Except.ok.inj (extracted.symm.trans again)
      exact denoted.unique spelled
  plain := ⟨_, rfl, keys_plainMembers, fun _ => lookup_plainMembers⟩
  first := by
    intro key
    rw [get?, getAll, List.head?_map, List.head?_filter]
  missing := by
    intro key
    rw [get?, getAll, ← List.head?_filter, ← List.head?_map, List.head?_eq_none_iff]
  ordered := getAll_ordered partitioned
  complete := flatMap_getAll_perm

/-- In every object of a document that is read, whatever its depth, the accessors agree on the keys
that repeat. -/
theorem parse_keyAccess (settings : Settings) (trailing : Option Bool) (buffer : Bytes)
    (root : Located Json) (parsed : parse settings trailing buffer = .ok root) :
    ∀ node, Inside root node → node.value.form = .object → KeyAccess buffer node.value := by
  obtain ⟨values, keys⟩ := document_spans settings trailing buffer root parsed
  intro node inside isObject
  obtain ⟨value, span⟩ := node
  cases value with
  | object members =>
    exact keyAccess_of_placed (values _ inside).partitioned fun member listed =>
      (keys _ (.key inside listed)).quoted
  | _ => cases isObject

/-- A key repeats in an object inside a list, in another spelling. -/
theorem parse_keyAccess_escaped :
    ∃ root item, parse .standard none (Ascii.bytes ['[', '\x7b', '\x22', 'a', '\x22', ':', '1', ',',
        '\x22', '\\', 'u', '0', '0', '6', '1', '\x22', ':', '[', ']', '\x7d', ']']) = .ok root ∧
      root.value.items = [item] ∧ item.value.form = .object ∧ item.value.keys = ["a", "a"] ∧
        KeyAccess (Ascii.bytes ['[', '\x7b', '\x22', 'a', '\x22', ':', '1', ',', '\x22', '\\', 'u',
          '0', '0', '6', '1', '\x22', ':', '[', ']', '\x7d', ']']) item.value := by
  have shown : (parse .standard none (Ascii.bytes ['[', '\x7b', '\x22', 'a', '\x22', ':', '1', ',',
      '\x22', '\\', 'u', '0', '0', '6', '1', '\x22', ':', '[', ']', '\x7d', ']'])).toOption.map
        (fun root => root.value.items.map fun item => (item.value.form, item.value.keys)) =
      some [(.object, ["a", "a"])] := by
    decide +kernel
  cases parsed : parse .standard none (Ascii.bytes ['[', '\x7b', '\x22', 'a', '\x22', ':', '1', ',',
      '\x22', '\\', 'u', '0', '0', '6', '1', '\x22', ':', '[', ']', '\x7d', ']']) with
  | error failure => rw [parsed] at shown; cases shown
  | ok root =>
    rw [parsed] at shown
    obtain ⟨item, only, same⟩ := List.map_eq_singleton_iff.mp (Option.some.inj shown)
    obtain ⟨isObject, keys⟩ := Prod.mk.inj same
    have inside : Inside root item := .item .root (only ▸ List.mem_singleton_self item)
    exact ⟨root, item, rfl, only, isObject, keys,
      parse_keyAccess .standard none _ root parsed item inside isObject⟩

end Json

end WireSpan
