import WireSpan.Json.Walk
import WireSpan.Proofs.Json.Spans

/-! The order of a walk. Through a tree whose spans are in place, the full walk goes from left to
right, and a walk that leaves the parts of some containers out is the full walk without the visits
to what lies inside these containers. -/

namespace WireSpan.Json

/-- Everything in a tree stands where its span says. -/
def AllPlaced (buffer : Bytes) (root : Located Json) : Prop :=
  ∀ node, Inside root node → node.span.isEmpty = false ∧ ContainerPartitioned buffer node

def Visit.isContainer (visit : Visit) : Bool :=
  match visit.subject with
  | .value (array _) | .value (object _) => true
  | _ => false

/-- One visit begins before another, and ends before it too unless it is to a container. -/
def Visit.Precedes (first second : Visit) : Prop :=
  first.span.start < second.span.start ∧
    (first.isContainer = false → first.span.stop ≤ second.span.start)

/-- A walk comes by things from `low` up to `high`, one before the other. -/
structure Ordered (low : Nat) (visits : List Visit) (high : Nat) : Prop where
  room : low ≤ high
  within : ∀ visit ∈ visits,
    low ≤ visit.span.start ∧ visit.span.start < visit.span.stop ∧ visit.span.stop ≤ high
  preceding : visits.Pairwise Visit.Precedes

/-- The span of a part begins behind the beginning of the other and ends before its end. -/
def strictlyInside (part whole : Span) : Bool :=
  decide (whole.start < part.start) && decide (part.stop < whole.stop)

/-- A container of a form that is left out. -/
def Visit.leftOut (leaveOut : Form → Bool) (visit : Visit) : Bool :=
  match visit.subject with
  | .value (array _) => leaveOut .array
  | .value (object _) => leaveOut .object
  | _ => false

/-- One of the visits is to a container that is left out and has the other visit inside. -/
def hidden (leaveOut : Form → Bool) (walked : List Visit) (visit : Visit) : Bool :=
  walked.any fun outer => outer.leftOut leaveOut && strictlyInside visit.span outer.span

/-- A walk without the visits to what is inside containers of a form that is left out. -/
def prune (leaveOut : Form → Bool) (walked : List Visit) : List Visit :=
  walked.filter fun visit => !hidden leaveOut walked visit

variable {buffer : Bytes} {root node : Located Json}
  {low mid high depth : Nat} {walked others : List Visit} {visit : Visit}

section Order

theorem Ordered.nil (room : low ≤ high) : Ordered low [] high := ⟨room, nofun, .nil⟩

theorem Ordered.mono {start stop : Nat} (ordered : Ordered start walked stop)
    (before : low ≤ start) (behind : stop ≤ high) : Ordered low walked high := by
  have room := ordered.room
  refine ⟨by omega, fun visit member => ?_, ordered.preceding⟩
  have place := ordered.within visit member
  omega

theorem Ordered.append (first : Ordered low walked mid) (second : Ordered mid others high) :
    Ordered low (walked ++ others) high := by
  refine ⟨Nat.le_trans first.room second.room, fun visit member => ?_, List.pairwise_append.mpr
    ⟨first.preceding, second.preceding, fun one early two late => ?_⟩⟩
  · rcases List.mem_append.mp member with early | late
    · exact (first.mono (Nat.le_refl _) second.room).within visit early
    · exact (second.mono first.room (Nat.le_refl _)).within visit late
  · have before := first.within one early
    have behind := second.within two late
    exact ⟨by omega, fun _ => by omega⟩

theorem Ordered.cons {subject : Subject} {span : Span} (begins : span.start < mid)
    (apart : (⟨depth, subject, span⟩ : Visit).isContainer = false → span.stop ≤ mid)
    (nonempty : span.start < span.stop) (ends : span.stop ≤ high)
    (rest : Ordered mid walked high) :
    Ordered span.start (⟨depth, subject, span⟩ :: walked) high := by
  refine ⟨by omega, List.forall_mem_cons.mpr ⟨⟨Nat.le_refl _, nonempty, ends⟩, ?_⟩,
    List.pairwise_cons.mpr ⟨fun later member => ?_, rest.preceding⟩⟩
  · exact (rest.mono (Nat.le_of_lt begins) (Nat.le_refl _)).within
  · have place := (rest.within later member).1
    exact ⟨Nat.lt_of_lt_of_le begins place, fun scalar => Nat.le_trans (apart scalar) place⟩

/-- A container is visited before what lies between its brackets. -/
theorem Ordered.around {subject : Subject} {span : Span}
    (container : (⟨depth, subject, span⟩ : Visit).isContainer = true)
    (nonempty : span.start < span.stop)
    (rest : Ordered (span.start + 1) walked (span.stop - 1)) :
    Ordered span.start (⟨depth, subject, span⟩ :: walked) span.stop :=
  .cons (Nat.lt_succ_self _) (fun scalar => absurd (container.symm.trans scalar) nofun) nonempty
    (Nat.le_refl _) (rest.mono (Nat.le_refl _) (Nat.sub_le _ _))

/-- A key, or a value that is no container, ends before what is visited next. -/
theorem Ordered.before {subject : Subject} {span : Span} (nonempty : span.start < span.stop)
    (rest : Ordered span.stop walked high) :
    Ordered span.start (⟨depth, subject, span⟩ :: walked) high :=
  Ordered.cons nonempty (fun _ => Nat.le_refl _) nonempty rest.room rest

theorem AllPlaced.of_inside (placed : AllPlaced buffer root) (inside : Inside root node) :
    AllPlaced buffer node := fun part within => placed part (inside.trans within)

theorem AllPlaced.nonempty (placed : AllPlaced buffer root) :
    root.span.start < root.span.stop := by
  have some := (placed root .root).1
  simp only [Span.isEmpty, beq_eq_false_iff_ne] at some
  have ordered := root.span.ordered
  omega

/-- The parts of a container lie between its brackets. -/
theorem Partitioned.between {span : Span} {opening closing : UInt8} {parts : List Part}
    (partitioned : Partitioned buffer span opening closing parts) :
    ∃ last, Parted buffer (span.start + 1) parts last ∧ last ≤ span.stop - 1 := by
  obtain ⟨last, blank, parted, -, -, ends⟩ := partitioned.parted
  exact ⟨last, parted, by omega⟩

theorem AllPlaced.items {items : List (Located Json)} {span : Span}
    (placed : AllPlaced buffer ⟨array items, span⟩) :
    (∃ last, Parted buffer (span.start + 1) (entryParts itemParts BlankText items) last ∧
      last ≤ span.stop - 1) ∧ ∀ item ∈ items, AllPlaced buffer item :=
  ⟨(placed _ .root).2.between, fun _ listed => placed.of_inside (Inside.root.item listed)⟩

theorem AllPlaced.members {members : List (Member Json)} {span : Span}
    (placed : AllPlaced buffer ⟨object members, span⟩) :
    (∃ last, Parted buffer (span.start + 1) (entryParts memberParts BlankText members) last ∧
      last ≤ span.stop - 1) ∧ ∀ member ∈ members, AllPlaced buffer member.value :=
  ⟨(placed _ .root).2.between, fun _ listed => placed.of_inside (Inside.root.value listed)⟩

mutual

theorem visits_ordered (depth : Nat) (span : Span) : (value : Json) →
    AllPlaced buffer ⟨value, span⟩ →
      Ordered span.start (visits (fun _ => false) depth span value) span.stop
  | .array items, placed => by
    obtain ⟨⟨last, parted, ends⟩, each⟩ := placed.items
    have inside := itemVisits_ordered (depth + 1) items parted each
    exact .around rfl placed.nonempty (inside.mono (Nat.le_refl _) ends)
  | .object members, placed => by
    obtain ⟨⟨last, parted, ends⟩, each⟩ := placed.members
    have inside := memberVisits_ordered (depth + 1) members parted each
    exact .around rfl placed.nonempty (inside.mono (Nat.le_refl _) ends)
  | .null, placed | .bool _, placed | .number .., placed | .string _, placed =>
    .before placed.nonempty (.nil (Nat.le_refl _))

private theorem itemVisits_ordered {holds : Bytes → Prop} {start stop : Nat} (depth : Nat) :
    (items : List (Located Json)) → Parted buffer start (entryParts itemParts holds items) stop →
      (∀ item ∈ items, AllPlaced buffer item) →
        Ordered start (itemVisits (fun _ => false) depth items) stop
  | [], parted, _ => .nil (Nat.le_of_eq parted)
  | ⟨value, span⟩ :: items, ⟨⟨gap, _, place, _⟩, _, later⟩, placed => by
    obtain ⟨first, others⟩ := List.forall_mem_cons.mp placed
    have here : start ≤ span.start := by simp only at place; omega
    have ordered := (visits_ordered depth span value first).mono here (Nat.le_refl _)
    exact ordered.append (itemVisits_ordered depth items later others)

private theorem memberVisits_ordered {holds : Bytes → Prop} {start stop : Nat} (depth : Nat) :
    (members : List (Member Json)) →
      Parted buffer start (entryParts memberParts holds members) stop →
        (∀ member ∈ members, AllPlaced buffer member.value) →
          Ordered start (memberVisits (fun _ => false) depth members) stop
  | [], parted, _ => .nil (Nat.le_of_eq parted)
  | ⟨key, ⟨value, span⟩⟩ :: members,
      ⟨⟨gap, _, place, _⟩, named, ⟨colon, _, follows, _⟩, _, later⟩, placed => by
    obtain ⟨first, others⟩ := List.forall_mem_cons.mp placed
    have valued := (visits_ordered depth span value first).append
      (memberVisits_ordered depth members later others)
    simp only at place named follows
    have rest : Ordered key.span.stop _ stop := valued.mono (by omega) (Nat.le_refl _)
    have here : start ≤ key.span.start := by omega
    exact (Ordered.before named rest).mono here (Nat.le_refl _)

end

end Order

section Pruning

variable {leaveOut : Form → Bool}

private theorem hidden_of_outside
    (outside : ∀ outer ∈ walked, strictlyInside visit.span outer.span = false) :
    hidden leaveOut walked visit = false := by
  refine List.any_eq_false.mpr fun outer member => ?_
  rw [outside outer member, Bool.and_false]
  exact Bool.false_ne_true

/-- Of two stretches one behind the other, neither has anything of the other inside. -/
theorem prune_append (first : Ordered low walked mid) (second : Ordered mid others high) :
    prune leaveOut (walked ++ others) = prune leaveOut walked ++ prune leaveOut others := by
  rw [prune, List.filter_append]
  congr 1
  · refine List.filter_congr fun visit member => ?_
    have apart : hidden leaveOut others visit = false := by
      refine hidden_of_outside fun outer behind => ?_
      have before := first.within visit member
      have after := second.within outer behind
      simp only [strictlyInside, Bool.and_eq_false_iff, decide_eq_false_iff_not]
      omega
    rw [hidden, List.any_append, ← hidden, ← hidden, apart, Bool.or_false]
  · refine List.filter_congr fun visit member => ?_
    have apart : hidden leaveOut walked visit = false := by
      refine hidden_of_outside fun outer ahead => ?_
      have before := first.within outer ahead
      have after := second.within visit member
      simp only [strictlyInside, Bool.and_eq_false_iff, decide_eq_false_iff_not]
      omega
    rw [hidden, List.any_append, ← hidden, ← hidden, apart, Bool.false_or]

/-- Nothing that comes later has the first visit inside. -/
theorem hidden_head (rest : Ordered (visit.span.start + 1) walked high) :
    hidden leaveOut (visit :: walked) visit = false := by
  refine hidden_of_outside (List.forall_mem_cons.mpr ⟨?_, fun outer member => ?_⟩)
  · simp only [strictlyInside, Nat.lt_irrefl, decide_false, Bool.false_and]
  · have later := rest.within outer member
    simp only [strictlyInside, Bool.and_eq_false_iff, decide_eq_false_iff_not]
    omega

private theorem prune_cons (rest : Ordered (visit.span.start + 1) walked high)
    (kept : visit.leftOut leaveOut = false) :
    prune leaveOut (visit :: walked) = visit :: prune leaveOut walked := by
  rw [prune, List.filter_cons_of_pos (by rw [hidden_head rest, Bool.not_false])]
  congr 1
  refine List.filter_congr fun later member => ?_
  rw [hidden, List.any_cons, kept, Bool.false_and, Bool.false_or, ← hidden]

private theorem prune_container (rest : Ordered (visit.span.start + 1) walked (visit.span.stop - 1))
    (container : visit.leftOut leaveOut = true) : prune leaveOut (visit :: walked) = [visit] := by
  rw [prune, List.filter_cons_of_pos (by rw [hidden_head rest, Bool.not_false])]
  congr 1
  refine List.filter_eq_nil_iff.mpr fun part member => ?_
  have place := rest.within part member
  have inside : strictlyInside part.span visit.span = true := by
    simp only [strictlyInside, Bool.and_eq_true, decide_eq_true_eq]
    omega
  rw [hidden, List.any_cons, container, inside]
  exact Bool.false_ne_true

mutual

theorem visits_prune (depth : Nat) (span : Span) : (value : Json) →
    AllPlaced buffer ⟨value, span⟩ → visits leaveOut depth span value =
      prune leaveOut (visits (fun _ => false) depth span value)
  | .array items, placed => by
    obtain ⟨⟨last, parted, ends⟩, each⟩ := placed.items
    have inside := (itemVisits_ordered (depth + 1) items parted each).mono (Nat.le_refl _) ends
    let head : Visit := ⟨depth, .value (.array items), span⟩
    have form : head.leftOut leaveOut = leaveOut .array := rfl
    simp only [visits, Bool.false_eq_true, if_false]
    cases left : leaveOut .array with
    | true => exact (prune_container inside (form.trans left)).symm
    | false => rw [prune_cons inside (form.trans left), if_neg Bool.false_ne_true,
        itemVisits_prune (depth + 1) items parted each]
  | .object members, placed => by
    obtain ⟨⟨last, parted, ends⟩, each⟩ := placed.members
    have inside := (memberVisits_ordered (depth + 1) members parted each).mono (Nat.le_refl _) ends
    let head : Visit := ⟨depth, .value (.object members), span⟩
    have form : head.leftOut leaveOut = leaveOut .object := rfl
    simp only [visits, Bool.false_eq_true, if_false]
    cases left : leaveOut .object with
    | true => exact (prune_container inside (form.trans left)).symm
    | false => rw [prune_cons inside (form.trans left), if_neg Bool.false_ne_true,
        memberVisits_prune (depth + 1) members parted each]
  | .null, placed | .bool _, placed | .number .., placed | .string _, placed =>
    (prune_cons (.nil placed.nonempty) rfl).symm

theorem itemVisits_prune {holds : Bytes → Prop} {start stop : Nat} (depth : Nat) :
    (items : List (Located Json)) → Parted buffer start (entryParts itemParts holds items) stop →
      (∀ item ∈ items, AllPlaced buffer item) →
        itemVisits leaveOut depth items =
          prune leaveOut (itemVisits (fun _ => false) depth items)
  | [], _, _ => rfl
  | ⟨value, span⟩ :: items, ⟨_, _, later⟩, placed => by
    obtain ⟨first, others⟩ := List.forall_mem_cons.mp placed
    have behind := itemVisits_ordered depth items later others
    rw [itemVisits, itemVisits, prune_append (visits_ordered depth span value first) behind,
      visits_prune depth span value first, itemVisits_prune depth items later others]

theorem memberVisits_prune {holds : Bytes → Prop} {start stop : Nat} (depth : Nat) :
    (members : List (Member Json)) →
      Parted buffer start (entryParts memberParts holds members) stop →
        (∀ member ∈ members, AllPlaced buffer member.value) →
          memberVisits leaveOut depth members =
            prune leaveOut (memberVisits (fun _ => false) depth members)
  | [], _, _ => rfl
  | ⟨key, ⟨value, span⟩⟩ :: members, ⟨_, named, ⟨colon, _, follows, _⟩, _, later⟩, placed => by
    obtain ⟨first, others⟩ := List.forall_mem_cons.mp placed
    have valued := visits_ordered depth span value first
    have behind := memberVisits_ordered depth members later others
    simp only at named follows
    have rest : Ordered (key.span.start + 1) _ stop :=
      (valued.append behind).mono (by omega) (Nat.le_refl _)
    rw [memberVisits, memberVisits, prune_cons rest rfl, prune_append valued behind,
      visits_prune depth span value first, memberVisits_prune depth members later others]

end

end Pruning

end WireSpan.Json
