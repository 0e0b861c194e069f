import Tabletop.Proofs.RotationRuns

/-!
# Marked out

Marking a name out concerns the first participant in the order who goes by it.
As long as nobody joins and nobody of that name is brought back, everybody of
the name then stands as they stood: the first is out, and no later move of
another name touches the rest. So the turn passes over the first one, and a
namesake can have it only who was active before.
-/

namespace Tabletop

open Tabletop.Text

/-- Nobody joins by the move, and nobody who goes by the name is brought
back. -/
def Move.KeepsOut (name : String) : Move → Prop
  | .add _ _ => False
  | .markIn other => sameName other name = false
  | .next | .previous | .markOut _ => True

namespace Rotation

/-- A participant is the first in the order who goes by a name. -/
def FirstNamed (name : String) (participants : List Participant) (place : Nat)
    (participant : Participant) : Prop :=
  participants[place]? = some participant ∧
    participant.answersTo name = true ∧
      ∀ earlier < place, ∀ other : Participant,
        participants[earlier]? = some other → other.answersTo name = false

theorem exists_firstNamed_of_markFirst {active : Bool} {name : String}
    {participants marked : List Participant}
    (found : markFirst active name participants = some marked) :
    ∃ place participant,
      FirstNamed name participants place participant ∧
        marked =
          participants.set place { participant with active := active } := by
  induction participants generalizing marked with
  | nil =>
      cases found
  | cons head rest inductionHypothesis =>
      rw [markFirst] at found
      split at found
      · next named =>
          cases found
          exact ⟨0, head, ⟨rfl, named, fun _ below => absurd below (by omega)⟩,
            rfl⟩
      · next notNamed =>
          obtain ⟨markedRest, foundRest, rfl⟩ := Option.map_eq_some_iff.mp found
          obtain ⟨place, participant, ⟨holds, named, before⟩, rfl⟩ :=
            inductionHypothesis foundRest
          refine ⟨place + 1, participant, ⟨holds, named, ?_⟩, rfl⟩
          intro earlier below other otherHolds
          cases earlier with
          | zero =>
              cases otherHolds
              exact Bool.eq_false_iff.mpr notNamed
          | succ earlier =>
              exact before earlier (by omega) other otherHolds

theorem exists_firstNamed_of_setActive {rotation changed : Rotation}
    {name : String} {active : Bool}
    (marked : rotation.setActive name active = .ok changed) :
    ∃ place participant,
      FirstNamed name rotation.participants place participant ∧
        changed.participants =
          rotation.participants.set place
            { participant with active := active } := by
  obtain ⟨participants, found, rfl⟩ := exists_of_setActive_eq_ok marked
  exact exists_firstNamed_of_markFirst found

theorem answersTo_eq_of_sameName {name other : String}
    (same : sameName other name = true) (participant : Participant) :
    participant.answersTo other = participant.answersTo name := by
  rw [Participant.answersTo, Participant.answersTo, sameName, sameName,
    beq_iff_eq.mp same]

theorem not_answersTo_of_not_sameName {name other : String}
    (different : sameName other name = false) {participant : Participant}
    (named : participant.answersTo other = true) :
    participant.answersTo name = false := by
  rw [Participant.answersTo, sameName] at *
  rw [beq_iff_eq.mp named]
  exact different

theorem answersTo_setActive (participant : Participant) (active : Bool)
    (name : String) :
    ({ participant with active := active } : Participant).answersTo name =
      participant.answersTo name :=
  rfl

/-- Those who go by a name stand in both lists at the same places, and are
active in both or in neither. -/
def SameNamed (name : String) (participants others : List Participant) : Prop :=
  ∀ (place : Nat) (participant : Participant),
    participant.answersTo name = true →
      (participants[place]? = some participant ↔
        others[place]? = some participant)

theorem SameNamed.refl (name : String) (participants : List Participant) :
    SameNamed name participants participants :=
  fun _ _ _ => Iff.rfl

theorem SameNamed.trans {name : String} {first second third : List Participant}
    (firstSame : SameNamed name first second)
    (secondSame : SameNamed name second third) :
    SameNamed name first third :=
  fun place participant named =>
    (firstSame place participant named).trans
      (secondSame place participant named)

theorem SameNamed.symm {name : String} {participants others : List Participant}
    (same : SameNamed name participants others) :
    SameNamed name others participants :=
  fun place participant named => (same place participant named).symm

/-- The first of a name stays the first. -/
theorem SameNamed.firstNamed {name : String}
    {participants others : List Participant} {place : Nat}
    {participant : Participant} (same : SameNamed name participants others)
    (first : FirstNamed name participants place participant) :
    FirstNamed name others place participant := by
  obtain ⟨holds, named, before⟩ := first
  refine ⟨(same place participant named).mp holds, named, ?_⟩
  intro earlier below other otherHolds
  refine Bool.eq_false_iff.mpr fun otherNamed => ?_
  have absent :=
    before earlier below other ((same earlier other otherNamed).mpr otherHolds)
  rw [otherNamed] at absent
  cases absent

theorem FirstNamed.unique {name : String} {participants : List Participant}
    {place otherPlace : Nat} {participant other : Participant}
    (first : FirstNamed name participants place participant)
    (otherFirst : FirstNamed name participants otherPlace other) :
    place = otherPlace ∧ participant = other := by
  have notBefore {place otherPlace : Nat} {participant other : Participant}
      (first : FirstNamed name participants place participant)
      (otherFirst : FirstNamed name participants otherPlace other) :
      ¬ place < otherPlace := by
    intro below
    have absent := otherFirst.2.2 place below participant first.1
    rw [first.2.1] at absent
    cases absent
  have samePlace : place = otherPlace :=
    Nat.le_antisymm (Nat.le_of_not_lt (notBefore otherFirst first))
      (Nat.le_of_not_lt (notBefore first otherFirst))
  subst samePlace
  exact ⟨rfl, Option.some.inj (first.1.symm.trans otherFirst.1)⟩

/-- Setting somebody of another name at their place concerns nobody of the
name. -/
theorem sameNamed_set {name : String} {participants : List Participant}
    {place : Nat} {participant : Participant}
    (holds : participants[place]? = some participant)
    (notNamed : participant.answersTo name = false) (active : Bool) :
    SameNamed name
      (participants.set place { participant with active := active })
      participants := by
  intro index other named
  rw [List.getElem?_set]
  split
  · next atPlace =>
      subst atPlace
      have notOther {someone : Participant}
          (unnamed : someone.answersTo name = false) : someone ≠ other := by
        rintro rfl
        rw [unnamed] at named
        cases named
      rw [holds]
      split
      · simp [notOther notNamed,
          notOther ((answersTo_setActive participant active name).trans notNamed)]
      · simp [notOther notNamed]
  · exact Iff.rfl

theorem FirstNamed.set {name : String} {participants : List Participant}
    {place : Nat} {participant : Participant}
    (first : FirstNamed name participants place participant) (active : Bool) :
    FirstNamed name
      (participants.set place { participant with active := active }) place
      { participant with active := active } := by
  obtain ⟨holds, named, before⟩ := first
  have inside := (List.getElem?_eq_some_iff.mp holds).1
  refine ⟨List.getElem?_set_self inside, named, ?_⟩
  intro earlier below other otherHolds
  rw [List.getElem?_set_ne (by omega)] at otherHolds
  exact before earlier below other otherHolds

theorem InOrder.participants_after_next {entries : List (String × Int32)}
    {rotation : Rotation} (inOrder : InOrder entries rotation) :
    (rotation.after .next).participants = rotation.participants := by
  by_cases empty : rotation.participants = []
  · rw [after_next_eq (next_of_empty empty)]
  · have inside := inOrder.inside_of_ne_nil empty
    obtain ⟨participant, stopped, passed, passes⟩ := exists_next_eq inside
    rw [after_next_eq passed,
      (loop_turnedOn inside).participants_of_passesTo passes]

theorem InOrder.participants_after_previous {entries : List (String × Int32)}
    {rotation : Rotation} (inOrder : InOrder entries rotation) :
    (rotation.after .previous).participants = rotation.participants := by
  by_cases empty : rotation.participants = []
  · rw [after_previous_eq (previous_of_empty empty)]
  · have inside := inOrder.inside_of_ne_nil empty
    obtain ⟨participant, stopped, passed, passes⟩ := exists_previous_eq inside
    rw [after_previous_eq passed,
      (loop_turnedBack inside).participants_of_passesTo passes]

/-- Marking another name concerns nobody of the name. -/
theorem sameNamed_keep_setActive {name other : String} (rotation : Rotation)
    (active : Bool) (different : sameName other name = false) :
    SameNamed name
      (keep rotation (rotation.setActive other active)).participants
      rotation.participants := by
  cases marked : rotation.setActive other active with
  | error error =>
      exact SameNamed.refl _ _
  | ok changed =>
      obtain ⟨place, participant, ⟨holds, named, _⟩, set⟩ :=
        exists_firstNamed_of_setActive marked
      show SameNamed name changed.participants rotation.participants
      rw [set]
      exact sameNamed_set holds
        (not_answersTo_of_not_sameName different named) active

/-- Marking out a name whose first one is out already changes nobody. -/
theorem participants_keep_markOut_of_out {name other : String}
    {rotation : Rotation} (same : sameName other name = true) {place : Nat}
    {participant : Participant}
    (first : FirstNamed name rotation.participants place participant)
    (out : participant.active = false) :
    (keep rotation (rotation.setActive other false)).participants =
      rotation.participants := by
  cases marked : rotation.setActive other false with
  | error error =>
      rfl
  | ok changed =>
      obtain ⟨otherPlace, someone, ⟨holds, named, before⟩, set⟩ :=
        exists_firstNamed_of_setActive marked
      have otherFirst :
          FirstNamed name rotation.participants otherPlace someone := by
        refine ⟨holds, answersTo_eq_of_sameName same someone ▸ named, ?_⟩
        intro earlier below standing standingHolds
        rw [← answersTo_eq_of_sameName same standing]
        exact before earlier below standing standingHolds
      obtain ⟨rfl, rfl⟩ := first.unique otherFirst
      obtain ⟨inside, atPlace⟩ := List.getElem?_eq_some_iff.mp holds
      have unchanged :
          ({ participant with active := false } : Participant) =
            rotation.participants[place] := by
        rw [atPlace, ← out]
      show changed.participants = rotation.participants
      rw [set, unchanged, List.set_getElem_self]

/-- Whoever goes by a name whose first one is out stands, over moves that keep
the name out, as they stood. -/
theorem InOrder.sameNamed_after {name : String}
    {entries : List (String × Int32)} {rotation : Rotation}
    (inOrder : InOrder entries rotation) {place : Nat}
    {participant : Participant}
    (first : FirstNamed name rotation.participants place participant)
    (out : participant.active = false) {move : Move}
    (keepsOut : move.KeepsOut name) :
    SameNamed name (rotation.after move).participants
      rotation.participants := by
  cases move with
  | add other initiative =>
      cases keepsOut
  | next =>
      rw [inOrder.participants_after_next]
      exact SameNamed.refl _ _
  | previous =>
      rw [inOrder.participants_after_previous]
      exact SameNamed.refl _ _
  | markOut other =>
      cases same : sameName other name with
      | true =>
          have unchanged := participants_keep_markOut_of_out same first out
          show SameNamed name
            (keep rotation (rotation.setActive other false)).participants _
          rw [unchanged]
          exact SameNamed.refl _ _
      | false =>
          exact sameNamed_keep_setActive rotation false same
  | markIn other =>
      exact sameNamed_keep_setActive rotation true keepsOut

/-- The same over a run of such moves. -/
theorem sameNamed_run {name : String} {earlier later : List Move}
    {place : Nat} {participant : Participant}
    (first :
      FirstNamed name (run earlier).participants place participant)
    (out : participant.active = false)
    (keepsOut : ∀ move ∈ later, move.KeepsOut name) :
    SameNamed name (run (earlier ++ later)).participants
      (run earlier).participants := by
  induction later using List.reverseRecOn with
  | nil =>
      rw [List.append_nil]
      exact SameNamed.refl _ _
  | append_singleton later move inductionHypothesis =>
      have before :=
        inductionHypothesis fun other member =>
          keepsOut other (List.mem_append_left _ member)
      have stillFirst := SameNamed.firstNamed before.symm first
      have once :=
        (inOrder_run (earlier ++ later)).sameNamed_after stillFirst out
          (keepsOut move (List.mem_append_right _ List.mem_cons_self))
      rw [← List.append_assoc, run_concat]
      exact once.trans before

/-- The turn can be passed on and back, and either way this holds of the place
where it stops and of whoever stands there. -/
def PassesOnlyTo (rotation : Rotation)
    (property : Nat → Participant → Prop) : Prop :=
  (∃ participant stopped,
      rotation.next = .ok (some participant, stopped) ∧
        stopped.current? = some participant ∧
        property stopped.turn participant) ∧
    ∃ participant stopped,
      rotation.previous = .ok (some participant, stopped) ∧
        stopped.current? = some participant ∧
        property stopped.turn participant

/-- As long as somebody is active, the turn passes only to active
participants in the order. -/
theorem InOrder.passesOnlyTo_active {entries : List (String × Int32)}
    {rotation : Rotation} (inOrder : InOrder entries rotation)
    (anyActive : ∃ other ∈ rotation.participants, other.active = true)
    {property : Nat → Participant → Prop}
    (ofActive :
      ∀ place participant,
        rotation.participants[place]? = some participant →
          participant.active = true → property place participant) :
    rotation.PassesOnlyTo property := by
  have somebody : rotation.participants ≠ [] := by
    obtain ⟨other, member, _⟩ := anyActive
    exact List.ne_nil_of_mem member
  have inside := inOrder.inside_of_ne_nil somebody
  have stops {moved : Nat → Rotation} {participant : Participant}
      {stopped : Rotation} (loop : Loop rotation moved)
      (passes : PassesTo rotation moved participant stopped) :
      property stopped.turn participant := by
    refine ofActive _ _ ?_ (passes.active_of_any anyActive)
    have holds := passes.holds
    rwa [current?, loop.participants_of_passesTo passes] at holds
  obtain ⟨next, onward, passedOn, passesOn⟩ := exists_next_eq inside
  obtain ⟨previous, back, passedBack, passesBack⟩ := exists_previous_eq inside
  exact ⟨⟨next, onward, passedOn, passesOn.holds,
      stops (loop_turnedOn inside) passesOn⟩,
    previous, back, passedBack, passesBack.holds,
      stops (loop_turnedBack inside) passesBack⟩

/-- Once a name has been marked out, and until somebody joins or the name is
brought back, the turn passes neither on nor back to the first who goes by it,
as long as somebody of another name is active; to a namesake it passes only if
that one was active already when the name was marked out. -/
theorem marked_out_gets_no_turn {earlier later : List Move} {name : String}
    {marked : Rotation}
    (markedOut : (run earlier).markOut name = .ok marked)
    (keepsOut : ∀ move ∈ later, move.KeepsOut name) :
    let rotation := run (earlier ++ .markOut name :: later)
    ∃ place participant,
      FirstNamed name (run earlier).participants place participant ∧
        ((∃ other ∈ rotation.participants,
            other.answersTo name = false ∧ other.active = true) →
          rotation.PassesOnlyTo fun stop someone =>
            stop ≠ place ∧
              (someone.answersTo name = true →
                (run earlier).participants[stop]? = some someone ∧
                  someone.active = true)) := by
  intro rotation
  obtain ⟨place, participant, first, set⟩ :=
    exists_firstNamed_of_setActive markedOut
  refine ⟨place, participant, first, ?_⟩
  rintro ⟨other, member, _, otherActive⟩
  have runMarked : run (earlier ++ [.markOut name]) = marked := by
    rw [run_concat, Rotation.after, markedOut]
    rfl
  have firstOut := first.set false
  rw [← set, ← runMarked] at firstOut
  have same := sameNamed_run firstOut rfl keepsOut
  rw [List.append_assoc, List.singleton_append, runMarked, set] at same
  rw [runMarked, set] at firstOut
  have standing := same.symm.firstNamed firstOut
  refine (inOrder_run _).passesOnlyTo_active ⟨other, member, otherActive⟩ ?_
  intro stop someone holds active
  have notFirst : stop ≠ place := by
    rintro rfl
    have out := standing.1
    rw [holds] at out
    rw [Option.some.inj out] at active
    cases active
  refine ⟨notFirst, fun named => ⟨?_, active⟩⟩
  have before := (same stop someone named).mp holds
  rwa [List.getElem?_set_ne (Ne.symm notFirst)] at before

/-- Of two equal orcs behind an elf the first is marked out. -/
theorem markOut_first_of_orcs :
    run [.add "Elf" 18, .add "Orc" 12, .add "Orc" 12] =
        ⟨[⟨"Elf", 18, true⟩, ⟨"Orc", 12, true⟩, ⟨"Orc", 12, true⟩],
          0, 1, false⟩ ∧
      sameName "Elf" "Orc" = false ∧
      (run [.add "Elf" 18, .add "Orc" 12, .add "Orc" 12]).markOut "Orc" =
        .ok ⟨[⟨"Elf", 18, true⟩, ⟨"Orc", 12, false⟩, ⟨"Orc", 12, true⟩],
          0, 1, false⟩ := by
  have state :
      run [.add "Elf" 18, .add "Orc" 12, .add "Orc" 12] =
        ⟨[⟨"Elf", 18, true⟩, ⟨"Orc", 12, true⟩, ⟨"Orc", 12, true⟩],
          0, 1, false⟩ := by
    cbv
  have different : sameName "Elf" "Orc" = false := by
    cbv
  have same : sameName "Orc" "Orc" = true := beq_self_eq_true _
  refine ⟨state, different, ?_⟩
  rw [state]
  simp [markOut, setActive, markFirst, Participant.answersTo, different, same]

/-- The turn passes on to the second orc; brought back, the elf changes nothing
for the first, to whose place the turn comes neither way. -/
theorem marked_out_gets_no_turn_of_orcs :
    let earlier : List Move := [.add "Elf" 18, .add "Orc" 12, .add "Orc" 12]
    let later : List Move := [.next, .markIn "Elf"]
    (∃ marked, (run earlier).markOut "Orc" = .ok marked) ∧
      (∀ move ∈ later, move.KeepsOut "Orc") ∧
      ∃ place participant,
        FirstNamed "Orc" (run earlier).participants place participant ∧
          (run (earlier ++ .markOut "Orc" :: later)).PassesOnlyTo
            fun stop someone =>
              stop ≠ place ∧
                (someone.answersTo "Orc" = true →
                  (run earlier).participants[stop]? = some someone ∧
                    someone.active = true) := by
  intro earlier later
  obtain ⟨_, different, markedOut⟩ := markOut_first_of_orcs
  have keepsOut : ∀ move ∈ later, move.KeepsOut "Orc" := by
    simp [later, Move.KeepsOut, different]
  obtain ⟨place, participant, first, passes⟩ :=
    marked_out_gets_no_turn markedOut keepsOut
  refine ⟨⟨_, markedOut⟩, keepsOut, place, participant, first, passes ?_⟩
  have state :
      run (earlier ++ .markOut "Orc" :: later) =
        ⟨[⟨"Elf", 18, true⟩, ⟨"Orc", 12, false⟩, ⟨"Orc", 12, true⟩],
          2, 1, true⟩ := by
    have same : sameName "Elf" "Elf" = true := beq_self_eq_true _
    rw [run_append, List.foldl_cons, after, markedOut]
    simp [later, after, keep, next, pass, walk, stepOnward, isEmpty, current?,
      markIn, setActive, markFirst, Participant.answersTo, same, Except.map]
  rw [state]
  exact ⟨⟨"Elf", 18, true⟩, List.mem_cons_self, different, rfl⟩

/-- The elf has the turn and the first orc is marked out; the turn passes to
the second, who goes by the name, although the elf is active. -/
theorem namesake_of_marked_out_gets_turn :
    let rotation := run [.add "Elf" 18, .add "Orc" 12, .add "Orc" 12]
    ∃ marked stopped,
      rotation.markOut "Orc" = .ok marked ∧
        marked.next = .ok (some ⟨"Orc", 12, true⟩, stopped) ∧
        Participant.answersTo "Orc" ⟨"Orc", 12, true⟩ = true ∧
        (⟨"Elf", 18, true⟩ : Participant) ∈ marked.participants ∧
        Participant.answersTo "Orc" ⟨"Elf", 18, true⟩ = false := by
  obtain ⟨_, different, markedOut⟩ := markOut_first_of_orcs
  refine ⟨_, ⟨[⟨"Elf", 18, true⟩, ⟨"Orc", 12, false⟩, ⟨"Orc", 12, true⟩],
    2, 1, true⟩, markedOut, ?_, beq_self_eq_true _, List.mem_cons_self,
    different⟩
  cbv

end Rotation

end Tabletop
