import Tabletop.Proofs.Countdowns

/-!
# Deadlines and expiry

Whether an alarm has expired is told by the time that has passed, and its
deadline by its start and its duration. The two mean the same moment, with two
exceptions. A countdown of no length is over at every moment, also before its
start; and where a countdown runs out later than any moment that can be named,
the latest moment stands in as its deadline although time still is left then.
Apart from such alarms, collecting by expiry is collecting by deadlines.
-/

namespace Tabletop.Clock

variable {Moment : Type} [Calendar Moment]

namespace Alarm

variable {alarm : Alarm Moment} {now : Moment}

/-- There is nothing to count down, and the start still lies ahead. -/
def IsOverBeforeStart (alarm : Alarm Moment) (now : Moment) : Prop :=
  alarm.duration.nanos = 0 ∧ timestamp now < timestamp alarm.started

/-- The latest moment has come, and the countdown runs out later still. -/
def RunsPastLatest (alarm : Alarm Moment) (now : Moment) : Prop :=
  timestamp now = timestamp (Calendar.latest : Moment) ∧
    timestamp (Calendar.latest : Moment) < alarm.due

variable [LawfulCalendar Moment]

theorem IsOverBeforeStart.expired_before_deadline
    (ended : alarm.IsOverBeforeStart now) :
    alarm.expired now = true ∧ timestamp now < timestamp alarm.deadline := by
  obtain ⟨nothing, ahead⟩ := ended
  refine ⟨expired_iff.mpr (Or.inr nothing), ?_⟩
  have named := LawfulCalendar.timestamp_le_latest alarm.started
  rw [timestamp_deadline, due, nothing]
  omega

theorem RunsPastLatest.running_at_deadline (runs : alarm.RunsPastLatest now) :
    alarm.expired now = false ∧
      timestamp alarm.deadline = timestamp now := by
  obtain ⟨last, beyond⟩ := runs
  have named := LawfulCalendar.timestamp_le_latest alarm.started
  rw [Bool.eq_false_iff, ne_eq, expired_iff, timestamp_deadline, last]
  rw [due] at beyond ⊢
  omega

theorem expired_iff_deadline_le (begun : ¬ alarm.IsOverBeforeStart now)
    (ends : ¬ alarm.RunsPastLatest now) :
    alarm.expired now = true ↔ timestamp alarm.deadline ≤ timestamp now := by
  have last := LawfulCalendar.timestamp_le_latest now
  rw [IsOverBeforeStart] at begun
  rw [RunsPastLatest, due] at ends
  rw [expired_iff, timestamp_deadline, due]
  omega

end Alarm

variable [LawfulCalendar Moment]

theorem AlarmBook.popExpired_eq_of_deadlines {book : AlarmBook Moment}
    {now : Moment}
    (plain : ∀ alarm ∈ book.alarms,
      ¬ alarm.IsOverBeforeStart now ∧ ¬ alarm.RunsPastLatest now) :
    book.popExpired now =
      ((book.alarms.filter fun alarm =>
          timestamp alarm.deadline ≤ timestamp now).mergeSort firesFirst,
        { book with
          entries := book.entries.filter fun entry =>
            timestamp now < timestamp entry.2.deadline }) := by
  have told : ∀ alarm ∈ book.alarms,
      alarm.expired now =
        decide (timestamp alarm.deadline ≤ timestamp now) := by
    intro alarm member
    obtain ⟨begun, ends⟩ := plain alarm member
    rw [Bool.eq_iff_iff, decide_eq_true_iff]
    exact Alarm.expired_iff_deadline_le begun ends
  have collected :
      book.alarms.filter (fun alarm => alarm.expired now) =
        book.alarms.filter fun alarm =>
          timestamp alarm.deadline ≤ timestamp now :=
    List.filter_congr told
  have kept :
      book.entries.filter (fun entry => !entry.2.expired now) =
        book.entries.filter fun entry =>
          timestamp now < timestamp entry.2.deadline := by
    apply List.filter_congr
    intro entry member
    rw [told entry.2 (List.mem_map_of_mem member), ← decide_not]
    exact decide_eq_decide.mpr not_le
  rw [popExpired, collected, kept]

namespace Alarm

/-- The deadline is the start and the duration added up, or the latest moment
if that comes first. An alarm has expired just when its deadline has come,
unless it has nothing to count down and its start lies ahead, or the latest
moment has come and it runs out later still: in the first case it has expired
before its deadline, in the second it runs on at its deadline. While no alarm
of a book is such a case, collecting takes out those whose deadlines have come,
in the order of the deadlines. -/
theorem expires_at_deadline_iff (alarm : Alarm Moment) (now : Moment) :
    timestamp alarm.deadline =
        min (timestamp alarm.started + alarm.duration.nanos)
          (timestamp (Calendar.latest : Moment)) ∧
      ((alarm.expired now = true ↔
          timestamp alarm.deadline ≤ timestamp now) ↔
        ¬ alarm.IsOverBeforeStart now ∧ ¬ alarm.RunsPastLatest now) ∧
      (alarm.IsOverBeforeStart now →
        alarm.expired now = true ∧
          timestamp now < timestamp alarm.deadline) ∧
      (alarm.RunsPastLatest now →
        alarm.expired now = false ∧
          timestamp alarm.deadline = timestamp now) ∧
      ∀ book : AlarmBook Moment,
        (∀ held ∈ book.alarms,
          ¬ held.IsOverBeforeStart now ∧ ¬ held.RunsPastLatest now) →
          book.popExpired now =
            ((book.alarms.filter fun held =>
                timestamp held.deadline ≤ timestamp now).mergeSort
                AlarmBook.firesFirst,
              { book with
                entries := book.entries.filter fun entry =>
                  timestamp now < timestamp entry.2.deadline }) := by
  refine ⟨alarm.timestamp_deadline, ?_,
    fun ended => ended.expired_before_deadline,
    fun runs => runs.running_at_deadline,
    fun _ => AlarmBook.popExpired_eq_of_deadlines⟩
  constructor
  · intro same
    constructor
    · intro ended
      obtain ⟨expired, ahead⟩ := ended.expired_before_deadline
      exact absurd (same.mp expired) (not_le.mpr ahead)
    · intro runs
      obtain ⟨running, reached⟩ := runs.running_at_deadline
      rw [same.mpr reached.le] at running
      cases running
  · rintro ⟨begun, ends⟩
    exact expired_iff_deadline_le begun ends

/-- A torch burns out while a spark that has nothing to burn waits for its
start; once that has come, both are collected in the order of the deadlines. -/
theorem expires_at_deadline_iff_of_torch :
    let torch : Alarm Instant :=
      ⟨some "torch", { nanos := 0 }, { nanos := 60 }⟩
    let spark : Alarm Instant :=
      ⟨some "spark", { nanos := 70 }, { nanos := 0 }⟩
    let book := (AlarmBook.empty.add spark).add torch
    let early : Instant := { nanos := 60 }
    let late : Instant := { nanos := 70 }
    torch.expired early = true ∧
      (spark.expired early = true ∧
        timestamp early < timestamp spark.deadline) ∧
      (book.popExpired late).1 = [torch, spark] := by
  intro torch spark book early late
  obtain ⟨_, torchEnds, _, _, _⟩ := torch.expires_at_deadline_iff early
  obtain ⟨_, _, sparkEnded, _, _⟩ := spark.expires_at_deadline_iff early
  obtain ⟨_, _, _, _, collects⟩ := torch.expires_at_deadline_iff late
  refine ⟨?_, ?_, ?_⟩
  · have plain :
        ¬ torch.IsOverBeforeStart early ∧ ¬ torch.RunsPastLatest early := by
      simp [IsOverBeforeStart, RunsPastLatest, torch, early, Instant.latest]
    exact (torchEnds.mpr plain).mpr (by decide)
  · exact sparkEnded ⟨rfl, by decide⟩
  · have plain :
        ∀ held ∈ book.alarms,
          ¬ held.IsOverBeforeStart late ∧ ¬ held.RunsPastLatest late := by
      simp [book, AlarmBook.alarms, AlarmBook.add, AlarmBook.empty,
        IsOverBeforeStart, RunsPastLatest, torch, spark, late, Instant.latest]
    have come :
        (book.alarms.filter fun held =>
          timestamp held.deadline ≤ timestamp late) = [spark, torch] := by
      decide
    have order : AlarmBook.firesFirst spark torch = false := by
      decide
    rw [collects book plain]
    simp only [come]
    simp [List.mergeSort, List.MergeSort.Internal.splitInTwo, order]

/-- A countdown of no length has expired while its deadline lies ahead, and one
that begins at the latest moment runs on when its deadline has come. -/
theorem expiry_misses_deadline :
    let spark : Alarm Instant := ⟨none, { nanos := 100 }, { nanos := 0 }⟩
    let endless : Alarm Instant := ⟨none, Instant.latest, { nanos := 1 }⟩
    let early : Instant := { nanos := 50 }
    (spark.expired early = true ∧
        ¬ timestamp spark.deadline ≤ timestamp early) ∧
      ¬ endless.expired Instant.latest = true ∧
      timestamp endless.deadline ≤ timestamp Instant.latest := by
  decide

end Alarm

end Tabletop.Clock
