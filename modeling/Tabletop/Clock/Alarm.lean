import Tabletop.Clock.Calendar

/-!
# Alarms

An alarm counts down a duration from the moment it was started. Every question
about it is asked for a moment that the caller names. An alarm book holds the
alarms that run, expired ones included until they are collected.
-/

namespace Tabletop.Clock

open Tabletop.Number

/-- A countdown: what it is for, when it began, and how long it runs. -/
structure Alarm (Moment : Type) where
  label : Option String
  started : Moment
  duration : Duration
deriving DecidableEq, Repr

namespace Alarm

variable {Moment : Type} [Calendar Moment]

/-- The moment at which the alarm fires, or the latest moment if that cannot be
named. -/
def deadline (alarm : Alarm Moment) : Moment :=
  ((Calendar.ofDuration? alarm.duration).bind
    (Calendar.after? alarm.started)).getD Calendar.latest

/-- The time that has passed: none before the start, and at most the whole
duration. -/
def elapsed (alarm : Alarm Moment) (now : Moment) : Duration :=
  ((Calendar.toDuration? (Calendar.lapse alarm.started now)).getD .zero).atMost
    alarm.duration

def remaining (alarm : Alarm Moment) (now : Moment) : Duration :=
  alarm.duration.without (alarm.elapsed now)

def expired (alarm : Alarm Moment) (now : Moment) : Bool :=
  alarm.duration.nanos ≤ (alarm.elapsed now).nanos

/-- The share of the duration that has passed, from 0 to 100; all of it for an
alarm without duration. -/
def percentComplete (alarm : Alarm Moment) (now : Moment) : Binary64 :=
  if alarm.duration.nanos = 0 then
    .ofNat 100
  else
    (((alarm.elapsed now).seconds.div alarm.duration.seconds).mul (.ofNat 100)).min (.ofNat 100)

end Alarm

/-- The alarms that are held, each under the ticket it was given, in the order
in which they were added. -/
structure AlarmBook (Moment : Type) where
  entries : List (Nat × Alarm Moment)
  nextTicket : Nat
deriving DecidableEq, Repr

namespace AlarmBook

variable {Moment : Type}

def empty : AlarmBook Moment where
  entries := []
  nextTicket := 0

def alarms (book : AlarmBook Moment) : List (Alarm Moment) :=
  book.entries.map Prod.snd

def count (book : AlarmBook Moment) : Nat :=
  book.entries.length

def add (book : AlarmBook Moment) (alarm : Alarm Moment) : AlarmBook Moment where
  entries := book.entries ++ [(book.nextTicket, alarm)]
  nextTicket := book.nextTicket + 1

def remove (book : AlarmBook Moment) (ticket : Nat) :
    Option (Alarm Moment) × AlarmBook Moment :=
  ((book.entries.find? fun entry => entry.1 == ticket).map Prod.snd,
    { book with entries := book.entries.filter fun entry => entry.1 != ticket })

def clear (book : AlarmBook Moment) : AlarmBook Moment :=
  { book with entries := [] }

variable [Calendar Moment]

/-- Less time is left for the first alarm, or as much and it started no
later. -/
def sooner (now : Moment) (first second : Alarm Moment) : Bool :=
  ((compare (first.remaining now).nanos (second.remaining now).nanos).then
    (compare first.started second.started)).isLE

/-- The first alarm fires earlier, or at the same moment and it started no
later. -/
def firesFirst (first second : Alarm Moment) : Bool :=
  ((compare first.deadline second.deadline).then
    (compare first.started second.started)).isLE

/-- The alarms that still run, the one with the least time left first. -/
def active (book : AlarmBook Moment) (now : Moment) : List (Alarm Moment) :=
  (book.alarms.filter fun alarm => !alarm.expired now).mergeSort (sooner now)

def activeCount (book : AlarmBook Moment) (now : Moment) : Nat :=
  (book.alarms.filter fun alarm => !alarm.expired now).length

/-- Takes out the alarms that have expired, in the order in which they fire. -/
def popExpired (book : AlarmBook Moment) (now : Moment) :
    List (Alarm Moment) × AlarmBook Moment :=
  ((book.alarms.filter fun alarm => alarm.expired now).mergeSort firesFirst,
    { book with entries := book.entries.filter fun entry => !entry.2.expired now })

end AlarmBook

end Tabletop.Clock
