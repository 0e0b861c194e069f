/-!
# Help

The overview of commands that a session shows on request.
-/

namespace Tabletop.Session

def helpText : String :=
  "\n".intercalate [
    "Commands (any prefix works, e.g. 'r' for roll):",
    "  roll <dice>                 Roll dice; a bare notation also rolls",
    "  alarm <time> [label]        Start a countdown (e.g. 'a 5m', 'a 1h concentration')",
    "  alarms                      List running alarms",
    "  init <cmd>                  Initiative: start, add, next, back, kill, revive, list, end",
    "  track <cmd>                 Number trackers: add, set, adjust (adj), list, pin, unpin,",
    "                              pinall (pa), delete, deleteall (da), search (f)",
    "  status                      Pinned trackers, alarms and the current turn",
    "  history                     Recent rolls",
    "  clear                       Forget roll history",
    "  help                        Show this help",
    "  quit                        Leave the shell",
    "",
    "Dice:",
    "  2d6        two six-sided dice",
    "  d20+5      one d20 plus 5",
    "  d20!       advantage: roll twice, keep the higher",
    "  4d6kh3     four d6, keep the highest three (also kl, dh, dl)",
    "",
    "Examples:",
    "  i start                     then '<name> <initiative>' per line, 'done' to finish",
    "  i kill Goblin               mark Goblin as out of combat",
    "  t add HP 35 45              create an HP tracker at 35/45",
    "  t adj HP -10                subtract 10 from HP"]

end Tabletop.Session
