import Tabletop.Dice.Roll
import Tabletop.TrackError

/-!
# Errors of a session

Why a line of a session could not be carried out, and how that is said.
-/

namespace Tabletop.Session

open Tabletop.Dice

inductive Usage where
  | roll
  | alarm
  | participant
  | initiative
  | kill
  | revive
  | tracker
  | trackerAdd
  | trackerAdjust
  | trackerSet
  | trackerSearch
  | trackerPin
  | trackerUnpin
  | trackerDelete
deriving DecidableEq, Repr

namespace Usage

def text : Usage → String
  | roll => "roll <dice> (e.g. 'r 2d6+3', 'r d20!', 'r 4d6kh3')"
  | alarm => "alarm <duration> [label] (e.g. 'a 5m', 'a 1h30m rest')"
  | participant => "<name> <initiative> (or 'done' to finish)"
  | initiative => "init start|add|next|back|kill|revive|list|end"
  | kill => "init kill <name>"
  | revive => "init revive <name>"
  | tracker => "track add|set|adjust|list|pin|unpin|pinall|delete|deleteall|search"
  | trackerAdd => "track add <name> <current> <max>"
  | trackerAdjust => "track adjust <name> <delta>"
  | trackerSet => "track set <name> <value>"
  | trackerSearch => "track search <pattern>"
  | trackerPin => "track pin <name>"
  | trackerUnpin => "track unpin <name>"
  | trackerDelete => "track delete <name>"

end Usage

inductive SessionError where
  | unknownCommand (words : String)
  | usage (command : Usage)
  | notANumber (text : String)
  | dice (error : DiceError)
  | track (error : TrackError)
deriving DecidableEq, Repr

namespace SessionError

def message : SessionError → String
  | unknownCommand words => "unknown command: " ++ words ++ " (type 'help' for help)"
  | .usage command => "usage: " ++ command.text
  | notANumber text => "'" ++ text ++ "' is not a number"
  | dice error => error.message
  | track error => error.message

end SessionError

end Tabletop.Session
