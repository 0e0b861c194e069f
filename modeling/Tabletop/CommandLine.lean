import Tabletop.Dice.Record
import Tabletop.Dice.Report
import Tabletop.Session.Process

/-!
# Command line

What the arguments of the program ask for, and what the program answers. A
notation is rolled once; without one a session is held over the lines of the
input. The session is cut into an announcement before each line and a response
behind it, so that lines can be answered as they come.

The errors of a run are those of a program that keeps no log. With the log on,
a warning about a roll that fails goes to the same stream, in front of them.
-/

namespace Tabletop.CommandLine

open Tabletop.Clock
open Tabletop.Dice
open Tabletop.Session
open Tabletop.Text

inductive Argument where
  | word (text : String)
  | longOption (name : String) (value : Option String)
  | shortOptions (first : Char)
  | endOfOptions
deriving DecidableEq, Repr

namespace Argument

/-- The form of an argument. A single dash is a word. -/
def classify (argument : String) : Argument :=
  match argument.toList with
  | ['-', '-'] => .endOfOptions
  | '-' :: '-' :: rest =>
      let name := String.ofList (rest.takeWhile (· != '='))
      match rest.dropWhile (· != '=') with
      | [] => .longOption name none
      | _ :: value => .longOption name (some (String.ofList value))
  | '-' :: letter :: _ => .shortOptions letter
  | _ => .word argument

end Argument

inductive Request where
  | roll (words : List String) (json : Bool)
  | session (settings : Settings)
  | version (program : String)
  | overview
deriving DecidableEq, Repr

/-- The answer to an option that every command has, if it is one. -/
def commonOption? (program : String) : Argument → Option Request
  | .longOption "version" none => some (.version program)
  | .shortOptions 'V' => some (.version program)
  | .longOption "help" none => some .overview
  | .shortOptions 'h' => some .overview
  | _ => none

/-- Reads the words of a notation and the options of a roll, behind the words
that have been read. Without any word the answer is `bare`. -/
def readRollArguments (program : String) (bare : Option Request) (words : List String)
    (json : Bool) : List String → Option Request
  | [] => if words.isEmpty then bare else some (.roll words json)
  | argument :: rest =>
      match Argument.classify argument with
      | .word text => readRollArguments program bare (words ++ [text]) json rest
      | .endOfOptions =>
          if (words ++ rest).isEmpty then bare else some (.roll (words ++ rest) json)
      | .longOption "json" none =>
          if json then none else readRollArguments program bare words true rest
      | other => commonOption? program other

/-- A number of rolls to remember: a 64-bit number, with or without a plus. -/
def historyLimit? (text : String) : Option Nat :=
  let digits :=
    match text.toList with
    | '+' :: digits => digits
    | digits => digits
  if isNumeral digits && numeralValue digits < UInt64.size then
    some (numeralValue digits)
  else
    none

def sessionRequest (limit : Option Nat) (plain : Bool) : Request :=
  .session
    ((Settings.standard.withHistoryLimit
      (limit.getD Settings.standard.historyLimit)).withGlyphs !plain)

def readSessionArguments (limit : Option Nat) (plain : Bool) : List String → Option Request
  | [] => some (sessionRequest limit plain)
  | argument :: rest =>
      match Argument.classify argument with
      | .longOption "plain" none =>
          if plain then none else readSessionArguments limit true rest
      | .longOption "history" (some value) =>
          match limit, historyLimit? value with
          | none, some read => readSessionArguments (some read) plain rest
          | _, _ => none
      | .longOption "history" none =>
          match rest with
          | value :: later =>
              match limit, historyLimit? value with
              | none, some read => readSessionArguments (some read) plain later
              | _, _ => none
          | [] => none
      | .endOfOptions => if rest.isEmpty then some (sessionRequest limit plain) else none
      | other => commonOption? "tavern-shell" other

def readHelpArguments : List String → Option Request
  | [] => some .overview
  | [topic] =>
      if ["roll", "r", "shell", "help"].contains topic then some .overview else none
  | _ => none

/-- Reads all arguments. Only the first one can name a command; without a name
the arguments are a notation, or ask for a session if there is none. -/
def Request.read : List String → Option Request
  | "roll" :: rest => readRollArguments "tavern-roll" none [] false rest
  | "r" :: rest => readRollArguments "tavern-roll" none [] false rest
  | "shell" :: rest => readSessionArguments none false rest
  | "help" :: rest => readHelpArguments rest
  | all => readRollArguments "tavern" (some (.session Settings.standard)) [] false all

/-- What a run of the program leaves: the exit code, and what has been written
on either stream. -/
structure Finish where
  code : UInt32
  output : String
  errors : String
deriving DecidableEq, Repr

namespace Finish

def success (output : String) : Finish where
  code := 0
  output := output
  errors := ""

def failure (errors : String) : Finish where
  code := 1
  output := ""
  errors := errors

/-- A run whose arguments made no sense. -/
def refusal : Finish where
  code := 2
  output := ""
  errors := "error: unexpected arguments (try --help)\n"

end Finish

def errorLine (message : String) : String :=
  "error: " ++ message ++ "\n"

def rollWords (printer : ReportPrinter) (words : List String) (json : Bool)
    (draws : List UInt64) : Finish :=
  let text := " ".intercalate words
  match Expression.read text with
  | .error error =>
      .failure (error.report printer text.toList ++ errorLine error.message)
  | .ok expression =>
      match (expression.roll draws).1 with
      | .error error => .failure (errorLine error.message)
      | .ok roll =>
          .success ((if json then roll.prettyJson else diceGlyph ++ " " ++ roll.line) ++ "\n")

def versionText (program : String) : String :=
  program ++ " 0.1.0\n"

def overviewText : String :=
  "Tavern: dice notation, alarms and initiative for the game table\n\n" ++
    "Usage: tavern [--json] <dice>...\n" ++
    "       tavern roll [--json] <dice>...\n" ++
    "       tavern shell [--history <rolls>] [--plain]\n"

variable {Moment : Type} [Calendar Moment]

def greeting : String :=
  "  Welcome to Tavern\n  Type 'help' for commands, 'quit' to exit.\n\n"

/-- What is shown before a line: the alarms that have expired, and the
prompt. -/
def announce (session : Session Moment) (now : Moment) : String × Session Moment :=
  let (announcements, ticked) := session.tick now
  (String.join (announcements.map (· ++ "\n")) ++ ticked.prompt, ticked)

def responseText : Except SessionError String → String
  | .ok text => if text.isEmpty then "" else text ++ "\n"
  | .error error => errorLine error.message

/-- What is shown behind a line, the session afterwards, and the draws that
are left. Blank lines matter only while participants are entered. -/
def respond (session : Session Moment) (now : Moment) (draws : List UInt64) (line : List Char) :
    String × Session Moment × List UInt64 :=
  if (trim line).isEmpty && !session.entering then
    ("", session, draws)
  else
    let outcome := session.processChars now draws line
    (responseText outcome.result, outcome.session, outcome.draws)

/-- Holds a session over the given lines, until they end or the user leaves,
the clock standing still. -/
def converse (session : Session Moment) (now : Moment) (draws : List UInt64) :
    (lines : List (List Char)) → List String
  | [] => [(announce session now).1]
  | line :: rest =>
      let (announcement, ticked) := announce session now
      let (response, answered, left) := respond ticked now draws line
      announcement :: response ::
        (if answered.finished then [] else converse answered now left rest)

def inputLines (input : String) : List (List Char) :=
  let lines := input.toList.splitOn '\n'
  if lines.getLast? = some [] then lines.dropLast else lines

def transcript (settings : Settings) (now : Moment) (draws : List UInt64) (input : String) :
    String :=
  greeting ++ String.join (converse (Session.new settings) now draws (inputLines input))

def run (printer : ReportPrinter) (arguments : List String) (input : String) (now : Moment)
    (draws : List UInt64) : Finish :=
  match Request.read arguments with
  | none => .refusal
  | some (.roll words json) => rollWords printer words json draws
  | some (.session settings) => .success (transcript settings now draws input)
  | some (.version program) => .success (versionText program)
  | some .overview => .success overviewText

end Tabletop.CommandLine
