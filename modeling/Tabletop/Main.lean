import Mathlib
import Tabletop.Clock.Instant
import Tabletop.CommandLine

/-!
# The program

Connects the command line to the standard streams, to the clock of the machine,
and to the random numbers of the operating system.
-/

namespace Tabletop.Program

open Tabletop.Clock
open Tabletop.CommandLine
open Tabletop.Session

/-- The present moment, the last one for a clock that shows none. -/
def now : IO Instant := do
  let shown ← Std.Time.Timestamp.now
  return (Instant.ofNanos? shown.toNanosecondsSinceUnixEpoch.val).getD Instant.latest

/-- The draw that stands at an index in random bytes, eight bytes a draw. -/
def drawAt (bytes : ByteArray) (index : Nat) : UInt64 :=
  (List.range 8).foldl
    (fun draw place => draw * 256 + (bytes[8 * index + place]?.getD 0).toUInt64) 0

def freshDraws : IO (List UInt64) := do
  let count := 2 * Dice.Expression.maxCount
  let bytes ← IO.getRandomBytes (USize.ofNat (8 * count))
  return (List.range count).map (drawAt bytes)

/-- Reads and answers lines until they end or the user leaves. -/
partial def talk (input output : IO.FS.Stream) (session : Session Instant) : IO Unit := do
  let (announcement, ticked) := announce session (← now)
  output.putStr announcement
  output.flush
  let line ← input.getLine
  unless line.isEmpty do
    let (response, answered, _) := respond ticked (← now) (← freshDraws) line.toList
    output.putStr response
    unless answered.finished do
      talk input output answered

def deliver (finish : Finish) : IO UInt32 := do
  (← IO.getStdout).putStr finish.output
  (← IO.getStderr).putStr finish.errors
  return finish.code

end Tabletop.Program

open Tabletop.CommandLine in
def main (arguments : List String) : IO UInt32 := do
  match Request.read arguments with
  | some (.session settings) => do
      let output ← IO.getStdout
      output.putStr greeting
      Tabletop.Program.talk (← IO.getStdin) output (Tabletop.Session.new settings)
      return 0
  | _ => do
      let draws ← Tabletop.Program.freshDraws
      Tabletop.Program.deliver
        (run .oneLine arguments "" (← Tabletop.Program.now) draws)
