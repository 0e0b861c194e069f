import Tabletop.Main
import Tabletop.Proofs.Grammar
import Tabletop.Proofs.Lexing
import Tabletop.Proofs.Reading
import Tabletop.Proofs.CanonicalText
import Tabletop.Proofs.Ranks
import Tabletop.Proofs.RollLaw
import Tabletop.Proofs.FailedLines
import Tabletop.Proofs.RotationRuns
import Tabletop.Proofs.TurnKeeping
import Tabletop.Proofs.Ledger
import Tabletop.Proofs.TrackerBoards
import Tabletop.Proofs.FiringOrder
import Tabletop.Proofs.Frames
import Tabletop.Proofs.AlarmRuns
import Tabletop.Proofs.Places
import Tabletop.Proofs.FirstFault
import Tabletop.Proofs.Recasting
import Tabletop.Proofs.LetterCase
import Tabletop.Proofs.Trimming
import Tabletop.Proofs.CommandWords
import Tabletop.Proofs.WaysOfRolling
import Tabletop.Proofs.EntryMode
import Tabletop.Proofs.RollHistory
import Tabletop.Proofs.JsonText
import Tabletop.Proofs.JsonReading
import Tabletop.Proofs.RollRecords
import Tabletop.Proofs.FairTurns
import Tabletop.Proofs.MirroredTurns
import Tabletop.Proofs.OwnedParts
import Tabletop.Proofs.ErrorLines
import Tabletop.Proofs.CutArguments
import Tabletop.Proofs.MarkedOut
import Tabletop.Proofs.RestoredRotations
import Tabletop.Proofs.Quotas
import Tabletop.Proofs.BestScores
import Tabletop.Proofs.KeptDice
import Tabletop.Proofs.DropReasons
import Tabletop.Proofs.HigherRolls
import Tabletop.Proofs.RearrangedDice
import Tabletop.Proofs.WordArithmetic
import Tabletop.Proofs.RollLines
import Tabletop.Proofs.BriefAlarms
import Tabletop.Proofs.WrittenDurations
import Tabletop.Proofs.Deadlines
import Tabletop.Proofs.SearchedPieces
import Tabletop.Proofs.WrittenCalls
import Tabletop.Proofs.MarkedStretches
import Tabletop.Proofs.Tiling
