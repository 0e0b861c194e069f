import Tabletop.Proofs.LetterCase
import Tabletop.Proofs.Trimming
import Tabletop.Session.Process

/-!
# Command words and notations

A command word can be shortened to any of its beginnings and written in any
letter case. No command word begins with a digit or a `d`, as every notation
does; so a notation is never taken for a command.
-/

namespace Tabletop.Session

open Tabletop.Dice
open Tabletop.Text

/-- A word is, in any letter case, a beginning of a command word. The empty
word is none. -/
def Shortens (word : List Char) (full : String) : Prop :=
  word ≠ [] ∧ word.map Char.toLower <+: full.toList

instance (word : List Char) (full : String) : Decidable (Shortens word full) :=
  inferInstanceAs (Decidable (_ ∧ _))

theorem abbreviates_iff {word : List Char} {full : String} :
    abbreviates word full = true ↔ word ≠ [] ∧ word <+: full.toList := by
  simp [abbreviates]

theorem lowerChars_eq_nil_iff {word : List Char} :
    lowerChars word = [] ↔ word = [] := by
  rw [lowerChars_eq_iff_of_steady (List.forall_mem_nil _), List.map_eq_nil_iff]

/-- Words of steady letters are shortened alike in the full lower-case form
and in that of the seven-bit range. -/
theorem abbreviates_lowerChars_iff {word : List Char} {full : String}
    (steady : ∀ low ∈ full.toList, IsSteady low) :
    abbreviates (lowerChars word) full = true ↔ Shortens word full := by
  rw [abbreviates_iff, Shortens, ne_eq, lowerChars_eq_nil_iff]
  apply and_congr_right
  intro given
  have steadyIn {target : List Char} (start : target <+: full.toList) :
      ∀ low ∈ target, IsSteady low :=
    fun low member => steady low (start.subset member)
  constructor
  · intro start
    rwa [(lowerChars_eq_iff_of_steady (steadyIn start)).mp rfl]
  · intro start
    rwa [(lowerChars_eq_iff_of_steady (steadyIn start)).mpr rfl]

theorem Shortens.lowerChars_eq {word : List Char} {full : String}
    (shortens : Shortens word full)
    (small : ∀ low ∈ full.toList, low.toNat < 128) :
    lowerChars word = word.map Char.toLower := by
  apply lowerChars_of_ascii
  intro letter member
  apply ascii_of_toLower
  exact small letter.toLower
    (shortens.2.subset (List.mem_map_of_mem member))

/-- The words that commands begin with. -/
def commandWords : List String :=
  ["roll", "alarms", "alarm", "initiative", "tracker", "help", "history",
    "status", "quit", "exit", "clear"]

def BeginsNoCommand (letter : Char) : Prop :=
  ∀ full ∈ commandWords, full.toList.head? ≠ some letter

theorem beginsNoCommand_of_isDigit {letter : Char}
    (digit : letter.isDigit = true) :
    BeginsNoCommand letter := by
  have noDigit :
      ∀ full ∈ commandWords, full.toList.head?.any Char.isDigit = false := by
    decide
  intro full member head
  have known := noDigit full member
  rw [head, Option.any_some, digit] at known
  cases known

theorem beginsNoCommand_d : BeginsNoCommand 'd' := by
  unfold BeginsNoCommand
  decide

theorem abbreviates_cons_eq_false {letter : Char} {full : String}
    (other : full.toList.head? ≠ some letter) (more : List Char) :
    abbreviates (letter :: more) full = false := by
  rw [Bool.eq_false_iff, ne_eq, abbreviates_iff]
  rintro ⟨_, rest, whole⟩
  rw [← whole] at other
  exact other rfl

theorem isWord_cons_eq_false {letter : Char} {full : String}
    (other : full.toList.head? ≠ some letter) (more : List Char) :
    isWord (letter :: more) full = false := by
  rw [isWord, beq_eq_false_iff_ne]
  intro same
  rw [← same] at other
  exact other rfl

theorem isEmpty_of_lowerChars {line more : List Char} {letter : Char}
    (lowered : lowerChars (splitFirst line).1 = letter :: more) :
    line.isEmpty = false := by
  cases line with
  | nil =>
      cases lowered
  | cons first rest =>
      rfl

theorem read_of_beginsNoCommand {line more : List Char} {letter : Char}
    (lowered : lowerChars (splitFirst line).1 = letter :: more)
    (foreign : BeginsNoCommand letter) :
    Command.read line = readBareDice (letter :: more) line := by
  have unread (full : String) (member : full ∈ commandWords) :
      abbreviates (letter :: more) full = false :=
    abbreviates_cons_eq_false (foreign full member) more
  have unequal (full : String) (member : full ∈ commandWords) :
      isWord (letter :: more) full = false :=
    isWord_cons_eq_false (foreign full member) more
  simp only [Command.read, isEmpty_of_lowerChars lowered, splitCommand,
    lowered, unread "roll" (by decide), unequal "alarms" (by decide),
    unread "alarm" (by decide), unread "initiative" (by decide),
    unread "tracker" (by decide), unread "help" (by decide),
    unread "history" (by decide), unread "status" (by decide),
    unread "quit" (by decide), unequal "exit" (by decide),
    unread "clear" (by decide), Bool.or_self, Bool.false_eq_true, if_false]

theorem exists_first_of_readChars {text : List Char} {expression : Expression}
    (reads : readChars text = .ok expression) :
    ∃ first rest,
      squeeze text = first :: rest ∧
        (first.isDigit = true ∨ first ∈ ['d', 'D']) := by
  obtain ⟨tree, written⟩ := exists_tree_of_readChars reads
  rw [← written, NotationTree.chars]
  cases tree.count with
  | none =>
      exact ⟨tree.separator, _, rfl, Or.inr tree.separator_mem⟩
  | some count =>
      obtain ⟨first, rest, shape, digit⟩ := count.exists_digits_eq_cons
      exact ⟨first, _, by simp [shape]; rfl, Or.inl digit⟩

theorem not_allBlank_of_readChars {text : List Char} {expression : Expression}
    (reads : readChars text = .ok expression) :
    ¬ AllBlank text := by
  obtain ⟨first, rest, shown, _⟩ := exists_first_of_readChars reads
  rw [← squeeze_eq_nil_iff, shown]
  exact List.cons_ne_nil first rest

theorem readChars_of_squeeze_eq {first second : List Char}
    (same : squeeze first = squeeze second) {expression : Expression}
    (reads : readChars first = .ok expression) :
    readChars second = .ok expression := by
  rw [readChars_squeeze_eq_ok_iff] at reads ⊢
  rwa [← same]

theorem exists_lowerChars_eq_cons {first : Char}
    (opens : first.isDigit = true ∨ first ∈ ['d', 'D']) (more : List Char) :
    ∃ letter later,
      lowerChars (first :: more) = letter :: later ∧
        BeginsNoCommand letter := by
  have small : first.toNat < 128 := by
    rcases opens with digit | separator
    · have highest := toNat_le_of_isDigit digit
      omega
    · simp only [List.mem_cons, List.not_mem_nil, or_false] at separator
      rcases separator with rfl | rfl <;> decide
  have plain : first ≠ 'Σ' := by
    rintro rfl
    exact absurd small (by decide)
  refine ⟨first.toLower, lowerBehind [first] more, ?_, ?_⟩
  · rw [lowerChars, lowerBehind, if_neg plain, lowerChar_of_ascii small]
    rfl
  · rcases opens with digit | separator
    · rw [toLower_of_isDigit digit]
      exact beginsNoCommand_of_isDigit digit
    · simp only [List.mem_cons, List.not_mem_nil, or_false] at separator
      rcases separator with rfl | rfl <;> exact beginsNoCommand_d

/-- A notation is taken for no command. -/
theorem read_of_notation {text : List Char} {expression : Expression}
    (reads : readChars text = .ok expression) :
    Command.read (trim text) = .ok (.roll expression) := by
  obtain ⟨first, rest, shown, opens⟩ := exists_first_of_readChars reads
  obtain ⟨head, behind, trimmed, ink⟩ :=
    exists_trim_eq_cons (not_allBlank_of_readChars reads)
  -- Trimming and squeezing leave the same first character, and that character
  -- alone decides that no command word is met.
  have same : head = first := by
    have whole := squeeze_trim text
    rw [trimmed, shown, squeeze, List.filter_cons_of_pos ink] at whole
    exact (List.cons_eq_cons.mp whole).1
  subst same
  obtain ⟨more, word⟩ := splitFirst_cons ink behind
  obtain ⟨letter, later, lowered, foreign⟩ := exists_lowerChars_eq_cons opens more
  rw [← word, ← trimmed] at lowered
  rw [read_of_beginsNoCommand lowered foreign, readBareDice,
    readChars_of_squeeze_eq (squeeze_trim text).symm reads]

theorem Shortens.exists_lowered {word : List Char} {full : String}
    (shortens : Shortens word full)
    (small : ∀ low ∈ full.toList, low.toNat < 128) :
    ∃ letter more,
      lowerChars word = letter :: more ∧
        full.toList.head? = some letter ∧
        abbreviates (letter :: more) full = true := by
  have short : abbreviates (lowerChars word) full = true := by
    rw [abbreviates_iff, ne_eq, lowerChars_eq_nil_iff,
      shortens.lowerChars_eq small]
    exact shortens
  obtain ⟨given, rest, whole⟩ := abbreviates_iff.mp short
  obtain ⟨letter, more, lowered⟩ := List.exists_cons_of_ne_nil given
  rw [lowered] at short whole
  exact ⟨letter, more, lowered, by rw [← whole]; rfl, short⟩

theorem read_of_rollWord {line : List Char}
    (asked : Shortens (splitFirst line).1 "roll") :
    Command.read line = readRollArguments (splitFirst line).2 := by
  obtain ⟨letter, more, lowered, _, short⟩ :=
    asked.exists_lowered (by simp)
  simp only [Command.read, isEmpty_of_lowerChars lowered, splitCommand,
    lowered, short, Bool.false_eq_true, if_false, if_true]

theorem read_of_clearWord {line : List Char}
    (asked : Shortens (splitFirst line).1 "clear") :
    Command.read line = .ok .clear := by
  obtain ⟨letter, more, lowered, head, short⟩ :=
    asked.exists_lowered (by simp)
  obtain rfl : 'c' = letter := Option.some_inj.mp head
  have unread (full : String) (other : full.toList.head? ≠ some 'c') :
      abbreviates ('c' :: more) full = false :=
    abbreviates_cons_eq_false other more
  have unequal (full : String) (other : full.toList.head? ≠ some 'c') :
      isWord ('c' :: more) full = false :=
    isWord_cons_eq_false other more
  simp only [Command.read, isEmpty_of_lowerChars lowered, splitCommand,
    lowered, unread "roll" (by decide), unequal "alarms" (by decide),
    unread "alarm" (by decide), unread "initiative" (by decide),
    unread "tracker" (by decide), unread "help" (by decide),
    unread "history" (by decide), unread "status" (by decide),
    unread "quit" (by decide), unequal "exit" (by decide), short,
    Bool.or_self, Bool.false_eq_true, if_false, if_true]

/-- The single letter `h` asks for help, and not for the history. -/
theorem read_of_historyWord {line : List Char}
    (asked : Shortens (splitFirst line).1 "history")
    (longer : ¬ Shortens (splitFirst line).1 "help") :
    Command.read line = .ok .history := by
  obtain ⟨letter, more, lowered, head, short⟩ :=
    asked.exists_lowered (by simp)
  obtain rfl : 'h' = letter := Option.some_inj.mp head
  have unhelpful : abbreviates ('h' :: more) "help" = false := by
    rw [← lowered, Bool.eq_false_iff, ne_eq,
      abbreviates_lowerChars_iff (by simp [IsSteady])]
    exact longer
  have unread (full : String) (other : full.toList.head? ≠ some 'h') :
      abbreviates ('h' :: more) full = false :=
    abbreviates_cons_eq_false other more
  have unequal (full : String) (other : full.toList.head? ≠ some 'h') :
      isWord ('h' :: more) full = false :=
    isWord_cons_eq_false other more
  simp only [Command.read, isEmpty_of_lowerChars lowered, splitCommand,
    lowered, unread "roll" (by decide), unequal "alarms" (by decide),
    unread "alarm" (by decide), unread "initiative" (by decide),
    unread "tracker" (by decide), unhelpful, short, Bool.false_eq_true,
    if_false, if_true]

/-- The commands that neither roll nor clear the remembered rolls. -/
def Command.KeepsRolls : Command → Prop
  | .roll _ | .clear => False
  | _ => True

theorem keepsRolls_of_map {α : Type} {read : Except SessionError α}
    {toCommand : α → Command} {command : Command}
    (keeps : ∀ arguments, (toCommand arguments).KeepsRolls)
    (reads : read.map toCommand = .ok command) :
    command.KeepsRolls := by
  cases read with
  | error error =>
      cases reads
  | ok arguments =>
      cases reads
      exact keeps arguments

theorem keepsRolls_of_readAlarmArguments {text : List Char}
    {command : Command} (reads : readAlarmArguments text = .ok command) :
    command.KeepsRolls := by
  simp only [readAlarmArguments] at reads
  split at reads
  · cases reads
  · split at reads
    · cases reads
      trivial
    · cases reads

/-- Where neither a roll word nor `clear` stands and no notation either,
whatever is asked for keeps the remembered rolls. -/
theorem keepsRolls_of_read {line : List Char} {error : NotationError}
    (silent : readChars line = .error error)
    (rollless : ¬ Shortens (splitFirst line).1 "roll")
    (clearless : ¬ Shortens (splitFirst line).1 "clear") {command : Command}
    (reads : Command.read line = .ok command) :
    command.KeepsRolls := by
  rw [← abbreviates_lowerChars_iff (by simp [IsSteady]), Bool.not_eq_true]
    at rollless clearless
  simp only [Command.read, splitCommand, rollless, clearless, readBareDice,
    silent, Bool.false_eq_true, if_false] at reads
  split_ifs at reads
  · cases reads
    trivial
  · cases reads
    trivial
  · exact keepsRolls_of_readAlarmArguments reads
  · apply keepsRolls_of_map _ reads
    exact fun _ => trivial
  · apply keepsRolls_of_map _ reads
    exact fun _ => trivial
  · cases reads
    trivial
  · cases reads
    trivial
  · cases reads
    trivial
  · cases reads
    trivial

end Tabletop.Session
