import SupervisedWorker.Journal
import SupervisedWorker.Number.Numeral
import SupervisedWorker.Text.Blank
import SupervisedWorker.Text.Pieces

/-!
# Which entries are shown

A filter is written as directives with commas between them. A directive is a level, which is for all
topics, or the beginning of topics' names, with a level behind a sign of equality if it is not for
everything. Of the directives that fit an entry's topic the one with the longest beginning decides,
and of equals the last; an entry that no directive fits is not shown.
-/

namespace SupervisedWorker

/-- One directive of a filter. -/
structure LogDirective where
  /-- How the names of its topics begin; none if it is for all. -/
  head : Option (List Char)
  /-- How many severities it lets pass, the gravest first. -/
  verbosity : Nat
deriving DecidableEq, Repr, Inhabited

namespace LogDirective

/-- The verbosity that lets everything pass. -/
def everything : Nat := 5

/-- The names of the levels. -/
def levels : List (String × Nat) :=
  [("off", 0), ("error", 1), ("warn", 2), ("info", 3), ("debug", 4), ("trace", everything)]

/-- The level that a number or a name in any case stands for. -/
def levelOf (s : List Char) : Option Nat :=
  match Numeral.unsigned s with
  | some n => if n ≤ everything then some n else none
  | none => levels.lookup (String.ofList (s.map Char.toLower))

/-- Whether a directive may begin with a character. -/
def mayBegin (c : Char) : Bool :=
  ['-', ':', '_', '['].contains c || c.isAlphanum || 128 ≤ c.toNat

/-- Reads a directive. What begins like a level but is none is taken for topics; blanks are not
dropped, so a level with blanks around it is none. -/
def read (s : List Char) : Option LogDirective :=
  match Text.trim s with
  | [] => none
  | first :: rest =>
    if !mayBegin first then none
    else
      match rest.idxOf? '=' with
      | none =>
        match levelOf s with
        | some n => some ⟨none, n⟩
        | none => some ⟨some s, everything⟩
      | some i =>
        let head := s.take (i + 1)
        let level := s.drop (i + 2)
        if level = [] then some ⟨some head, everything⟩
        else (levelOf level).map fun n => ⟨some head, n⟩

/-- Whether a directive is for an entry's topic. -/
def fits (d : LogDirective) (e : JournalEntry) : Bool :=
  match d.head with
  | none => true
  | some head => head.isPrefixOf e.topic.name.toList

/-- How special a directive is. -/
def weight (d : LogDirective) : Nat := (d.head.map (·.length)).getD 0

/-- The more special of two directives, the second if they are equal. -/
def prefer (d : Option LogDirective) (d' : LogDirective) : Option LogDirective :=
  match d with
  | none => some d'
  | some d => if d'.weight < d.weight then some d else some d'

end LogDirective

/-- The directives of a filter, in the order in which they are written. -/
structure LogFilter where
  directives : List LogDirective
deriving DecidableEq, Repr, Inhabited

namespace LogFilter

/-- The filter where nothing is said. -/
def default : LogFilter := ⟨[⟨none, 3⟩]⟩

/-- The filter without a directive lets errors pass. -/
def bare : LogFilter := ⟨[⟨none, 1⟩]⟩

/-- Reads a filter; none if one of its directives cannot be read. -/
def read (text : String) : Option LogFilter :=
  let parts := (Text.pieces (· == ',') text.toList).filter (· ≠ [])
  if parts = [] then some bare else (parts.mapM LogDirective.read).map LogFilter.mk

/-- The filter that a text gives, if there is one and it can be read. -/
def ofText? (text : Option String) : LogFilter := (text.bind read).getD default

/-- Whether an entry is shown. -/
def shows (f : LogFilter) (e : JournalEntry) : Bool :=
  match (f.directives.filter (·.fits e)).foldl LogDirective.prefer none with
  | some d => e.severity.rank < d.verbosity
  | none => false

end LogFilter

end SupervisedWorker
