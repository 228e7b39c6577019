/-!
# Failures with their causes

A failure is a message and the chain of causes behind it, outermost first. It has three texts: the
plain one shows the message alone, the chain text joins all messages on one line, and the full text
lists the causes below the message.
-/

namespace SupervisedWorker

/-- What the operating system says about one of its error numbers. -/
def osMessage : Nat → Option String
  | 1 => some "Operation not permitted"
  | 2 => some "No such file or directory"
  | 5 => some "Input/output error"
  | 11 => some "Resource temporarily unavailable"
  | 12 => some "Cannot allocate memory"
  | 13 => some "Permission denied"
  | 17 => some "File exists"
  | 20 => some "Not a directory"
  | 21 => some "Is a directory"
  | 22 => some "Invalid argument"
  | 28 => some "No space left on device"
  | 32 => some "Broken pipe"
  | 36 => some "File name too long"
  | 39 => some "Directory not empty"
  | 40 => some "Too many levels of symbolic links"
  | 98 => some "Address already in use"
  | 104 => some "Connection reset by peer"
  | 110 => some "Connection timed out"
  | 111 => some "Connection refused"
  | _ => none

/-- The text of an operating-system error, which ends in its number. -/
def osErrorText (code : Nat) : String :=
  (osMessage code).getD s!"Unknown error {code}" ++ s!" (os error {code})"

/-- A failure: its message and the causes behind it, the nearest first. -/
structure Failure where
  message : String
  causes : List String
deriving DecidableEq, Repr, Inhabited

namespace Failure

/-- A failure without a cause. -/
def ofMessage (message : String) : Failure := ⟨message, []⟩

/-- The failure with the given messages, outermost first; without any it just says `failed`. -/
def ofChain : List String → Failure
  | [] => ofMessage "failed"
  | message :: causes => ⟨message, causes⟩

/-- The failure whose root is an operating-system error, with contexts around it: what a hook or a
task fails with whose call of the system was refused. -/
def ofSystem (contexts : List String) (code : Nat) : Failure :=
  ofChain (contexts ++ [osErrorText code])

/-- The failure as the cause of a wider one. -/
def within (f : Failure) (context : String) : Failure := ⟨context, f.message :: f.causes⟩

/-- The messages, outermost first. -/
def messages (f : Failure) : List String := f.message :: f.causes

/-- The outermost message. -/
def text (f : Failure) : String := f.message

/-- All messages on one line, for those who show a failure in short. -/
def chainText (f : Failure) : String := String.intercalate ": " f.messages

/-- Puts `indent` after every line break. -/
def indentLines (indent : List Char) (s : List Char) : List Char :=
  s.flatMap fun c => if c == '\n' then '\n' :: indent else [c]

/-- One cause on lines of its own, behind a label that its further lines are indented past. -/
def causeLines (label : List Char) (indent : Nat) (cause : String) : List Char :=
  '\n' :: label ++ indentLines (List.replicate indent ' ') cause.toList

/-- The label of the `n`-th of several causes: its number in five columns. -/
def causeLabel (n : Nat) : List Char :=
  let digits := Nat.toDigits 10 n
  List.replicate (5 - digits.length) ' ' ++ digits ++ [':', ' ']

/-- Several causes, numbered from `n`. -/
def numberedCauses (n : Nat) : List String → List Char
  | [] => []
  | cause :: rest => causeLines (causeLabel n) 7 cause ++ numberedCauses (n + 1) rest

/-- The message and, below it, its causes: a single one indented, several numbered. -/
def fullText (f : Failure) : String :=
  match f.causes with
  | [] => f.message
  | [cause] =>
    f.message ++ "\n\nCaused by:" ++ String.ofList (causeLines (List.replicate 4 ' ') 4 cause)
  | causes => f.message ++ "\n\nCaused by:" ++ String.ofList (numberedCauses 0 causes)

end Failure

end SupervisedWorker
