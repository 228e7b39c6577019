/-!
# Texts in pieces

A text falls into pieces at its separators: one piece more than there are separators, and some of
them may be empty.
-/

namespace SupervisedWorker.Text

/-- The pieces of a text between the characters that satisfy `p`. -/
def pieces (p : Char → Bool) : List Char → List (List Char)
  | [] => [[]]
  | c :: s =>
    if p c then [] :: pieces p s
    else
      match pieces p s with
      | [] => [[c]]
      | piece :: rest => (c :: piece) :: rest

end SupervisedWorker.Text
