import SupervisedWorker.Number.Binary64

/-!
# TOML values

A moment (a date, a time or both) has no values of its own here: it stands for its normal text.
-/

namespace SupervisedWorker

namespace Toml

/-- A value of a TOML document. -/
inductive Value
  | text (s : String)
  | integer (n : Int)
  | decimal (x : Binary64)
  | boolean (b : Bool)
  /-- A date, a time or both, in normal form. -/
  | moment (s : String)
  | list (items : List Value)
  /-- Keys and values in the order in which the document gives them. -/
  | table (entries : List (String × Value))
deriving Repr, Inhabited

end Toml

end SupervisedWorker
