namespace RegistryKeeper.Text

inductive Expression where
  | never
  | blank
  | start
  | finish
  | oneOf (ranges : List (Char × Char))
  | either (e f : Expression)
  | sequence (e f : Expression)
  | many (e : Expression)
  deriving DecidableEq, Repr

def inRanges (ranges : List (Char × Char)) (c : Char) : Bool :=
  ranges.any fun r => r.1 ≤ c && c ≤ r.2

namespace Expression

def optional (e : Expression) : Expression := .either e .blank

def matchesEmpty (atStart atEnd : Bool) : Expression → Bool
  | .never | .oneOf _ => false
  | .blank | .many _ => true
  | .start => atStart
  | .finish => atEnd
  | .either e f => e.matchesEmpty atStart atEnd || f.matchesEmpty atStart atEnd
  | .sequence e f => e.matchesEmpty atStart atEnd && f.matchesEmpty atStart atEnd

def after (atStart : Bool) (c : Char) : Expression → Expression
  | .never | .blank | .start | .finish => .never
  | .oneOf ranges => if inRanges ranges c then .blank else .never
  | .either e f => .either (e.after atStart c) (f.after atStart c)
  | .sequence e f =>
      if e.matchesEmpty atStart false then
        .either (.sequence (e.after atStart c) f) (f.after atStart c)
      else .sequence (e.after atStart c) f
  | .many e => .sequence (e.after atStart c) (.many e)

def matchesHere : (atStart : Bool) → Expression → List Char → Bool
  | atStart, e, [] => e.matchesEmpty atStart true
  | atStart, e, c :: r =>
      e.matchesEmpty atStart false || matchesHere false (e.after atStart c) r

def isFoundFrom (e : Expression) : (atStart : Bool) → List Char → Bool
  | atStart, [] => matchesHere atStart e []
  | atStart, c :: r => matchesHere atStart e (c :: r) || isFoundFrom e false r

def isFoundIn (e : Expression) (cs : List Char) : Bool := e.isFoundFrom true cs

end Expression

end RegistryKeeper.Text
