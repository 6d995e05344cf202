/-!
Text for a terminal holds control sequences, which begin with an escape character; those that mark
emphasis are written around what a message points at. Where the output is no terminal, `plain`
takes them out again, and with them all that the quoted text had of its own.

A line feed inside a sequence is still shown, and what follows it up to the next character that is
not shown; only there the sequence goes on.
-/

namespace RegistryKeeper.Terminal

inductive State where
  | ground
  | escape
  | intermediate
  | command
  | stringHead
  | string
  | title
  deriving DecidableEq, Repr

def isAscii (c : Char) : Bool := c.toNat < 128

def isControl (c : Char) : Bool := c.toNat < 32

def isLayout (c : Char) : Bool := c = '\t' || c = '\n' || c = '\x0c' || c = '\r'

def isShown (c : Char) : Bool := if isControl c then isLayout c else c ≠ '\x7f'

def isFinal (c : Char) : Bool := '@' ≤ c && c ≤ '~'

def holdsTerminator (c : Char) : Bool :=
  !isAscii c && (String.singleton c).toUTF8.toList.any (· = 0x9c)

def interrupt? (c : Char) : Option State :=
  if c = '\x18' || c = '\x1a' then some .ground
  else if c = '\x1b' then some .escape
  else none

def afterEscape (c : Char) : State :=
  if c = '[' then .command
  else if c = ']' then .title
  else if c = 'P' then .stringHead
  else if c = 'X' || c = '^' || c = '_' then .string
  else if '0' ≤ c && c ≤ '~' then .ground
  else if ' ' ≤ c && c ≤ '/' then .intermediate
  else .escape

def State.next (s : State) (c : Char) : State :=
  match s with
  | .ground => .ground
  | .escape => afterEscape c
  | .intermediate => if '0' ≤ c && c ≤ '~' then .ground else s
  | .command => if isFinal c then .ground else s
  | .stringHead => if isFinal c then .string else s
  | .string => if holdsTerminator c then .ground else s
  | .title => if c = '\x07' then .ground else s

def State.shows (s : State) (c : Char) : Bool :=
  match s with
  | .ground => isShown c
  | .escape | .intermediate | .command => isLayout c
  | .stringHead | .string | .title => false

/-- Once something is shown all is shown that can be, and the state is kept for later. -/
def strip (showing : Bool) (s : State) : List Char → List Char
  | [] => []
  | c :: r =>
      match interrupt? c with
      | some s => strip false s r
      | none =>
          if showing then
            if isShown c then c :: strip true (if isAscii c then s else .ground) r
            else strip false s r
          else if s.shows c then c :: strip true (s.next c) r
          else strip false (s.next c) r

def plain (text : String) : String := String.ofList (strip false .ground text.toList)

def emphasised (text : String) : String := "\x1b[1m" ++ text ++ "\x1b[0m"

def colourLength (cs : List Char) : Option Nat :=
  match cs with
  | '\x1b' :: '[' :: r =>
      let codes := r.takeWhile fun c => c.isDigit || c = ';'
      if (r.drop codes.length).head? = some 'm' then some (codes.length + 3) else none
  | _ => none

def dropColours (skip : Nat) : List Char → List Char
  | [] => []
  | c :: r =>
      if skip ≠ 0 then dropColours (skip - 1) r
      else
        match colourLength (c :: r) with
        | some n => dropColours (n - 1) r
        | none => c :: dropColours 0 r

def uncoloured (text : String) : String := String.ofList (dropColours 0 text.toList)

def firstLine (text : String) : String :=
  let line := text.toList.takeWhile (· ≠ '\n')
  String.ofList (if line.getLast? = some '\r' then line.dropLast else line)

end RegistryKeeper.Terminal
