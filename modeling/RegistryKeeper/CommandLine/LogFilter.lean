import RegistryKeeper.CommandLine.LogLevel
import RegistryKeeper.CommandLine.Pattern
import RegistryKeeper.Text.Space

/-!
Which lines of the log are written. A filter is a list of directives joined by commas; each names a
level, or a target, or both, and may ask for fields of the line or for a span around it. Of the
directives for a line the one with the longest target decides.

The parts of a directive are told apart without the white space at its ends, but they are cut out
of the whole: behind white space at the beginning they come out shifted by as many bytes, and white
space at the end belongs to the last of them. Nothing can be cut off within a character.
-/

namespace RegistryKeeper

structure LogPoint where
  level : LogLevel
  target : String
  fields : List String
  deriving DecidableEq, Repr

structure Directive where
  target : Option String
  span : Option String
  fields : List (String × Option String)
  level : Option LogLevel
  deriving DecidableEq, Repr

inductive FilterFault where
  | malformed
  | dividedCharacter
  deriving DecidableEq, Repr

namespace Directive

abbrev Reading (α : Type) := Except FilterFault α

def orMalformed {α : Type} (a : Option α) : Reading α := a.elim (.error .malformed) .ok

def levelOfText? (s : String) : Option (Option LogLevel) :=
  if s.toLower = "off" || wordOfText? s = some 0 then some none
  else (LogLevel.ofText? s).map some

def levelAfterSign? (s : String) : Option (Option LogLevel) :=
  if s = "" then some (some .trace) else levelOfText? s

def isDecimal (cs : List Char) : Bool :=
  let whole := cs.takeWhile Char.isDigit
  let r := cs.dropWhile Char.isDigit
  let (part, r) := match r with
    | '.' :: r => (r.takeWhile Char.isDigit, r.dropWhile Char.isDigit)
    | r => ([], r)
  !(whole ++ part).isEmpty &&
    match r with
    | [] => true
    | c :: r =>
        let r := if r.head? = some '+' || r.head? = some '-' then r.drop 1 else r
        (c = 'e' || c = 'E') && !r.isEmpty && r.all Char.isDigit

def isPlusNumber : List Char → Bool
  | '+' :: r => isDecimal r || (String.ofList r).toLower ∈ ["inf", "infinity", "nan"]
  | _ => false

def isValue (s : String) : Bool := isPlusNumber s.toList || Pattern.isValid s.toList

def fieldOfText? (s : String) : Option (String × Option String) :=
  let name := String.ofList (s.toList.takeWhile (· ≠ '='))
  match s.toList.dropWhile (· ≠ '=') with
  | [] => if s = "" then none else some (name, none)
  | _ :: r =>
      let value := String.ofList (r.takeWhile (· ≠ '='))
      if isValue value then some (name, some value) else none

def bytes : List Char → Nat
  | [] => 0
  | c :: r => c.utf8Size + bytes r

def splitBytes : Nat → List Char → Reading (List Char × List Char)
  | 0, cs => .ok ([], cs)
  | _, [] => .error .dividedCharacter
  | n, c :: r =>
      if c.utf8Size ≤ n then do
        let (front, back) ← splitBytes (n - c.utf8Size) r
        return (c :: front, back)
      else .error .dividedCharacter

def cutFrom (whole : List Char) (start : Nat) : Reading String := do
  let (_, r) ← splitBytes start whole
  return String.ofList r

def cut (whole : List Char) (start size : Nat) : Reading String := do
  let (_, r) ← splitBytes start whole
  let (part, _) ← splitBytes size r
  return String.ofList part

def levelFrom (whole : List Char) (start : Nat) : Reading (Option LogLevel) := do
  orMalformed (levelAfterSign? (← cutFrom whole start))

def readRest (whole : List Char) (target span : Option String)
    (fields : List (String × Option String)) (start : Nat) : List Char → Reading Directive
  | [] => .ok ⟨target, span, fields, some .trace⟩
  | '=' :: _ => do return ⟨target, span, fields, ← levelFrom whole (start + 1)⟩
  | _ => .error .malformed

def readSpan (whole : List Char) (target : Option String) (start : Nat) (cs : List Char) :
    Reading Directive := do
  let size := bytes (cs.takeWhile fun c => c ≠ ']' ∧ c ≠ '\x7b')
  let next := start + size + 1
  match cs.dropWhile (fun c => c ≠ ']' ∧ c ≠ '\x7b') with
  | ']' :: r => readRest whole target (some (← cut whole start size)) [] next r
  | '\x7b' :: r =>
      let name ← cut whole start size
      let size := bytes (r.takeWhile (· ≠ '\x7d'))
      match r.dropWhile (· ≠ '\x7d') with
      | '\x7d' :: r =>
          let field ← orMalformed (fieldOfText? (← cut whole next size))
          match r with
          | ']' :: r =>
              readRest whole target (if name = "" then none else some name) [field]
                (next + size + 2) r
          | _ => throw .malformed
      | _ => throw .malformed
  | _ => throw .malformed

def mayStart (c : Char) : Bool := Text.isAlphanumeric c || c = '-' || c = ':' || c = '_'

def ofText (s : String) : Reading Directive :=
  let whole := s.toList
  let cs := Text.trimmed whole
  match cs with
  | [] => .error .malformed
  | '[' :: r => readSpan whole none 1 r
  | c :: _ => do
      if !mayStart c then throw .malformed
      let size := bytes (cs.takeWhile fun c => c ≠ '=' ∧ c ≠ '[')
      match cs.dropWhile (fun c => c ≠ '=' ∧ c ≠ '[') with
      | [] =>
          match levelOfText? s with
          | some level => return ⟨none, none, [], level⟩
          | none => return ⟨some s, none, [], some .trace⟩
      | '=' :: _ =>
          let name ← cut whole 0 size
          return ⟨some name, none, [], ← levelFrom whole (size + 1)⟩
      | _ :: r => readSpan whole (some (← cut whole 0 size)) (size + 1) r

def isOpen (d : Directive) : Bool := d.span.isNone && d.fields.all fun f => f.2.isNone

def concerns (d : Directive) (p : LogPoint) : Bool :=
  d.isOpen && (d.target.getD "").toList.isPrefixOf p.target.toList
    && d.fields.all fun f => f.1 ∈ p.fields

def allows (d : Directive) (l : LogLevel) : Bool :=
  match d.level with
  | some most => l.number ≤ most.number
  | none => false

def targetWeight (d : Directive) : Nat := (d.target.map fun t => t.utf8ByteSize + 1).getD 0

def fieldNames (d : Directive) : List String := d.fields.map (·.1)

/-- Whether a directive describes its lines less closely than another one: by its target, then by
the number of its fields, then by their names. -/
def isVaguer (d e : Directive) : Bool :=
  d.targetWeight < e.targetWeight
    || (d.targetWeight = e.targetWeight
      && (d.fields.length < e.fields.length
        || (d.fields.length = e.fields.length && d.fieldNames < e.fieldNames)))

def closer (best : Option Directive) (d : Directive) : Option Directive :=
  match best with
  | none => some d
  | some e => if d.isVaguer e then some e else some d

end Directive

abbrev LogFilter := List Directive

namespace LogFilter

def ofText (s : String) : Directive.Reading LogFilter :=
  let pieces := (s.splitOn ",").filter (· ≠ "")
  if pieces.isEmpty then .ok [⟨none, none, [], some .error⟩]
  else pieces.mapM Directive.ofText

def allows (f : LogFilter) (p : LogPoint) : Bool :=
  match (f.filter fun d => d.concerns p).foldl Directive.closer none with
  | some d => d.allows p.level
  | none => false

def standard (level : LogLevel) : LogFilter :=
  [⟨none, none, [], some level⟩, ⟨some "kube", none, [], some .info⟩,
    ⟨some "tower", none, [], some .warn⟩, ⟨some "hyper", none, [], some .warn⟩]

/-- A filter in the environment counts if it is well formed, and else the level of the options.
There is no filter if one cannot be cut into its parts. -/
def choose (fromEnvironment : Option String) (level : LogLevel) : Option LogFilter :=
  match fromEnvironment.map ofText with
  | some (.ok f) => some f
  | some (.error .dividedCharacter) => none
  | some (.error .malformed) | none => some (standard level)

end LogFilter

end RegistryKeeper
