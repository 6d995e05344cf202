import RegistryKeeper.Text.Quoted

namespace RegistryKeeper

inductive LogLevel where
  | error
  | warn
  | info
  | debug
  | trace
  deriving DecidableEq, Repr, Inhabited

def wordOfText? (s : String) : Option Nat :=
  let ds := match s.toList with
    | '+' :: r => r
    | cs => cs
  let n := ds.foldl (fun n d => 10 * n + (d.toNat - 48)) 0
  if !ds.isEmpty && ds.all Char.isDigit && n < Nat.pow 2 64 then some n else none

namespace LogLevel

def all : List LogLevel := [error, warn, info, debug, trace]

def name : LogLevel → String
  | error => "ERROR"
  | warn => "WARN"
  | info => "INFO"
  | debug => "DEBUG"
  | trace => "TRACE"

def number : LogLevel → Nat
  | error => 1
  | warn => 2
  | info => 3
  | debug => 4
  | trace => 5

def ofText? (s : String) : Option LogLevel :=
  match wordOfText? s with
  | some n => all.find? fun l => l.number = n
  | none => all.find? fun l => l.name = s.toUpper

end LogLevel

end RegistryKeeper
