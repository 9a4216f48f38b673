/-
# `SourceTokens.Log` — events

What happens in a run is told in events of five levels; only those up to a chosen
level are shown.
-/

namespace SourceTokens

/-- Levels, from the gravest to the most talkative. -/
inductive Level
  | error
  | warn
  | info
  | debug
  | trace
  deriving DecidableEq, Repr

namespace Level

def all : List Level := [error, warn, info, debug, trace]

def rank : Level → Nat
  | error => 1
  | warn => 2
  | info => 3
  | debug => 4
  | trace => 5

def name : Level → String
  | error => "ERROR"
  | warn => "WARN"
  | info => "INFO"
  | debug => "DEBUG"
  | trace => "TRACE"

end Level

/-- How much is shown: everything up to a level, or nothing. -/
inductive Verbosity
  | off
  | upTo (l : Level)
  deriving DecidableEq, Repr

namespace Verbosity

def admits : Verbosity → Level → Bool
  | off, _ => false
  | upTo m, l => l.rank ≤ m.rank

/-- The verbosity of a name, in letters of either case. -/
def ofName? (s : String) : Option Verbosity :=
  let s := s.map Char.toUpper
  if s = "OFF" then some off else (Level.all.find? (·.name == s)).map upTo

end Verbosity

/-- Something that happens in a run. -/
inductive Event
  /-- A source was not well formed and has been repaired. -/
  | repaired (path : String)
  | loaded (path : String) (octets : Nat)
  | interpreter (name : String)
  | tokenized (octets tokens : Nat)
  /-- The time that a file took is to be shown. -/
  | timed (file : String) (tokens : Nat)
  | failed (message : String)
  deriving DecidableEq, Repr

namespace Event

def level : Event → Level
  | repaired _ => .warn
  | loaded _ _ => .debug
  | interpreter _ => .trace
  | tokenized _ _ => .debug
  | timed _ _ => .info
  | failed _ => .error

/-- The event in words.  Times are not part of a run and are given from outside. -/
def describe (elapsed : String) : Event → String
  | repaired path => "invalid UTF-8, replacing bad sequences path=" ++ path
  | loaded path octets => "loaded source path=" ++ path ++ " bytes=" ++ toString octets
  | interpreter name => "interpreter line name=" ++ name
  | tokenized octets tokens =>
    "extracted tokens bytes=" ++ toString octets ++ " tokens=" ++ toString tokens
  | timed file tokens =>
    "extract_tokens file=" ++ file ++ " tokens=" ++ toString tokens ++ " elapsed=" ++
      elapsed
  | failed message => message

/-- The line of the event. -/
def line (elapsed : String) (e : Event) : String :=
  e.level.name ++ " " ++ e.describe elapsed

end Event

end SourceTokens
