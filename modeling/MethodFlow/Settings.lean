import MethodFlow.Name

namespace MethodFlow

/-- The domain that methods are analyzed over. -/
inductive Policy where
  /-- Kinds of values, without checks. -/
  | basic
  /-- Kinds of values, with every operand checked. -/
  | verify
  /-- Verification types, checked against a hierarchy of classes. -/
  | simple
  /-- Where values come from. -/
  | source
deriving DecidableEq, Repr

namespace Policy

def all : List Policy := [basic, verify, simple, source]

def name : Policy → String
  | basic => "basic"
  | verify => "verify"
  | simple => "simple"
  | source => "source"

def ofName? (text : String) : Option Policy := all.find? fun policy => policy.name = text

/-- Says that a text names no policy. -/
def unknownMessage (text : String) : String := "Unknown policy '" ++ text ++ "'"

theorem ofName?_name (policy : Policy) : ofName? policy.name = some policy := by
  cases policy <;> decide

end Policy

structure Settings where
  policy : Policy := .simple
  /-- Are limits computed even where they are declared? -/
  computeLimits : Bool := false
  printFrames : Bool := true
  /-- Stack maps exist only for verification types. -/
  printStackMap : Bool := false
  /-- Does the run go on after a method that fails? -/
  keepGoing : Bool := false
  /-- The class of methods outside of any class. -/
  defaultOwner : BinaryName := .main

/-- The choices of a user who makes none. -/
def Settings.default : Settings := {}

end MethodFlow
