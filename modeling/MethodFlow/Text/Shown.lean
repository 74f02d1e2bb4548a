namespace MethodFlow.Text

/-- Items with a comma and a space between them. -/
def commaSeparated (items : List String) : String := ", ".intercalate items

def shownList (items : List String) : String := "[" ++ commaSeparated items ++ "]"

def shownPair (first second : String) : String := "(" ++ first ++ ", " ++ second ++ ")"

/-- A name with arguments, in parentheses. -/
def shownCall (name : String) (arguments : List String) : String :=
  name ++ "(" ++ commaSeparated arguments ++ ")"

/-- A name with fields, in braces. -/
def shownRecord (name : String) (fields : List (String × String)) : String :=
  name ++ " \x7b " ++ commaSeparated (fields.map fun (field, value) => field ++ ": " ++ value) ++
    " \x7d"

/-- Numbers in braces. -/
def shownSet (items : List Nat) : String := "\x7b" ++ commaSeparated (items.map toString) ++ "\x7d"

/-- An optional value: its form as an argument, or the bare name of absence. -/
def shownOption (value : Option String) : String :=
  match value with
  | none => "None"
  | some shown => shownCall "Some" [shown]

def shownBool (value : Bool) : String := if value then "true" else "false"

end MethodFlow.Text
