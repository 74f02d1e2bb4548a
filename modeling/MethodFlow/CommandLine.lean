import MethodFlow.Report

namespace MethodFlow

/-- What the command is asked for. -/
inductive Command where
  /-- Its version. -/
  | version
  /-- A report on the listing in a file. -/
  | report (settings : Settings) (file : Option String)

namespace Command

def versionLine : String := "jvmflow 0.1.0\n"

def usage : String :=
  "usage: jvmflow [--policy POLICY] [--compute-maxs] [--stack-map] [--no-frames] " ++
    "[--keep-going] FILE"

/-- Reads arguments after those that led to some settings. -/
def parseFrom (settings : Settings) (file : Option String) :
    List String → Except String Command
  | [] => .ok (.report settings file)
  | "--version" :: _ => .ok .version
  | "--compute-maxs" :: rest => parseFrom { settings with computeLimits := true } file rest
  | "--stack-map" :: rest => parseFrom { settings with printStackMap := true } file rest
  | "--no-frames" :: rest => parseFrom { settings with printFrames := false } file rest
  | "--keep-going" :: rest => parseFrom { settings with keepGoing := true } file rest
  | "--policy" :: name :: rest =>
    match Policy.ofName? name with
    | some policy => parseFrom { settings with policy := policy } file rest
    | none => .error (Policy.unknownMessage name)
  | argument :: rest =>
    match argument.toList with
    | '-' :: '-' :: 'p' :: 'o' :: 'l' :: 'i' :: 'c' :: 'y' :: '=' :: name =>
      match Policy.ofName? (String.ofList name) with
      | some policy => parseFrom { settings with policy := policy } file rest
      | none => .error (Policy.unknownMessage (String.ofList name))
    | '-' :: _ => .error ("Unexpected argument '" ++ argument ++ "'")
    | _ =>
      match file with
      | none => parseFrom settings (some argument) rest
      | some _ => .error ("Unexpected argument '" ++ argument ++ "'")

/-- Reads the arguments. -/
def parse (arguments : List String) : Except String Command :=
  parseFrom .default none arguments

/-- What the command writes, given the text of its file. -/
def run (arguments : List String) (text : String) : Report :=
  match parse arguments with
  | .error message => ⟨2, "", "error: " ++ message ++ "\n" ++ usage ++ "\n"⟩
  | .ok .version => ⟨0, versionLine, ""⟩
  | .ok (.report settings _) => .ofText settings text

end Command

end MethodFlow
