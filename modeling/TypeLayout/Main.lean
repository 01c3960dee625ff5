import TypeLayout.Cli.Command
/-! The program: it reads the files that its arguments name, runs the command, prints and writes. -/

open TypeLayout

namespace TypeLayout.Cli

def Task.unit? : Task → Option String
  | .query unit _ _ => some unit
  | .dump unit _ _ => some unit
  | .profiles _ => none

def Request.inputs : Request → List String
  | .run i => i.shared.config.toList ++ i.task.unit?.toList
  | _ => []

def reasonOf : IO.Error → String
  | .noFileOrDirectory _ _ _ => "No such file or directory (os error 2)"
  | .permissionDenied _ _ _ => "Permission denied (os error 13)"
  | .inappropriateType _ code _ =>
    if code = 20 then "Not a directory (os error 20)" else "Is a directory (os error 21)"
  | e => toString e

def readInput (path : String) : IO (String × Except String String) := do
  try
    return (path, .ok (← IO.FS.readFile path))
  catch e => return (path, .error (reasonOf e))

def isMissing : Except String String → Bool
  | .error reason => reason == reasonOf (.noFileOrDirectory "" 0 "")
  | .ok _ => false

def filesOf (inputs : List (String × Except String String)) (refusal : Option String) : Files where
  read path := (inputs.lookup path).getD (.error "")
  exists? path := !(((inputs.lookup path).map isMissing).getD true)
  refusal? _ := refusal

def writeAll : List (String × String) → IO (Option String)
  | [] => pure none
  | (path, text) :: rest => do
    try
      IO.FS.writeFile path text
      writeAll rest
    catch e => return some (reasonOf e)

end TypeLayout.Cli

open TypeLayout.Cli in
def main (args : List String) : IO UInt32 := do
  let colored := (← IO.getEnv "CLICOLOR_FORCE").any fun v => v ≠ "0"
  let inputs ← (readArguments args).inputs.mapM readInput
  let planned := execute (filesOf inputs none) colored args
  let refusal ← writeAll planned.written
  let t := if refusal.isSome then execute (filesOf inputs refusal) colored args else planned
  for line in t.out do
    IO.println line
  for line in t.err do
    IO.eprintln line
  return t.exitCode.toUInt32
