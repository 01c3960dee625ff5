import TypeLayout.Cli.Arguments
import TypeLayout.Config.Format
import TypeLayout.Query.Session
import TypeLayout.Report.Export
import TypeLayout.Report.Listing
import TypeLayout.Source.Decode
/-! Running a command: from the arguments and the files it may read to what it prints and
writes. -/

namespace TypeLayout.Cli

/-- The files a command meets. -/
structure Files where
  read : String → Except String String
  exists? : String → Bool
  refusal? : String → Option String

structure Transcript where
  exitCode : Nat := 0
  out : List String := []
  err : List String := []
  written : List (String × String) := []
deriving DecidableEq, Repr

structure Failure where
  context : List String
deriving DecidableEq, Repr

structure Console where
  transcript : Transcript := {}
  threshold : Log.Threshold := some .warn
  colored : Bool := false
  quiet : Bool := false
  json : Bool := false

abbrev CommandM := ExceptT Failure (StateM Console)

namespace CommandM

def print (text : String) : CommandM Unit :=
  modify fun c => { c with transcript := { c.transcript with out := c.transcript.out ++ [text] } }

def printError (text : String) : CommandM Unit :=
  modify fun c => { c with transcript := { c.transcript with err := c.transcript.err ++ [text] } }

def paint (s : Text.Style) (text : String) : CommandM String := do
  return Text.paintIf (← get).colored s text

def write (path text : String) : CommandM Unit :=
  modify fun c =>
    { c with transcript := { c.transcript with written := c.transcript.written ++ [(path, text)] } }

def printLog (entries : Array Log.Entry) : CommandM Unit := do
  let c ← get
  (Log.lines c.threshold c.colored entries.toList).forM printError

def fail {α : Type} (context : List String) : CommandM α := throw ⟨context⟩

end CommandM

open CommandM

def pluralize (count : Nat) (singular plural : String) : String :=
  toString count ++ " " ++ if count = 1 then singular else plural

def ofLayoutError {α : Type} : Except LayoutError α → CommandM α
  | .ok a => pure a
  | .error e => fail [e.message]

def readFile (files : Files) (what path : String) : CommandM String :=
  match files.read path with
  | .ok text => pure text
  | .error reason => fail ["reading " ++ what ++ " " ++ Text.quoted path, reason]

def ofFault {α : Type} (what path text : String) : Except Json.Fault α → CommandM α
  | .ok a => pure a
  | .error f => fail ["parsing " ++ what ++ " " ++ Text.quoted path, f.message text.toList]

def loadConfig (files : Files) (s : Shared) : CommandM Config := do
  let config ← match s.config with
    | some path => do
      let text ← readFile files "config" path
      ofFault "config" path text (Config.parse text)
    | none => pure {}
  let config := match s.profile with
    | some name => config.withProfile name
    | none => config
  match config.abiProfile with
  | .ok _ => pure config
  | .error e => fail ["invalid configuration", e.message]

def loadSession (files : Files) (path : String) (config : Config) : CommandM Session := do
  let text ← readFile files "unit" path
  let unit ← ofFault "unit" path text (SourceUnit.parse text)
  let (outcome, session) := Session.ofUnit unit
  printLog session.journal
  if !outcome.isClean && !(← get).quiet then
    printError (← paint (.plain .yellow)
      (pluralize outcome.errors.length "declaration" "declarations" ++ " did not resolve"))
  pure { session with
    policy := config.basePolicy, caching := config.cacheLayouts, journal := #[] }

def requireUnit (files : Files) (path : String) : CommandM Unit :=
  if files.exists? path then pure ()
  else fail ["Unit file does not exist: " ++ Text.quoted path]

def answersText (config : Config) (hidePadding : Bool) (answers : List Answer) :
    CommandM String := do
  let c ← get
  if c.json then return Export.answers { showPadding := !hidePadding } answers
  else
    let l : Listing :=
      { offsetFormat := config.offsetFormat, colored := c.colored, showPadding := !hidePadding }
    return Text.join "\n\n" (answers.map l.answer)

def requireAnswers (answers : List Answer) : CommandM Unit :=
  let failures := (answers.filter fun a => !a.2.isOk).length
  if 0 < failures then fail [pluralize failures "type" "types" ++ " could not be laid out"]
  else pure ()

def runQuery (files : Files) (config : Config) (path : String) (types : List String)
    (hidePadding : Bool) : CommandM Unit := do
  requireUnit files path
  if types.any fun t => (Text.trim t).isEmpty then fail ["Type expressions must not be empty"]
  let profile ← ofLayoutError config.abiProfile
  let session ← loadSession files path config
  let (reports, session) := Session.reports profile types session
  printLog session.journal
  let answers := types.zip reports
  print (← answersText config hidePadding answers)
  requireAnswers answers

def runDump (files : Files) (config : Config) (path : String) (hidePadding : Bool)
    (output : Option String) : CommandM Unit := do
  requireUnit files path
  let profile ← ofLayoutError config.abiProfile
  let session ← loadSession files path config
  let (answers, session) := session.dump profile
  printLog session.journal
  let c ← get
  if !c.quiet && !c.json then
    print (← paint (.plain .cyan)
      (pluralize answers.length "aggregate" "aggregates" ++ " under " ++ profile.name))
  let text ← answersText config hidePadding answers
  match output with
  | none => print text
  | some path =>
    match files.refusal? path with
    | some reason => fail ["writing " ++ Text.quoted path, reason]
    | none =>
      write path text
      if !c.quiet then
        print (← paint (.plain .green) ("Output written to: " ++ Text.quoted path))
  requireAnswers answers

def profilesToShow (config : Config) (isConfigured : Bool) (names : List String) :
    Except LayoutError (List Profile) :=
  if !names.isEmpty then names.mapM Profile.preset
  else if isConfigured then config.abiProfile.map fun p => [p]
  else .ok Profile.presets

def runProfiles (config : Config) (isConfigured : Bool) (names : List String) : CommandM Unit := do
  let profiles ← ofLayoutError (profilesToShow config isConfigured names)
  let c ← get
  if c.json then print (Export.profiles {} profiles)
  else
    let l : Listing := { colored := c.colored }
    print (Text.join "\n\n" (profiles.map l.profile))

def runTask (files : Files) (i : Invocation) : CommandM Unit := do
  let config ← loadConfig files i.shared
  match i.task with
  | .query unit types hidePadding => runQuery files config unit types hidePadding
  | .dump unit hidePadding output => runDump files config unit hidePadding output
  | .profiles names =>
    runProfiles config (i.shared.profile.isSome || i.shared.config.isSome) names

def Shared.threshold (s : Shared) : Log.Threshold :=
  if 0 < s.verbosity then .ofVerbosity s.verbosity else .ofString (s.logLevel.getD "warn")

def Shared.console (s : Shared) (colored : Bool) : Console where
  threshold := s.threshold
  colored := colored && !s.plain
  quiet := s.quiet
  json := s.json

def perform (files : Files) (colored : Bool) (i : Invocation) : Transcript :=
  match (ExceptT.run (runTask files i)).run (i.shared.console colored) with
  | (.ok _, c) => c.transcript
  | (.error failure, c) =>
    let line := Text.paintIf c.colored (.plain .red) "[!]" ++ " " ++ Text.join ": " failure.context
    { c.transcript with exitCode := 1, err := c.transcript.err ++ [line] }

def helpLines : List String :=
  ["C/C++ type size, alignment and member layout calculator", "",
   "Usage: memory-size-layout [OPTIONS] <COMMAND>", "",
   "Commands:",
   "  query     Lay out each type expression against a declaration unit",
   "  dump      Lay out every named aggregate in a declaration unit",
   "  profiles  Print fundamental size/alignment tables"]

def execute (files : Files) (colored : Bool) (args : List String) : Transcript :=
  match readArguments args with
  | .run i => perform files colored i
  | .version => { out := ["memory-size-layout 1.0.0"] }
  | .help => { out := helpLines }
  | .misuse reason => { exitCode := 2, err := ["error: " ++ reason] }

end TypeLayout.Cli
