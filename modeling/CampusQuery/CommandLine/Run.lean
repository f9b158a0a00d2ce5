import CampusQuery.CommandLine.Report
import CampusQuery.Dataset.Seed

/-!
# Running commands

A run looks at the environment and a file tree and leaves a file tree behind,
also when it fails. The log is set up before anything else is done.
-/

namespace CampusQuery.CommandLine

/-- A step of a run: it may change files and may fail, and what it changed stays. -/
abbrev Action (α : Type) := ExceptT Failure (StateM FileTree) α

def inspect (look : FileTree → Except Failure α) : Action α := do
  match look (← get) with
  | .ok value => pure value
  | .error failure => throw failure

def change (edit : FileTree → Except Failure FileTree) : Action Unit := do
  set (← inspect edit)

/-- The directory of seed files that options and settings name. -/
def dataDirectory (invocation : Invocation) (config : Config) : Except Failure String :=
  match invocation.data.or config.datasets.dir with
  | some directory => .ok directory
  | none => .error .noDirectory

def loadStore (invocation : Invocation) (config : Config) (tree : FileTree) :
    Except Failure Store := do
  let directory ← dataDirectory invocation config
  let (store, loaded) := Store.empty.loadDirectory tree directory
  match loaded with
  | .ok _ => .ok store
  | .error error => .error (.dataset error)

def runQueryFile (invocation : Invocation) (config : Config) (file : String) (tree : FileTree) :
    Except Failure Report := do
  let store ← loadStore invocation config tree
  let text ← (tree.read file).mapError .file
  let output ← (Query.runText config.query.maxResultRows store text).mapError .query
  .ok (.rows output)

/-- Write the template of a configuration file; directories above it are created. -/
def writeTemplate (path : String) : Action Report := do
  match FileTree.parent? path with
  | some parent => change fun tree => (tree.createDirectories parent).mapError .file
  | none => pure ()
  change fun tree => (tree.write path Config.template).mapError .file
  pure (.written path)

/-- Carry out an invocation under settings. -/
def carryOut (invocation : Invocation) (config : Config) : Action Report :=
  match invocation.command with
  | .query file => inspect (runQueryFile invocation config file)
  | .datasets => inspect fun tree => do
      let store ← loadStore invocation config tree
      .ok (.datasets store.list)
  | .config none => pure .template
  | .config (some path) => writeTemplate path

/-- Carry out an invocation: find the settings, set up the log, do what is asked. -/
def perform (invocation : Invocation) (env : Environment) : Action Report := do
  let config ← inspect fun tree => .ok (Config.loadDefault tree env)
  change fun tree => (Logging.setUp config.logging env tree).mapError .logging
  carryOut invocation config

/-- What a finished run leaves behind. -/
structure Outcome where
  status : Nat
  stdout : String
  stderr : Option String
  tree : FileTree

def Outcome.failed (failure : Failure) (tree : FileTree) : Outcome :=
  ⟨failure.status, "", some failure.message, tree⟩

/-- The outcome of a run in a format, given how long it took. -/
def Outcome.of (format : Format) (elapsed : String) (result : Except Failure Report × FileTree) :
    Outcome :=
  match result.1.bind fun report => report.text format elapsed with
  | .ok text => ⟨0, text, none, result.2⟩
  | .error failure => .failed failure result.2

/-- What the command line tells that is only asked for its version. -/
def versionLine : String := "insight-cli " ++ version ++ "\n"

def run (arguments : List String) (env : Environment) (tree : FileTree) (elapsed : String) :
    Outcome :=
  if asksVersion commonOptions arguments then ⟨0, versionLine, none, tree⟩
  else match Invocation.ofArguments? arguments with
    | none => .failed .usage tree
    | some invocation =>
        .of invocation.format elapsed ((perform invocation env).run.run tree)

end CampusQuery.CommandLine
