import CampusQuery.CommandLine.Run

/-!
# The program

The files that a run may look at are gathered into a tree, the run is carried
out on the tree, and what it changed is written back.
-/

namespace CampusQuery.CommandLine

/-- The environment variables that a run looks at. -/
def variableNames : List String :=
  ["INSIGHT_API_HOST", "INSIGHT_API_PORT", "INSIGHT_MAX_RESULT_ROWS", "INSIGHT_DATA_DIR",
    "INSIGHT_LOG_LEVEL", "INSIGHT_LOG_FORMAT", "RUST_LOG", "XDG_CONFIG_HOME", "HOME"]

/-- The paths that an invocation may look at or change under settings. -/
def pathsOf (invocation : Invocation) (config : Config) : List String :=
  let operands := match invocation.command with
    | .query file => [file]
    | .datasets => []
    | .config output => output.toList
  operands ++ (dataDirectory invocation config).toOption.toList ++ config.logging.file.toList

/-- The places on the way to a place, the nearest to the top first. -/
def waysTo (place : Place) : List Place :=
  (List.range (place.length + 1)).map place.take

def pathOf (place : Place) : String := "/" ++ "/".intercalate place

/-- The values of the environment variables. -/
def currentEnvironment : IO Environment := do
  let values ← variableNames.mapM fun name => do return (name, ← IO.getEnv name)
  return fun name => (values.lookup name).join

/-- What stands at a place, with the names inside a directory. -/
def look (place : Place) : IO (Option (FileNode × List String)) := do
  try
    let entries ← (← IO.FS.realPath (pathOf place)).readDir
    return some (.directory, entries.toList.map fun entry => entry.fileName)
  catch _ =>
    try
      return some (.file (← IO.FS.readFile (pathOf place)), [])
    catch _ => return none

/-- The tree of what stands at paths and on the way to them, with the seed files right inside. -/
def gather (workingDirectory : Place) (paths : List String) : IO FileTree := do
  let mut nodes := []
  for path in paths do
    let place := (⟨[], workingDirectory⟩ : FileTree).place path
    for way in waysTo place do
      if let some (node, names) ← look way then
        nodes := (way, node) :: nodes
        if way = place then
          for name in names.filter Dataset.isSeedName do
            if let some (inner, _) ← look (way ++ [name]) then
              nodes := (way ++ [name], inner) :: nodes
  return ⟨nodes, workingDirectory⟩

/-- Write back what stands in a tree and did not stand there before. -/
def writeBack (earlier later : FileTree) : IO Unit := do
  for (place, node) in later.nodes.reverse do
    if earlier.node? place ≠ some node then
      match node with
      | .directory => IO.FS.createDirAll (pathOf place)
      | .file content => IO.FS.writeFile (pathOf place) content

/-- Carry out an invocation on the files there are. -/
def runOnDisk (invocation : Invocation) : IO Outcome := do
  let env ← currentEnvironment
  let workingDirectory := (⟨[], []⟩ : FileTree).place (← IO.currentDir).toString
  let known ← gather workingDirectory (Config.locations env)
  let config := Config.loadDefault known env
  let tree ← gather workingDirectory (Config.locations env ++ pathsOf invocation config)
  let started ← IO.monoMsNow
  let result := (perform invocation env).run.run tree
  writeBack tree result.2
  let elapsed := (← IO.monoMsNow) - started
  return .of invocation.format (toString elapsed) result

/-- Print what an outcome tells and give its status. -/
def conclude (outcome : Outcome) : IO UInt32 := do
  IO.print outcome.stdout
  if let some message := outcome.stderr then
    IO.eprintln message
  return UInt32.ofNat outcome.status

end CampusQuery.CommandLine

def main (arguments : List String) : IO UInt32 := do
  match CampusQuery.CommandLine.Invocation.ofArguments? arguments with
  | some invocation =>
      CampusQuery.CommandLine.conclude (← CampusQuery.CommandLine.runOnDisk invocation)
  | none =>
      CampusQuery.CommandLine.conclude
        (CampusQuery.CommandLine.run arguments (fun _ => none) ⟨[], []⟩ "0")
