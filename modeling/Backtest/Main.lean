import Backtest.Engine.AverageCross
import Backtest.Tester.Run

namespace Backtest.CommandLine

def usage : String := "usage: backtest --config FILE [--log-level LEVEL]"

/-- The configuration file that the arguments name. Log levels are taken and not used. -/
def configPath? : List String → Option String
  | [] => none
  | "-c" :: path :: rest | "--config" :: path :: rest => (configPath? rest).or (some path)
  | "-l" :: _ :: rest | "--log-level" :: _ :: rest => configPath? rest
  | arg :: rest =>
    if "--config=".isPrefixOf arg then (configPath? rest).or (some (arg.drop 9).toString)
    else if "--log-level=".isPrefixOf arg then configPath? rest
    else none

/-- Candidates are evaluated on one thread. -/
def cores : Nat := 1

def engines : EngineLoader Float AverageCross.Started := fun path =>
  if path = AverageCross.path then some AverageCross.engine else none

def treeOf (files : List (String × ByteArray)) (directories : List String) : FileTree :=
  let t := directories.foldl (fun t path => (t.createDirectories path).getD t) .empty
  files.foldl (fun t (path, content) =>
    let t := (t.createDirectories ("/".intercalate (FileTree.partsOf path).dropLast)).getD t
    (t.write path content).getD t) t

def content? (path : String) : IO (Option ByteArray) := do
  try return some (← IO.FS.readBinFile path) catch _ => return none

def readAll (paths : List String) : IO (List (String × ByteArray)) := do
  let mut out := #[]
  for path in paths do
    if let some content ← content? path then out := out.push (path, content)
  return out.toList

def fail (message : String) : IO UInt32 := do
  IO.eprintln ("Error: " ++ message)
  return 1

def runChecked (text : String) (config : RunConfig Float) : IO UInt32 := do
  let directory := config.common.exitPath
  try IO.FS.createDirAll directory catch e => return ← fail (toString e)
  let t := treeOf (← readAll config.historyPaths) [directory]
  let seed := (← IO.getRandomBytes 8).toList.foldl (fun n b => n * 256 + b.toNat) 0
  let out := Tester.runText cores text engines seed none t []
  for (name, content) in out.files.filesIn directory do
    IO.FS.writeBinFile (FileTree.join directory name) content
  match out.fault with
  | some f => fail f.message
  | none =>
    IO.print out.output
    return 0

def run (path : String) : IO UInt32 := do
  let some content ← content? path | fail ("Failed to read settings file " ++ path)
  let text := (String.fromUTF8? content).getD ""
  match RunConfig.ofText text cores .empty with
  | .error f => fail f.message
  | .ok (config, _) => runChecked text config

end Backtest.CommandLine

def main (args : List String) : IO UInt32 := do
  match Backtest.CommandLine.configPath? args with
  | none =>
    IO.eprintln Backtest.CommandLine.usage
    return 2
  | some path =>
    let start ← IO.monoMsNow
    let code ← Backtest.CommandLine.run path
    if code = 0 then
      let seconds := ((← IO.monoMsNow) - start).toFloat / 1000.0
      IO.println ("The main programm is finished in " ++ Backtest.Decimal.fixedText 3 seconds ++
        " seconds")
    return code
