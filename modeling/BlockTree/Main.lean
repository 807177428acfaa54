import BlockTree.CommandLine.Program

/-! The program as it runs: the paths that the arguments mention are read, and what the run changed
is written back. -/
namespace BlockTree.CommandLine

def mentioned (args : List String) (env : Environment) : List String :=
  (args ++ args.filterMap (fun a => (Scanned.cut a).2) ++ env.logFile.toList).filter (· ≠ "")

def stations (path : String) : List String :=
  let parts := Path.partsOf path
  let stops := (List.range parts.length).map fun n =>
    ((parts.take (n + 1)).foldl Path.step (Path.origin path)).text
  stops.filter (· ≠ "")

/-- Adds what a path leads to. What is there and cannot be read is a directory. -/
def observe (d : Disk) (path : String) : IO Disk := do
  match ← (IO.FS.readBinFile path).toBaseIO with
  | .ok bytes => return { d with files := Disk.put path bytes d.files }
  | .error (.noFileOrDirectory ..) => return d
  | .error _ => return { d with directories := path :: d.directories }

end BlockTree.CommandLine

open BlockTree CommandLine in
def main (args : List String) : IO UInt32 := do
  let env : Environment := ⟨← IO.getEnv "DOCBLOCK_LOG_FILE", ← IO.getEnv "DOCBLOCK_SUBSTITUTIONS"⟩
  let paths := (mentioned args env).flatMap stations
  let disk ← paths.foldlM observe ⟨[], []⟩
  let o := run ⟨.narrow, env, [], .fresh⟩ disk args
  for (path, bytes) in o.disk.changes disk do IO.FS.writeBinFile path bytes
  IO.print o.output
  IO.eprint o.errors
  match o.ending with
  | .failure f => IO.eprintln f.message
  | .usage => IO.eprintln "Usage: docblock [OPTIONS] COMMAND [ARGS]..."
  | _ => pure ()
  return o.exitCode.toUInt32
