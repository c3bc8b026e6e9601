import PackModels.Audit.Run

/-!
Contract: the command line.

This module reads the disk, prints, and decides nothing else. An image is a
file that begins as a portable network graphic does; a text is a file whose
bytes are one.
-/

namespace PackModels.CommandLine

/-- The bytes with which an image begins, up to the name of its header. -/
def imageStart : List UInt8 :=
  [0x89, 0x50, 0x4E, 0x47, 0x0D, 0x0A, 0x1A, 0x0A, 0, 0, 0, 13, 0x49, 0x48, 0x44, 0x52]

def number (bytes : List UInt8) : Nat :=
  bytes.foldl (fun value byte => value * 256 + byte.toNat) 0

def contentOf (bytes : ByteArray) : FileContent :=
  let start := (bytes.extract 0 24).toList
  if imageStart.isPrefixOf start && start.length == 24 then
    .image (number ((start.drop 16).take 4)) (number (start.drop 20))
  else
    match String.fromUTF8? bytes with
    | some characters => .text characters
    | none => .other

def isFolder (path : String) : IO Bool := do
  ((← IO.currentDir) / path).isDir

def readContent (path : String) : IO FileContent := do
  return contentOf (← IO.FS.readBinFile path)

/-- The files below a folder, each under the names that lead to it. -/
partial def filesBelow (folder : String) (names : List String) : IO (List PlacedFile) := do
  let mut found := []
  for entry in ← ((← IO.currentDir) / folder).readDir do
    let place := entry.path.toString
    let path := names ++ [entry.fileName]
    if ← isFolder place then
      found := found ++ (← filesBelow place path)
    else
      found := found ++ [⟨path, ← readContent place⟩]
  return found

def disk : Disk IO where
  isFolder := isFolder
  readText path := do
    try
      return (← readContent path).text?
    catch _ =>
      return none
  filesBelow path := do
    if ← isFolder path then filesBelow path [] else return []

def candidates : IO (List String) := do
  let named ← IO.getEnv "RUSTSTONE_ASSETS_ROOT"
  let beside := (← IO.appDir) / "assets"
  return named.toList ++ [beside.toString]

def help : List String :=
  [ "Audit block and item models of an assets directory",
    "",
    "Options:",
    "  -a, --assets <ASSETS>        Assets root holding one directory per namespace",
    "  -c, --config <CONFIG>        Settings file (TOML)",
    "  -n, --namespace <NAMESPACE>  Namespace to audit",
    "  -v, --verbose                Enable verbose logging",
    "      --unreferenced           List every model no block state or item reaches",
    "      --groups                 Print model group statistics",
    "  -h, --help                   Print help",
    "  -V, --version                Print version" ]

def tell : AuditStop → IO Unit
  | .help => IO.println (Text.join "\n" help)
  | .version => IO.println "0.1.0"
  | .usage argument => IO.eprintln ("error: unexpected argument '" ++ argument ++ "'")
  | .unreadable what => IO.eprintln ("Error: cannot read " ++ what)

end PackModels.CommandLine

def main (arguments : List String) : IO UInt32 := do
  let outcome ← PackModels.Audit.run PackModels.CommandLine.disk
    (← PackModels.CommandLine.candidates) arguments
  match outcome with
  | .error stop =>
      PackModels.CommandLine.tell stop
      return UInt32.ofNat stop.exitCode
  | .ok (lines, warnings) =>
      for warning in warnings do
        IO.eprintln warning.message
      for line in lines do
        IO.println line
      return 0
