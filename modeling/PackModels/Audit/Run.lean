import PackModels.Audit.Arguments
import PackModels.Audit.Report
import PackModels.Pack.Blocks
import PackModels.Pack.Files
import PackModels.Pack.Textures
import PackModels.Reload.Live

/-!
Contract: an audit of one namespace of a pack.

The settings are the defaults or those of a file, and the arguments override
them. The files of the namespace are read, the blocks inferred, and everything
is loaded once and reported. Where the settings name no directory, the first
candidate that is a folder is taken.
-/

namespace PackModels.Audit

def lastResort : String :=
  "assets"

/-- The inputs of the reload that loads a pack, with the warnings so far. -/
def inputs (settings : Settings) (files : PackFiles) : ReloadInputs × List Warning :=
  let blocks := InferredBlocks.registry settings files.states
  let bindings := BindingTable.load blocks.1 files.states
  let items := ItemBinding.load files.items
  ({ models := files.models
     registry := blocks.1
     bindings := bindings.1
     items := items.1
     tints := some (TintTable.ofSettings settings).source
     stitched := some (PackTextures.stitch files.textures) },
    blocks.2 ++ bindings.2 ++ items.2)

def reportOf (settings : Settings) (files : PackFiles) (options : AuditOptions) :
    List String × List Warning :=
  let given := inputs settings files
  let live := LiveModels.start.reload given.1
  (Report.lines live.1.current options.unreferenced options.groups, given.2 ++ live.2)

def override (options : AuditOptions) (settings : Settings) : Settings :=
  { settings with
    assetsRoot := options.assets.or settings.assetsRoot
    space := options.space.getD settings.space
    reportUnreferenced := settings.reportUnreferenced || options.unreferenced }

section

variable {m : Type → Type} [Monad m] (disk : Disk m)

def settings (options : AuditOptions) : m (Except AuditStop Settings) :=
  match options.config with
  | none => return .ok (override options Settings.default)
  | some path => do
      match (← disk.readText path).bind Settings.parse? with
      | some read => return .ok (override options read)
      | none => return .error (.unreadable path)

/-- The first candidate that is a folder, or the last resort. -/
def firstFolder : List String → m String
  | [] => return lastResort
  | candidate :: rest => do
      if ← disk.isFolder candidate then return candidate else firstFolder rest

def root (settings : Settings) (candidates : List String) : m String :=
  match settings.assetsRoot with
  | some path => return path
  | none => firstFolder disk candidates

def run (candidates arguments : List String) :
    m (Except AuditStop (List String × List Warning)) :=
  match AuditOptions.parse arguments with
  | .error stop => return .error stop
  | .ok options => do
      match ← settings disk options with
      | .error stop => return .error stop
      | .ok chosen =>
          let folder := Disk.extend (← root disk chosen candidates) chosen.space
          match ← PackFiles.read disk folder chosen.space with
          | none => return .error (.unreadable folder)
          | some files => return .ok (reportOf chosen files options)

end

end PackModels.Audit
