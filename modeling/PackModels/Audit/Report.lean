import PackModels.Reload.Snapshot

/-!
Contract: the report of an audit, line by line.

The counts come first and are always there. A part about missing textures, one
about models that nothing refers to and one about groups follow where there is
something to tell or where they are asked for, each after an empty line.
-/

namespace PackModels.Report

def counts (snapshot : Snapshot) : List String :=
  let stats := snapshot.stats
  [ "models loaded:       " ++ toString stats.loadedModels,
    "models unparseable:  " ++ toString stats.failedModels,
    "models referenced:   " ++ toString stats.referencedModels,
    "models baked:        " ++ toString stats.bake.uniqueModels,
    "bindings failed:     " ++ toString stats.bake.failedBindings,
    "bake cache:          " ++ toString stats.bake.cacheHits ++ " hits, "
      ++ toString stats.bake.cacheMisses ++ " misses",
    "item models:         " ++ toString snapshot.itemModels.size,
    "sprites:             " ++ toString snapshot.atlases.spriteCount,
    "states without model: " ++ toString stats.dispatchMisses ]

def missingTextures (misses : Misses) : List String :=
  if misses.isEmpty then
    []
  else
    [ "", "missing textures (" ++ toString misses.size ++ " models):" ]
      ++ misses.toList.map
        (fun entry => "  " ++ entry.1 ++ ": " ++ Text.join ", " entry.2.toList)

def unreferenced (models : List ResourceId) (listed : Bool) : List String :=
  if models.isEmpty then
    []
  else
    [ "", "unreferenced models: " ++ toString models.length ]
      ++ (if listed then models.map (fun id => "  " ++ id.render) else [])

def countGroups (snapshot : Snapshot) (counted : Group → Bool) : Nat :=
  (snapshot.registry.handles.filter (fun state => counted (snapshot.groups.group state))).length

def isShared : Group → Bool
  | .shared _ => true
  | _ => false

def groups (snapshot : Snapshot) : List String :=
  [ "",
    "states:              " ++ toString snapshot.registry.stateCount,
    "groups:              " ++ toString snapshot.groups.count,
    "grouped states:      " ++ toString (countGroups snapshot isShared),
    "invisible states:    " ++ toString (countGroups snapshot (· == .invisible)),
    "singleton states:    " ++ toString (countGroups snapshot (· == .alone)) ]

def lines (snapshot : Snapshot) (listUnreferenced showGroups : Bool) : List String :=
  counts snapshot ++ missingTextures snapshot.missingTextures
    ++ unreferenced snapshot.unreferenced listUnreferenced
    ++ (if showGroups then groups snapshot else [])

end PackModels.Report
