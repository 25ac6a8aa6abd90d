import PveZfsTool.Migrate.Discovery

/-!
# The preflight of a migration

`preflight` of `app/migrate.py` reads both hosts and returns the checks a
migration depends on, together with the transfer plan: where the data of
each disk goes and from which common snapshot it can be sent.
-/

namespace PveZfsTool

open Dialogue Text

/-- One check.  `level` is `ok`, or the level the check was added with. -/
structure Check where
  id : Str
  ok : Bool
  detail : Str
  level : Str
  deriving DecidableEq

/-- `add` inside `preflight`. -/
def mkCheck (id : Str) (ok : Bool) (detail level : Str) : Check :=
  ⟨id, ok, detail, if ok then "ok" else level⟩

/-- One disk of the plan. -/
structure PlanEntry where
  key : Str
  sourceDataset : Str
  targetDataset : Str
  used : Str
  targetExists : Bool
  /-- Empty when the two sides share no snapshot. -/
  commonSnapshot : Str
  mode : Str
  deriving DecidableEq

/-- The report of a preflight that could read the guest config. -/
structure PreflightReport where
  checks : List Check
  plan : List PlanEntry
  running : Bool
  targetVmid : Str
  bridges : List Str
  targetBridges : List Str
  sourceStorages : List Str
  targetStorages : List ZfsStorage
  storageSuggestions : List Str
  storageIdSuggestion : Str
  targetStorage : Str
  pull : Bool
  push : Bool
  canPrecopy : Bool
  canCutover : Bool
  deriving DecidableEq

/-- What `preflight` returns. -/
inductive Preflight where
  | invalid (error : Str)
  | unreadable (checks : List Check)
  | report (r : PreflightReport)
  deriving DecidableEq

/-- A value of Python that counts as absent when it is empty. -/
def truthy (s : Option Str) : Option Str := s.filter (· ≠ [])

/-- The volume name on the target: `^(vm|subvol|base|basevol)-vmid-` renamed
to the new VMID. -/
def planBasename (vmid : Str) (newVmid : Option Str) (dataset : Str) : Str :=
  let base := volumeBasename dataset
  match truthy newVmid with
  | none => base
  | some new =>
      if new = vmid then base
      else match leadingWord (volumeKinds.map (fun k => k ++ "-" ++ vmid ++ "-")) base with
        | none => base
        | some whole => kindOf whole ++ "-" ++ new ++ "-" ++ base.drop whole.length

/-- The newest snapshot of the target that the source has too. -/
def commonSnapshot (srcSnaps tgtSnaps : List Str) : Str :=
  (tgtSnaps.reverse.find? (fun s => srcSnaps.contains s)).getD []

/-- The snapshot a target can be sent from, if it exists. -/
def findCommon (source target : Host) (srcDataset targetDataset : Str) (present : Bool) :
    Job Str :=
  if present then do
    let srcSnaps ← listSnapshots source srcDataset
    let tgtSnaps ← listSnapshots target targetDataset
    return commonSnapshot srcSnaps tgtSnaps
  else return []

/-- One turn of the plan loop. -/
def planDisk (source target : Host) (vmid targetRoot : Str) (newVmid : Option Str) (d : Disk) :
    Job PlanEntry := do
  let tds := targetRoot ++ "/" ++ planBasename vmid newVmid d.dataset
  let present ← datasetExists target tds
  let common ← findCommon source target d.dataset tds present
  return ⟨d.key, d.dataset, tds, d.used, present, common,
    if common ≠ [] then "incremental" else "full"⟩

/-- The plan loop. -/
def planDisks (source target : Host) (vmid targetRoot : Str) (newVmid : Option Str) :
    List Disk → Job (List PlanEntry)
  | [] => return []
  | d :: disks => do
    let entry ← planDisk source target vmid targetRoot newVmid d
    let rest ← planDisks source target vmid targetRoot newVmid disks
    return entry :: rest

/-- The `disks` check. -/
def disksCheck (disc : Discovery) : Check :=
  if disc.unresolved ≠ [] then
    mkCheck "disks" false ("not on ZFS / unresolvable: " ++
      join ", " (disc.unresolved.map (fun d => d.1 ++ "=" ++ d.2))) "error"
  else if disc.disks = [] then
    mkCheck "disks" false "no disks found in the guest config" "error"
  else mkCheck "disks" true (join ", " (disc.disks.map Disk.dataset)) "error"

/-- The `bridges` check, if the config names any bridge. -/
def bridgesCheck (srcBridges tgtBridges : List Str) : List Check :=
  let missing := srcBridges.filter (fun b => !tgtBridges.contains b)
  if missing ≠ [] then
    [mkCheck "bridges" false ("missing on the target: " ++ join ", " missing ++
      " (remap them before the cutover)") "warn"]
  else if srcBridges ≠ [] then [mkCheck "bridges" true (join ", " srcBridges) "error"]
  else []

/-- The `target_datasets` check: a target that exists without a common
snapshot blocks. -/
def targetDatasetsCheck (plan : List PlanEntry) : List Check :=
  let blocked := plan.filter (fun p => p.targetExists && p.commonSnapshot = [])
  if blocked ≠ [] then
    [mkCheck "target_datasets" false
      ("target dataset exists without a common snapshot (a forced receive would destroy it): " ++
        join ", " (blocked.map PlanEntry.targetDataset)) "error"]
  else if plan.any (fun p => p.commonSnapshot ≠ []) then
    [mkCheck "target_datasets" true "pre-seeded, incremental transfer possible" "error"]
  else if plan ≠ [] then
    [mkCheck "target_datasets" true "target is empty, full transfer" "error"]
  else []

/-- The `pve_snapshots` check, if the config has snapshot sections. -/
def pveSnapshotsCheck (text : Str) : List Check :=
  let snaps := configSnapshotSections text
  if snaps ≠ [] then
    [mkCheck "pve_snapshots" false ("guest has PVE snapshots (" ++ join ", " (snaps.take 5) ++
      ") -- their vmstate volumes are not migrated") "warn"]
  else []

/-- The push direction is probed only when pulling does not work. -/
def probePush (source target : Host) (pull : Bool) : Job Bool :=
  if pull then return false else probeSsh source target

/-- The part of `preflight` after the config was read. -/
def preflightReport (source target : Host) (vmid gtype targetRoot tgtVmid : Str)
    (newVmid : Option Str) (targetStorage : Str) (cfg : ConfigFile) : Job PreflightReport := do
  let disc ← discoverGuestDisks source gtype cfg.content
  let running ← guestIsRunning source vmid gtype
  let used ← vmidInUse target tgtVmid
  let rootExists ← datasetExists target targetRoot
  let storages ← readZfsStorages target
  let (okSt, detailSt, suggestions) := checkStorageMatch storages targetStorage targetRoot
  let srcBridges := parseConfigBridges cfg.content
  let tgtBridges ← hostBridges target
  let pull ← probeSsh target source
  let push ← probePush source target pull
  let plan ← planDisks source target vmid targetRoot newVmid disc.disks
  let checks :=
    [mkCheck "config" true cfg.path "error", disksCheck disc,
      mkCheck "running" true
        (if running then "running (pre-copy possible while it runs)" else "stopped") "warn",
      if used then
        mkCheck "vmid" false ("VMID " ++ tgtVmid ++ " is already in use on the target") "error"
      else mkCheck "vmid" true ("VMID " ++ tgtVmid ++ " is free on the target") "error",
      if rootExists then mkCheck "target_root" true targetRoot "error"
      else mkCheck "target_root" false
        ("target dataset root " ++ targetRoot ++ " does not exist") "error"] ++
    pveSnapshotsCheck cfg.content ++
    [mkCheck "storage" okSt detailSt "error"] ++
    bridgesCheck srcBridges tgtBridges ++
    [if pull || push then
        mkCheck "ssh" true
          (if pull then "target pulls from source" else "source pushes to target") "error"
      else mkCheck "ssh" false ("no non-interactive SSH between the hosts in either " ++
        "direction -- set up replication or install the key first") "error"] ++
    targetDatasetsCheck plan
  let errors := checks.filter (fun c => !c.ok && c.level = ("error" : Str))
  return {
    checks := checks
    plan := plan
    running := running
    targetVmid := tgtVmid
    bridges := srcBridges
    targetBridges := tgtBridges
    sourceStorages := configStorageIds cfg.content gtype
    targetStorages := storages
    storageSuggestions := suggestions
    storageIdSuggestion := suggestStorageId targetRoot (storages.map ZfsStorage.storage)
    targetStorage := targetStorage
    pull := pull
    push := push
    canPrecopy := errors = []
    canCutover := errors = [] }

/-- The VMID the guest gets on the target. -/
def preflightTargetVmid (vmid : Str) (newVmid : Option Str) : Except Str Str :=
  match truthy newVmid with
  | none => .ok vmid
  | some new => validateVmid new

/-- `preflight` -/
def preflight (source target : Host) (vmid gtype targetRoot : Str) (newVmid : Option Str)
    (targetStorage : Str) : Job Preflight :=
  match validateVmid vmid with
  | .error e => return .invalid e
  | .ok vmid =>
    match preflightTargetVmid vmid newVmid with
    | .error e => return .invalid e
    | .ok tgtVmid =>
      if ¬ matchesDataset targetRoot then return .invalid "invalid target dataset root"
      else do
        match ← readGuestConfig source vmid gtype with
        | .error e => return .unreadable [mkCheck "config" false e "error"]
        | .ok cfg => do
          let r ← preflightReport source target vmid gtype targetRoot tgtVmid newVmid
            targetStorage cfg
          return .report r

end PveZfsTool
