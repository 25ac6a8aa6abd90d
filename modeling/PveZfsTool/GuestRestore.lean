import PveZfsTool.Host

/-!
# Writing a guest config

`restore_guest_config` of `app/dr.py`, which the migration and the recovery
guests use too.
-/

namespace PveZfsTool

open Dialogue Text

/-- What `restore_guest_config` returns.  `error` is empty where the
dictionary has none. -/
structure RestoreResult where
  success : Bool
  present : Bool
  dest : Str
  error : Str
  stderr : Str
  deriving DecidableEq

/-- `wr.get("error") or wr.get("stderr") or ""` -/
def RestoreResult.reason (r : RestoreResult) : Str := if r.error ≠ [] then r.error else r.stderr

/-- The config directory of a guest type, for the two known types. -/
def restoreSubdir (gtype : Str) : Option Str :=
  if gtype = ("lxc" : Str) then some "lxc"
  else if gtype = ("qemu" : Str) then some "qemu-server"
  else none

/-- `^\d+$` -/
def matchesNumber : Str → Bool := atDollar (fun s => s != [] && s.all isDecimal)

/-- `restore_guest_config` -/
def restoreGuestConfig (host : Host) (gtype vmid content : Str) (force : Bool) :
    Job RestoreResult :=
  match restoreSubdir gtype with
  | none => return ⟨false, false, [], "invalid guest type", []⟩
  | some subdir =>
    if ¬ matchesNumber vmid then return ⟨false, false, [], "invalid vmid", []⟩
    else do
      let dest : Str := "/etc/pve/" ++ subdir ++ "/" ++ vmid ++ ".conf"
      let r ← runCommand host (.confProbe dest)
      let present := contains r.stdout "__EXISTS__"
      if present ∧ ¬ force then return ⟨false, true, dest, "config already exists", []⟩
      else do
        let rw_ ← runCommand host (.confWrite dest content)
        return ⟨contains rw_.stdout "__OK__", present, dest, [], (strip rw_.stderr).take 200⟩

/-- `restore_guest_config` looks for a config and writes it. -/
theorem uses_restoreGuestConfig (host : Host) (gtype vmid content : Str) (force : Bool) :
    (restoreGuestConfig host gtype vmid content force).Uses (fun q => q.host = host ∧
      ((∃ dest, q.cmd = .confProbe dest) ∨ ∃ dest, q.cmd = .confWrite dest content)) := by
  unfold restoreGuestConfig
  split
  · trivial
  · split
    · trivial
    · refine (uses_runCommand ⟨rfl, Or.inl ⟨_, rfl⟩⟩).bind (fun a => ?_)
      dsimp only
      split
      · trivial
      · exact ⟨⟨rfl, Or.inr ⟨_, rfl⟩⟩, fun _ => trivial⟩

end PveZfsTool
