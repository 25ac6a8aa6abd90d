import PveZfsTool.Lib.Text

/-!
# The validators

`app/validators.py`.  A validator returns the value without the whitespace
around it, or the message of the `ValueError` it raises.
-/

namespace PveZfsTool

open Text

/-- `MAX_INPUT_LENGTH` -/
def maxInputLength : Nat := 512

/-- The characters of `_ZFS_NAME_RE` after the first one. -/
def isZfsNameChar (c : Char) : Bool := isAsciiAlnum c || "_./@:-".toList.contains c

/-- `_ZFS_NAME_RE`.  The text has no whitespace at its end, so `$` only
matches at the end. -/
def matchesZfsName : Str → Bool
  | [] => false
  | c :: s => isAsciiAlnum c && s.all isZfsNameChar

/-- `validate_vmid` -/
def validateVmid (value : Str) : Except Str Str :=
  if value = [] then .error "VMID is required"
  else if strip value ≠ [] ∧ (strip value).all isAsciiDigit then .ok (strip value)
  else .error "Invalid VMID: must be numeric"

/-- `validate_vm_type` -/
def validateVmType (value : Str) : Except Str Str :=
  if value = ("qemu" : Str) ∨ value = ("lxc" : Str) then .ok value
  else .error "Invalid VM type: must be 'qemu' or 'lxc'"

/-- `validate_zfs_name` -/
def validateZfsName (value label : Str) : Except Str Str :=
  if value = [] then .error (label ++ " is required")
  else if maxInputLength < (strip value).length then
    .error (label ++ " too long (max " ++ ofNat maxInputLength ++ " chars)")
  else if matchesZfsName (strip value) then .ok (strip value)
  else .error ("Invalid " ++ label ++ ": only alphanumeric, _, -, ., :, /, @ allowed")

/-- The characters of `_POOL_NAME_RE` after the first one. -/
def isPoolNameChar (c : Char) : Bool := isAsciiAlnum c || "_.-".toList.contains c

/-- `_POOL_NAME_RE`, on a stripped text. -/
def matchesPoolName : Str → Bool
  | [] => false
  | c :: s => isAsciiAlnum c && s.all isPoolNameChar

/-- `validate_pool_name` -/
def validatePoolName (value : Str) : Except Str Str :=
  if value = [] then .error "Pool name is required"
  else if maxInputLength < (strip value).length then
    .error ("Pool name too long (max " ++ ofNat maxInputLength ++ " chars)")
  else if matchesPoolName (strip value) then .ok (strip value)
  else .error "Invalid pool name: only alphanumeric, _, -, . allowed"

/-- The characters of `_ZFS_PROP_RE` after the first one. -/
def isZfsPropChar (c : Char) : Bool := isAsciiLower c || isAsciiDigit c || "_:.-".toList.contains c

/-- `_ZFS_PROP_RE`, on a stripped text. -/
def matchesZfsProp : Str → Bool
  | [] => false
  | c :: s => isAsciiLower c && s.all isZfsPropChar

/-- `validate_zfs_property` -/
def validateZfsProperty (prop : Str) : Except Str Str :=
  if prop = [] then .error "Property name is required"
  else if maxInputLength < (strip prop).length then
    .error ("Property name too long (max " ++ ofNat maxInputLength ++ " chars)")
  else if matchesZfsProp (strip prop) then .ok (strip prop)
  else .error "Invalid property name: only lowercase, digits, _, :, ., - allowed"

/-- The characters of `_ZFS_VALUE_RE` after the first one. -/
def isZfsValueChar (c : Char) : Bool := isAsciiAlnum c || "_./:@=, -".toList.contains c

/-- `_ZFS_VALUE_RE`, on a stripped text. -/
def matchesZfsValue : Str → Bool
  | [] => false
  | c :: s => isAsciiAlnum c && s.all isZfsValueChar

/-- `validate_zfs_value`, on `str(value)`. -/
def validateZfsValue (value : Option Str) : Except Str Str :=
  match value with
  | none => .error "Property value is required"
  | some value =>
      if maxInputLength < (strip value).length then
        .error ("Property value too long (max " ++ ofNat maxInputLength ++ " chars)")
      else if matchesZfsValue (strip value) then .ok (strip value)
      else .error "Invalid property value: contains disallowed characters"

/-- `validate_dataset_name` -/
def validateDatasetName (value : Str) : Except Str Str := validateZfsName value "Dataset name"

/-- The characters of `_SAFE_PATH_RE`. -/
def isSafePathChar (c : Char) : Bool := isAsciiAlnum c || "/_.@ -".toList.contains c

/-- `validate_path`, on a text. -/
def validatePath (value label : Str) : Except Str Str :=
  if value = [] then .error (label ++ " is required")
  else if maxInputLength < (strip value).length then
    .error (label ++ " too long (max " ++ ofNat maxInputLength ++ " chars)")
  else if contains (strip value) ".." then
    .error (label ++ ": path traversal (..) not allowed")
  else if (strip value).contains (Char.ofNat 0) then
    .error (label ++ ": null bytes not allowed")
  else if strip value ≠ [] ∧ (strip value).all isSafePathChar then .ok (strip value)
  else .error (label ++ ": contains disallowed characters")

theorem validateVmid_ok {value vmid : Str} (h : validateVmid value = .ok vmid) :
    vmid = strip value ∧ vmid ≠ [] ∧ ∀ c ∈ vmid, isAsciiDigit c = true := by
  unfold validateVmid at h
  split_ifs at h with h₁ h₂
  simp only [Except.ok.injEq] at h
  subst h
  exact ⟨rfl, h₂.1, by simpa using h₂.2⟩

theorem validateVmType_ok {value gtype : Str} (h : validateVmType value = .ok gtype) :
    gtype = value := by
  unfold validateVmType at h
  split_ifs at h
  exact (Except.ok.inj h).symm

theorem validateZfsName_ok {value label name : Str} (h : validateZfsName value label = .ok name) :
    name = strip value := by
  unfold validateZfsName at h
  split_ifs at h
  exact (Except.ok.inj h).symm

theorem validateZfsProperty_ok {prop name : Str} (h : validateZfsProperty prop = .ok name) :
    name = strip prop ∧ matchesZfsProp name = true := by
  unfold validateZfsProperty at h
  split_ifs at h with h₁ h₂ h₃
  obtain rfl := Except.ok.inj h
  exact ⟨rfl, h₃⟩

theorem validateZfsValue_ok {value : Option Str} {name : Str}
    (h : validateZfsValue value = .ok name) :
    ∃ raw, value = some raw ∧ name = strip raw ∧ matchesZfsValue name = true := by
  cases value with
  | none => cases h
  | some raw =>
    simp only [validateZfsValue] at h
    split_ifs at h with h₁ h₂
    obtain rfl := Except.ok.inj h
    exact ⟨raw, rfl, rfl, h₂⟩

theorem matchesZfsName_of_ok {value label name : Str} (h : validateZfsName value label = .ok name) :
    matchesZfsName name = true := by
  unfold validateZfsName at h
  split_ifs at h with h₁ h₂ h₃
  obtain rfl := Except.ok.inj h
  exact h₃

/-- A VMID that was validated is valid, and unchanged. -/
theorem validateVmid_idem {value vmid : Str} (h : validateVmid value = .ok vmid) :
    validateVmid vmid = .ok vmid := by
  obtain ⟨-, hne, hdigits⟩ := validateVmid_ok h
  have hstrip : strip vmid = vmid :=
    strip_eq_self (fun c hc => isSpace_of_isAsciiDigit (hdigits c hc))
  unfold validateVmid
  rw [if_neg hne, hstrip, if_pos ⟨hne, by simpa using hdigits⟩]

end PveZfsTool
