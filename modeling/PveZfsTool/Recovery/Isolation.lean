import PveZfsTool.Recovery.CloneLines

/-!
# The config of a clone is isolated

`build_recovery_config` leaves out the lines that must not travel, points the
disks at their clones and keeps every other line as it is.

`isolated_iff` says for which configs the result is isolated: it has no
network, no snapshot section, nothing that is bound to the host, and no volume
of the original.  `not_isolated` is a config with a cloud-init drive, which
the clone shares with the original.
-/

namespace PveZfsTool

open Text

/-! ## What isolated means -/

/-- A `netN` line, or a raw `lxc.net.` line. -/
def isNetworkLine (s : Str) : Bool :=
  s.contains ':' && isNumberedKey ["net"] (beforeFirst ':' s) || startsWith s "lxc.net."

/-- A line with one of these keys. -/
def hasKey (keys : List Str) (s : Str) : Bool := s.contains ':' && keys.contains (beforeFirst ':' s)

/-- The keys whose values start with a volume. -/
def isVolumeKey (key : Str) : Bool :=
  isQemuDiskKey key || isLxcDiskKey key || isNumberedKey ["unused"] key || key = ("vmstate" : Str)

/-- The volume in a value.  Its option may be named. -/
def volumeRef (value : Str) : Str :=
  let first := strip (beforeFirst ',' value)
  if startsWith first "file=" then first.drop 5
  else if startsWith first "volume=" then first.drop 7
  else first

/-- The line names a volume of the guest. -/
def namesVolumeOf (vmid s : Str) : Bool :=
  match keyLine s with
  | some (key, rest) => isVolumeKey key && ownedBy vmid (volumeRef rest)
  | none => false

/-- The config is that of an isolated copy of the guest. -/
structure Isolated (gtype originVmid text : Str) : Prop where
  network : ∀ l ∈ splitLines text, isNetworkLine l = false
  stale : ∀ l ∈ splitLines text, hasKey ["lock", "parent", "hookscript"] l = false
  sections : ∀ l ∈ splitLines text, startsWith l "[" = false
  onboot : (splitLines text).filter (hasKey ["onboot"]) = [("onboot: 0" : Str)]
  host : hostBoundEntries text gtype = []
  volumes : ∀ l ∈ splitLines text, namesVolumeOf originVmid l = false

/-- The lines of the main section, without the whitespace around them. -/
def mainLines (text : Str) : List Str := (splitLines (splitMainSection text)).map strip

/-- The line is carried over to the clone, as it is or changed. -/
def isKept (leftOut : List HostEntry) (s : Str) : Bool :=
  s ≠ [] && !startsWith s "#" && !isDropped s &&
    !leftOut.any (fun e => e.key = strip (beforeFirst ':' s) ∧ e.value = strip (afterColon s))

/-- The lines that are carried over. -/
def keptLines (gtype text : Str) : List Str :=
  (mainLines text).filter (isKept (hostBoundEntries text gtype))

/-- The configs with an isolated clone: no line that is carried over is a raw
network line or starts a section, and every volume of the guest in one of them
is in the map. -/
structure Isolatable (gtype originVmid text : Str) (volidMap : List (Str × Str)) : Prop where
  network : ∀ s ∈ keptLines gtype text, startsWith s "lxc.net." = false
  sections : ∀ s ∈ keptLines gtype text, startsWith s "[" = false
  volumes : ∀ s ∈ keptLines gtype text, ∀ key rest, keyLine s = some (key, rest) →
    lookupLast volidMap (volidOf rest) = none → namesVolumeOf originVmid s = false

/-- The other arguments are those of `create_job`: the VMIDs and the label
passed their checks, and the map goes to clones of another VMID. -/
structure JobArgs (originVmid snapshot : Str) (volidMap : List (Str × Str)) (fresh : Fresh) :
    Prop where
  origin : validateVmid originVmid = .ok originVmid
  label : isSnapshotLabel snapshot = true
  clones : ∃ newVmid, validateVmid newVmid = .ok newVmid ∧ newVmid ≠ originVmid ∧
    ∀ e ∈ volidMap, IsCloneVolid newVmid e.2
  created : NoBreak fresh.created
  smbios : NoBreak fresh.smbios
  vmgenid : NoBreak fresh.vmgenid

/-! ## The lines of the new config -/

/-- A line that is carried over, as it stands in the new config. -/
def carriedLine (gtype : Str) (volidMap : List (Str × Str)) (s : Str) : Str :=
  match keyLine s with
  | none => s
  | some (key, rest) =>
    match lookupLast volidMap (volidOf rest) with
    | some clone => key ++ ": " ++ clone ++ (lstrip rest).drop (volidOf rest).length
    | none =>
      if key = ("name" : Str) ∧ gtype ≠ ("lxc" : Str) then
        "name: " ++ strip (lstrip rest) ++ "-clone"
      else if key = ("hostname" : Str) ∧ gtype = ("lxc" : Str) then
        "hostname: " ++ strip (lstrip rest) ++ "-clone"
      else s

theorem recoveryLine_eq {gtype s : Str} {leftOut : List HostEntry} {volidMap : List (Str × Str)} :
    recoveryLine gtype leftOut volidMap s =
      if isKept leftOut s then some (carriedLine gtype volidMap s) else none := by
  unfold recoveryLine
  by_cases hskip : s = [] ∨ startsWith s "#" = true ∨ isDropped s = true
  · have hkept : isKept leftOut s = false := by
      unfold isKept
      obtain rfl | h | h := hskip
      · rfl
      · rw [h, Bool.not_true, Bool.and_false, Bool.false_and, Bool.false_and]
      · rw [h, Bool.not_true, Bool.and_false, Bool.false_and]
    rw [if_pos hskip, hkept, if_neg (by simp)]
  · obtain ⟨hne, hhash, hdrop⟩ : s ≠ [] ∧ startsWith s "#" = false ∧ isDropped s = false := by
      simpa only [not_or, Bool.not_eq_true] using hskip
    rw [if_neg hskip]
    by_cases hleft : leftOut.any (fun e => decide
        (e.key = strip (beforeFirst ':' s) ∧ e.value = strip (afterColon s))) = true
    · have hkept : isKept leftOut s = false := by
        rw [isKept, hleft, Bool.not_true, Bool.and_false]
      rw [if_pos hleft, hkept, if_neg (by simp)]
    · have hkept : isKept leftOut s = true := by
        rw [isKept, hhash, hdrop, Bool.eq_false_iff.mpr hleft]
        simp [hne]
      rw [if_neg hleft, if_pos hkept, carriedLine]
      cases keyLine s with
      | none => rfl
      | some parts =>
        obtain ⟨key, rest⟩ := parts
        dsimp only
        show (match lookupLast volidMap (volidOf rest) with | some clone => _ | none => _) = _
        cases lookupLast volidMap (volidOf rest) with
        | some clone => rfl
        | none =>
          dsimp only
          split
          · rfl
          · split <;> rfl

/-- The lines of the new config. -/
def recoveryLines (text gtype : Str) (volidMap : List (Str × Str)) (originVmid snapshot : Str)
    (fresh : Fresh) : List Str :=
  markerLine originVmid snapshot fresh.created ::
    (keptLines gtype text).map (carriedLine gtype volidMap) ++
      ("onboot: 0" : Str) :: (if gtype = ("lxc" : Str) then []
        else ["smbios1: uuid=" ++ fresh.smbios, "vmgenid: " ++ fresh.vmgenid])

theorem buildRecoveryConfig_eq (text gtype : Str) (volidMap : List (Str × Str))
    (originVmid snapshot : Str) (fresh : Fresh) :
    buildRecoveryConfig text gtype volidMap originVmid snapshot fresh =
      join ['\n'] (recoveryLines text gtype volidMap originVmid snapshot fresh) ++ ['\n'] := by
  have hkept : (splitLines (splitMainSection text)).filterMap (fun line =>
      recoveryLine gtype (hostBoundEntries text gtype) volidMap (strip line)) =
        (keptLines gtype text).map (carriedLine gtype volidMap) := by
    rw [keptLines, mainLines, List.filter_map, List.map_map]
    induction splitLines (splitMainSection text) with
    | nil => rfl
    | cons line lines ih =>
      rw [List.filterMap_cons, recoveryLine_eq, List.filter_cons]
      by_cases hline : isKept (hostBoundEntries text gtype) (strip line) = true
      · rw [if_pos hline, ih]
        simp [hline]
      · rw [if_neg hline, ih]
        simp [hline]
  rw [buildRecoveryConfig, hkept]
  rfl

/-! ## Isolated lines -/

/-- A line that is carried over is not bound to the host. -/
theorem hostBoundEntry_kept {gtype text s : Str} (h : s ∈ keptLines gtype text) :
    hostBoundEntry gtype s = none := by
  obtain ⟨hmain, hkept⟩ := List.mem_filter.mp h
  obtain ⟨line, hline, rfl⟩ := List.mem_map.mp hmain
  cases hentry : hostBoundEntry gtype (strip line) with
  | none => rfl
  | some e =>
    have hmem : e ∈ hostBoundEntries text gtype := List.mem_filterMap.mpr ⟨line, hline, hentry⟩
    have hleft : (hostBoundEntries text gtype).any (fun e => decide
        (e.key = strip (beforeFirst ':' (strip line)) ∧ e.value = strip (afterColon (strip line)))) =
          true :=
      List.any_eq_true.mpr ⟨e, hmem, decide_eq_true (hostBoundEntry_some hentry)⟩
    rw [isKept, hleft, Bool.not_true, Bool.and_false] at hkept
    cases hkept

/-- What an isolated config says of each of its lines. -/
structure IsolatedLine (gtype originVmid l : Str) : Prop where
  network : isNetworkLine l = false
  stale : hasKey ["lock", "parent", "hookscript"] l = false
  sections : startsWith l "[" = false
  host : hostBoundEntry gtype (strip l) = none
  volumes : namesVolumeOf originVmid l = false

section Keys

variable {key : Str} (h : IsKey key) (r : Str)

theorem contains_colon (key r : Str) : (key ++ ':' :: r).contains ':' = true := by
  rw [List.contains_iff_mem]
  exact List.mem_append_right _ List.mem_cons_self

include h

theorem IsKey.hasKey_eq (keys : List Str) : hasKey keys (key ++ ':' :: r) = keys.contains key := by
  rw [hasKey, beforeFirst_append h.colon, contains_colon, Bool.true_and]

theorem IsKey.isNetworkLine_eq :
    isNetworkLine (key ++ ':' :: r) = isNumberedKey ["net"] key := by
  have hraw := h.not_startsWith r "lxc.net." (fun _ => rfl)
  rw [isNetworkLine, beforeFirst_append h.colon, contains_colon, Bool.true_and,
    Bool.eq_false_iff.mpr hraw, Bool.or_false]

/-- A key whose value is no volume and does not point at the host makes an
isolated line of any value. -/
theorem IsKey.isolatedLine (hnet : isNumberedKey ["net"] key = false)
    (hstale : (["lock", "parent", "hookscript"] : List Str).contains key = false)
    (hhost : isNumberedKey hostKeys key = false) (hvolume : isVolumeKey key = false)
    (gtype originVmid : Str) : IsolatedLine gtype originVmid (key ++ ':' :: r) where
  network := by rw [h.isNetworkLine_eq, hnet]
  stale := by rw [h.hasKey_eq, hstale]
  sections := Bool.eq_false_iff.mpr (h.not_startsWith r "[" (fun _ => rfl))
  host := by
    rw [h.strip_line, hostBoundEntry_key h, hostReason_of_key hhost]
    rfl
  volumes := by
    rw [namesVolumeOf, h.keyLine_eq]
    dsimp only
    rw [hvolume, Bool.false_and]

end Keys

theorem hasKey_of_kept {s : Str} (keys : List Str) (h : isDropped s = false)
    (hkeys : keys ⊆ ["lock", "parent", "onboot", "startup", "hookscript",
      "vmgenid", "smbios1", "template", "protection"].map String.toList) : hasKey keys s = false := by
  unfold isDropped at h
  dsimp only at h
  rw [Bool.and_eq_false_iff, Bool.or_eq_false_iff] at h
  rw [hasKey, Bool.and_eq_false_iff]
  obtain hcolon | ⟨-, hkey⟩ := h
  · exact Or.inl hcolon
  · right
    rw [Bool.eq_false_iff, Ne, List.contains_iff_mem] at hkey ⊢
    exact fun hmem => hkey (hkeys hmem)

theorem isNetworkLine_of_kept {s : Str} (h : isDropped s = false)
    (hraw : startsWith s "lxc.net." = false) : isNetworkLine s = false := by
  unfold isDropped at h
  dsimp only at h
  rw [Bool.and_eq_false_iff, Bool.or_eq_false_iff] at h
  rw [isNetworkLine, hraw, Bool.or_false, Bool.and_eq_false_iff]
  obtain hcolon | ⟨hkey, -⟩ := h
  · exact Or.inl hcolon
  · exact Or.inr (isNumberedKey_of_subset ["net"] (by decide) hkey)

section Kept

variable {gtype originVmid text s : Str} {volidMap : List (Str × Str)}

theorem noBreak_strip {l : Str} (h : NoBreak l) : NoBreak (strip l) :=
  fun c hc => h c (mem_of_mem_strip hc)

/-- What a line that is carried over went through. -/
theorem of_mem_keptLines (h : s ∈ keptLines gtype text) :
    s ≠ [] ∧ NoBreak s ∧ strip s = s ∧ isDropped s = false := by
  obtain ⟨hmain, hkept⟩ := List.mem_filter.mp h
  obtain ⟨line, hline, rfl⟩ := List.mem_map.mp hmain
  simp only [isKept, Bool.and_eq_true, decide_eq_true_eq, Bool.not_eq_true'] at hkept
  exact ⟨hkept.1.1.1, noBreak_strip (noBreak_of_mem_splitLines hline), strip_strip line,
    hkept.1.2⟩

/-- A line that is carried over stays as it is, or it has a key and gets a
clone or a new name as its value. -/
theorem carriedLine_cases (gtype : Str) (volidMap : List (Str × Str)) (s : Str) :
    (carriedLine gtype volidMap s = s ∧ ∀ key rest, keyLine s = some (key, rest) →
      lookupLast volidMap (volidOf rest) = none) ∨
    ∃ key rest, IsKey key ∧ s = key ++ ':' :: rest ∧
      ((∃ clone, lookupLast volidMap (volidOf rest) = some clone ∧ carriedLine gtype volidMap s =
        key ++ ':' :: ' ' :: (clone ++ (lstrip rest).drop (volidOf rest).length)) ∨
      (key = ("name" : Str) ∨ key = ("hostname" : Str)) ∧ carriedLine gtype volidMap s =
        key ++ ':' :: ' ' :: (strip (lstrip rest) ++ "-clone")) := by
  cases hkeyLine : keyLine s with
  | none =>
    left
    rw [carriedLine, hkeyLine]
    exact ⟨rfl, fun key rest h => by cases h⟩
  | some parts =>
    obtain ⟨key, rest⟩ := parts
    obtain ⟨hs, hkey⟩ := keyLine_some hkeyLine
    cases hlookup : lookupLast volidMap (volidOf rest) with
    | some clone =>
      refine Or.inr ⟨key, rest, hkey, hs, Or.inl ⟨clone, hlookup, ?_⟩⟩
      rw [carriedLine, hkeyLine]
      dsimp only
      rw [hlookup]
      simp
    | none =>
      have hcarried : carriedLine gtype volidMap s =
          if key = ("name" : Str) ∧ gtype ≠ ("lxc" : Str) then
            "name: " ++ strip (lstrip rest) ++ "-clone"
          else if key = ("hostname" : Str) ∧ gtype = ("lxc" : Str) then
            "hostname: " ++ strip (lstrip rest) ++ "-clone"
          else s := by
        rw [carriedLine, hkeyLine]
        dsimp only
        rw [hlookup]
      by_cases hname : key = ("name" : Str) ∧ gtype ≠ ("lxc" : Str)
      · rw [if_pos hname] at hcarried
        refine Or.inr ⟨key, rest, hkey, hs, Or.inr ⟨Or.inl hname.1, ?_⟩⟩
        rw [hcarried, hname.1]
        rfl
      · by_cases hhostname : key = ("hostname" : Str) ∧ gtype = ("lxc" : Str)
        · rw [if_neg hname, if_pos hhostname] at hcarried
          refine Or.inr ⟨key, rest, hkey, hs, Or.inr ⟨Or.inr hhostname.1, ?_⟩⟩
          rw [hcarried, hhostname.1]
          rfl
        · rw [if_neg hname, if_neg hhostname] at hcarried
          refine Or.inl ⟨hcarried, fun key' rest' h => ?_⟩
          obtain ⟨rfl, rfl⟩ := Prod.mk.inj (Option.some.inj h)
          exact hlookup

/-- A clone in the place of a volume id keeps a line isolated. -/
theorem isolatedLine_mapped {key rest clone newVmid : Str} (hkey : IsKey key)
    (horigin : validateVmid originVmid = .ok originVmid) (hnew : validateVmid newVmid = .ok newVmid)
    (hne : newVmid ≠ originVmid) (hclone : IsCloneVolid newVmid clone)
    (h : key ++ ':' :: rest ∈ keptLines gtype text) :
    IsolatedLine gtype originVmid
      (key ++ ':' :: ' ' :: (clone ++ (lstrip rest).drop (volidOf rest).length)) := by
  obtain ⟨tail, htail, hvalue, hblank⟩ := exists_tail rest
  obtain ⟨-, -, -, hdrop⟩ := of_mem_keptLines h
  have hplain := plainVolid_of_clone hnew hclone
  rw [htail]
  constructor
  · have hnetwork := isNetworkLine_of_kept hdrop
      (Bool.eq_false_iff.mpr (hkey.not_startsWith rest "lxc.net." (fun _ => rfl)))
    rwa [hkey.isNetworkLine_eq] at hnetwork ⊢
  · have hstale := hasKey_of_kept ["lock", "parent", "hookscript"] hdrop (by decide)
    rwa [hkey.hasKey_eq] at hstale ⊢
  · exact Bool.eq_false_iff.mpr (hkey.not_startsWith _ "[" (fun _ => rfl))
  · have hentry := hostBoundEntry_kept h
    rw [hostBoundEntry_key hkey, Option.map_eq_none_iff, hvalue] at hentry
    have hplace : strip (rstrip (' ' :: (clone ++ tail))) = clone ++ rstrip tail := by
      show strip (rstrip ([' '] ++ (clone ++ tail))) = _
      obtain ⟨c, t, hc, -⟩ := hplain.start
      rw [rstrip_append (fun c hc => (hplain.chars c hc).1) (by simp [hc])]
      show strip (clone ++ rstrip tail) = _
      rw [hplain.strip_append, rstrip_idem]
    rw [hkey.strip_line, hostBoundEntry_key hkey, hplace,
      hostReason_mapped hplain (comma_not_mem_volidOf rest) hentry]
    rfl
  · have hfirst : strip (beforeFirst ',' (' ' :: (clone ++ tail))) = clone := by
      show strip (beforeFirst ',' (clone ++ tail)) = _
      rw [hplain.before_comma, hplain.strip_append, hblank, List.append_nil]
    have hfile := hplain.not_option [] "file=" (by decide) (by decide)
    have hvolume := hplain.not_option [] "volume=" (by decide) (by decide)
    rw [List.append_nil] at hfile hvolume
    have href : volumeRef (' ' :: (clone ++ tail)) = clone := by
      unfold volumeRef
      dsimp only
      rw [hfirst, hfile, hvolume]
      rfl
    rw [namesVolumeOf, hkey.keyLine_eq]
    dsimp only
    rw [href, not_ownedBy_clone horigin hnew hne hclone, Bool.and_false]

theorem mem_of_lookupLast {entries : List (Str × Str)} {k v : Str}
    (h : lookupLast entries k = some v) : ∃ e ∈ entries, e.2 = v := by
  obtain ⟨e, hfind, hv⟩ := Option.map_eq_some_iff.mp h
  exact ⟨e, List.mem_reverse.mp (List.mem_of_find?_eq_some hfind), hv⟩

/-- A name is isolated, whatever it is. -/
theorem isolatedLine_name (gtype originVmid : Str) {key : Str} (h : key = ("name" : Str) ∨ key = ("hostname" : Str))
    (r : Str) : IsKey key ∧ IsolatedLine gtype originVmid (key ++ ':' :: r) := by
  obtain rfl | rfl := h
  · have hkey : IsKey "name" := .of_all (by decide) (by decide) (by decide)
    exact ⟨hkey, hkey.isolatedLine r (by decide) (by decide) (by decide) (by decide) _ _⟩
  · have hkey : IsKey "hostname" := .of_all (by decide) (by decide) (by decide)
    exact ⟨hkey, hkey.isolatedLine r (by decide) (by decide) (by decide) (by decide) _ _⟩

variable {snapshot : Str} {fresh : Fresh}

/-- A carried line of an isolatable config is isolated. -/
theorem isolatedLine_carried (args : JobArgs originVmid snapshot volidMap fresh)
    (hconfig : Isolatable gtype originVmid text volidMap) (h : s ∈ keptLines gtype text) :
    IsolatedLine gtype originVmid (carriedLine gtype volidMap s) := by
  obtain ⟨newVmid, hnew, hne, hclones⟩ := args.clones
  obtain ⟨-, -, hstrip, hdrop⟩ := of_mem_keptLines h
  obtain ⟨heq, hlookup⟩ | ⟨key, rest, hkey, rfl, ⟨clone, hlookup, heq⟩ | ⟨hname, heq⟩⟩ :=
    carriedLine_cases gtype volidMap s
  · rw [heq]
    constructor
    · exact isNetworkLine_of_kept hdrop (hconfig.network s h)
    · exact hasKey_of_kept _ hdrop (by decide)
    · exact hconfig.sections s h
    · rw [hstrip, hostBoundEntry_kept h]
    · cases hkeyLine : keyLine s with
      | none => rw [namesVolumeOf, hkeyLine]
      | some parts =>
        exact hconfig.volumes s h parts.1 parts.2 hkeyLine (hlookup parts.1 parts.2 hkeyLine)
  · obtain ⟨e, he, rfl⟩ := mem_of_lookupLast hlookup
    rw [heq]
    exact isolatedLine_mapped hkey args.origin hnew hne (hclones e he) h
  · rw [heq]
    exact (isolatedLine_name _ _ hname _).2

/-- Neither the lines that are carried over nor what they turn into break. -/
theorem noBreak_carried (args : JobArgs originVmid snapshot volidMap fresh)
    (h : s ∈ keptLines gtype text) :
    NoBreak (carriedLine gtype volidMap s) ∧ carriedLine gtype volidMap s ≠ [] := by
  obtain ⟨newVmid, hnew, -, hclones⟩ := args.clones
  obtain ⟨hne, hbreak, -, -⟩ := of_mem_keptLines h
  obtain ⟨heq, -⟩ | ⟨key, rest, -, rfl, hcases⟩ := carriedLine_cases gtype volidMap s
  · rw [heq]
    exact ⟨hbreak, hne⟩
  have hkey : NoBreak key := fun c hc => hbreak c (List.mem_append_left _ hc)
  have hrest : NoBreak rest :=
    fun c hc => hbreak c (List.mem_append_right _ (List.mem_cons_of_mem _ hc))
  have hline : ∀ a b : Str, NoBreak a → NoBreak b → NoBreak (key ++ ':' :: ' ' :: (a ++ b)) := by
    intro a b ha hb c hc
    simp only [List.mem_append, List.mem_cons] at hc
    obtain hc | rfl | rfl | hc | hc := hc
    · exact hkey c hc
    · rfl
    · rfl
    · exact ha c hc
    · exact hb c hc
  obtain ⟨clone, hlookup, heq⟩ | ⟨-, heq⟩ := hcases
  · obtain ⟨e, he, rfl⟩ := mem_of_lookupLast hlookup
    rw [heq]
    refine ⟨hline _ _ (fun c hc => ?_) (fun c hc => ?_), by simp⟩
    · exact isLineBreak_of_isSpace ((plainVolid_of_clone hnew (hclones e he)).chars c hc).1
    · exact hrest c (mem_of_mem_lstrip (List.mem_of_mem_drop hc))
  · rw [heq]
    refine ⟨hline _ _ (fun c hc => ?_) (by decide), by simp⟩
    exact hrest c (mem_of_mem_lstrip (mem_of_mem_strip hc))

end Kept

/-! ## The marker and the fixed lines -/

/-- A comment is isolated. -/
theorem isolatedLine_comment (gtype originVmid s : Str) :
    IsolatedLine gtype originVmid ('#' :: s) ∧ hasKey ["onboot"] ('#' :: s) = false := by
  have hspace : isSpace '#' = false := by decide
  have hkey : ∀ keys : List Str, keys.all (fun k => k.head? != some '#') = true →
      hasKey keys ('#' :: s) = false := by
    intro keys hkeys
    have hfirst : beforeFirst ':' ('#' :: s) = '#' :: beforeFirst ':' s := rfl
    rw [hasKey, Bool.and_eq_false_iff, Bool.eq_false_iff (b := keys.contains _), Ne,
      List.contains_iff_mem, hfirst]
    right
    intro hmem
    have hhead := List.all_eq_true.mp hkeys _ hmem
    simp at hhead
  refine ⟨⟨?_, hkey _ (by decide), rfl, ?_, rfl⟩, hkey _ (by decide)⟩
  · show (('#' :: s).contains ':' && false || false) = false
    rw [Bool.and_false, Bool.or_false]
  · rw [strip_cons hspace]
    rfl

theorem noBreak_append {a b : Str} (ha : NoBreak a) (hb : NoBreak b) : NoBreak (a ++ b) := by
  intro c hc
  obtain hc | hc := List.mem_append.mp hc
  · exact ha c hc
  · exact hb c hc

section Fixed

variable {gtype originVmid text snapshot : Str} {volidMap : List (Str × Str)} {fresh : Fresh}

theorem noBreak_label (h : isSnapshotLabel snapshot = true) : NoBreak snapshot := by
  intro c hc
  have hchar := List.all_eq_true.mp ((Bool.and_eq_true _ _).mp h).2 c hc
  obtain halnum | hother := (Bool.or_eq_true _ _).mp hchar
  · exact isLineBreak_of_isSpace (isSpace_of_isAsciiAlnum halnum)
  · have hothers : NoBreak "_.:-" := by decide
    exact hothers c (List.contains_iff_mem.mp hother)

theorem noBreak_marker (args : JobArgs originVmid snapshot volidMap fresh) :
    NoBreak (markerLine originVmid snapshot fresh.created) := by
  have horigin : NoBreak originVmid := by
    intro c hc
    exact isLineBreak_of_isSpace (isSpace_of_isAsciiDigit ((validateVmid_ok args.origin).2.2 c hc))
  unfold markerLine
  refine noBreak_append (noBreak_append (noBreak_append (noBreak_append (noBreak_append
    (noBreak_append ?_ ?_) horigin) ?_) (noBreak_label args.label)) ?_) args.created
  all_goals decide

/-- The lines after the carried ones. -/
def fixedLines (gtype : Str) (fresh : Fresh) : List Str :=
  ("onboot: 0" : Str) :: (if gtype = ("lxc" : Str) then []
    else ["smbios1: uuid=" ++ fresh.smbios, "vmgenid: " ++ fresh.vmgenid])

/-- A fixed line has a key, and a value without a line break. -/
theorem of_mem_fixedLines (args : JobArgs originVmid snapshot volidMap fresh) {l : Str}
    (h : l ∈ fixedLines gtype fresh) : ∃ key ∈ (["onboot", "smbios1", "vmgenid"] : List Str),
      ∃ r, NoBreak r ∧ l = key ++ ':' :: r := by
  obtain rfl | h := List.mem_cons.mp h
  · exact ⟨"onboot", by simp, " 0", by decide, rfl⟩
  · split at h
    · cases h
    · obtain rfl | h := List.mem_cons.mp h
      · exact ⟨"smbios1", by simp, " uuid=" ++ fresh.smbios,
          noBreak_append (by decide) args.smbios, rfl⟩
      · obtain rfl := List.mem_singleton.mp h
        exact ⟨"vmgenid", by simp, " " ++ fresh.vmgenid, noBreak_append (by decide) args.vmgenid,
          rfl⟩

theorem isKey_fixed (key : Str) (h : key ∈ (["onboot", "smbios1", "vmgenid"] : List Str)) :
    IsKey key ∧ NoBreak key := by
  simp only [List.mem_cons, List.not_mem_nil, or_false] at h
  obtain rfl | rfl | rfl := h
  · exact ⟨.of_all (by decide) (by decide) (by decide), by decide⟩
  · exact ⟨.of_all (by decide) (by decide) (by decide), by decide⟩
  · exact ⟨.of_all (by decide) (by decide) (by decide), by decide⟩

theorem isolatedLine_fixed (args : JobArgs originVmid snapshot volidMap fresh) {l : Str}
    (h : l ∈ fixedLines gtype fresh) : IsolatedLine gtype originVmid l := by
  obtain ⟨key, hmem, r, -, rfl⟩ := of_mem_fixedLines args h
  obtain ⟨hkey, -⟩ := isKey_fixed key hmem
  have hnone : ∀ k ∈ (["onboot", "smbios1", "vmgenid"] : List Str),
      isNumberedKey ["net"] k = false ∧
        (["lock", "parent", "hookscript"] : List Str).contains k = false ∧
          isNumberedKey hostKeys k = false ∧ isVolumeKey k = false := by
    decide
  obtain ⟨hnet, hstale, hhost, hvolume⟩ := hnone key hmem
  exact hkey.isolatedLine r hnet hstale hhost hvolume _ _

/-! ## The config as a whole -/

theorem mem_recoveryLines {l : Str} :
    l ∈ recoveryLines text gtype volidMap originVmid snapshot fresh ↔
      l = markerLine originVmid snapshot fresh.created ∨
        (∃ s ∈ keptLines gtype text, carriedLine gtype volidMap s = l) ∨
          l ∈ fixedLines gtype fresh := by
  rw [recoveryLines, List.cons_append, List.mem_cons, List.mem_append, List.mem_map]
  rfl

/-- No line of the new config is empty or breaks. -/
theorem noBreak_recoveryLines (args : JobArgs originVmid snapshot volidMap fresh) {l : Str}
    (h : l ∈ recoveryLines text gtype volidMap originVmid snapshot fresh) : NoBreak l ∧ l ≠ [] := by
  obtain rfl | ⟨s, hs, rfl⟩ | hfixed := mem_recoveryLines.mp h
  · exact ⟨noBreak_marker args, List.cons_ne_nil _ _⟩
  · exact noBreak_carried args hs
  · obtain ⟨key, hkey, r, hr, rfl⟩ := of_mem_fixedLines args hfixed
    have hcolon : NoBreak (':' :: r) := noBreak_append (a := [':']) (by decide) hr
    exact ⟨noBreak_append (isKey_fixed key hkey).2 hcolon, by simp⟩

/-- The new config has the lines it is joined from. -/
theorem splitLines_recoveryConfig (args : JobArgs originVmid snapshot volidMap fresh) :
    splitLines (buildRecoveryConfig text gtype volidMap originVmid snapshot fresh) =
      recoveryLines text gtype volidMap originVmid snapshot fresh := by
  have hlines : ∀ l ∈ recoveryLines text gtype volidMap originVmid snapshot fresh,
      NoBreak l ∧ l ≠ [] :=
    fun l hl => noBreak_recoveryLines args hl
  rw [buildRecoveryConfig_eq]
  exact (splitLines_join_self (fun l hl => (hlines l hl).1) (fun l hl => (hlines l hl).2)).2
    (List.cons_ne_nil _ _)

/-- The lines of the main section are lines of the text. -/
theorem mem_splitLines_of_main {text : Str} (hne : ∀ l ∈ splitLines text, l ≠ []) {l : Str}
    (h : l ∈ splitLines (splitMainSection text)) : l ∈ splitLines text := by
  have hsub : (splitLines text).takeWhile (fun line => !startsWith line "[") ⊆ splitLines text :=
    (List.takeWhile_prefix _).subset
  have hself := (splitLines_join_self (fun l hl => noBreak_of_mem_splitLines (hsub hl))
    (fun l hl => hne l (hsub hl))).1
  rw [splitMainSection] at h
  exact hsub (hself ▸ h)

/-- Exactly one line of the new config says when it starts. -/
theorem onboot_recoveryLines :
    (recoveryLines text gtype volidMap originVmid snapshot fresh).filter (hasKey ["onboot"]) =
      [("onboot: 0" : Str)] := by
  have hcarried : ((keptLines gtype text).map (carriedLine gtype volidMap)).filter
      (hasKey ["onboot"]) = [] := by
    rw [List.filter_eq_nil_iff]
    intro l hl
    obtain ⟨s, hs, rfl⟩ := List.mem_map.mp hl
    obtain ⟨-, -, -, hdrop⟩ := of_mem_keptLines hs
    have hnone := hasKey_of_kept ["onboot"] hdrop (by decide)
    obtain ⟨heq, -⟩ | ⟨key, rest, hkey, rfl, ⟨clone, -, heq⟩ | ⟨-, heq⟩⟩ :=
      carriedLine_cases gtype volidMap s
    · rw [heq, hnone]
      exact Bool.false_ne_true
    · rw [hkey.hasKey_eq] at hnone
      rw [heq, hkey.hasKey_eq, hnone]
      exact Bool.false_ne_true
    · rw [hkey.hasKey_eq] at hnone
      rw [heq, hkey.hasKey_eq, hnone]
      exact Bool.false_ne_true
  have hmarker : hasKey ["onboot"] (markerLine originVmid snapshot fresh.created) = false :=
    (isolatedLine_comment gtype originVmid _).2
  have hids : (if gtype = ("lxc" : Str) then ([] : List Str)
      else ["smbios1: uuid=" ++ fresh.smbios, "vmgenid: " ++ fresh.vmgenid]).filter
        (hasKey ["onboot"]) = [] := by
    split
    · rfl
    · have hsmbios := (isKey_fixed "smbios1" (by decide)).1.hasKey_eq
        (" uuid=" ++ fresh.smbios) ["onboot"]
      have hvmgenid := (isKey_fixed "vmgenid" (by decide)).1.hasKey_eq
        (" " ++ fresh.vmgenid) ["onboot"]
      rw [List.filter_cons_of_neg (by exact hsmbios ▸ Bool.false_ne_true),
        List.filter_cons_of_neg (by exact hvmgenid ▸ Bool.false_ne_true), List.filter_nil]
  rw [recoveryLines, List.cons_append, List.filter_cons_of_neg (by rw [hmarker]; exact Bool.false_ne_true),
    List.filter_append, hcarried, List.nil_append, List.filter_cons_of_pos (by decide), hids]

/-- The map that the clone loop makes goes to clones of the new guest. -/
theorem isCloneVolid_of_made {host : Host} {c : CloneOrder} {clones : Clones} {disks : List Disk}
    {log : Log} (hvmid : validateVmid c.newVmid = .ok c.newVmid) (hne : c.storage ≠ [])
    (hstorage : ∀ x ∈ c.storage, isStorageChar x = true)
    (h : (cloneDisks host c ⟨[], []⟩ disks).Run log (.ok (.ok clones))) :
    ∀ e ∈ clones.volidMap, IsCloneVolid c.newVmid e.2 := by
  intro e he
  obtain hnil | ⟨d, -, v, hv, rfl⟩ := ((made_of_run h).2 e).mp he
  · cases hnil
  · refine ⟨c.storage, volumeBasename d.dataset, v, hne, hstorage, hv, ?_⟩
    rw [cloneVolid_eq hvmid hv, List.append_assoc]
    rfl

/-- The config of the clone is isolated exactly when the config of the
original is isolatable. -/
theorem isolated_iff (args : JobArgs originVmid snapshot volidMap fresh) :
    Isolated gtype originVmid
        (buildRecoveryConfig text gtype volidMap originVmid snapshot fresh) ↔
      Isolatable gtype originVmid text volidMap := by
  have hsplit : splitLines (buildRecoveryConfig text gtype volidMap originVmid snapshot fresh) =
      recoveryLines text gtype volidMap originVmid snapshot fresh := splitLines_recoveryConfig args
  constructor
  · intro h
    have hmem : ∀ s ∈ keptLines gtype text, carriedLine gtype volidMap s ∈
        splitLines (buildRecoveryConfig text gtype volidMap originVmid snapshot fresh) := by
      intro s hs
      rw [hsplit]
      exact mem_recoveryLines.mpr (Or.inr (Or.inl ⟨s, hs, rfl⟩))
    have hraw : ∀ s ∈ keptLines gtype text, keyLine s = none →
        isNetworkLine s = false ∧ startsWith s "[" = false := by
      intro s hs hnone
      have hline := hmem s hs
      rw [carriedLine, hnone] at hline
      exact ⟨h.network s hline, h.sections s hline⟩
    have hkeyed : ∀ s pre, (∀ t, keyLine (pre ++ t) = none) → startsWith s pre = true →
        keyLine s = none := by
      intro s pre hpre hstart
      obtain ⟨t, rfl⟩ := exists_of_startsWith hstart
      exact hpre t
    constructor
    · intro s hs
      by_contra hstart
      have hstart := Bool.not_eq_false _ ▸ hstart
      have hnet := (hraw s hs (hkeyed s "lxc.net." (fun _ => rfl) hstart)).1
      rw [isNetworkLine, hstart, Bool.or_true] at hnet
      cases hnet
    · intro s hs
      by_contra hstart
      have hstart := Bool.not_eq_false _ ▸ hstart
      have hsection := (hraw s hs (hkeyed s "[" (fun _ => rfl) hstart)).2
      rw [hstart] at hsection
      cases hsection
    · intro s hs key rest hkeyLine hlookup
      have hline := h.volumes _ (hmem s hs)
      obtain ⟨heq, -⟩ | ⟨key', rest', hkey', rfl, ⟨clone, hclone, -⟩ | ⟨hname, -⟩⟩ :=
        carriedLine_cases gtype volidMap s
      · rwa [heq] at hline
      · rw [hkey'.keyLine_eq] at hkeyLine
        obtain ⟨rfl, rfl⟩ := Prod.mk.inj (Option.some.inj hkeyLine)
        rw [hlookup] at hclone
        cases hclone
      · exact (isolatedLine_name gtype originVmid hname rest').2.volumes
  · intro hconfig
    have hlines : ∀ l ∈ splitLines
        (buildRecoveryConfig text gtype volidMap originVmid snapshot fresh),
          IsolatedLine gtype originVmid l := by
      intro l hl
      rw [hsplit] at hl
      obtain rfl | ⟨s, hs, rfl⟩ | hfixed := mem_recoveryLines.mp hl
      · exact (isolatedLine_comment gtype originVmid _).1
      · exact isolatedLine_carried args hconfig hs
      · exact isolatedLine_fixed args hfixed
    have hne : ∀ l ∈ splitLines
        (buildRecoveryConfig text gtype volidMap originVmid snapshot fresh), l ≠ [] := by
      intro l hl
      rw [hsplit] at hl
      exact (noBreak_recoveryLines args hl).2
    constructor
    · exact fun l hl => (hlines l hl).network
    · exact fun l hl => (hlines l hl).stale
    · exact fun l hl => (hlines l hl).sections
    · rw [hsplit, onboot_recoveryLines]
    · exact List.filterMap_eq_nil_iff.mpr
        (fun l hl => (hlines l (mem_splitLines_of_main hne hl)).host)
    · exact fun l hl => (hlines l hl).volumes

end Fixed

/-- A guest with a disk and a cloud-init drive. -/
def cloudInitConfig : Str :=
  "scsi0: local-zfs:vm-100-disk-0\nide2: local-zfs:vm-100-cloudinit,media=cdrom\nname: web\n"

/-- The clone of its only disk. -/
def cloudInitMap : List (Str × Str) := [("local-zfs:vm-100-disk-0", "rpool-clone:vm-900-disk-0")]

def cloudInitFresh : Fresh := ⟨"2026-01-01T00:00:00", "uuid-1", "uuid-2"⟩

theorem cloudInit_args : JobArgs "100" "s1" cloudInitMap cloudInitFresh where
  origin := by decide
  label := by decide
  clones := by
    refine ⟨"900", by decide, by decide, ?_⟩
    intro e he
    obtain rfl := List.mem_singleton.mp he
    have hstorage : ("rpool-clone" : Str).all isStorageChar = true := by decide
    exact ⟨"rpool-clone", "vm-100-disk-0", ("vm", "disk-0"), by decide,
      List.all_eq_true.mp hstorage, by decide, by decide⟩
  created := by decide
  smbios := by decide
  vmgenid := by decide

theorem isolated_iff_cloudInit :
    Isolated "qemu" "100"
        (buildRecoveryConfig cloudInitConfig "qemu" cloudInitMap "100" "s1" cloudInitFresh) ↔
      Isolatable "qemu" "100" cloudInitConfig cloudInitMap :=
  isolated_iff cloudInit_args

/-- The map has the clone of every disk of the guest, and the clone still
names the cloud-init volume of the original. -/
theorem not_isolated :
    cloudInitMap.map Prod.fst = (parseGuestConfigDisks cloudInitConfig "qemu").map Prod.snd ∧
      ¬ Isolated "qemu" "100"
        (buildRecoveryConfig cloudInitConfig "qemu" cloudInitMap "100" "s1" cloudInitFresh) := by
  constructor
  · decide
  · intro h
    have hline : ("ide2: local-zfs:vm-100-cloudinit,media=cdrom" : Str) ∈ splitLines
        (buildRecoveryConfig cloudInitConfig "qemu" cloudInitMap "100" "s1" cloudInitFresh) := by
      decide
    have hnames : namesVolumeOf "100" "ide2: local-zfs:vm-100-cloudinit,media=cdrom" = true := by
      decide
    rw [h.volumes _ hline] at hnames
    cases hnames

end PveZfsTool
