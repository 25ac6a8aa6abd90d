import PveZfsTool.Migrate.ConfigLines
import PveZfsTool.Recovery.CloneNames

/-!
# Config lines with a clone in them

A config line with a key is the key, a colon and a value that starts with a
volume id.  In the config of a clone another volume id stands in its place,
with the rest of the value after it (`exists_tail`).

`hostReason_mapped` and `not_ownedBy_clone` say what this keeps and what it
changes: a line that does not point at the host still does not, and the volume
is no longer one of the original guest's.
-/

namespace PveZfsTool

open Text

/-! ## Keys -/

/-- The key of a line. -/
structure IsKey (key : Str) : Prop where
  chars : ∀ c ∈ key, isAsciiLower c = true ∨ isDecimal c = true
  letters : key.takeWhile isAsciiLower ≠ []
  digits : (key.dropWhile isAsciiLower).dropWhile isDecimal = []

theorem IsKey.of_all {key : Str} (h : key.all (fun c => isAsciiLower c || isDecimal c) = true)
    (hletters : key.takeWhile isAsciiLower ≠ [])
    (hdigits : (key.dropWhile isAsciiLower).dropWhile isDecimal = []) : IsKey key :=
  ⟨fun c hc => (Bool.or_eq_true _ _).mp (List.all_eq_true.mp h c hc), hletters, hdigits⟩

theorem IsKey.not_mem {key : Str} (h : IsKey key) {c : Char} (hlower : isAsciiLower c = false)
    (hdecimal : isDecimal c = false) : c ∉ key := by
  intro hmem
  obtain hc | hc := h.chars c hmem
  · rw [hlower] at hc
    cases hc
  · rw [hdecimal] at hc
    cases hc

theorem IsKey.colon {key : Str} (h : IsKey key) : ':' ∉ key := h.not_mem (by decide) (by decide)

theorem IsKey.keyLine_eq {key : Str} (h : IsKey key) (r : Str) :
    keyLine (key ++ ':' :: r) = some (key, r) := by
  rw [keyLine_append h.colon, if_pos ⟨h.digits, h.letters⟩]

theorem IsKey.strip_eq {key : Str} (h : IsKey key) : strip key = key := by
  apply strip_eq_self
  intro c hc
  obtain hlower | hdecimal := h.chars c hc
  · apply isSpace_of_isAsciiAlnum
    rw [isAsciiAlnum, isAsciiAlpha, hlower, Bool.true_or, Bool.true_or]
  · exact isSpace_of_isDecimal hdecimal

/-- A line with a key is the key, a colon and the rest. -/
theorem keyLine_some {s key rest : Str} (h : keyLine s = some (key, rest)) :
    s = key ++ ':' :: rest ∧ IsKey key := by
  have hs : s = (s.takeWhile isAsciiLower ++ (s.dropWhile isAsciiLower).takeWhile isDecimal) ++
      (s.dropWhile isAsciiLower).dropWhile isDecimal := by
    rw [List.append_assoc, List.takeWhile_append_dropWhile, List.takeWhile_append_dropWhile]
  have hchars : ∀ c ∈ s.takeWhile isAsciiLower ++ (s.dropWhile isAsciiLower).takeWhile isDecimal,
      isAsciiLower c = true ∨ isDecimal c = true := by
    intro c hc
    obtain hc | hc := List.mem_append.mp hc
    · exact Or.inl (List.mem_takeWhile_imp hc)
    · exact Or.inr (List.mem_takeWhile_imp hc)
  have hsplit : s = key ++ ':' :: rest ∧ ∀ c ∈ key, isAsciiLower c = true ∨ isDecimal c = true := by
    unfold keyLine at h
    dsimp only at h
    split at h
    · next value heq =>
      split at h
      · cases h
      · obtain ⟨rfl, rfl⟩ := Prod.mk.inj (Option.some.inj h)
        refine ⟨?_, hchars⟩
        rw [heq] at hs
        exact hs
    · cases h
  obtain ⟨rfl, hkey⟩ := hsplit
  have hcolon : ':' ∉ key := by
    intro hmem
    have hc := hkey _ hmem
    revert hc
    decide
  rw [keyLine_append hcolon] at h
  split at h
  · next hform => exact ⟨rfl, hkey, hform.2, hform.1⟩
  · cases h

/-! ## Lines without a key -/

theorem exists_of_startsWith {s pre : Str} (h : startsWith s pre = true) : ∃ t, s = pre ++ t := by
  obtain ⟨t, ht⟩ := List.isPrefixOf_iff_prefix.mp h
  exact ⟨t, ht.symm⟩

/-- A line with a key does not start with what is not part of one. -/
theorem IsKey.not_startsWith {key : Str} (h : IsKey key) (r pre : Str)
    (hpre : ∀ t, keyLine (pre ++ t) = none) :
    ¬ startsWith (key ++ ':' :: r) pre = true := by
  intro hstart
  obtain ⟨t, ht⟩ := exists_of_startsWith hstart
  have hkey := h.keyLine_eq r
  rw [ht, hpre t] at hkey
  cases hkey

/-- A line with a key is bound to the host by its key and its value alone. -/
theorem hostBoundEntry_key {key : Str} (h : IsKey key) (gtype r : Str) :
    hostBoundEntry gtype (key ++ ':' :: r) =
      (hostReason gtype key (strip r)).map (fun reason => ⟨key, strip r, reason⟩) := by
  have hhash := h.not_startsWith r "#" (fun _ => rfl)
  have hmount := h.not_startsWith r "lxc.mount.entry:" (fun _ => rfl)
  have hcgroup := h.not_startsWith r "lxc.cgroup.devices.allow:" (fun _ => rfl)
  have hcgroup2 := h.not_startsWith r "lxc.cgroup2.devices.allow:" (fun _ => rfl)
  have hne : key ++ ':' :: r ≠ [] := by simp
  unfold hostBoundEntry
  rw [if_neg (not_or.mpr ⟨hne, hhash⟩), if_neg (fun hboth => hmount hboth.2),
    if_neg (fun hboth => hboth.2.elim hcgroup hcgroup2), h.keyLine_eq]

/-- An entry that is bound to the host has the key and the value of its
line. -/
theorem hostBoundEntry_some {gtype s : Str} {e : HostEntry} (h : hostBoundEntry gtype s = some e) :
    e.key = strip (beforeFirst ':' s) ∧ e.value = strip (afterColon s) := by
  unfold hostBoundEntry at h
  split at h
  · cases h
  · split at h
    · next hmount =>
      obtain ⟨t, rfl⟩ := exists_of_startsWith hmount.2
      obtain rfl := Option.some.inj h
      exact ⟨rfl, rfl⟩
    · split at h
      · next hcgroup =>
        obtain hstart | hstart := hcgroup.2
        · obtain ⟨t, rfl⟩ := exists_of_startsWith hstart
          obtain rfl := Option.some.inj h
          exact ⟨rfl, rfl⟩
        · obtain ⟨t, rfl⟩ := exists_of_startsWith hstart
          obtain rfl := Option.some.inj h
          exact ⟨rfl, rfl⟩
      · split at h
        · cases h
        · next key rest hkeyLine =>
          obtain ⟨rfl, hkey⟩ := keyLine_some hkeyLine
          obtain ⟨reason, -, rfl⟩ := Option.map_eq_some_iff.mp h
          have hcolon : afterColon (key ++ ':' :: rest) = rest := by
            rw [afterColon, if_pos (by simp), afterFirst_append hkey.colon]
          rw [beforeFirst_append hkey.colon, hcolon, hkey.strip_eq]
          exact ⟨rfl, rfl⟩

/-! ## The volume id of a clone -/

/-- The volume id of a clone of the new guest. -/
def IsCloneVolid (newVmid volid : Str) : Prop :=
  ∃ storage base v, storage ≠ [] ∧ (∀ c ∈ storage, isStorageChar c = true) ∧
    guestVolume base = some v ∧ volid = storage ++ ':' :: cloneName newVmid v

/-- The volume of a storage is one of the guest's. -/
def ownedBy (vmid volid : Str) : Bool :=
  volid.contains ':' &&
    volumeKinds.any (fun k => startsWith (volumeBasename volid) (k ++ "-" ++ vmid ++ "-"))

/-- A text that can stand for a volume id in front of a comma: no whitespace,
no comma and no equals sign, a colon, and no slash at its start. -/
structure PlainVolid (volid : Str) : Prop where
  chars : ∀ c ∈ volid, isSpace c = false ∧ c ≠ ',' ∧ c ≠ '='
  colon : ':' ∈ volid
  start : ∃ c s, volid = c :: s ∧ c ≠ '/'

theorem plain_of_isStorageChar {c : Char} (h : isStorageChar c = true) :
    (isSpace c = false ∧ c ≠ ',' ∧ c ≠ '=') ∧ c ≠ '/' ∧ c ≠ ':' := by
  have hvolume := isVolumeChar_of_isStorageChar h
  have hspace := isSpace_of_isVolumeChar hvolume
  have hnot : ∀ d : Char, isStorageChar d = false → c ≠ d := by
    rintro d hd rfl
    rw [hd] at h
    cases h
  exact ⟨⟨hspace, hnot ',' (by decide), hnot '=' (by decide)⟩, hnot '/' (by decide),
    hnot ':' (by decide)⟩

/-- The characters of a clone's name are letters, digits and dashes. -/
theorem plain_of_mem_cloneName {newVmid base : Str} {v : Str × Str}
    (hvmid : validateVmid newVmid = .ok newVmid) (h : guestVolume base = some v) {c : Char}
    (hc : c ∈ cloneName newVmid v) : isSpace c = false ∧ c ≠ ',' ∧ c ≠ '=' := by
  have hdecimal : ∀ d : Char, isDecimal d = true → isSpace d = false ∧ d ≠ ',' ∧ d ≠ '=' := by
    intro d hd
    refine ⟨isSpace_of_isDecimal hd, ?_, ?_⟩
    · rintro rfl
      revert hd
      decide
    · rintro rfl
      revert hd
      decide
  have hplain : ∀ s : Str, s.all (fun d => !isSpace d && d != ',' && d != '=') = true →
      ∀ d ∈ s, isSpace d = false ∧ d ≠ ',' ∧ d ≠ '=' := by
    intro s hs d hd
    simpa [and_assoc] using List.all_eq_true.mp hs d hd
  simp only [cloneName, List.mem_append] at hc
  obtain (((hc | hc) | hc) | hc) | hc := hc
  · obtain ⟨-, hk⟩ | ⟨-, hk⟩ := cloneKind_eq (mem_volumeKinds_of_guestVolume h)
    · exact hplain "subvol" (by decide) c (by rwa [hk] at hc)
    · exact hplain "vm" (by decide) c (by rwa [hk] at hc)
  · exact hplain "-" (by decide) c hc
  · have hdigit := (validateVmid_ok hvmid).2.2 c hc
    have halnum : isAsciiAlnum c = true := by rw [isAsciiAlnum, hdigit, Bool.or_true]
    refine ⟨isSpace_of_isAsciiAlnum halnum, ?_, ?_⟩
    · rintro rfl
      revert hdigit
      decide
    · rintro rfl
      revert hdigit
      decide
  · exact hplain "-" (by decide) c hc
  · obtain ⟨index, hnumber, hindex⟩ := number_of_guestVolume h
    rw [hnumber] at hc
    obtain hc | hc := List.mem_append.mp hc
    · exact hplain "disk-" (by decide) c hc
    · exact hdecimal c (hindex c hc)

theorem plainVolid_of_clone {newVmid volid : Str} (hvmid : validateVmid newVmid = .ok newVmid)
    (h : IsCloneVolid newVmid volid) : PlainVolid volid := by
  obtain ⟨storage, base, v, hne, hstorage, hv, rfl⟩ := h
  refine ⟨?_, by simp, ?_⟩
  · intro c hc
    simp only [List.mem_append, List.mem_cons] at hc
    obtain hc | rfl | hc := hc
    · exact (plain_of_isStorageChar (hstorage c hc)).1
    · decide
    · exact plain_of_mem_cloneName hvmid hv hc
  · cases storage with
    | nil => exact absurd rfl hne
    | cons c storage =>
      exact ⟨c, _, rfl, (plain_of_isStorageChar (hstorage c List.mem_cons_self)).2.1⟩

/-! ## Whitespace around a value -/

/-- The text that is looked up in the map. -/
def volidOf (rest : Str) : Str := strip (beforeFirst ',' (lstrip rest))

theorem comma_not_mem_volidOf (rest : Str) : ',' ∉ volidOf rest := by
  intro hmem
  apply not_mem_beforeFirst ',' (lstrip rest)
  obtain ⟨front, back, -, -, hs⟩ := exists_strip (beforeFirst ',' (lstrip rest))
  rw [hs]
  exact List.mem_append_right _ (List.mem_append_left _ hmem)

/-- The value of a line is its volume id and a tail, with nothing but blanks
before the next comma. -/
theorem exists_tail (rest : Str) : ∃ tail, (lstrip rest).drop (volidOf rest).length = tail ∧
    strip rest = volidOf rest ++ rstrip tail ∧ rstrip (beforeFirst ',' tail) = [] := by
  have hprefix : volidOf rest <+: lstrip rest := by
    cases hvalue : lstrip rest with
    | nil =>
      rw [volidOf, hvalue]
      exact List.nil_prefix
    | cons c t =>
      have hc : isSpace c = false := by
        have hhead := List.head?_dropWhile_not isSpace rest
        rw [show rest.dropWhile isSpace = c :: t from hvalue] at hhead
        simpa using hhead
      rw [volidOf, hvalue]
      by_cases hcomma : c = ','
      · subst hcomma
        have hnil : strip (beforeFirst ',' (',' :: t)) = [] := by
          simp [beforeFirst, strip, lstrip, rstrip]
        rw [hnil]
        exact List.nil_prefix
      · have hbefore : beforeFirst ',' (c :: t) = c :: beforeFirst ',' t := by
          simp [beforeFirst, hcomma]
        rw [hbefore, strip_cons hc]
        exact List.cons_prefix_cons.mpr
          ⟨rfl, (rstrip_take _).trans (List.takeWhile_prefix _)⟩
  obtain ⟨tail, htail⟩ := hprefix
  have hbefore : beforeFirst ',' (lstrip rest) = volidOf rest ++ beforeFirst ',' tail := by
    rw [← htail, beforeFirst,
      List.takeWhile_append_of_pos (ne_sep_of_not_mem (comma_not_mem_volidOf rest))]
    rfl
  have hvolid : strip (volidOf rest ++ beforeFirst ',' tail) = volidOf rest := by
    rw [← hbefore]
    rfl
  refine ⟨tail, by rw [← htail, List.drop_left], ?_, ?_⟩
  · rw [strip, ← htail]
    by_cases hnil : volidOf rest = []
    · rw [hnil, List.nil_append, List.nil_append]
    · exact rstrip_append_of_getLast hnil (fun d hd => isSpace_getLast_strip hd)
  · by_cases hnil : volidOf rest = []
    · rw [hnil, List.nil_append] at hvolid
      obtain ⟨front, back, hfront, hback, hs⟩ := exists_strip (beforeFirst ',' tail)
      rw [hvolid, List.nil_append] at hs
      have hall : ∀ c ∈ (beforeFirst ',' tail).reverse, isSpace c = true := by
        intro c hc
        rw [List.mem_reverse, hs] at hc
        obtain hc | hc := List.mem_append.mp hc
        · exact hfront c hc
        · exact hback c hc
      rw [rstrip, List.dropWhile_eq_nil_iff.mpr hall, List.reverse_nil]
    · rw [strip_append_of_ends hnil (fun c hc => isSpace_head_strip hc)
        (fun d hd => isSpace_getLast_strip hd)] at hvolid
      exact List.append_right_eq_self.mp hvolid

/-! ## A line with a clone in it -/

section Mapped

variable {volid clone tail : Str}

theorem PlainVolid.strip_append (h : PlainVolid clone) (t : Str) :
    strip (clone ++ t) = clone ++ rstrip t := by
  obtain ⟨c, s, hclone, -⟩ := h.start
  refine strip_append_of_ends (by simp [hclone]) ?_ ?_
  · exact fun c hc => (h.chars c (List.mem_of_mem_head? hc)).1
  · exact fun d hd => (h.chars d (List.mem_of_mem_getLast? hd)).1

theorem PlainVolid.before_comma (h : PlainVolid clone) (t : Str) :
    beforeFirst ',' (clone ++ t) = clone ++ beforeFirst ',' t := by
  have hcomma : ',' ∉ clone := fun hmem => (h.chars _ hmem).2.1 rfl
  rw [beforeFirst, List.takeWhile_append_of_pos (ne_sep_of_not_mem hcomma)]
  rfl

/-- No option of the host starts like a clone. -/
theorem PlainVolid.not_option (h : PlainVolid clone) (t pre : Str) (heq : '=' ∈ pre)
    (hcolon : ':' ∉ pre) : startsWith (clone ++ t) pre = false := by
  rw [startsWith, Bool.eq_false_iff]
  intro hstart
  obtain hpre | hclone := List.prefix_or_prefix_of_prefix (List.isPrefixOf_iff_prefix.mp hstart)
    (List.prefix_append clone t)
  · exact (h.chars _ (hpre.subset heq)).2.2 rfl
  · exact hcolon (hclone.subset h.colon)

/-- A clone in the place of a volume id binds the line to nothing. -/
theorem hostReason_mapped {gtype key : Str} (h : PlainVolid clone) (hcomma : ',' ∉ volid)
    (hnone : hostReason gtype key (volid ++ tail) = none) :
    hostReason gtype key (clone ++ tail) = none := by
  have hfirst : strip (beforeFirst ',' (clone ++ tail)) = clone ++ rstrip (beforeFirst ',' tail) := by
    rw [h.before_comma, h.strip_append]
  obtain ⟨c, s, hclone, hslash⟩ := h.start
  have hnot : ∀ p : Str, startsWith (strip (beforeFirst ',' (clone ++ tail))) ('/' :: p) = false := by
    intro p
    rw [hfirst, hclone, startsWith, List.cons_append, List.isPrefixOf_cons_cons]
    simp [Ne.symm hslash]
  have hroot := hnot []
  have hdev := hnot "dev/"
  have hcolon : (strip (beforeFirst ',' (clone ++ tail))).contains ':' = true := by
    rw [hfirst, List.contains_iff_mem]
    exact List.mem_append_left _ h.colon
  have hparts : (splitOn ',' (clone ++ tail)).any
      (fun p => startsWith p "host=" || startsWith p "mapping=") = true →
        (splitOn ',' (volid ++ tail)).any
          (fun p => startsWith p "host=" || startsWith p "mapping=") = true := by
    have hclonecomma : ',' ∉ clone := fun hmem => (h.chars _ hmem).2.1 rfl
    obtain ⟨part, parts, ht, hct⟩ := splitOn_append_left hclonecomma tail
    obtain ⟨part', parts', ht', hvt⟩ := splitOn_append_left hcomma tail
    rw [ht] at ht'
    obtain ⟨rfl, rfl⟩ := List.cons.inj ht'
    rw [hct, hvt, List.any_cons, List.any_cons, h.not_option _ _ (by decide) (by decide),
      h.not_option _ _ (by decide) (by decide)]
    intro hany
    rw [Bool.or_self, Bool.false_or] at hany
    rw [hany, Bool.or_true]
  unfold hostReason at hnone ⊢
  dsimp only at hnone ⊢
  by_cases hgtype : gtype = ("lxc" : Str)
  · rw [if_pos hgtype] at hnone ⊢
    rw [hcolon, Bool.not_true, Bool.and_false, if_neg (by simp)]
    split at hnone
    · cases hnone
    · split at hnone
      · cases hnone
      · next hkey => rw [if_neg hkey]
  · rw [if_neg hgtype] at hnone ⊢
    split at hnone
    · cases hnone
    · next hpci =>
      split at hnone
      · cases hnone
      · next husb =>
        have husb' : ¬ (isNumberedKey ["usb"] key && (splitOn ',' (clone ++ tail)).any
            (fun p => startsWith p "host=" || startsWith p "mapping=")) = true := by
          intro hboth
          obtain ⟨hkey, hany⟩ := (Bool.and_eq_true _ _).mp hboth
          exact husb (by rw [hkey, hparts hany]; rfl)
        rw [if_neg hpci, if_neg husb', show startsWith _ "/" = false from hroot,
          show startsWith _ "/dev/" = false from hdev]
        simp

/-- A clone of another guest is not owned by the original. -/
theorem not_ownedBy_clone {originVmid newVmid : Str}
    (horigin : validateVmid originVmid = .ok originVmid) (hnew : validateVmid newVmid = .ok newVmid)
    (hne : newVmid ≠ originVmid) (h : IsCloneVolid newVmid clone) :
    ownedBy originVmid clone = false := by
  obtain ⟨storage, base, v, -, hstorage, hv, rfl⟩ := h
  have hcolon : ':' ∉ storage := fun hmem => (plain_of_isStorageChar (hstorage _ hmem)).2.2 rfl
  have hbasename : volumeBasename (storage ++ ':' :: cloneName newVmid v) = cloneName newVmid v := by
    rw [volumeBasename, afterFirst_append hcolon,
      afterLast_of_not_mem (slash_not_mem_volumeName hnew hv)]
  have hdash : ∀ vmid : Str, validateVmid vmid = .ok vmid → '-' ∉ vmid := by
    intro vmid hvmid hmem
    have hdigit := (validateVmid_ok hvmid).2.2 _ hmem
    revert hdigit
    decide
  have hkind : '-' ∉ cloneKind v.1 := by
    obtain ⟨-, hk⟩ | ⟨-, hk⟩ := cloneKind_eq (mem_volumeKinds_of_guestVolume hv)
    · rw [hk]
      decide
    · rw [hk]
      decide
  have hkinds : ∀ k ∈ volumeKinds, '-' ∉ k := by decide
  have hnone : volumeKinds.any (fun k => startsWith (cloneName newVmid v)
      (k ++ "-" ++ originVmid ++ "-")) = false := by
    rw [List.any_eq_false]
    intro k hk hstart
    obtain ⟨t, ht⟩ := exists_of_startsWith hstart
    have hsplit : cloneKind v.1 ++ '-' :: (newVmid ++ '-' :: v.2) =
        k ++ '-' :: (originVmid ++ '-' :: t) := by
      simpa [cloneName] using ht
    have hafter := congrArg (afterFirst '-') hsplit
    rw [afterFirst_append hkind, afterFirst_append (hkinds k hk)] at hafter
    have hvmid := congrArg (beforeFirst '-') hafter
    rw [beforeFirst_append (hdash _ hnew), beforeFirst_append (hdash _ horigin)] at hvmid
    exact hne hvmid
  rw [ownedBy, hbasename, hnone, Bool.and_false]

end Mapped

/-! ## Lines with a key -/

theorem IsKey.head {key : Str} (h : IsKey key) :
    ∃ c s, key = c :: s ∧ isAsciiLower c = true := by
  cases key with
  | nil => exact absurd rfl h.letters
  | cons c s =>
    refine ⟨c, s, rfl, ?_⟩
    by_contra hc
    have hletters := h.letters
    rw [List.takeWhile_cons_of_neg hc] at hletters
    exact hletters rfl

theorem isSpace_of_isAsciiLower {c : Char} (h : isAsciiLower c = true) : isSpace c = false := by
  apply isSpace_of_isAsciiAlnum
  rw [isAsciiAlnum, isAsciiAlpha, h, Bool.true_or, Bool.true_or]

theorem IsKey.strip_line {key : Str} (h : IsKey key) (r : Str) :
    strip (key ++ ':' :: r) = key ++ ':' :: rstrip r := by
  obtain ⟨c, s, rfl, hc⟩ := h.head
  have hcolon : isSpace ':' = false := by decide
  rw [strip, List.cons_append, lstrip_cons (isSpace_of_isAsciiLower hc), ← List.cons_append,
    rstrip_append_cons hcolon]

/-- The keys with values that can point at the host. -/
def hostKeys : List Str :=
  ["mp", "dev", "hostpci", "usb", "scsi", "virtio", "sata", "ide", "serial", "parallel"]

theorem isNumberedKey_of_subset (names : List Str) {names' : List Str} {key : Str} (h : names ⊆ names')
    (hnone : isNumberedKey names' key = false) : isNumberedKey names key = false := by
  rw [isNumberedKey, List.any_eq_false] at hnone ⊢
  exact fun n hn => hnone n (h hn)

theorem hostReason_of_key {key : Str} (h : isNumberedKey hostKeys key = false) (gtype value : Str) :
    hostReason gtype key value = none := by
  have hmp := isNumberedKey_of_subset ["mp"] (by decide) h
  have hdev := isNumberedKey_of_subset ["dev"] (by decide) h
  have hpci := isNumberedKey_of_subset ["hostpci"] (by decide) h
  have husb := isNumberedKey_of_subset ["usb"] (by decide) h
  have hdisk := isNumberedKey_of_subset ["scsi", "virtio", "sata", "ide"] (by decide) h
  have hserial := isNumberedKey_of_subset ["serial", "parallel"] (by decide) h
  unfold hostReason
  dsimp only
  rw [hmp, hdev, hpci, husb, hdisk, hserial]
  split <;> rfl

end PveZfsTool
