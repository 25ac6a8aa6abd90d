import PveZfsTool.GuestConfig
import PveZfsTool.Lib.Strip
import PveZfsTool.Lib.Substitute

/-!
# The lines of a guest config

PVE writes a disk as `key: storage:[base/]leaf[,options]`.  A `DiskLine` is
such a line with what makes it one, and `diskOfLine_text` says that the config
reader finds its disk.
-/

namespace PveZfsTool

open Text

/-! ## Characters -/

/-- The characters of an option name. -/
def isKeyChar (c : Char) : Bool := isAsciiAlnum c || c == '_' || c == '.'

/-- The characters of a storage id. -/
def isStorageChar (c : Char) : Bool := isKeyChar c || c == '-'

/-- The characters of a volume name: neither whitespace nor a separator. -/
def isVolumeChar (c : Char) : Bool := !isSpace c && c != ':' && c != ','

theorem isAsciiAlnum_toNat {c : Char} (h : isAsciiAlnum c = true) :
    (48 ≤ c.toNat ∧ c.toNat ≤ 57) ∨ (65 ≤ c.toNat ∧ c.toNat ≤ 90) ∨
      (97 ≤ c.toNat ∧ c.toNat ≤ 122) := by
  simp only [isAsciiAlnum, isAsciiAlpha, isAsciiLower, isAsciiUpper, isAsciiDigit,
    Bool.or_eq_true, Bool.and_eq_true, decide_eq_true_eq] at h
  rcases h with (⟨h₁, h₂⟩ | ⟨h₁, h₂⟩) | ⟨h₁, h₂⟩
  · exact Or.inr (Or.inr ⟨h₁, h₂⟩)
  · exact Or.inr (Or.inl ⟨h₁, h₂⟩)
  · exact Or.inl ⟨h₁, h₂⟩

theorem isStorageChar_of_isKeyChar {c : Char} (h : isKeyChar c = true) :
    isStorageChar c = true := by
  rw [isStorageChar, h, Bool.true_or]

/-- A storage id is the same text in a volume name. -/
theorem isVolumeChar_of_isStorageChar {c : Char} (h : isStorageChar c = true) :
    isVolumeChar c = true := by
  have hcases : isAsciiAlnum c = true ∨ c = '_' ∨ c = '.' ∨ c = '-' := by
    simpa [isStorageChar, isKeyChar, or_assoc] using h
  rcases hcases with halnum | rfl | rfl | rfl
  · have hrange := isAsciiAlnum_toNat halnum
    have hspace : isSpace c = false := by
      simp only [isSpace, Bool.or_eq_false_iff, Bool.and_eq_false_iff, decide_eq_false_iff_not,
        beq_eq_false_iff_ne]
      omega
    have hcolon : c ≠ ':' := by
      rintro rfl
      revert halnum
      decide
    have hcomma : c ≠ ',' := by
      rintro rfl
      revert halnum
      decide
    simp [isVolumeChar, hspace, hcolon, hcomma]
  · decide
  · decide
  · decide

theorem isVolumeChar_of_isKeyChar {c : Char} (h : isKeyChar c = true) : isVolumeChar c = true :=
  isVolumeChar_of_isStorageChar (isStorageChar_of_isKeyChar h)

theorem isSpace_of_isVolumeChar {c : Char} (h : isVolumeChar c = true) : isSpace c = false := by
  simp only [isVolumeChar, Bool.and_eq_true, Bool.not_eq_true'] at h
  exact h.1.1

theorem not_mem_of_all {p : Char → Bool} {s : Str} {c : Char} (h : ∀ d ∈ s, p d = true)
    (hc : p c = false) : c ∉ s := by
  intro hmem
  rw [h c hmem] at hc
  cases hc

/-! ## Keys -/

theorem keyLine_append {name r : Str} (hname : ':' ∉ name) :
    keyLine (name ++ ':' :: r) =
      if (name.dropWhile isAsciiLower).dropWhile isDecimal = [] ∧ name.takeWhile isAsciiLower ≠ []
      then some (name, r) else none := by
  have hlower : isAsciiLower ':' = false := by decide
  have hdecimal : isDecimal ':' = false := by decide
  unfold keyLine
  rw [takeWhile_append_cons hlower, dropWhile_append_cons hlower]
  dsimp only
  rw [takeWhile_append_cons hdecimal, dropWhile_append_cons hdecimal]
  cases hrest : (name.dropWhile isAsciiLower).dropWhile isDecimal with
  | nil =>
    have hdigits := List.takeWhile_append_dropWhile (p := isDecimal)
      (l := name.dropWhile isAsciiLower)
    rw [hrest, List.append_nil] at hdigits
    have hall := List.takeWhile_append_dropWhile (p := isAsciiLower) (l := name)
    rw [List.nil_append, hdigits, hall]
    by_cases hletters : name.takeWhile isAsciiLower = [] <;> simp [hletters]
  | cons c rest =>
    have hmem : c ∈ name := by
      have hsuffix : c :: rest <:+ name := by
        rw [← hrest]
        exact (List.dropWhile_suffix _).trans (List.dropWhile_suffix _)
      exact hsuffix.subset List.mem_cons_self
    have hc : c ≠ ':' := by
      rintro rfl
      exact hname hmem
    rw [List.cons_append]
    split
    · rename_i value heq
      exact absurd (List.cons.inj heq).1 hc
    · simp

/-- A line that starts with a name and a colon has this name as its key, if
it has one. -/
theorem key_of_keyLine {name r key value : Str} (hname : ':' ∉ name)
    (h : keyLine (name ++ ':' :: r) = some (key, value)) : key = name := by
  rw [keyLine_append hname] at h
  split at h
  · cases h
    rfl
  · cases h

/-- A letter is no decimal digit. -/
theorem isDecimal_of_isAsciiLower {c : Char} (h : isAsciiLower c = true) :
    isDecimal c = false := by
  simp only [isAsciiLower, Bool.and_eq_true, decide_eq_true_eq] at h
  have h₁ : 97 ≤ c.toNat := h.1
  have h₂ : c.toNat ≤ 122 := h.2
  have hzeros : ∀ z ∈ decimalZeros, z + 10 ≤ 97 ∨ 122 < z := by decide
  have hnone : decimalZeros.find? (fun z => z ≤ c.toNat && c.toNat < z + 10) = none := by
    rw [List.find?_eq_none]
    intro z hz
    have hrange := hzeros z hz
    simp only [Bool.and_eq_true, decide_eq_true_eq]
    omega
  rw [isDecimal, decimal?, hnone]
  rfl

/-- Lowercase letters with decimal digits after them are a key. -/
theorem keyLine_numbered {n key r : Str} (hn : n ≠ []) (hlower : ∀ c ∈ n, isAsciiLower c = true)
    (hkey : startsWith key n = true) (hdigits : (key.drop n.length).all isDecimal = true)
    (hcolon : ':' ∉ key) : keyLine (key ++ ':' :: r) = some (key, r) := by
  rw [keyLine_append hcolon]
  obtain ⟨ds, rfl⟩ := List.isPrefixOf_iff_prefix.mp hkey
  rw [List.drop_left, List.all_eq_true] at hdigits
  have hds : ds.dropWhile isAsciiLower = ds := by
    cases ds with
    | nil => rfl
    | cons c ds =>
      have hc : isAsciiLower c = false := by
        by_contra hc
        have hdecimal := isDecimal_of_isAsciiLower (by simpa using hc)
        rw [hdigits c List.mem_cons_self] at hdecimal
        cases hdecimal
      simp [hc]
  have hrest : ((n ++ ds).dropWhile isAsciiLower).dropWhile isDecimal = [] := by
    rw [List.dropWhile_append_of_pos hlower, hds, List.dropWhile_eq_nil_iff]
    exact hdigits
  have hletters : (n ++ ds).takeWhile isAsciiLower ≠ [] := by
    rw [List.takeWhile_append_of_pos hlower]
    intro hnil
    exact hn (List.append_eq_nil_iff.mp hnil).1
  rw [if_pos ⟨hrest, hletters⟩]

/-- A disk key is a key of the config reader. -/
theorem keyLine_diskKey {gtype key r : Str} (h : isDiskKey gtype key = true)
    (hcolon : ':' ∉ key) : keyLine (key ++ ':' :: r) = some (key, r) := by
  have hnumbered : ∀ names : List Str, names.all (fun n => n != [] && n.all isAsciiLower) = true →
      isNumberedKey names key = true → keyLine (key ++ ':' :: r) = some (key, r) := by
    intro names hnames hkey
    simp only [isNumberedKey, List.any_eq_true, Bool.and_eq_true] at hkey
    obtain ⟨n, hmem, ⟨hstart, -⟩, hdigits⟩ := hkey
    have hname : n ≠ [] ∧ n.all isAsciiLower = true := by
      simpa using List.all_eq_true.mp hnames n hmem
    exact keyLine_numbered hname.1 (List.all_eq_true.mp hname.2) hstart hdigits hcolon
  unfold isDiskKey at h
  split at h
  · rcases (Bool.or_eq_true _ _).mp h with hroot | hmp
    · obtain rfl : key = "rootfs" := by simpa using hroot
      have hlower : ("rootfs" : Str).all isAsciiLower = true := by decide
      exact keyLine_numbered (n := "rootfs") (by decide) (List.all_eq_true.mp hlower) (by decide)
        (by decide) hcolon
    · exact hnumbered ["mp"] (by decide) hmp
  · exact hnumbered ["scsi", "virtio", "sata", "ide", "efidisk", "tpmstate"] (by decide) h

/-! ## Whitespace at the ends -/

/-- What stands before the last character without whitespace stays. -/
theorem rstrip_append {a v t : Str} (hv : ∀ c ∈ v, isSpace c = false) (hne : v ≠ []) :
    rstrip (a ++ (v ++ t)) = a ++ (v ++ rstrip t) := by
  rcases List.eq_nil_or_concat v with rfl | ⟨init, c, rfl⟩
  · exact absurd rfl hne
  · have hc := hv c (by simp)
    rw [List.concat_eq_append, List.append_assoc, List.singleton_append, ← List.append_assoc,
      rstrip_append_cons hc, List.append_assoc, List.append_assoc, List.singleton_append]

/-! ## Disk lines -/

/-- The parts of a disk line. -/
structure DiskParts where
  key : Str
  storage : Str
  /-- The base image of a linked clone. -/
  base : Option Str
  leaf : Str
  options : Option Str
  deriving DecidableEq

namespace DiskParts

/-- The volume name: the leaf, with the base image before it. -/
def volume (p : DiskParts) : Str :=
  match p.base with
  | none => p.leaf
  | some base => base ++ '/' :: p.leaf

/-- The volume id. -/
def volid (p : DiskParts) : Str := p.storage ++ ':' :: p.volume

/-- The options, with the comma before them. -/
def tail (p : DiskParts) : Str :=
  match p.options with
  | none => []
  | some options => ',' :: options

/-- The line. -/
def text (p : DiskParts) : Str := p.key ++ ':' :: ' ' :: (p.volid ++ p.tail)

end DiskParts

/-- A line that PVE writes for a disk. -/
structure DiskLine (gtype : Str) extends DiskParts where
  isKey : isDiskKey gtype key = true
  keyChars : ∀ c ∈ key, isKeyChar c = true
  storage_ne : storage ≠ []
  storageChars : ∀ c ∈ storage, isStorageChar c = true
  volumeChars : ∀ c ∈ toDiskParts.volume, isVolumeChar c = true
  leaf_ne : leaf ≠ []
  leaf_slash : '/' ∉ leaf
  noBreak : NoBreak toDiskParts.tail
  noCdrom : ¬ ("media=cdrom" : Str) <:+: toDiskParts.text
  noBridge : ¬ ("bridge=" : Str) <:+: toDiskParts.text

namespace DiskLine

variable {gtype : Str} (d : DiskLine gtype)

theorem key_ne : d.key ≠ [] := by
  intro hkey
  have h := d.isKey
  rw [hkey] at h
  unfold isDiskKey at h
  split at h <;> revert h <;> decide

theorem key_colon : ':' ∉ d.key :=
  not_mem_of_all (fun c hc => isVolumeChar_of_isKeyChar (d.keyChars c hc)) (by decide)

theorem storage_colon : ':' ∉ d.storage :=
  not_mem_of_all (fun c hc => isVolumeChar_of_isStorageChar (d.storageChars c hc)) (by decide)

theorem volume_ne : d.volume ≠ [] := by
  unfold DiskParts.volume
  split
  · exact d.leaf_ne
  · simp

theorem volid_space : ∀ c ∈ d.volid, isSpace c = false := by
  intro c hc
  rcases List.mem_append.mp hc with hc | hc
  · exact isSpace_of_isVolumeChar (isVolumeChar_of_isStorageChar (d.storageChars c hc))
  · rcases List.mem_cons.mp hc with rfl | hc
    · decide
    · exact isSpace_of_isVolumeChar (d.volumeChars c hc)

theorem volid_comma : ',' ∉ d.volid := by
  intro hc
  rcases List.mem_append.mp hc with hc | hc
  · have hv := isVolumeChar_of_isStorageChar (d.storageChars _ hc)
    revert hv
    decide
  · rcases List.mem_cons.mp hc with hc | hc
    · cases hc
    · have hv := d.volumeChars _ hc
      revert hv
      decide

theorem volid_ne : d.volid ≠ [] := by
  simp [DiskParts.volid]

theorem rstrip_tail : rstrip d.tail = [] ∨ ∃ o, rstrip d.tail = ',' :: o := by
  unfold DiskParts.tail
  split
  · exact Or.inl rfl
  · rename_i options _
    exact Or.inr ⟨rstrip options, rstrip_append_cons (a := []) (by decide)⟩

theorem strip_text : strip d.text = d.key ++ ':' :: ' ' :: (d.volid ++ rstrip d.tail) := by
  have hstart : lstrip d.text = d.text := by
    unfold DiskParts.text
    cases hkey : d.key with
    | nil => exact absurd hkey d.key_ne
    | cons c key =>
      have hc : isKeyChar c = true := d.keyChars c (by simp [hkey])
      exact lstrip_cons (isSpace_of_isVolumeChar (isVolumeChar_of_isKeyChar hc))
  rw [strip, hstart, DiskParts.text]
  have hend := rstrip_append (a := d.key ++ [':', ' ']) (t := d.tail) d.volid_space d.volid_ne
  simpa using hend

theorem strip_value : strip (' ' :: (d.volid ++ rstrip d.tail)) = d.volid ++ rstrip d.tail := by
  have hstart : lstrip (' ' :: (d.volid ++ rstrip d.tail)) = d.volid ++ rstrip d.tail := by
    have hspace : lstrip (' ' :: (d.volid ++ rstrip d.tail)) =
        lstrip (d.volid ++ rstrip d.tail) := by
      rw [lstrip, List.dropWhile_cons, if_pos (by decide)]
      rfl
    rw [hspace]
    cases hvolid : d.volid with
    | nil => exact absurd hvolid d.volid_ne
    | cons c v => exact lstrip_cons (d.volid_space c (by simp [hvolid]))
  have hend := rstrip_append (a := []) (t := rstrip d.tail) d.volid_space d.volid_ne
  rw [strip, hstart]
  rw [rstrip_idem] at hend
  exact hend

/-- The config reader finds the disk of the line. -/
theorem diskOfLine_text : diskOfLine gtype d.text = some (d.key, d.volid) := by
  have hbefore : beforeFirst ',' (d.volid ++ rstrip d.tail) = d.volid := by
    have hall : ∀ c ∈ d.volid, decide (c ≠ ',') = true := by
      intro c hc
      simp only [decide_eq_true_eq]
      rintro rfl
      exact d.volid_comma hc
    rw [beforeFirst, List.takeWhile_append_of_pos hall]
    rcases d.rstrip_tail with htail | ⟨o, htail⟩ <;> simp [htail]
  have hcdrom : contains (d.volid ++ rstrip d.tail) "media=cdrom" = false := by
    rw [contains, decide_eq_false_iff_not]
    intro hsub
    have hvalue : d.volid ++ rstrip d.tail <:+: d.text := by
      have hprefix : d.volid ++ rstrip d.tail <+: d.volid ++ d.tail :=
        (List.prefix_append_right_inj _).mpr (rstrip_take _)
      refine hprefix.isInfix.trans ⟨d.key ++ [':', ' '], [], ?_⟩
      simp [DiskParts.text]
    exact d.noCdrom (hsub.trans hvalue)
  have hcolon : ':' ∈ d.volid := by simp [DiskParts.volid]
  have hnone : d.volid ≠ ("none" : Str) := by
    intro heq
    rw [heq] at hcolon
    revert hcolon
    decide
  unfold diskOfLine
  rw [d.strip_text, keyLine_diskKey d.isKey d.key_colon]
  dsimp only
  rw [d.strip_value, hbefore, strip_eq_self d.volid_space, if_neg]
  rintro (h | h | h | h | h | h)
  · cases h
  · exact h d.isKey
  · exact d.volid_ne h
  · exact hnone h
  · rw [hcdrom] at h
    cases h
  · exact h hcolon

end DiskLine

end PveZfsTool
