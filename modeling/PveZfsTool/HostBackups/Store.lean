import PveZfsTool.Lib.Calendar
import PveZfsTool.Lib.Lines
import PveZfsTool.Lib.Paths
import PveZfsTool.Ssh.Registry

/-!
# Where the config backups of a host are kept

This models the names and directories of `hostbackup.py`: `_safe_addr`,
`host_backup_dir`, `is_valid_backup_name`, `select_prunable`, `list_backups`,
`delete_backup` and `prune_backups`.

A `BackupStore` has the files of each directory.  The size and the time of a
file are left out.

* `mem_selectPrunable`: what pruning selects, by the number of newer backups.
* `safeAddr_eq_iff`: the addresses that share a directory.
* `separate_iff`: two hosts keep their backups apart when they do not.
-/

namespace PveZfsTool.HostBackups

open Text Paths Newest Calendar Ssh

/-! ## Directories -/

/-- `[A-Za-z0-9._-]` -/
def isSafe (c : Char) : Bool := isAsciiAlnum c || c == '.' || c == '_' || c == '-'

/-- One character of `re.sub(r"[^A-Za-z0-9._-]", "_", ...)`. -/
def safeChar (c : Char) : Char := if isSafe c then c else '_'

/-- `address or "unknown"` -/
def knownAddress (address : Str) : Str := if address = [] then "unknown" else address

/-- `_safe_addr` -/
def safeAddr (address : Str) : Str := (knownAddress address).map safeChar

/-- `BACKUP_DIR` -/
def backupDir : Str := "/app/data/host_backups"

/-- `host_backup_dir` -/
def hostBackupDir (address : Str) : Str := backupDir ++ '/' :: safeAddr address

/-! ## Names -/

/-- `\d{n}` at the beginning, and what is left after it. -/
def digits? (n : Nat) (s : Str) : Option (Str × Str) :=
  if (s.take n).length = n ∧ (s.take n).all isDecimal then some (s.take n, s.drop n) else none

/-- `pve-backup-(\d{8})-(\d{6})` at the beginning: the two groups, and what is
left after them. -/
def fileStamp? (s : Str) : Option (Str × Str × Str) :=
  if startsWith s "pve-backup-" then
    match digits? 8 (s.drop 11) with
    | some (date, '-' :: rest) => (digits? 6 rest).map (fun p => (date, p.1, p.2))
    | _ => none
  else none

/-- `_FILE_RE`, apart from the newline that `$` lets pass. -/
def matchesFile (s : Str) : Bool :=
  (fileStamp? s).any (fun p => p.2.2 == ".tar.gz".toList || p.2.2 == "-withpriv.tar.gz".toList)

/-- `is_valid_backup_name` -/
def isValidBackupName (name : Str) : Bool :=
  name ≠ [] && !name.contains '/' && !contains name ".." && atDollar matchesFile name

/-- The name that `create_backup` gives to a backup. -/
def backupName (created : DateTime) (includePriv : Bool) : Str :=
  "pve-backup-" ++ (created.stamp ++ (if includePriv then "-withpriv".toList else []) ++ ".tar.gz")

/-- `select_prunable` -/
def selectPrunable (filenames : List Str) (keep : Int) : List Str :=
  let valid := (filenames.filter isValidBackupName).insertionSort (· ≤ ·)
  if keep ≤ 0 then valid
  else if valid.length ≤ keep then []
  else valid.take (valid.length - keep.toNat)

/-! ## The store -/

/-- The files of a directory. -/
structure Folder where
  names : List Str
  distinct : names.Nodup

/-- A file with the name is there now. -/
def Folder.add (f : Folder) (name : Str) : Folder where
  names := if name ∈ f.names then f.names else f.names ++ [name]
  distinct := by
    split_ifs with h
    · exact f.distinct
    · rw [List.nodup_append]
      exact ⟨f.distinct, List.nodup_singleton name, by
        intro a ha b hb hab
        rw [List.mem_singleton] at hb
        exact h (hb ▸ hab ▸ ha)⟩

/-- The files that the check holds of are gone. -/
def Folder.remove (f : Folder) (gone : Str → Bool) : Folder where
  names := f.names.filter (fun n => !gone n)
  distinct := f.distinct.filter _

/-- The files of the directory that the names lead to from the root. -/
abbrev BackupStore := List Str → Folder

def BackupStore.update (store : BackupStore) (dir : List Str) (change : Folder → Folder) :
    BackupStore :=
  Function.update store dir (change (store dir))

/-- The directory of a host, as the file system resolves it. -/
def hostDir (address : Str) : List Str := resolve (hostBackupDir address)

/-- The names that `list_backups` returns, newest first. -/
def listBackups (store : BackupStore) (address : Str) : List Str :=
  ((store (hostDir address)).names.filter isValidBackupName).insertionSort (· ≥ ·)

/-- `delete_backup`, when the file system can remove the file. -/
def deleteBackup (store : BackupStore) (address filename : Str) : BackupStore :=
  if isValidBackupName filename then
    store.update (hostDir address) (fun f => f.remove (· = filename))
  else store

/-- `prune_backups`.  `removable` says which files `os.remove` can remove. -/
def pruneBackups (removable : Str → Bool) (store : BackupStore) (address : Str) (keep : Int) :
    BackupStore :=
  store.update (hostDir address) (fun f =>
    f.remove (fun n => (selectPrunable f.names keep).contains n && removable n))

/-! ## Pruning -/

section

variable {f : Folder} {keep : Int} {name : Str}

/-- The backups of a directory that are newer than one with the name. -/
def newerThan (name : Str) (f : Folder) : List Str := above name (f.names.filter isValidBackupName)

theorem selectPrunable_eq (filenames : List Str) (keep : Int) :
    selectPrunable filenames keep = allBut keep.toNat (filenames.filter isValidBackupName) := by
  unfold selectPrunable allBut
  dsimp only
  rw [List.length_insertionSort]
  split_ifs with hzero hshort
  · rw [Int.toNat_eq_zero.mpr hzero, Nat.sub_zero, List.take_of_length_le]
    rw [List.length_insertionSort]
  · rw [Nat.sub_eq_zero_of_le (by omega), List.take_zero]
  · rfl

/-- Pruning selects the backups that at least `keep` others are newer than. -/
theorem mem_selectPrunable : name ∈ selectPrunable f.names keep ↔
    name ∈ f.names ∧ isValidBackupName name = true ∧ keep ≤ (newerThan name f).length := by
  rw [selectPrunable_eq, mem_allBut_iff (f.distinct.filter _), List.mem_filter, and_assoc]
  unfold newerThan
  constructor
  · intro ⟨hmem, hvalid, hcount⟩
    exact ⟨hmem, hvalid, by omega⟩
  · intro ⟨hmem, hvalid, hcount⟩
    exact ⟨hmem, hvalid, by omega⟩

end

/-! ## The name of a new backup -/

theorem isDecimal_digitChar {n : Nat} (h : n < 10) : isDecimal (Nat.digitChar n) = true := by
  unfold isDecimal
  rw [decimal?_digitChar h]
  rfl

theorem mem_pad {width n : Nat} {c : Char} (h : c ∈ pad width n) :
    ∃ k, k < 10 ∧ c = Nat.digitChar k := by
  induction width generalizing n with
  | zero => cases h
  | succ width ih =>
    rw [pad, List.mem_append, List.mem_singleton] at h
    rcases h with h | h
    · exact ih h
    · exact ⟨n % 10, Nat.mod_lt _ (by omega), h⟩

theorem digits?_append {n : Nat} {s t : Str} (hlength : s.length = n)
    (hdigits : ∀ c ∈ s, ∃ k, k < 10 ∧ c = Nat.digitChar k) : digits? n (s ++ t) = some (s, t) := by
  have hdecimal : s.all isDecimal = true := by
    rw [List.all_eq_true]
    intro c hc
    obtain ⟨k, hk, rfl⟩ := hdigits c hc
    exact isDecimal_digitChar hk
  unfold digits?
  rw [← hlength, List.take_left, List.drop_left, if_pos ⟨rfl, hdecimal⟩]

/-- The digits of the date and of the time. -/
def dateDigits (d : DateTime) : Str := pad 4 d.year ++ (pad 2 d.month ++ pad 2 d.day)

def timeDigits (d : DateTime) : Str := pad 2 d.hour ++ (pad 2 d.minute ++ pad 2 d.second)

theorem stamp_eq (d : DateTime) : d.stamp = dateDigits d ++ '-' :: timeDigits d := by
  unfold DateTime.stamp dateDigits timeDigits
  rw [List.append_assoc, List.append_assoc]

theorem mem_dateDigits {d : DateTime} {c : Char} (h : c ∈ dateDigits d) :
    ∃ k, k < 10 ∧ c = Nat.digitChar k := by
  unfold dateDigits at h
  rw [List.mem_append, List.mem_append] at h
  rcases h with h | h | h <;> exact mem_pad h

theorem mem_timeDigits {d : DateTime} {c : Char} (h : c ∈ timeDigits d) :
    ∃ k, k < 10 ∧ c = Nat.digitChar k := by
  unfold timeDigits at h
  rw [List.mem_append, List.mem_append] at h
  rcases h with h | h | h <;> exact mem_pad h

/-- What comes after the stamp in a name. -/
def suffixOf (includePriv : Bool) : Str :=
  (if includePriv then "-withpriv".toList else []) ++ ".tar.gz"

theorem backupName_eq (d : DateTime) (includePriv : Bool) :
    backupName d includePriv =
      "pve-backup-" ++ (dateDigits d ++ '-' :: (timeDigits d ++ suffixOf includePriv)) := by
  unfold backupName suffixOf
  rw [stamp_eq]
  simp only [List.append_assoc, List.cons_append]

theorem fileStamp?_backupName (d : DateTime) (includePriv : Bool) :
    fileStamp? (backupName d includePriv) =
      some (dateDigits d, timeDigits d, suffixOf includePriv) := by
  have hdate : (dateDigits d).length = 8 := by simp [dateDigits, length_pad]
  have htime : (timeDigits d).length = 6 := by simp [timeDigits, length_pad]
  unfold fileStamp?
  rw [backupName_eq, if_pos (by exact List.isPrefixOf_iff_prefix.mpr (List.prefix_append ..))]
  have hdrop : (("pve-backup-" : Str) ++ (dateDigits d ++ '-' :: (timeDigits d ++
      suffixOf includePriv))).drop 11 = dateDigits d ++ '-' :: (timeDigits d ++
      suffixOf includePriv) := rfl
  rw [hdrop, digits?_append hdate (fun c hc => mem_dateDigits hc)]
  show (digits? 6 (timeDigits d ++ suffixOf includePriv)).map _ = _
  rw [digits?_append htime (fun c hc => mem_timeDigits hc)]
  rfl

/-- A pattern is not in a text whose first part has not its first character. -/
theorem not_infix_append {c : Char} {pattern s t : Str} (hc : c ∉ s)
    (ht : ¬ (c :: pattern) <:+: t) : ¬ (c :: pattern) <:+: s ++ t := by
  induction s with
  | nil => exact ht
  | cons d s ih =>
    rw [List.mem_cons, not_or] at hc
    rw [List.cons_append, List.infix_cons_iff, not_or]
    constructor
    · intro hprefix
      exact hc.1 (List.cons_prefix_cons.mp hprefix).1
    · exact ih hc.2

theorem isValid_backupName (d : DateTime) (includePriv : Bool) :
    isValidBackupName (backupName d includePriv) = true := by
  have hdigit : ∀ k, k < 10 → Nat.digitChar k ≠ '.' ∧ Nat.digitChar k ≠ '/' := by
    intro k hk
    interval_cases k <;> decide
  have hslash : '/' ∉ suffixOf includePriv := by cases includePriv <;> decide
  have hdots : ¬ (".." : Str) <:+: suffixOf includePriv := by cases includePriv <;> decide
  have hdate : ∀ c, c = '.' ∨ c = '/' → c ∉ dateDigits d := by
    intro c hc hmem
    obtain ⟨k, hk, rfl⟩ := mem_dateDigits hmem
    exact hc.elim (hdigit k hk).1 (hdigit k hk).2
  have htime : ∀ c, c = '.' ∨ c = '/' → c ∉ timeDigits d := by
    intro c hc hmem
    obtain ⟨k, hk, rfl⟩ := mem_timeDigits hmem
    exact hc.elim (hdigit k hk).1 (hdigit k hk).2
  have hmatches : matchesFile (backupName d includePriv) = true := by
    unfold matchesFile
    rw [fileStamp?_backupName]
    cases includePriv <;> rfl
  unfold isValidBackupName
  rw [Bool.and_eq_true, Bool.and_eq_true, Bool.and_eq_true]
  refine ⟨⟨⟨?_, ?_⟩, ?_⟩, atDollar_of_eq_true hmatches⟩
  · rw [backupName_eq]
    rfl
  · rw [Bool.not_eq_true', ← Bool.not_eq_true, List.contains_iff_mem, backupName_eq]
    simp only [List.mem_append, List.mem_cons, not_or]
    exact ⟨by decide, hdate _ (.inr rfl), by decide, htime _ (.inr rfl), hslash⟩
  · unfold contains
    rw [Bool.not_eq_true', decide_eq_false_iff_not, backupName_eq]
    refine not_infix_append (by decide) (not_infix_append (hdate _ (.inl rfl)) ?_)
    exact not_infix_append (s := ['-']) (by decide) (not_infix_append (htime _ (.inl rfl)) hdots)

/-- A later backup has a greater name, whatever the names end in. -/
theorem backupName_lt {c d : DateTime} {p q : Bool} (h : c.toSecond < d.toSecond) :
    backupName c p < backupName d q := by
  have hlength : ∀ e : DateTime, e.stamp.length = 15 := by
    intro e
    simp [DateTime.stamp, length_pad]
  unfold backupName
  rw [append_lt rfl, List.append_assoc, List.append_assoc, append_lt (by rw [hlength, hlength])]
  exact .inr ⟨rfl, .inl (DateTime.stamp_lt h)⟩

/-! ## Directories that two hosts share -/

/-- The characters have the same place in a directory name: they are equal, or
each of them is an underscore or becomes one. -/
def Merges (c d : Char) : Prop :=
  c = d ∨ (c = '_' ∨ isSafe c = false) ∧ (d = '_' ∨ isSafe d = false)

theorem safeChar_eq_iff {c d : Char} : safeChar c = safeChar d ↔ Merges c d := by
  unfold safeChar Merges
  by_cases hc : isSafe c = true
  · by_cases hd : isSafe d = true
    · rw [if_pos hc, if_pos hd]
      simp only [hc, hd, Bool.true_eq_false, or_false]
      constructor
      · exact .inl
      · intro hor
        rcases hor with heq | ⟨hc', hd'⟩
        · exact heq
        · rw [hc', hd']
    · rw [if_pos hc, if_neg hd]
      simp only [hc, Bool.not_eq_true _ ▸ hd, Bool.true_eq_false, or_false, or_true, and_true]
      constructor
      · exact .inr
      · intro hor
        rcases hor with heq | hc'
        · exact absurd (heq ▸ hc) hd
        · exact hc'
  · by_cases hd : isSafe d = true
    · rw [if_neg hc, if_pos hd]
      simp only [hd, Bool.not_eq_true _ ▸ hc, Bool.true_eq_false, or_false, or_true, true_and]
      constructor
      · intro heq
        exact .inr heq.symm
      · intro hor
        rcases hor with heq | hd'
        · exact absurd (heq ▸ hd) hc
        · exact hd'.symm
    · rw [if_neg hc, if_neg hd]
      simp only [Bool.not_eq_true _ ▸ hc, Bool.not_eq_true _ ▸ hd, or_true, and_self]

theorem safeAddr_eq_iff {a b : Str} :
    safeAddr a = safeAddr b ↔ List.Forall₂ Merges (knownAddress a) (knownAddress b) := by
  unfold safeAddr
  rw [← List.forall₂_eq_eq_eq, List.forall₂_map_left_iff, List.forall₂_map_right_iff]
  simp only [safeChar_eq_iff]

theorem slash_not_mem_safeAddr (address : Str) : '/' ∉ safeAddr address := by
  intro hmem
  obtain ⟨c, -, hc⟩ := List.mem_map.mp hmem
  unfold safeChar at hc
  split at hc
  · next hsafe =>
    rw [hc] at hsafe
    exact absurd hsafe (by decide)
  · exact absurd hc (by decide)

theorem safeAddr_ne_nil (address : Str) : safeAddr address ≠ [] := by
  unfold safeAddr knownAddress
  split_ifs with h
  · decide
  · rw [ne_eq, List.map_eq_nil_iff]
    exact h

/-- `BACKUP_DIR`, as the file system resolves it. -/
def backupRoot : List Str := ["app", "data", "host_backups"]

theorem hostDir_eq (address : Str) : hostDir address = enter backupRoot (safeAddr address) := by
  have hroot : resolve backupDir = backupRoot := by decide
  unfold hostDir hostBackupDir
  rw [resolve_slash, splitOn_of_not_mem (slash_not_mem_safeAddr address), hroot]
  rfl

/-- A host's directory is one below `BACKUP_DIR`, or for two names `BACKUP_DIR`
and the directory above it. -/
theorem hostDir_cases (address : Str) :
    safeAddr address = "." ∧ (hostDir address).length = 3 ∨
      safeAddr address = ".." ∧ (hostDir address).length = 2 ∨
      hostDir address = backupRoot ++ [safeAddr address] := by
  have hne := safeAddr_ne_nil address
  rw [hostDir_eq]
  unfold enter
  split_ifs with hdot hup
  · exact .inl ⟨hdot.resolve_left hne, rfl⟩
  · exact .inr (.inl ⟨hup, rfl⟩)
  · exact .inr (.inr rfl)

/-- The directories of two hosts are one when their names are. -/
theorem hostDir_eq_iff {a b : Str} : hostDir a = hostDir b ↔ safeAddr a = safeAddr b := by
  constructor
  · intro h
    have hbelow : ∀ s : Str, (backupRoot ++ [s]).length = 4 := fun s => rfl
    rcases hostDir_cases a with ⟨ha, hlenA⟩ | ⟨ha, hlenA⟩ | hdirA
    · rcases hostDir_cases b with ⟨hb, hlenB⟩ | ⟨hb, hlenB⟩ | hdirB
      · rw [ha, hb]
      · rw [h, hlenB] at hlenA
        omega
      · rw [h, hdirB, hbelow] at hlenA
        omega
    · rcases hostDir_cases b with ⟨hb, hlenB⟩ | ⟨hb, hlenB⟩ | hdirB
      · rw [h, hlenB] at hlenA
        omega
      · rw [ha, hb]
      · rw [h, hdirB, hbelow] at hlenA
        omega
    · rcases hostDir_cases b with ⟨hb, hlenB⟩ | ⟨hb, hlenB⟩ | hdirB
      · rw [← h, hdirA, hbelow] at hlenB
        omega
      · rw [← h, hdirA, hbelow] at hlenB
        omega
      · rw [hdirA, hdirB] at h
        exact List.singleton_inj.mp (List.append_cancel_left h)
  · intro h
    rw [hostDir_eq, hostDir_eq, h]

/-- Nothing done for the one host reads or removes a backup of the other. -/
structure KeptApart (a b : Str) : Prop where
  dirs : hostDir a ≠ hostDir b
  list_reads : ∀ (store : BackupStore) change,
    listBackups (store.update (hostDir b) change) a = listBackups store a
  prune_removes : ∀ removable (store : BackupStore) keep,
    listBackups (pruneBackups removable store a keep) b = listBackups store b
  delete_removes : ∀ (store : BackupStore) filename,
    listBackups (deleteBackup store a filename) b = listBackups store b

theorem update_self {store : BackupStore} {dir : List Str} {change : Folder → Folder} :
    store.update dir change dir = change (store dir) := Function.update_self ..

theorem update_other {store : BackupStore} {dir dir' : List Str} {change : Folder → Folder}
    (h : dir' ≠ dir) : store.update dir change dir' = store dir' := Function.update_of_ne h ..

theorem listBackups_update {store : BackupStore} {a b : Str} {change : Folder → Folder}
    (h : hostDir a ≠ hostDir b) :
    listBackups (store.update (hostDir b) change) a = listBackups store a := by
  unfold listBackups
  rw [update_other h]

/-- Two hosts keep their backups apart exactly when their addresses differ in
length, or at a place where one of them has a character that a directory name
keeps and that is no underscore. -/
theorem keptApart_iff (a b : Str) :
    KeptApart a b ↔ ¬ List.Forall₂ Merges (knownAddress a) (knownAddress b) := by
  rw [← safeAddr_eq_iff, ← hostDir_eq_iff]
  constructor
  · exact KeptApart.dirs
  · intro h
    refine ⟨h, fun _ _ => listBackups_update h, fun _ _ _ => listBackups_update (Ne.symm h), ?_⟩
    intro store filename
    unfold deleteBackup
    split_ifs
    · exact listBackups_update (Ne.symm h)
    · rfl

/-- A host with the address. -/
def plainHost (address : Str) : HostRecord where
  name := address
  address := address
  port := 22
  user := "root"

/-- An address of a local link and a name that differs from it in the colons.
The registry takes both. -/
theorem colons_share : ¬ ∀ e e' : HostRecord, e.address ≠ e'.address →
    applyCall (.addHost e') (applyCall (.addHost e) []) = [e, e'] →
      KeptApart e.address e'.address := by
  intro hclaim
  have hapart := hclaim (plainHost "fe80::1") (plainHost "fe80__1") (by decide) (by decide)
  exact hapart.dirs (by decide)

end PveZfsTool.HostBackups
