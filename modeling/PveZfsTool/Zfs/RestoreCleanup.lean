import PveZfsTool.Zfs.Datasets
import PveZfsTool.Zfs.MountPaths

/-!
# The cleanup of restore clones

`list_restore_clones` and `cleanup_restore_clones` of `app/zfs_commands.py`.
The listing is `zfs list` through a `grep` for `/restore-`, which looks at the
whole line, and the cleanup destroys what is listed with all that lies below.

`restore_cleanup_safe_iff` says for which hosts it destroys nothing but what
`snapshot_unmount` would destroy too, and `restore_cleanup_unsafe` is a host that
loses a dataset of a user.
-/

namespace PveZfsTool

open Dialogue Text Shell

/-! ## The functions -/

/-- The command line of `list_restore_clones`. -/
def listRestoreCmd : Str :=
  "zfs list -H -o name,mountpoint,used,creation -t filesystem | grep '/restore-'"

/-- `s.split(sep, n)` -/
def splitMax (sep : Char) : Nat → Str → List Str
  | 0, s => [s]
  | n + 1, s =>
      if sep ∈ s then beforeFirst sep s :: splitMax sep n (afterFirst sep s) else [s]

/-- An entry of `list_restore_clones`. -/
structure ListedClone where
  name : Str
  mountpoint : Str
  used : Str
  creation : Str
  deriving DecidableEq

def listedClone? (line : Str) : Option ListedClone :=
  match splitMax '\t' 3 line with
  | [name, mountpoint, used, creation] => some ⟨name, mountpoint, used, creation⟩
  | _ => none

/-- What `list_restore_clones` reads from the answer. -/
def parseClones (result : Answer) : List ListedClone :=
  if result.success ∧ strip result.stdout ≠ [] then
    (splitLines (strip result.stdout)).filterMap listedClone?
  else []

/-- `list_restore_clones` -/
def listRestoreClones (host : Host) : TextJob (List ListedClone) := do
  let result ← Prog.issue (host, listRestoreCmd)
  return parseClones result

/-- What `cleanup_restore_clones` returns. -/
structure CleanupReport where
  destroyed : List Str
  errors : List Str
  success : Bool
  deriving DecidableEq

/-- The loop of `cleanup_restore_clones`. -/
def cleanupLoop (host : Host) (destroyed errors : List Str) :
    List ListedClone → TextJob CleanupReport
  | [] => return ⟨destroyed, errors, errors.length = 0⟩
  | clone :: clones =>
    match validateZfsName clone.name "Clone name" with
    | .error e => cleanupLoop host destroyed (errors ++ [clone.name ++ ": " ++ e]) clones
    | .ok _ => do
        let r ← Prog.issue (host, "zfs destroy -r " ++ clone.name)
        if r.success then cleanupLoop host (destroyed ++ [clone.name]) errors clones
        else cleanupLoop host destroyed (errors ++ [clone.name ++ ": " ++ r.stderr]) clones

/-- `cleanup_restore_clones` -/
def cleanupRestoreClones (host : Host) : TextJob CleanupReport := do
  let clones ← listRestoreClones host
  cleanupLoop host [] [] clones

/-! ## The datasets of a host -/

/-- A name that ZFS allows for a filesystem or a volume. -/
structure IsDatasetName (ds : Str) : Prop where
  start : ∃ c s, ds = c :: s ∧ isAsciiAlnum c = true
  chars : ∀ c ∈ ds, isZfsNameChar c = true ∨ c = ' '
  at_sign : '@' ∉ ds

/-- A line of `zfs list`. -/
structure Filesystem extends ListedClone where
  named : IsDatasetName name
  mountpoint_tab : '\t' ∉ mountpoint
  used_tab : '\t' ∉ used
  mountpoint_break : NoBreak mountpoint
  used_break : NoBreak used
  creation_break : NoBreak creation
  creation_end : ∃ s c, creation = s ++ [c] ∧ isSpace c = false

def Filesystem.line (fs : Filesystem) : Str :=
  fs.name ++ '\t' :: (fs.mountpoint ++ '\t' :: (fs.used ++ '\t' :: fs.creation))

/-- The filesystems and the volumes of a host.  What a dataset lies in is a
dataset, too. -/
structure Datasets where
  filesystems : List Filesystem
  volumes : List Str
  parents : ∀ ds ∈ filesystems.map (·.name) ++ volumes, ∀ parent, parent ++ ['/'] <+: ds →
    parent ∈ filesystems.map (·.name) ++ volumes

namespace Datasets

def names (h : Datasets) : List Str := h.filesystems.map (·.name) ++ h.volumes

/-- The lines that `grep` lets through. -/
def listed (h : Datasets) : List Filesystem :=
  h.filesystems.filter (fun fs => contains fs.line "/restore-")

/-- What the command of `list_restore_clones` prints. -/
def listing (h : Datasets) : Str := join ['\n'] (h.listed.map (·.line)) ++ ['\n']

end Datasets

/-- The host answers the listing with its datasets. -/
def Lists (h : Datasets) (host : Host) (log : History (Host × Str) Answer) : Prop :=
  ∀ a, ((host, listRestoreCmd), a) ∈ log → a.success = true → a.stdout = h.listing

/-- A shell runs `zfs destroy -r` on the dataset. -/
def DestroysTree (cmd ds : Str) : Prop :=
  tokens cmd = some ((["zfs", "destroy", "-r", ds] : List Str).map .word)

/-- On a host with these datasets the cleanup destroys only what
`snapshot_unmount` accepts. -/
def CleansUpSafely (h : Datasets) (host : Host) : Prop :=
  ∀ log o, (cleanupRestoreClones host).Run log o → Lists h host log →
    ∀ entry ∈ log, ∀ target, DestroysTree entry.1.2 target →
      ∀ ds ∈ h.names, AtOrBelow ds target → Unmounts host ds

/-- Each filesystem with `/restore-` somewhere in its line, if the validator
takes its name, is `<pool>/restore-<leaf>`, and nothing lies below it. -/
def OnlyClonesListed (h : Datasets) : Prop :=
  ∀ fs ∈ h.filesystems, contains fs.line "/restore-" = true →
    validateZfsName fs.name "Clone name" = .ok (strip fs.name) → strip fs.name ∈ h.names →
      RestoreClone (strip fs.name) ∧ ∀ ds ∈ h.names, ¬ strip fs.name ++ ['/'] <+: ds

/-! ## The listing is read back -/

theorem splitMax_append {sep : Char} {n : Nat} {a b : Str} (h : sep ∉ a) :
    splitMax sep (n + 1) (a ++ sep :: b) = a :: splitMax sep n b := by
  rw [splitMax, if_pos (by simp), beforeFirst_append h, afterFirst_append h]

theorem isLineBreak_of_isZfsNameChar {c : Char} (h : isZfsNameChar c = true) :
    isLineBreak c = false :=
  isLineBreak_of_isSpace (isSpace_of_isZfsNameChar h)

theorem IsDatasetName.noBreak {ds : Str} (h : IsDatasetName ds) : NoBreak ds := by
  intro c hc
  obtain hname | rfl := h.chars c hc
  · exact isLineBreak_of_isZfsNameChar hname
  · decide

theorem IsDatasetName.noTab {ds : Str} (h : IsDatasetName ds) : '\t' ∉ ds := by
  intro hmem
  obtain hname | hspace := h.chars _ hmem
  · revert hname
    decide
  · cases hspace

namespace Filesystem

variable (fs : Filesystem)

theorem listedClone?_line : listedClone? fs.line = some fs.toListedClone := by
  rw [listedClone?, line, splitMax_append fs.named.noTab, splitMax_append fs.mountpoint_tab,
    splitMax_append fs.used_tab, splitMax]

theorem noBreak_line : NoBreak fs.line := by
  have htab : isLineBreak '\t' = false := by decide
  intro c hc
  simp only [line, List.mem_append, List.mem_cons] at hc
  obtain hc | rfl | hc | rfl | hc | rfl | hc := hc
  · exact fs.named.noBreak c hc
  · exact htab
  · exact fs.mountpoint_break c hc
  · exact htab
  · exact fs.used_break c hc
  · exact htab
  · exact fs.creation_break c hc

end Filesystem

/-- The text neither starts nor ends in whitespace. -/
def Trimmed (s : Str) : Prop :=
  s ≠ [] ∧ (∀ c ∈ s.head?, isSpace c = false) ∧ ∀ c ∈ s.getLast?, isSpace c = false

theorem dropWhile_of_head {s : Str} (h : ∀ c ∈ s.head?, isSpace c = false) :
    s.dropWhile isSpace = s := by
  cases s with
  | nil => rfl
  | cons c s => rw [List.dropWhile_cons_of_neg (by simp [h c (by simp)])]

/-- The newline at the end of a listing is all that `strip` takes off. -/
theorem Trimmed.strip_newline {s : Str} (h : Trimmed s) : strip (s ++ ['\n']) = s := by
  obtain ⟨hne, hstart, hend⟩ := h
  have hl : lstrip (s ++ ['\n']) = s ++ ['\n'] := by
    apply dropWhile_of_head
    rwa [List.head?_append_of_ne_nil s hne]
  have hbreak : isSpace '\n' = true := by decide
  rw [strip, hl, rstrip, List.reverse_append, List.reverse_singleton, List.singleton_append,
    List.dropWhile_cons_of_pos hbreak, dropWhile_of_head, List.reverse_reverse]
  rwa [List.head?_reverse]

theorem trimmed_join {lines : List Str} (hne : lines ≠ []) (h : ∀ l ∈ lines, Trimmed l) :
    Trimmed (join ['\n'] lines) := by
  induction lines with
  | nil => exact absurd rfl hne
  | cons l lines ih =>
    obtain ⟨hl, hstart, hend⟩ := h l List.mem_cons_self
    cases lines with
    | nil => exact ⟨hl, hstart, hend⟩
    | cons l' lines =>
      obtain ⟨hl', -, hend'⟩ := ih (by simp) (fun l hl => h l (List.mem_cons_of_mem _ hl))
      refine ⟨by simp [join, hl], ?_, ?_⟩
      · rw [join, List.append_assoc, List.head?_append_of_ne_nil l hl]
        · exact hstart
        · simp
      · rw [join, List.getLast?_append_of_ne_nil _ hl']
        · exact hend'
        · simp

theorem Filesystem.trimmed_line (fs : Filesystem) : Trimmed fs.line := by
  obtain ⟨c, s, hname, hc⟩ := fs.named.start
  obtain ⟨t, d, hcreation, hd⟩ := fs.creation_end
  have hline : fs.line = c :: (s ++ '\t' :: (fs.mountpoint ++ '\t' :: (fs.used ++ '\t' :: t))) ++
      [d] := by
    rw [line, hname, hcreation]
    simp
  refine ⟨by simp [hline], ?_, ?_⟩
  · rw [hline]
    simpa using isSpace_of_isAsciiAlnum hc
  · rw [hline, List.getLast?_append]
    simpa using hd

/-- The listing is read back as it was printed. -/
theorem parseClones_listing {h : Datasets} {a : Answer} (hsuccess : a.success = true)
    (hout : a.stdout = h.listing) : parseClones a = h.listed.map (·.toListedClone) := by
  by_cases hnil : h.listed = []
  · have hempty : strip a.stdout = [] := by
      rw [hout, Datasets.listing, hnil]
      decide
    rw [parseClones, hnil, if_neg (fun hboth => hboth.2 hempty)]
    rfl
  · have hlines : h.listed.map (·.line) ≠ [] := by simpa using hnil
    have htrimmed : Trimmed (join ['\n'] (h.listed.map (·.line))) := by
      apply trimmed_join hlines
      intro l hl
      obtain ⟨fs, -, rfl⟩ := List.mem_map.mp hl
      exact fs.trimmed_line
    have hstrip : strip a.stdout = join ['\n'] (h.listed.map (·.line)) := by
      rw [hout, Datasets.listing, htrimmed.strip_newline]
    have hbreak : ∀ l ∈ h.listed.map (·.line), NoBreak l := by
      intro l hl
      obtain ⟨fs, -, rfl⟩ := List.mem_map.mp hl
      exact fs.noBreak_line
    have hread : (splitLines (join ['\n'] (h.listed.map (·.line)) ++ [])).filterMap listedClone? =
        (h.listed.map (·.line)).filterMap listedClone? :=
      filterMap_splitLines_join hbreak (Or.inl rfl) rfl
    have hlines : (listedClone? ∘ Filesystem.line) = fun fs => some fs.toListedClone := by
      funext fs
      exact fs.listedClone?_line
    rw [List.append_nil] at hread
    rw [parseClones, hstrip, if_pos ⟨hsuccess, htrimmed.1⟩, hread, List.filterMap_map, hlines,
      List.filterMap_eq_map']

/-! ## What a run destroys -/

/-- The validator takes the name. -/
def Accepted (name : Str) : Prop := validateZfsName name "Clone name" = .ok (strip name)

/-- The loop sends one command for each clone whose name is accepted. -/
theorem run_cleanupLoop {host : Host} {clones : List ListedClone} {destroyed errors : List Str}
    {log : History (Host × Str) Answer} {o : Except Exn CleanupReport}
    (h : (cleanupLoop host destroyed errors clones).Run log o) (request : Host × Str) :
    (∃ a, (request, a) ∈ log) ↔
      ∃ clone ∈ clones, Accepted clone.name ∧ request = (host, "zfs destroy -r " ++ clone.name) := by
  induction clones generalizing destroyed errors log with
  | nil =>
    obtain ⟨rfl, -⟩ := Prog.run_ret.mp h
    simp
  | cons clone clones ih =>
    rw [cleanupLoop] at h
    cases hname : validateZfsName clone.name "Clone name" with
    | error e =>
      rw [hname] at h
      have hrefused : ¬ Accepted clone.name := by
        intro haccepted
        rw [Accepted, hname] at haccepted
        cases haccepted
      rw [ih h]
      simp [hrefused]
    | ok name =>
      have haccepted : Accepted clone.name := by rw [Accepted, hname, validateZfsName_ok hname]
      rw [hname] at h
      obtain ⟨a, rest, rfl, hrest⟩ := Prog.run_ask.mp h
      have htail : (∃ a, (request, a) ∈ rest) ↔
          ∃ clone ∈ clones, Accepted clone.name ∧
            request = (host, "zfs destroy -r " ++ clone.name) := by
        change Prog.Run (if a.success then _ else _) rest o at hrest
        split at hrest
        · exact ih hrest
        · exact ih hrest
      simp only [List.mem_cons, Prod.mk.injEq, exists_or, exists_eq_or_imp, haccepted, true_and,
        exists_and_left, exists_eq, and_true, htail]

theorem Accepted.matches {name : Str} (h : Accepted name) :
    matchesZfsName (strip name) = true ∧ (strip name).length ≤ maxInputLength := by
  refine ⟨matchesZfsName_of_ok h, ?_⟩
  unfold Accepted validateZfsName at h
  split_ifs at h
  omega

theorem Accepted.strip_strip {name : Str} (h : Accepted name) : strip (strip name) = strip name :=
  strip_eq_self (fun c hc => isSpace_of_isZfsNameChar (isZfsNameChar_of_matches h.matches.1 c hc))

/-- The command destroys the dataset, without the blanks after its name. -/
theorem destroysTree_iff {name target : Str} (hname : IsDatasetName name) (h : Accepted name) :
    DestroysTree ("zfs destroy -r " ++ name) target ↔ target = strip name := by
  obtain ⟨c, s, hstart, hc⟩ := hname.start
  obtain ⟨b, hb, hspace⟩ := exists_strip_append (s := s) (isSpace_of_isAsciiAlnum hc)
  rw [← hstart] at hb
  have hblank : ∀ d ∈ b, isBlank d = true := by
    intro d hd
    obtain hchar | rfl := hname.chars d (by rw [hb]; exact List.mem_append_right _ hd)
    · have hnot := isSpace_of_isZfsNameChar hchar
      rw [hspace d hd] at hnot
      cases hnot
    · decide
  obtain ⟨hne, hplain⟩ := plain_of_matchesZfsName h.matches.1
  have hcmd : ("zfs destroy -r " : Str) ++ name =
      ("zfs" : Str) ++ ' ' :: (("destroy" : Str) ++ ' ' :: (("-r" : Str) ++ ' ' ::
        (strip name ++ b))) := by
    rw [← hb]
    rfl
  have htokens : tokens ("zfs destroy -r " ++ name) =
      some ((["zfs", "destroy", "-r", strip name] : List Str).map .word) := by
    rw [tokens, hcmd, lex_word (by decide) (by decide) (by decide),
      lex_word (by decide) (by decide) (by decide), lex_word (by decide) (by decide) (by decide),
      lex_last hplain hne hblank]
    rfl
  rw [DestroysTree, htokens]
  simp [eq_comm]

theorem not_destroysTree_list {target : Str} : ¬ DestroysTree listRestoreCmd target := by
  intro h
  have hsecond : (tokens listRestoreCmd).map (fun ts => ts[1]?) =
      some (some (.word ("list" : Str))) := by decide
  rw [DestroysTree] at h
  rw [h] at hsecond
  simp at hsecond

/-- The requests of a cleanup: the listing, and a command for each listed
clone whose name is accepted. -/
theorem run_cleanupRestoreClones {host : Host} {log : History (Host × Str) Answer}
    {o : Except Exn CleanupReport} (h : (cleanupRestoreClones host).Run log o) :
    ∃ a rest, log = ((host, listRestoreCmd), a) :: rest ∧ ∀ request,
      (∃ r, (request, r) ∈ rest) ↔ ∃ clone ∈ parseClones a, Accepted clone.name ∧
        request = (host, "zfs destroy -r " ++ clone.name) := by
  obtain ⟨a, rest, rfl, hrest⟩ := Prog.run_ask.mp h
  exact ⟨a, rest, rfl, run_cleanupLoop hrest⟩

theorem count_slash_strip (s : Str) : (strip s).count '/' = s.count '/' := by
  obtain ⟨front, back, hfront, hback, hs⟩ := exists_strip s
  have hnot : ∀ t : Str, (∀ c ∈ t, isSpace c = true) → t.count '/' = 0 := by
    intro t ht
    apply List.count_eq_zero.mpr
    intro hmem
    have hspace := ht _ hmem
    revert hspace
    decide
  conv_rhs => rw [hs]
  rw [List.count_append, List.count_append, hnot front hfront, hnot back hback]
  omega

theorem restoreClone_of_unmounts {host : Host} {ds : Str} (h : Unmounts host ds) :
    RestoreClone (strip ds) := by
  obtain ⟨pool, leaf, -, hslash, -, hleaf, hchars, heq⟩ := matchesRestoreClone_iff.mp
    (unmounts_iff.mp h).2.2
  refine ⟨pool, leaf, hslash, ?_, hleaf, heq⟩
  intro hmem
  have hchar := hchars _ hmem
  revert hchar
  decide

theorem isRestoreChar_of_isZfsNameChar {c : Char} (h : isZfsNameChar c = true) (hslash : c ≠ '/')
    (hat : c ≠ '@') : isRestoreChar c = true := by
  have hascii := toNat_lt_of_class (by decide) h
  revert h hslash hat
  exact of_ascii (P := fun c => isZfsNameChar c = true → c ≠ '/' → c ≠ '@' →
    isRestoreChar c = true) (by decide) hascii

theorem mem_of_mem_strip {s : Str} {c : Char} (h : c ∈ strip s) : c ∈ s := by
  obtain ⟨front, back, -, -, hs⟩ := exists_strip s
  rw [hs]
  exact List.mem_append_right _ (List.mem_append_left _ h)

/-- An accepted name of a restore clone is accepted by the unmount, too. -/
theorem unmounts_of_restoreClone {host : Host} {name : Str} (hname : IsDatasetName name)
    (h : Accepted name) (hclone : RestoreClone (strip name)) : Unmounts host (strip name) := by
  obtain ⟨pool, leaf, hslash, hleafSlash, hleaf, heq⟩ := hclone
  have hchars := isZfsNameChar_of_matches h.matches.1
  have hat : '@' ∉ strip name := fun hmem => hname.at_sign (mem_of_mem_strip hmem)
  rw [unmounts_iff, h.strip_strip]
  refine ⟨h.matches.2, h.matches.1, matchesRestoreClone_iff.mpr
    ⟨pool, leaf, ?_, hslash, ?_, hleaf, ?_, heq⟩⟩
  · rintro rfl
    have hstart := h.matches.1
    rw [heq] at hstart
    revert hstart
    simp [matchesZfsName, isAsciiAlnum, isAsciiAlpha, isAsciiLower, isAsciiUpper, isAsciiDigit]
  · intro hmem
    apply hat
    rw [heq]
    exact List.mem_append_left _ (List.mem_append_left _ hmem)
  · intro c hc
    have hmem : c ∈ strip name := by
      rw [heq]
      exact List.mem_append_right _ hc
    exact isRestoreChar_of_isZfsNameChar (hchars c hmem) (ne_of_mem_of_not_mem hc hleafSlash)
      (ne_of_mem_of_not_mem hmem hat)

/-- A host that answers the listing as it should. -/
def listingHost (h : Datasets) (request : Host × Str) : Answer :=
  if request.2 = listRestoreCmd then prints h.listing else prints []

/-- A cleanup destroys only what `snapshot_unmount` accepts exactly when
nothing but restore clones without children is listed. -/
theorem restore_cleanup_safe_iff {h : Datasets} {host : Host} :
    CleansUpSafely h host ↔ OnlyClonesListed h := by
  constructor
  · intro hsafe fs hfs hline haccepted hname
    obtain ⟨log, o, hrun, hanswers⟩ := Prog.exists_run (cleanupRestoreClones host) (listingHost h)
    have hlists : Lists h host log := by
      intro a hmem _
      have ha : a = listingHost h (host, listRestoreCmd) := hanswers _ hmem
      rw [ha, listingHost, if_pos rfl]
      rfl
    obtain ⟨a, rest, rfl, hrequests⟩ := run_cleanupRestoreClones hrun
    have ha : a = listingHost h (host, listRestoreCmd) := hanswers _ List.mem_cons_self
    rw [listingHost, if_pos rfl] at ha
    have hclone : fs.toListedClone ∈ parseClones a := by
      rw [parseClones_listing (h := h) (by rw [ha]; rfl) (by rw [ha]; rfl)]
      exact List.mem_map.mpr ⟨fs, List.mem_filter.mpr ⟨hfs, hline⟩, rfl⟩
    obtain ⟨r, hmem⟩ := (hrequests _).mpr ⟨_, hclone, haccepted, rfl⟩
    have hunmounts := hsafe _ o hrun hlists _ (List.mem_cons_of_mem _ hmem) (strip fs.name)
      ((destroysTree_iff fs.named haccepted).mpr rfl)
    have hself : RestoreClone (strip fs.name) := by
      have hclone := restoreClone_of_unmounts (hunmounts _ hname (Or.inl rfl))
      rwa [Accepted.strip_strip haccepted] at hclone
    refine ⟨hself, fun ds hds hbelow => ?_⟩
    have hone := (restoreClone_of_unmounts (hunmounts ds hds (Or.inr hbelow))).count_slash
    obtain ⟨t, rfl⟩ := hbelow
    rw [count_slash_strip, List.count_append, List.count_append, hself.count_slash,
      List.count_singleton_self] at hone
    omega
  · intro hcond log o hrun hlists entry hentry target htarget ds hds hbelow
    obtain ⟨a, rest, rfl, hrequests⟩ := run_cleanupRestoreClones hrun
    obtain rfl | hmem := List.mem_cons.mp hentry
    · exact absurd htarget not_destroysTree_list
    · obtain ⟨clone, hclone, haccepted, hrequest⟩ := (hrequests entry.1).mp ⟨entry.2, hmem⟩
      have hsuccess : a.success = true := by
        by_contra hfailed
        rw [parseClones, if_neg (fun hboth => hfailed hboth.1)] at hclone
        cases hclone
      rw [parseClones_listing hsuccess (hlists a List.mem_cons_self hsuccess)] at hclone
      obtain ⟨fs, hlisted, rfl⟩ := List.mem_map.mp hclone
      obtain ⟨hfs, hline⟩ := List.mem_filter.mp hlisted
      rw [hrequest] at htarget
      obtain rfl := (destroysTree_iff fs.named haccepted).mp htarget
      have hname : strip fs.name ∈ h.names := by
        obtain rfl | hprefix := hbelow
        · exact hds
        · exact h.parents ds hds _ hprefix
      obtain ⟨hself, hnothing⟩ := hcond fs hfs hline haccepted hname
      obtain rfl | hprefix := hbelow
      · exact unmounts_of_restoreClone fs.named haccepted hself
      · exact absurd hprefix (hnothing ds hds)

/-- The closure under parents, by the places of the slashes. -/
theorem parents_of_take {names : List Str}
    (h : ∀ ds ∈ names, ∀ n < ds.length, ds[n]? = some '/' → ds.take n ∈ names) :
    ∀ ds ∈ names, ∀ parent, parent ++ ['/'] <+: ds → parent ∈ names := by
  rintro ds hds parent ⟨t, rfl⟩
  have htake := h _ hds parent.length (by simp) (by simp)
  rwa [List.append_assoc, List.take_left] at htake

/-- A filesystem that is mounted by hand. -/
def legacyFilesystem (name : Str) (named : IsDatasetName name) : Filesystem where
  name := name
  mountpoint := "legacy"
  used := "96K"
  creation := "Mon Jan  1 12:00 2024"
  named := named
  mountpoint_tab := by decide
  used_tab := by decide
  mountpoint_break := by unfold NoBreak; decide
  used_break := by unfold NoBreak; decide
  creation_break := by unfold NoBreak; decide
  creation_end := ⟨"Mon Jan  1 12:00 202", '4', by decide, by decide⟩

/-- A host with a dataset of a user that is named `restore-old`. -/
def userHost : Datasets where
  filesystems := [legacyFilesystem "rpool" ⟨⟨_, _, rfl, by decide⟩, by decide, by decide⟩,
    legacyFilesystem "rpool/data" ⟨⟨_, _, rfl, by decide⟩, by decide, by decide⟩,
    legacyFilesystem "rpool/data/restore-old" ⟨⟨_, _, rfl, by decide⟩, by decide, by decide⟩]
  volumes := []
  parents := parents_of_take (by decide)

/-- The cleanup destroys the dataset of the user. -/
theorem restore_cleanup_unsafe :
    (∃ log o, (cleanupRestoreClones hostA).Run log o ∧ Lists userHost hostA log ∧
      (hostA, ("zfs destroy -r rpool/data/restore-old" : Str)) ∈ log.map Prod.fst) ∧
        ¬ CleansUpSafely userHost hostA := by
  have htranscript : ((cleanupRestoreClones hostA).transcript
      [prints userHost.listing, prints []]).map Prod.fst =
        some [((hostA, listRestoreCmd), prints userHost.listing),
          ((hostA, "zfs destroy -r rpool/data/restore-old"), prints [])] := by decide
  obtain ⟨o, hrun⟩ := Prog.exists_run_of_transcript _ htranscript
  have hlists : Lists userHost hostA [((hostA, listRestoreCmd), prints userHost.listing),
      ((hostA, "zfs destroy -r rpool/data/restore-old"), prints [])] := by
    intro a hmem _
    have hne : ("zfs destroy -r rpool/data/restore-old" : Str) ≠ listRestoreCmd := by decide
    simp only [List.mem_cons, Prod.mk.injEq, true_and, hne.symm, false_and, List.not_mem_nil,
      or_false] at hmem
    rw [hmem]
    rfl
  refine ⟨⟨_, o, hrun, hlists, by simp⟩, fun hsafe => ?_⟩
  have hdestroys : DestroysTree "zfs destroy -r rpool/data/restore-old" "rpool/data/restore-old" := by
    unfold DestroysTree
    decide
  have hunmounts := hsafe _ o hrun hlists _ (List.mem_cons_of_mem _ List.mem_cons_self) _ hdestroys
    "rpool/data/restore-old" (by decide) (Or.inl rfl)
  rw [unmounts_iff] at hunmounts
  revert hunmounts
  decide

end PveZfsTool
