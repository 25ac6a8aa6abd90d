import PveZfsTool.Ssh.Rotation

/-!
# The lines of `authorized_keys`

What the shell makes of the commands of `_append_authorized_key` and
`_remove_authorized_key`.  The append command is a chain of `&&` before the
`||`, so the line is also added where one of the first commands fails.

* `keyEffect_keyFileStep`: the file ends as the rotation takes it to.
* `keyFileRight_iff`: when an append and a removal do to the lines what they are
  for.
-/

namespace PveZfsTool.Rotation

open Text

/-- The line that `_append_authorized_key` stores. -/
def storedLine (pubkey : Str) (options : Option Str) : Str :=
  match options with
  | none => pubkey
  | some options => if options = [] then pubkey else options ++ " " ++ pubkey

theorem appendAuthorizedKey_eq (host : Host) (pubkey : Str) (options : Option Str) :
    appendAuthorizedKey host pubkey options = runKeyCmd host (.append (storedLine pubkey options)) := by
  unfold appendAuthorizedKey storedLine
  cases options with
  | none => rfl
  | some options =>
    dsimp only
    split_ifs <;> rfl

/-- Whether a command succeeds, and the file after it.  `prepared` says that
`mkdir`, `chmod` and `touch` succeed.  Every write succeeds. -/
def keyFileStep (prepared : Bool) (s : Str) : KeyCmd → Bool × Str
  | .append line =>
      if prepared && fixedMatches line s then (true, s) else (true, s ++ (line ++ ['\n']))
  | .remove pubkey =>
      if fixedMatches pubkey s then
        if dropMatching pubkey s = [] then (false, s) else (true, unlines (dropMatching pubkey s))
      else (true, s)
  | .echoOk => (true, s)

/-- The commands do what the rotation takes them to do. -/
theorem keyEffect_keyFileStep {prepared : Bool} {s : Str} {cmd : KeyCmd} {a : Answer}
    (ha : a.success = (keyFileStep prepared s cmd).1) :
    keyEffect s cmd a (keyFileStep prepared s cmd).2 := by
  cases cmd with
  | append line =>
    unfold keyFileStep at ha ⊢
    dsimp only at ha ⊢
    by_cases hthere : (prepared && fixedMatches line s) = true
    · rw [if_pos hthere]
      rw [Bool.and_eq_true] at hthere
      exact ⟨[], List.nil_prefix, (List.append_nil s).symm, fun _ => .inr ⟨rfl, hthere.2⟩⟩
    · rw [if_neg hthere]
      exact ⟨line ++ ['\n'], List.prefix_refl _, rfl, fun _ => .inl rfl⟩
  | remove pubkey =>
    left
    unfold keyFileStep withoutKey
    dsimp only
    split_ifs <;> rfl
  | echoOk => rfl

/-! ## An append and a removal -/

/-- A key line that is appended to a file and removed again. -/
structure KeyFileRun where
  pubkey : Str
  options : Option Str
  /-- The file before, empty where there is none. -/
  prior : Str
  prepared : Bool
  nonempty : storedLine pubkey options ≠ []
  oneLine : '\n' ∉ storedLine pubkey options
  /-- `grep` would take it for an option. -/
  noDash : (storedLine pubkey options).head? ≠ some '-'

namespace KeyFileRun

variable (R : KeyFileRun)

def line : Str := storedLine R.pubkey R.options

def appended : Str := (keyFileStep R.prepared R.prior (.append R.line)).2

def removed : Str := (keyFileStep R.prepared R.appended (.remove R.line)).2

/-- The append adds the line if it is not there and keeps the other lines, and
the removal takes off the lines that are equal to it. -/
structure KeyFileRight : Prop where
  unchanged : R.line ∈ fileLines R.prior → fileLines R.appended = fileLines R.prior
  added : R.line ∉ fileLines R.prior → (fileLines R.appended).count R.line = 1
  kept : (fileLines R.prior).Sublist (fileLines R.appended)
  taken : fileLines R.removed = (fileLines R.appended).filter (· ≠ R.line)
  restored : R.line ∉ fileLines R.prior → fileLines R.removed = fileLines R.prior

/-- The file ends in a newline unless it has the line, some line of it is
another one, and the preparation succeeds if it has the line. -/
structure Ready : Prop where
  closed : R.line ∈ fileLines R.prior ∨ Terminated R.prior
  other : ∃ l ∈ fileLines R.prior, l ≠ R.line
  prepared : R.line ∈ fileLines R.prior → R.prepared = true

variable {R}

theorem fixedMatches_line (s : Str) : fixedMatches R.line s = true ↔ R.line ∈ fileLines s := by
  unfold fixedMatches
  rw [show splitOn '\n' R.line = [R.line] from splitOn_of_not_mem R.oneLine, List.any_eq_true]
  constructor
  · intro ⟨l, hl, hmatch⟩
    rw [List.contains_iff_mem, List.mem_singleton] at hmatch
    rwa [← hmatch]
  · intro h
    exact ⟨R.line, h, List.contains_iff_mem.mpr List.mem_cons_self⟩

theorem dropMatching_line (s : Str) : dropMatching R.line s = (fileLines s).filter (· ≠ R.line) := by
  unfold dropMatching
  rw [show splitOn '\n' R.line = [R.line] from splitOn_of_not_mem R.oneLine]
  refine List.filter_congr (fun l _ => ?_)
  by_cases h : l = R.line <;> simp [h]

theorem appended_of_present (hmem : R.line ∈ fileLines R.prior) (hprepared : R.prepared = true) :
    R.appended = R.prior := by
  unfold appended keyFileStep
  dsimp only
  rw [if_pos (by rw [hprepared, (fixedMatches_line R.prior).mpr hmem]; rfl)]

theorem appended_of_written (h : ¬ (R.line ∈ fileLines R.prior ∧ R.prepared = true)) :
    R.appended = R.prior ++ (R.line ++ ['\n']) := by
  unfold appended keyFileStep
  dsimp only
  rw [if_neg]
  rw [Bool.and_eq_true, fixedMatches_line]
  exact fun hand => h hand.symm

/-- A line that is written to a file that ends in a newline is its last one. -/
theorem fileLines_appended (hterminated : Terminated R.prior)
    (h : ¬ (R.line ∈ fileLines R.prior ∧ R.prepared = true)) :
    fileLines R.appended = fileLines R.prior ++ [R.line] := by
  rw [appended_of_written h, fileLines_append hterminated]
  exact congrArg _ (fileLines_line (s := []) R.oneLine)

/-- The removal takes the line off, unless nothing else is in the file. -/
theorem fileLines_removed : fileLines R.removed =
    if ∃ l ∈ fileLines R.appended, l ≠ R.line then (fileLines R.appended).filter (· ≠ R.line)
    else fileLines R.appended := by
  have hnil : dropMatching R.line R.appended = [] ↔ ¬ ∃ l ∈ fileLines R.appended, l ≠ R.line := by
    rw [dropMatching_line, List.filter_eq_nil_iff]
    simp
  unfold removed keyFileStep
  dsimp only
  by_cases hmem : R.line ∈ fileLines R.appended
  · rw [if_pos ((fixedMatches_line _).mpr hmem)]
    by_cases hother : ∃ l ∈ fileLines R.appended, l ≠ R.line
    · rw [if_neg (fun h => hnil.mp h hother), if_pos hother]
      exact fileLines_dropMatching.trans (dropMatching_line _)
    · rw [if_pos (hnil.mpr hother), if_neg hother]
  · rw [if_neg (fun h => hmem ((fixedMatches_line _).mp h))]
    split_ifs
    · rw [List.filter_eq_self.mpr]
      intro l hl
      exact decide_eq_true fun h => hmem (h ▸ hl)
    · rfl

theorem keyFileRight_of_ready (h : R.Ready) : R.KeyFileRight := by
  obtain ⟨l, hl, hne⟩ := h.other
  by_cases hmem : R.line ∈ fileLines R.prior
  · have happended := appended_of_present hmem (h.prepared hmem)
    refine ⟨fun _ => by rw [happended], fun hnot => absurd hmem hnot, ?_, ?_,
      fun hnot => absurd hmem hnot⟩
    · rw [happended]
    · rw [fileLines_removed, happended, if_pos ⟨l, hl, hne⟩]
  · have hlines := fileLines_appended (h.closed.resolve_left hmem) (fun hand => hmem hand.1)
    have htaken : fileLines R.removed = (fileLines R.appended).filter (· ≠ R.line) := by
      rw [fileLines_removed, if_pos]
      exact ⟨l, by rw [hlines]; exact List.mem_append_left _ hl, hne⟩
    refine ⟨fun hthere => absurd hthere hmem, fun _ => ?_, ?_, htaken, fun _ => ?_⟩
    · rw [hlines, List.count_append, List.count_eq_zero_of_not_mem hmem, List.count_singleton_self]
    · rw [hlines]
      exact List.sublist_append_left _ _
    · rw [htaken, hlines, List.filter_append, List.filter_cons_of_neg (by simp), List.filter_nil,
        List.append_nil, List.filter_eq_self]
      exact fun m hm => decide_eq_true fun heq => hmem (heq ▸ hm)

/-- A new line that joins an open last line is no line of the file. -/
theorem closed_of_right (h : R.KeyFileRight) : R.line ∈ fileLines R.prior ∨ Terminated R.prior := by
  by_contra hcond
  rw [not_or] at hcond
  obtain ⟨lines, last, hlast, hprior, happended⟩ := fileLines_append_open hcond.2 R.oneLine
  have hcount := h.added hcond.1
  rw [appended_of_written (fun hand => hcond.1 hand.1), line, happended,
    List.count_eq_zero_of_not_mem] at hcount
  · cases hcount
  · intro hmem
    rcases List.mem_append.mp hmem with hmem | hmem
    · exact hcond.1 (by rw [hprior]; exact List.mem_append_left _ hmem)
    · have hlength := congrArg List.length (List.mem_singleton.mp hmem)
      rw [List.length_append] at hlength
      exact hlast (List.length_eq_zero_iff.mp (by omega))

/-- Without the preparation a line that is there is written again. -/
theorem prepared_of_right (h : R.KeyFileRight) (hmem : R.line ∈ fileLines R.prior) :
    R.prepared = true := by
  by_contra hprepared
  have hsame := h.unchanged hmem
  have hwritten : ¬ (R.line ∈ fileLines R.prior ∧ R.prepared = true) := fun hand => hprepared hand.2
  by_cases hterminated : Terminated R.prior
  · rw [fileLines_appended hterminated hwritten] at hsame
    have hlength := congrArg List.length hsame
    rw [List.length_append, List.length_singleton] at hlength
    omega
  · obtain ⟨lines, last, -, hprior, happended⟩ := fileLines_append_open hterminated R.oneLine
    rw [appended_of_written hwritten, line, happended, hprior] at hsame
    have hjoined := (List.cons.inj (List.append_cancel_left hsame)).1
    exact R.nonempty (List.append_right_eq_self.mp hjoined)

/-- A file with nothing but the line keeps it. -/
theorem other_of_right (h : R.KeyFileRight) : ∃ l ∈ fileLines R.prior, l ≠ R.line := by
  by_contra hcond
  have hall : ∀ l ∈ fileLines R.prior, l = R.line := fun l hl => by
    by_contra hne
    exact hcond ⟨l, hl, hne⟩
  have honly : R.line ∈ fileLines R.appended ∧ ∀ l ∈ fileLines R.appended, l = R.line := by
    by_cases hmem : R.line ∈ fileLines R.prior
    · rw [appended_of_present hmem (prepared_of_right h hmem)]
      exact ⟨hmem, hall⟩
    · rw [fileLines_appended ((closed_of_right h).resolve_left hmem) (fun hand => hmem hand.1)]
      refine ⟨List.mem_append_right _ List.mem_cons_self, fun l hl => ?_⟩
      rcases List.mem_append.mp hl with hl | hl
      · exact hall l hl
      · exact List.mem_singleton.mp hl
  have htaken := h.taken
  rw [fileLines_removed, if_neg (fun hother => hother.elim fun l hl => hl.2 (honly.2 l hl.1))] at htaken
  have hstays := honly.1
  rw [htaken, List.mem_filter] at hstays
  simp at hstays

/-- The append and the removal do what they are for if and only if the file is
closed, has another line, and is prepared where it has the line already. -/
theorem keyFileRight_iff (R : KeyFileRun) : R.KeyFileRight ↔ R.Ready :=
  ⟨fun h => ⟨closed_of_right h, other_of_right h, prepared_of_right h⟩, keyFileRight_of_ready⟩

/-! ## A file without a newline at its end -/

/-- The last key was put in by hand. -/
def openFile : KeyFileRun where
  pubkey := "ssh-ed25519 AAAAnew pvezfs-tool"
  options := none
  prior := "ssh-ed25519 AAAAold root@pve1"
  prepared := true
  nonempty := by decide
  oneLine := by decide
  noDash := by decide

/-- The new key joins the old one on one line, and both are lost. -/
theorem open_file_merges : ¬ ∀ R : KeyFileRun, R.KeyFileRight := by
  intro hclaim
  have hkept := (hclaim openFile).kept
  revert hkept
  decide

end KeyFileRun

end PveZfsTool.Rotation
