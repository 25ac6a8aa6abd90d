import PveZfsTool.Lib.Environment
import PveZfsTool.Ssh.KeyFile

/-!
# Passwordless SSH from a target to a source

`bootstrap_ssh` of `app/replication.py` puts the public key of a replication target into
`authorized_keys` on the source, with options that restrict it.  A line without options,
which older setups left there, is removed once the restricted line is in place.

Every command may fail, and an append may be cut off in the middle of the line.
`bootstrap_keeps_lines` says what is left of `authorized_keys` at each moment of a run:
all of its lines but the bare one of the key, and that one only goes when the restricted
one is there.

* `append_effect`, `remove_effect`: what the two commands on the source do to its lines.
* `KeepsLines`: what holds at each moment.
-/

namespace PveZfsTool.Bootstrap

open Dialogue Text Rotation

/-! ## The commands -/

/-- The commands on the target. -/
inductive TargetCmd where
  | genKey
  | scanHosts (port : Nat) (address : Str)
  | probe (port : Nat) (user address : Str)
  deriving DecidableEq

def TargetCmd.text : TargetCmd → Str
  | .genKey =>
      "mkdir -p /root/.ssh && chmod 700 /root/.ssh && " ++
      "if [ ! -f /root/.ssh/id_ed25519 ]; then " ++
      "  ssh-keygen -t ed25519 -f /root/.ssh/id_ed25519 -N '' -C bashclub-zsync-$(hostname) >/dev/null && " ++
      "  echo __GENERATED__; " ++ "fi && " ++ "cat /root/.ssh/id_ed25519.pub"
  | .scanHosts port address =>
      "touch /root/.ssh/known_hosts && chmod 600 /root/.ssh/known_hosts && " ++ "tmp=$(mktemp) && " ++
      "ssh-keyscan -T 10 -p " ++ ofNat port ++ " " ++ shlexQuote address ++ " >\"$tmp\" 2>/dev/null && " ++
      "if [ -s \"$tmp\" ]; then " ++ "  while IFS= read -r line; do " ++
      "    grep -qxF \"$line\" /root/.ssh/known_hosts || echo \"$line\" >> /root/.ssh/known_hosts; " ++
      "  done < \"$tmp\"; " ++ "  rm -f \"$tmp\"; echo __KH_OK__; " ++ "else rm -f \"$tmp\"; fi"
  | .probe port user address =>
      "ssh -o BatchMode=yes -o StrictHostKeyChecking=yes -o ConnectTimeout=10 " ++
      "-p " ++ ofNat port ++ " " ++ shlexQuote (user ++ "@" ++ address) ++ " 'echo __PROBE_OK__'"

inductive BootReq where
  | target (cmd : TargetCmd)
  | source (cmd : KeyCmd)
  deriving DecidableEq

abbrev BootJob (ε α : Type) := Prog BootReq Answer ε α

structure BootstrapResult where
  success : Bool := false
  keyGenerated : Bool := false
  targetPubkey : Str := []
  knownHostsUpdated : Bool := false
  authorizedKeysUpdated : Bool := false
  keyOptions : Option Str := none
  probeOk : Bool := false
  probeOutput : Str := []
  error : Str := []
  deriving DecidableEq

/-! ## The steps -/

/-- `s.replace(word, "")` -/
def dropWord (word s : Str) : Str :=
  substitute (fun _ rest => if startsWith rest word then some (word.length, []) else none) none 0 s

/-- Whether a key was generated, and the text that ends with the public key. -/
def keyOutput (stdout : Str) : Bool × Str :=
  if contains stdout "__GENERATED__" then (true, strip (dropWord "__GENERATED__" stdout)) else (false, stdout)

/-- The last line of the text. -/
def pubkeyIn (stdout : Str) : Str := ((splitLines (strip stdout)).getLast?).getD []

/-- The class of `_FROM_ADDR_RE`. -/
def isFromChar (c : Char) : Bool := (isWord c && c.toNat < 128) || c = '.' || c = ':' || c = '-'

/-- `authorized_key_options`, with `none` for the empty text.  The address is stripped, so
that `$` is its end. -/
def authorizedKeyOptions (target : Host) : Option Str :=
  let address := strip target.address
  if address ≠ [] ∧ address.all isFromChar = true then some ("restrict,from=\"" ++ address ++ "\"") else none

/-- `probe_ssh_trust` -/
def probeSshTrust {ε : Type} (source : Host) : BootJob ε (Bool × Str) := do
  let r ← Prog.issue (.target (.probe source.ref.2.2 source.ref.2.1 source.address))
  return (r.success && contains r.stdout "__PROBE_OK__", lastN 500 (strip (r.stdout ++ r.stderr)))

/-- Step 5: the probe from the target. -/
def verifyTrust {ε : Type} (source : Host) (out : BootstrapResult) : BootJob ε BootstrapResult := do
  let (ok, output) ← probeSshTrust source
  return { out with
    probeOutput := output
    probeOk := ok
    success := ok
    error := if ok then out.error else
      "SSH probe failed. If the source sees the target under a different " ++
      "address than the tool does (NAT, a second interface), the from= " ++
      "restriction on the key blocks it -- register the target under the " ++
      "address the source sees." }

/-- Step 4: the key of the target on the source.  `repr` is the function of Python. -/
def installKey {ε : Type} (repr : Str → Str) (target source : Host) (out : BootstrapResult) :
    BootJob ε BootstrapResult :=
  match authorizedKeyOptions target with
  | none => return { out with error :=
      "target address " ++ repr target.address ++ " cannot be used in an SSH from= restriction" }
  | some options => do
      let r ← Prog.issue (.source (.append (options ++ " " ++ out.targetPubkey)))
      if r.success then do
        let _ ← Prog.issue (.source (.remove out.targetPubkey))
        verifyTrust source { out with authorizedKeysUpdated := true, keyOptions := some options }
      else return { out with
        keyOptions := some options
        error := "Failed to append authorized_keys on source: " ++
          if r.stderr ≠ [] then r.stderr else if r.stdout ≠ [] then r.stdout else "unknown" }

/-- Step 3: `known_hosts` on the target. -/
def trustSource {ε : Type} (repr : Str → Str) (target source : Host) (generated : Bool) (pubkey : Str) :
    BootJob ε BootstrapResult :=
  if startsWith pubkey "ssh-" then do
    let r ← Prog.issue (.target (.scanHosts source.ref.2.2 source.address))
    installKey repr target source
      { keyGenerated := generated, targetPubkey := pubkey, knownHostsUpdated := contains r.stdout "__KH_OK__" }
  else return { keyGenerated := generated, error := "Unexpected public key format on target" }

/-- `bootstrap_ssh` -/
def bootstrapSsh {ε : Type} (repr : Str → Str) (target source : Host) : BootJob ε BootstrapResult := do
  let r ← Prog.issue (.target .genKey)
  if r.success then
    trustSource repr target source (keyOutput r.stdout).1 (pubkeyIn (keyOutput r.stdout).2)
  else return { error := "Key generation/read failed on target: " ++ if r.stderr ≠ [] then r.stderr else r.stdout }

/-! ## What the commands do -/

/-- The text of `authorized_keys` on the source.  Nobody else writes to it. -/
def bootEnv : Env Str BootReq Answer Empty where
  respond s q a s' :=
    match q with
    | .target _ => s' = s
    | .source cmd => keyEffect s cmd a s'
  move _ m _ := m.elim

/-- A line of the file at the start is there, or it is the bare line of the key, and the
restricted one is there. -/
def KeepsLines (r : BootstrapResult) (s s' : Str) : Prop :=
  ∀ l ∈ fileLines s, l ∈ fileLines s' ∨
    l = r.targetPubkey ∧ ∃ options, r.keyOptions = some options ∧ options ++ " " ++ r.targetPubkey ∈ fileLines s'

section Effects

variable {s s' line : Str} {a : Answer}

theorem mem_fileLines_of_fixedMatches (hline : '\n' ∉ line) (h : fixedMatches line s = true) : line ∈ fileLines s := by
  rw [fixedMatches, show splitOn '\n' line = [line] from splitOn_of_not_mem hline, List.any_eq_true] at h
  obtain ⟨l, hl, hmatch⟩ := h
  rw [List.contains_iff_mem, List.mem_singleton] at hmatch
  exact hmatch ▸ hl

/-- An append to a file that ends in a newline keeps its lines, also where it is cut off. -/
theorem append_effect (hs : Terminated s) (hline : '\n' ∉ line) (h : keyEffect s (.append line) a s') :
    fileLines s <+: fileLines s' ∧ (a.success = true → line ∈ fileLines s') := by
  obtain ⟨t, -, rfl, hdone⟩ := h
  rw [fileLines_append hs]
  refine ⟨List.prefix_append _ _, fun hsuccess => ?_⟩
  rcases hdone hsuccess with rfl | ⟨rfl, hthere⟩
  · exact List.mem_append_right _ (by rw [fileLines_line hline]; exact List.mem_cons_self)
  · exact List.mem_append_left _ (mem_fileLines_of_fixedMatches hline hthere)

/-- A removal from a file with another line takes off the lines that are equal to it, or
fails. -/
theorem remove_effect (hline : '\n' ∉ line) (hother : ∃ l ∈ fileLines s, l ≠ line)
    (h : keyEffect s (.remove line) a s') :
    (∀ l ∈ fileLines s, l ≠ line → l ∈ fileLines s') ∧ (line ∉ fileLines s' ∨ a.success = false) := by
  have hdrop : dropMatching line s = (fileLines s).filter (· ≠ line) := by
    unfold dropMatching
    rw [show splitOn '\n' line = [line] from splitOn_of_not_mem hline]
    refine List.filter_congr (fun l _ => ?_)
    by_cases heq : l = line <;> simp [heq]
  rcases h with rfl | ⟨rfl, hfailed⟩
  · rw [withoutKey]
    split
    · obtain ⟨l, hl, hne⟩ := hother
      have hmem : l ∈ dropMatching line s := by
        rw [hdrop]
        exact List.mem_filter.mpr ⟨hl, decide_eq_true hne⟩
      rw [if_neg (List.ne_nil_of_mem hmem), fileLines_dropMatching, hdrop]
      refine ⟨fun m hm hne => List.mem_filter.mpr ⟨hm, decide_eq_true hne⟩, .inl fun hin => ?_⟩
      exact of_decide_eq_true (List.mem_filter.mp hin).2 rfl
    · next hno =>
      refine ⟨fun m hm _ => hm, .inl fun hin => hno ?_⟩
      rw [fixedMatches, show splitOn '\n' line = [line] from splitOn_of_not_mem hline, List.any_eq_true]
      exact ⟨line, hin, List.contains_iff_mem.mpr List.mem_cons_self⟩
  · exact ⟨fun m hm _ => hm, .inr hfailed⟩

end Effects

/-! ## The two lines -/

theorem pubkeyIn_newline (stdout : Str) : '\n' ∉ pubkeyIn stdout := by
  rw [pubkeyIn]
  cases hlast : (splitLines (strip stdout)).getLast? with
  | none => exact List.not_mem_nil
  | some l =>
    intro hmem
    have hbreak := noBreak_of_mem_splitLines (List.mem_of_getLast? hlast) _ hmem
    exact absurd hbreak (by decide)

theorem authorizedKeyOptions_newline {target : Host} {options : Str} (h : authorizedKeyOptions target = some options) :
    '\n' ∉ options := by
  unfold authorizedKeyOptions at h
  dsimp only at h
  split at h
  · next hchars =>
    cases h
    intro hmem
    rcases List.mem_append.mp hmem with hmem | hmem
    · rcases List.mem_append.mp hmem with hmem | hmem
      · exact absurd hmem (by decide)
      · exact absurd (List.all_eq_true.mp hchars.2 _ hmem) (by decide)
    · exact absurd hmem (by decide)
  · cases h

theorem restricted_ne {options pubkey : Str} : options ++ " " ++ pubkey ≠ pubkey := by
  intro h
  have hlength := congrArg List.length h
  rw [List.length_append, List.length_append] at hlength
  have hspace : (" " : Str).length = 1 := rfl
  omega

/-! ## Runs -/

section Runs

variable {ε : Type} {repr : Str → Str} {target source : Host} {s s' : Str} {tr : Trail BootReq Answer Empty Str}
  {o : Except ε BootstrapResult}

/-- What a run from the file `s` to `s'` returns, and what it leaves at each moment. -/
structure Bootstrapped (s s' : Str) (tr : Trail BootReq Answer Empty Str) (r : BootstrapResult) : Prop where
  keeps : ∀ step ∈ tr, KeepsLines r s step.2
  restricted : r.authorizedKeysUpdated = true → ∃ options, r.keyOptions = some options ∧
    options ++ " " ++ r.targetPubkey ∈ fileLines s'
  bareGone : r.authorizedKeysUpdated = true → r.targetPubkey ∉ fileLines s' ∨
    ∃ a, (.source (.remove r.targetPubkey), a) ∈ answered tr ∧ a.success = false
  untouched : r.authorizedKeysUpdated = false → fileLines s <+: fileLines s'

theorem keepsLines_of_extends {r : BootstrapResult} (h : fileLines s <+: fileLines s') : KeepsLines r s s' :=
  fun _ hl => .inl (h.subset hl)

/-- A run that stops before the source is asked. -/
theorem Bootstrapped.stop {r : BootstrapResult} (h : r.authorizedKeysUpdated = false) : Bootstrapped s s [] r where
  keeps := fun _ hstep => by cases hstep
  restricted := fun hup => absurd (h.symm.trans hup) Bool.false_ne_true
  bareGone := fun hup => absurd (h.symm.trans hup) Bool.false_ne_true
  untouched := fun _ => List.prefix_refl _

/-- A command on the target comes first. -/
theorem Bootstrapped.afterTarget {cmd : TargetCmd} {a : Answer} {r : BootstrapResult} (h : Bootstrapped s s' tr r) :
    Bootstrapped s s' ((.request (.target cmd) a, s) :: tr) r where
  keeps := by
    refine List.forall_mem_cons.mpr ⟨?_, h.keeps⟩
    exact keepsLines_of_extends (List.prefix_refl _)
  restricted := h.restricted
  bareGone := fun hup => (h.bareGone hup).imp_right fun ⟨b, hb, hfailed⟩ => ⟨b, List.mem_cons_of_mem _ hb, hfailed⟩
  untouched := h.untouched

/-- The probe does not touch the file. -/
theorem verifyTrust_run {out : BootstrapResult} (hpath : bootEnv.Path s tr s')
    (hdrives : Drives (verifyTrust source out : BootJob ε _) tr o) :
    ∃ r, o = .ok r ∧ s' = s ∧ (∀ step ∈ tr, step.2 = s) ∧ r.targetPubkey = out.targetPubkey ∧
      r.keyOptions = out.keyOptions ∧ r.authorizedKeysUpdated = out.authorizedKeysUpdated := by
  rw [verifyTrust, probeSshTrust, Prog.issue_bind] at hdrives
  obtain ⟨a, u, t, rfl, hlast⟩ := drives_ask hdrives
  obtain ⟨hstep, hrest⟩ := Env.path_cons.mp hpath
  obtain rfl : u = s := hstep
  obtain ⟨hanswered, rfl⟩ := hlast
  obtain rfl := eq_nil_of_answered hanswered
  exact ⟨_, rfl, (Env.path_nil.mp hrest).symm, List.forall_mem_singleton.mpr rfl, rfl, rfl, rfl⟩

theorem installKey_run {out : BootstrapResult} (hs : Terminated s) (hpub : '\n' ∉ out.targetPubkey)
    (hnew : out.authorizedKeysUpdated = false) (hpath : bootEnv.Path s tr s')
    (hdrives : Drives (installKey repr target source out : BootJob ε _) tr o) :
    ∃ r, o = .ok r ∧ Bootstrapped s s' tr r := by
  rw [installKey] at hdrives
  cases hoptions : authorizedKeyOptions target with
  | none =>
    rw [hoptions] at hdrives
    obtain ⟨hanswered, rfl⟩ := hdrives
    obtain rfl := eq_nil_of_answered hanswered
    obtain rfl : s = s' := hpath
    exact ⟨_, rfl, .stop hnew⟩
  | some options =>
    rw [hoptions] at hdrives
    dsimp only at hdrives
    rw [Prog.issue_bind] at hdrives
    obtain ⟨a, u, t, rfl, hrest⟩ := drives_ask hdrives
    obtain ⟨hstep, hpath⟩ := Env.path_cons.mp hpath
    have hline : '\n' ∉ options ++ " " ++ out.targetPubkey := by
      rw [List.mem_append, List.mem_append]
      rintro ((h | h) | h)
      · exact authorizedKeyOptions_newline hoptions h
      · exact absurd h (by decide)
      · exact hpub h
    obtain ⟨hkept, hadded⟩ := append_effect hs hline hstep
    cases hsuccess : a.success with
    | false =>
      rw [hsuccess, if_neg Bool.false_ne_true] at hrest
      obtain ⟨hanswered, rfl⟩ := hrest
      obtain rfl := eq_nil_of_answered hanswered
      obtain rfl : u = s' := hpath
      refine ⟨_, rfl, ⟨List.forall_mem_singleton.mpr (keepsLines_of_extends hkept), ?_, ?_, fun _ => hkept⟩⟩
      · exact fun hup => absurd (hnew.symm.trans hup) Bool.false_ne_true
      · exact fun hup => absurd (hnew.symm.trans hup) Bool.false_ne_true
    | true =>
      rw [hsuccess, if_pos rfl, Prog.issue_bind] at hrest
      obtain ⟨b, v, t', rfl, hverify⟩ := drives_ask hrest
      obtain ⟨hremove, hlastPath⟩ := Env.path_cons.mp hpath
      have hthere := hadded hsuccess
      obtain ⟨hothers, hbare⟩ := remove_effect hpub ⟨_, hthere, restricted_ne⟩ hremove
      have hrestricted := hothers _ hthere restricted_ne
      obtain ⟨r, rfl, rfl, hsteps, hpubkey, hkey, hup⟩ := verifyTrust_run hlastPath hverify
      rw [← hpubkey] at hrestricted hothers hbare
      have hlast : KeepsLines r s s' := by
        intro l hl
        by_cases heq : l = r.targetPubkey
        · exact .inr ⟨heq, options, hkey, hrestricted⟩
        · exact .inl (hothers l (hkept.subset hl) heq)
      refine ⟨r, rfl, ⟨?_, fun _ => ⟨options, hkey, hrestricted⟩, fun _ => ?_, fun h => ?_⟩⟩
      · refine List.forall_mem_cons.mpr ⟨keepsLines_of_extends hkept, List.forall_mem_cons.mpr ⟨hlast, ?_⟩⟩
        intro step hstep
        rw [hsteps step hstep]
        exact hlast
      · rw [← hpubkey]
        exact hbare.imp_right fun hfailed => ⟨b, List.mem_cons_of_mem _ List.mem_cons_self, hfailed⟩
      · exact Bool.noConfusion (show true = false from hup.symm.trans h)

end Runs

/-- Every run of `bootstrap_ssh` against a file that ends in a newline.  At each moment the
lines that were there are there, but for the bare line of the key, and then the restricted
one is.  A run that reports the file as updated leaves the restricted line in it and the
bare one out, unless the command that removes it failed, and any other run takes no line
away. -/
theorem bootstrap_keeps_lines {ε : Type} {repr : Str → Str} {target source : Host}
    (E : Execution bootEnv (bootstrapSsh repr target source : BootJob ε BootstrapResult))
    (hterminated : Terminated E.before) : ∃ r, E.outcome = .ok r ∧ Bootstrapped E.before E.after E.trail r := by
  obtain ⟨s, tr, s', o, hpath, hdrives⟩ := E
  dsimp only at *
  rw [bootstrapSsh, Prog.issue_bind] at hdrives
  obtain ⟨a, u, t, rfl, hrest⟩ := drives_ask hdrives
  obtain ⟨hkeygen, hrestPath⟩ := Env.path_cons.mp hpath
  obtain rfl : u = s := hkeygen
  have hstop : ∀ r : BootstrapResult, r.authorizedKeysUpdated = false →
      Drives (.ret r : BootJob ε BootstrapResult) t o →
        ∃ r, o = .ok r ∧ Bootstrapped u s' ((.request (.target .genKey) a, u) :: t) r := by
    rintro r hnew ⟨hanswered, rfl⟩
    obtain rfl := eq_nil_of_answered hanswered
    obtain rfl : u = s' := hrestPath
    exact ⟨r, rfl, (Bootstrapped.stop hnew).afterTarget⟩
  split at hrest
  · rw [trustSource] at hrest
    split at hrest
    · rw [Prog.issue_bind] at hrest
      obtain ⟨b, v, t', rfl, hinstall⟩ := drives_ask hrest
      obtain ⟨hscan, hinstallPath⟩ := Env.path_cons.mp hrestPath
      obtain rfl : v = u := hscan
      obtain ⟨r, rfl, hr⟩ := installKey_run hterminated (pubkeyIn_newline _) rfl hinstallPath hinstall
      exact ⟨r, rfl, hr.afterTarget.afterTarget⟩
    · exact hstop _ rfl hrest
  · exact hstop _ rfl hrest

/-- The line of an older setup. -/
def oldLine : Str := "ssh-ed25519 AAAA zsync"

/-- All commands succeed. -/
def obey (s : Str) : BootReq → Answer × Str
  | .target .genKey => (prints (oldLine ++ "\n"), s)
  | .target (.scanHosts _ _) => (prints "__KH_OK__", s)
  | .target (.probe _ _ _) => (prints "__PROBE_OK__", s)
  | .source cmd => (⟨(keyFileStep true s cmd).1, [], []⟩, (keyFileStep true s cmd).2)

/-- The run between two hosts. -/
abbrev bootHosts : BootJob Empty BootstrapResult := bootstrapSsh id hostA hostB

theorem bootstrap_keeps_lines_old : ∃ E : Execution bootEnv bootHosts,
    E.before = oldLine ++ "\n" ∧ ∃ r, E.outcome = .ok r ∧ Bootstrapped E.before E.after E.trail r ∧
      r.authorizedKeysUpdated = true ∧
      ("restrict,from=\"10.0.0.1\" ssh-ed25519 AAAA zsync" : Str) ∈ fileLines E.after := by
  have hrespond : ∀ w q, bootEnv.respond w q (obey w q).1 (obey w q).2 := by
    intro w q
    cases q with
    | target cmd => cases cmd <;> rfl
    | source cmd => exact keyEffect_keyFileStep rfl
  obtain ⟨E, hbefore, -, houtcome⟩ :=
    exists_execution hrespond bootHosts (oldLine ++ "\n")
  obtain ⟨r, hr, hkept⟩ := bootstrap_keeps_lines E (by rw [hbefore]; exact .inr ⟨oldLine, rfl⟩)
  have hresult : (Prog.play obey bootHosts (oldLine ++ "\n")).1.map
      (fun r => (r.authorizedKeysUpdated, r.keyOptions, r.targetPubkey)) =
        .ok (true, some ("restrict,from=\"10.0.0.1\"" : Str), oldLine) := by rfl
  rw [← houtcome, hr] at hresult
  obtain ⟨hup, hkey, hpub⟩ : r.authorizedKeysUpdated = true ∧
      r.keyOptions = some ("restrict,from=\"10.0.0.1\"" : Str) ∧ r.targetPubkey = oldLine := by
    simpa [Except.map] using hresult
  obtain ⟨options, hoptions, hin⟩ := hkept.restricted hup
  obtain rfl := Option.some.inj (hkey.symm.trans hoptions)
  rw [hpub] at hin
  exact ⟨E, hbefore, r, hr, hkept, hup, hin⟩

end PveZfsTool.Bootstrap
