import PveZfsTool.Dr.BackupRestore
import PveZfsTool.Lib.LineFile
import PveZfsTool.Lib.Strip
import PveZfsTool.Lib.Unquote

/-!
# Setting the properties of a backup again

`apply_zfs_properties` of `app/dr.py` reads the local properties from two
listings of the backup.  It asks the host which pools and datasets it has,
sets the properties of those in one script, and counts the markers that the
script printed.

* `readPropRows`, `readZfsProperties` and `applyZfsProperties` are the
  functions of the source.
* `ZfsObjects` are the pools and datasets of a host, and
  `ZfsObjects.Answers` says what the host can answer.
* `run_applyZfsProperties` lists the commands of a run, and `spec_runBatch`
  says which rows the markers of the script stand for.
* `applied_faithfully_iff` says for which runs the result can be relied on,
  and `unlisted_success` is a run that reports success and set nothing.
-/

namespace PveZfsTool

open Dialogue Text

/-! ## The rows of the backup -/

structure PropRow where
  name : Str
  property : Str
  value : Str
  source : Str

structure PropItem where
  name : Str
  property : Str
  value : Str
  deriving DecidableEq

/-- One line of a captured `get -H`. -/
def propRow (line : Str) : Option PropRow :=
  match splitOn '\t' line with
  | name :: property :: value :: source :: _ => some ⟨name, property, value, source⟩
  | _ => none

/-- `_read_prop_rows` -/
def readPropRows (archive : Archive) (target : Str) : List PropRow :=
  match archive with
  | .error _ => []
  | .ok members =>
    match members.find? (fun m => m.isFile && rel m.name = target) with
    | none => []
    | some m =>
      match m.data with
      | .error _ => []
      | .ok data => (splitLines (decodeUtf8 0 (data.map UInt8.toNat))).filterMap propRow

def zpropSkipDataset : List Str :=
  ["volblocksize", "volsize", "casesensitivity", "normalization", "utf8only", "encryption",
    "keyformat", "keylocation", "pbkdf2iters"]

def zpropSkipPool : List Str := ["ashift", "version"]

/-- `[a-z][a-zA-Z0-9_:.-]*` -/
def isPropName : Str → Bool
  | [] => false
  | c :: s => isAsciiLower c && s.all (fun c => isAsciiAlnum c || "_:.-".toList.contains c)

def PropRow.item (row : PropRow) : PropItem := ⟨row.name, row.property, row.value⟩

structure ZfsProperties where
  pools : List PropItem
  datasets : List PropItem

/-- `read_zfs_properties` -/
def readZfsProperties (archive : Archive) : ZfsProperties where
  pools := ((readPropRows archive "cmd/zpool-properties.txt").filter (fun row =>
    row.source == "local".toList && !zpropSkipPool.contains row.property &&
      !startsWith row.property "feature@" && atDollar isPropName row.property)).map PropRow.item
  datasets := ((readPropRows archive "cmd/zfs-properties.txt").filter (fun row =>
    row.source == "local".toList && !zpropSkipDataset.contains row.property &&
      atDollar isPropName row.property)).map PropRow.item

inductive PropKind where
  | pool
  | ds
  deriving DecidableEq

def PropKind.name : PropKind → Str
  | .pool => "pool"
  | .ds => "ds"

/-- `plan` -/
def propPlan (archive : Archive) : List (PropKind × PropItem) :=
  (readZfsProperties archive).pools.map (fun p => (.pool, p)) ++
    (readZfsProperties archive).datasets.map (fun p => (.ds, p))

/-! ## The commands -/

inductive PropCmd where
  | poolList
  | datasetList
  | setBatch (rows : List (PropKind × PropItem))
  deriving DecidableEq

/-- `tag` -/
def propTag (row : PropKind × PropItem) : Str :=
  join "\t" [row.1.name, row.2.name, row.2.property]

/-- The line a `set` prints. -/
def propMarker (ok : Bool) (row : PropKind × PropItem) : Str :=
  (if ok then "OK\t".toList else "ERR\t") ++ propTag row

/-- One line of the script. -/
def setLine (row : PropKind × PropItem) : Str :=
  let setter : Str := match row.1 with
    | .pool => "zpool"
    | .ds => "zfs"
  "if " ++ setter ++ " set " ++ shlexQuote (row.2.property ++ "=" ++ row.2.value) ++ " " ++
    shlexQuote row.2.name ++ " >/dev/null 2>&1; then echo " ++ shlexQuote (propMarker true row) ++
    "; else echo " ++ shlexQuote (propMarker false row) ++ "; fi"

/-- The command line that is sent to the host. -/
def PropCmd.text : PropCmd → Str
  | .poolList => "zpool list -H -o name 2>/dev/null"
  | .datasetList => "zfs list -H -o name -t filesystem,volume 2>/dev/null"
  | .setBatch rows => join "\n" (rows.map setLine)

abbrev PropJob (α : Type) := Prog (Host × PropCmd) Answer Exn α

abbrev PropLog := History (Host × PropCmd) Answer

/-! ## The restore -/

structure PropResult where
  status : Str
  kind : Str
  name : Str
  property : Str
  deriving DecidableEq

structure ApplyResult where
  success : Bool
  poolsSet : Nat
  datasetsSet : Nat
  skipped : Nat
  failed : Nat
  results : List PropResult
  notPresent : List Str
  deriving DecidableEq

/-- The names of a listing. -/
def listedNames (r : Answer) : List Str :=
  ((splitLines r.stdout).filter (fun l => strip l ≠ [])).map strip

/-- The row is for a pool or dataset that was listed. -/
def isListed (pools datasets : List Str) (row : PropKind × PropItem) : Bool :=
  match row.1 with
  | .pool => pools.contains row.2.name
  | .ds => datasets.contains row.2.name

/-- The result in a line of the script's output. -/
def propResult (line : Str) : Option PropResult :=
  match splitOn '\t' line with
  | status :: kind :: name :: property :: _ =>
      if status = "OK" ∨ status = "ERR" then some ⟨status, kind, name, property⟩ else none
  | _ => none

def propResults (r : Answer) : List PropResult := (splitLines r.stdout).filterMap propResult

/-- What is returned for the results. -/
def applyReport (results : List PropResult) (notPresent : List Str) : ApplyResult :=
  let failed := results.countP (fun x => x.status == "ERR".toList)
  { success := failed = 0
    poolsSet := results.countP (fun x => x.status == "OK".toList && x.kind == "pool".toList)
    datasetsSet := results.countP (fun x => x.status == "OK".toList && x.kind == "ds".toList)
    skipped := notPresent.length
    failed := failed
    results := results
    notPresent := notPresent }

/-- Run the script, unless it has no lines. -/
def runBatch (host : Host) (rows : List (PropKind × PropItem)) : PropJob (List PropResult) :=
  if rows = [] then return []
  else do
    let r ← Prog.issue (host, .setBatch rows)
    return propResults r

/-- `apply_zfs_properties` -/
def applyZfsProperties (host : Host) (archive : Archive) : PropJob ApplyResult :=
  let plan := propPlan archive
  if plan = [] then return applyReport [] []
  else do
    let pr ← Prog.issue (host, .poolList)
    let dr ← Prog.issue (host, .datasetList)
    let listed := isListed (listedNames pr) (listedNames dr)
    let results ← runBatch host (plan.filter listed)
    return applyReport results
      (sortedSet ((plan.filter (fun row => !listed row)).map (fun row => row.2.name)))

/-! ## Fields -/

/-- The name and the property are single fields of a line. -/
def PropItem.IsFields (it : PropItem) : Prop :=
  ('\t' ∉ it.name ∧ NoBreak it.name) ∧ ('\t' ∉ it.property ∧ NoBreak it.property)

theorem isFields_of_mem_readPropRows {archive : Archive} {target : Str} {row : PropRow}
    (h : row ∈ readPropRows archive target) : row.item.IsFields := by
  have hlines : ∃ s, row ∈ (splitLines s).filterMap propRow := by
    unfold readPropRows at h
    split at h
    · cases h
    · split at h
      · cases h
      · split at h
        · cases h
        · exact ⟨_, h⟩
  obtain ⟨s, hs⟩ := hlines
  obtain ⟨l, hl, hrow⟩ := List.mem_filterMap.mp hs
  have hfield : ∀ piece ∈ splitOn '\t' l, '\t' ∉ piece ∧ NoBreak piece := fun piece hpiece =>
    ⟨not_mem_of_mem_splitOn hpiece,
      fun c hc => noBreak_of_mem_splitLines hl c (mem_of_mem_splitOn hpiece hc)⟩
  unfold propRow at hrow
  split at hrow
  · next name property value source rest hpieces =>
    obtain rfl := Option.some.inj hrow
    exact ⟨hfield name (by simp [hpieces]), hfield property (by simp [hpieces])⟩
  · cases hrow

theorem isFields_of_mem_propPlan {archive : Archive} {row : PropKind × PropItem}
    (h : row ∈ propPlan archive) : row.2.IsFields := by
  rcases List.mem_append.mp h with hpool | hds
  · obtain ⟨it, hit, rfl⟩ := List.mem_map.mp hpool
    obtain ⟨r, hr, rfl⟩ := List.mem_map.mp hit
    exact isFields_of_mem_readPropRows (List.mem_filter.mp hr).1
  · obtain ⟨it, hit, rfl⟩ := List.mem_map.mp hds
    obtain ⟨r, hr, rfl⟩ := List.mem_map.mp hit
    exact isFields_of_mem_readPropRows (List.mem_filter.mp hr).1

/-! ## Markers -/

def statusOf (ok : Bool) : Str := if ok then "OK" else "ERR"

/-- The result of a `set`. -/
def resultOf (ok : Bool) (row : PropKind × PropItem) : PropResult :=
  ⟨statusOf ok, row.1.name, row.2.name, row.2.property⟩

theorem statusOf_fields (ok : Bool) : '\t' ∉ statusOf ok ∧ NoBreak (statusOf ok) := by
  cases ok <;> decide

theorem PropKind.name_fields (kind : PropKind) : '\t' ∉ kind.name ∧ NoBreak kind.name := by
  cases kind <;> decide

theorem propMarker_eq (ok : Bool) (row : PropKind × PropItem) :
    propMarker ok row = statusOf ok ++ '\t' :: (row.1.name ++ '\t' ::
      (row.2.name ++ '\t' :: row.2.property)) := by
  have htag : propTag row = row.1.name ++ '\t' :: (row.2.name ++ '\t' :: row.2.property) := by
    show row.1.name ++ ['\t'] ++ (row.2.name ++ ['\t'] ++ row.2.property) = _
    simp
  rw [propMarker, htag]
  cases ok <;> rfl

theorem noBreak_propMarker (ok : Bool) {row : PropKind × PropItem} (h : row.2.IsFields) :
    NoBreak (propMarker ok row) := by
  have htab : isLineBreak '\t' = false := by decide
  intro c hc
  rw [propMarker_eq] at hc
  simp only [List.mem_append, List.mem_cons] at hc
  rcases hc with hc | rfl | hc | rfl | hc | rfl | hc
  · exact (statusOf_fields ok).2 c hc
  · exact htab
  · exact row.1.name_fields.2 c hc
  · exact htab
  · exact h.1.2 c hc
  · exact htab
  · exact h.2.2 c hc

/-- A whole marker is read back. -/
theorem propResult_marker (ok : Bool) {row : PropKind × PropItem} (h : row.2.IsFields) :
    propResult (propMarker ok row) = some (resultOf ok row) := by
  have hsplit : splitOn '\t' (propMarker ok row) =
      [statusOf ok, row.1.name, row.2.name, row.2.property] := by
    rw [propMarker_eq, splitOn_append, splitOn_append, splitOn_append,
      splitOn_of_not_mem (statusOf_fields ok).1, splitOn_of_not_mem row.1.name_fields.1,
      splitOn_of_not_mem h.1.1, splitOn_of_not_mem h.2.1]
    rfl
  have hstatus : statusOf ok = "OK".toList ∨ statusOf ok = "ERR".toList := by
    cases ok <;> simp [statusOf]
  unfold propResult
  rw [hsplit]
  exact if_pos hstatus

/-- The result is for this row.  Its property may be cut off. -/
structure ReportsRow (r : PropResult) (row : PropKind × PropItem) : Prop where
  kind : r.kind = row.1.name
  name : r.name = row.2.name
  property : r.property <+: row.2.property

/-- What is read from a marker that was cut off is for its row. -/
theorem reportsRow_of_cut {ok : Bool} {row : PropKind × PropItem} {l : Str} {r : PropResult}
    (h : row.2.IsFields) (hcut : l <+: propMarker ok row) (hr : propResult l = some r) :
    ReportsRow r row := by
  unfold propResult at hr
  split at hr
  · next status kind name property rest hpieces =>
    have hr : (⟨status, kind, name, property⟩ : PropResult) = r := by
      split at hr
      · exact Option.some.inj hr
      · cases hr
    subst hr
    rw [propMarker_eq] at hcut
    rcases splitOn_of_prefix (statusOf_fields ok).1 hcut with hone | ⟨l₁, hcut₁, heq₁⟩
    · rw [hpieces] at hone
      cases hone
    rw [hpieces] at heq₁
    rcases splitOn_of_prefix row.1.name_fields.1 hcut₁ with hone | ⟨l₂, hcut₂, heq₂⟩
    · rw [hone] at heq₁
      cases heq₁
    rw [heq₂] at heq₁
    rcases splitOn_of_prefix h.1.1 hcut₂ with hone | ⟨l₃, hcut₃, heq₃⟩
    · rw [hone] at heq₁
      cases heq₁
    rw [heq₃, splitOn_of_not_mem (fun htab => h.2.1 (hcut₃.subset htab))] at heq₁
    simp only [List.cons.injEq] at heq₁
    obtain ⟨-, hkind, hname, hproperty, -⟩ := heq₁
    exact ⟨hkind, hname, hproperty ▸ hcut₃⟩
  · cases hr

/-! ## The host -/

/-- The pools and the datasets of a host.  Their names are lines. -/
structure ZfsObjects where
  names : PropKind → List Str
  isLine : ∀ kind, ∀ n ∈ names kind, NoBreak n ∧ strip n ≠ []

/-- What the host answers.  A command that succeeded printed all it had to
print.  A listing that failed can have printed anything, and a script that
stopped has printed a part of its markers. -/
def ZfsObjects.Answers (objs : ZfsObjects) : PropCmd → Answer → Prop
  | .poolList, r => r.success = true → r.stdout = unlines (objs.names .pool)
  | .datasetList, r => r.success = true → r.stdout = unlines (objs.names .ds)
  | .setBatch rows, r =>
      ∃ done : List (Bool × PropKind × PropItem), done.map Prod.snd = rows ∧
        (∀ d ∈ done, d.1 = true → d.2.2.name ∈ objs.names d.2.1) ∧
        r.stdout <+: unlines (done.map (fun d => propMarker d.1 d.2)) ∧
        (r.success = true → r.stdout = unlines (done.map (fun d => propMarker d.1 d.2)))

/-- A run of the restore against the host. -/
structure PropRun (objs : ZfsObjects) (host : Host) (archive : Archive) where
  log : PropLog
  result : ApplyResult
  run : (applyZfsProperties host archive).Run log (.ok result)
  answers : ∀ entry ∈ log, objs.Answers entry.1.2 entry.2

/-- What the result of a run says of the host. -/
structure AppliedFaithfully {objs : ZfsObjects} {host : Host} {archive : Archive}
    (x : PropRun objs host archive) : Prop where
  /-- A listing or script that failed is no success. -/
  answered : x.result.success = true → ∀ entry ∈ x.log, entry.2.success = true
  /-- On success every row for a pool or dataset of the host was answered. -/
  complete : x.result.success = true → x.result.results =
    ((propPlan archive).filter (fun row => row.2.name ∈ objs.names row.1)).map (resultOf true)
  /-- The results are for different rows. -/
  once : List.SublistForall₂ ReportsRow x.result.results (propPlan archive)
  counted : x.result.poolsSet + x.result.datasetsSet + x.result.failed = x.result.results.length

/-- A marker of a `set` that was refused came back. -/
def Refused (log : PropLog) : Prop :=
  ∃ entry ∈ log, (∃ rows, entry.1.2 = .setBatch rows) ∧ ∃ l ∈ splitLines entry.2.stdout,
    ∃ kind name property rest, splitOn '\t' l = "ERR".toList :: kind :: name :: property :: rest

/-- Every command succeeded, and no name that the backup has for the host
starts or ends in blanks. -/
structure Undisturbed (objs : ZfsObjects) (archive : Archive) (log : PropLog) : Prop where
  succeeded : ∀ entry ∈ log, entry.2.success = true
  stripped : ∀ row ∈ propPlan archive, row.2.name ∈ objs.names row.1 →
    strip row.2.name = row.2.name

/-! ## Runs -/

/-- The commands of a run: the two listings, and the script when it has lines. -/
theorem run_applyZfsProperties {host : Host} {archive : Archive} {log : PropLog}
    {result : ApplyResult} (h : (applyZfsProperties host archive).Run log (.ok result)) :
    (propPlan archive = [] ∧ log = [] ∧ result = applyReport [] []) ∨
      ∃ pr dr rest results notPresent,
        log = ((host, .poolList), pr) :: ((host, .datasetList), dr) :: rest ∧
        (runBatch host ((propPlan archive).filter (isListed (listedNames pr) (listedNames dr)))).Run
          rest (.ok results) ∧
        result = applyReport results notPresent := by
  unfold applyZfsProperties at h
  dsimp only at h
  split_ifs at h with hplan
  · obtain ⟨hlog, hresult⟩ := h
    exact .inl ⟨hplan, hlog, Except.ok.inj hresult⟩
  · rw [Prog.issue_bind] at h
    obtain ⟨pr, log₁, rfl, hdatasets⟩ := Prog.run_ask.mp h
    rw [Prog.issue_bind] at hdatasets
    obtain ⟨dr, log₂, rfl, hrest⟩ := Prog.run_ask.mp hdatasets
    obtain ⟨rest, tail, results, rfl, hbatch, hret⟩ := Prog.run_bind_ok hrest
    obtain ⟨rfl, hresult⟩ := hret
    rw [List.append_nil]
    exact .inr ⟨pr, dr, rest, results, _, rfl, hbatch, Except.ok.inj hresult⟩

theorem run_runBatch {host : Host} {rows : List (PropKind × PropItem)} {log : PropLog}
    {results : List PropResult} (h : (runBatch host rows).Run log (.ok results)) :
    (rows = [] ∧ log = [] ∧ results = []) ∨
      ∃ r, log = [((host, .setBatch rows), r)] ∧ results = propResults r := by
  unfold runBatch at h
  split_ifs at h with hrows
  · obtain ⟨hlog, hresults⟩ := h
    exact .inl ⟨hrows, hlog, Except.ok.inj hresults⟩
  · rw [Prog.issue_bind] at h
    obtain ⟨r, tail, rfl, hret⟩ := Prog.run_ask.mp h
    obtain ⟨rfl, hresults⟩ := hret
    exact .inr ⟨r, rfl, Except.ok.inj hresults⟩

/-! ## What the results stand for -/

/-- What is read from related lists is related, where the reading keeps the
relation. -/
theorem sublistForall₂_filterMap {α β γ : Type} {R : α → β → Prop} {S : γ → β → Prop}
    {f : α → Option γ} {l : List α} {l' : List β} (h : List.SublistForall₂ R l l')
    (hf : ∀ a, ∀ b ∈ l', R a b → ∀ c, f a = some c → S c b) :
    List.SublistForall₂ S (l.filterMap f) l' := by
  induction h with
  | nil => exact .nil
  | @cons a b l l' hab _ ih =>
    have hrest := ih (fun a' b' hb' => hf a' b' (List.mem_cons_of_mem _ hb'))
    cases hread : f a with
    | none =>
      rw [List.filterMap_cons_none hread]
      exact .cons_right hrest
    | some c =>
      rw [List.filterMap_cons_some hread]
      exact .cons (hf a b List.mem_cons_self hab c hread) hrest
  | cons_right _ ih => exact .cons_right (ih (fun a b hb => hf a b (List.mem_cons_of_mem _ hb)))

theorem exists_of_mem_left {α β : Type} {R : α → β → Prop} {l : List α} {l' : List β}
    (h : List.SublistForall₂ R l l') {a : α} (ha : a ∈ l) : ∃ b ∈ l', R a b := by
  induction h with
  | nil => cases ha
  | cons hab _ ih =>
    rcases List.mem_cons.mp ha with rfl | ha
    · exact ⟨_, List.mem_cons_self, hab⟩
    · obtain ⟨b, hb, hrel⟩ := ih ha
      exact ⟨b, List.mem_cons_of_mem _ hb, hrel⟩
  | cons_right _ ih =>
    obtain ⟨b, hb, hrel⟩ := ih ha
    exact ⟨b, List.mem_cons_of_mem _ hb, hrel⟩

section Batch

variable {objs : ZfsObjects} {rows : List (PropKind × PropItem)} {r : Answer}

theorem noBreak_of_mem_markers {done : List (Bool × PropKind × PropItem)}
    (h : ∀ d ∈ done, d.2.2.IsFields) : ∀ l ∈ done.map (fun d => propMarker d.1 d.2), NoBreak l := by
  intro l hl
  obtain ⟨d, hd, rfl⟩ := List.mem_map.mp hl
  exact noBreak_propMarker d.1 (h d hd)

/-- The results of a script that may have stopped are for different rows of
it. -/
theorem reports_propResults (hrows : ∀ row ∈ rows, row.2.IsFields)
    (h : objs.Answers (.setBatch rows) r) : List.SublistForall₂ ReportsRow (propResults r) rows := by
  obtain ⟨done, rfl, -, hcut, -⟩ := h
  have hfields : ∀ d ∈ done, d.2.2.IsFields := fun d hd => hrows d.2 (List.mem_map_of_mem hd)
  have hlines := splitLines_of_prefix (noBreak_of_mem_markers hfields) hcut
  rw [List.sublistForall₂_map_right_iff] at hlines ⊢
  refine sublistForall₂_filterMap hlines (fun l d hd hl x hx => ?_)
  exact reportsRow_of_cut (hfields d hd) hl hx

/-- The results of a script that ended. -/
theorem propResults_eq (hrows : ∀ row ∈ rows, row.2.IsFields)
    (h : objs.Answers (.setBatch rows) r) (hsucc : r.success = true) :
    ∃ done : List (Bool × PropKind × PropItem), done.map Prod.snd = rows ∧
      (∀ d ∈ done, d.1 = true → d.2.2.name ∈ objs.names d.2.1) ∧
      propResults r = done.map (fun d => resultOf d.1 d.2) := by
  obtain ⟨done, rfl, hexists, -, hwhole⟩ := h
  have hfields : ∀ d ∈ done, d.2.2.IsFields := fun d hd => hrows d.2 (List.mem_map_of_mem hd)
  refine ⟨done, rfl, hexists, ?_⟩
  rw [propResults, hwhole hsucc, splitLines_unlines (noBreak_of_mem_markers hfields),
    List.filterMap_map, ← List.filterMap_eq_map]
  exact List.filterMap_congr (fun d hd => propResult_marker d.1 (hfields d hd))

theorem status_of_propResult {l : Str} {x : PropResult} (h : propResult l = some x) :
    x.status = "OK".toList ∨ x.status = "ERR".toList := by
  unfold propResult at h
  split at h
  · split_ifs at h with hstatus
    obtain rfl := Option.some.inj h
    exact hstatus
  · cases h

/-- A line with the marker of a refused `set`. -/
theorem propResult_refused {l : Str} :
    (∃ kind name property rest, splitOn '\t' l = "ERR".toList :: kind :: name :: property :: rest) ↔
      ∃ x, propResult l = some x ∧ x.status = "ERR".toList := by
  constructor
  · rintro ⟨kind, name, property, rest, hl⟩
    refine ⟨⟨"ERR", kind, name, property⟩, ?_, rfl⟩
    unfold propResult
    rw [hl]
    exact if_pos (.inr rfl)
  · rintro ⟨x, hx, herr⟩
    unfold propResult at hx
    split at hx
    · next status kind name property rest hpieces =>
      split_ifs at hx
      obtain rfl := Option.some.inj hx
      have hstatus : status = "ERR".toList := herr
      exact ⟨kind, name, property, rest, by rw [hpieces, hstatus]⟩
    · cases hx

/-- What is known of the results of a script. -/
structure BatchSpec (objs : ZfsObjects) (rows : List (PropKind × PropItem)) (log : PropLog)
    (results : List PropResult) : Prop where
  reports : List.SublistForall₂ ReportsRow results rows
  status : ∀ x ∈ results, x.status = "OK".toList ∨ x.status = "ERR".toList
  refused : Refused log ↔ ∃ x ∈ results, x.status = "ERR".toList
  ended : (∀ entry ∈ log, entry.2.success = true) →
    ∃ done : List (Bool × PropKind × PropItem), done.map Prod.snd = rows ∧
      (∀ d ∈ done, d.1 = true → d.2.2.name ∈ objs.names d.2.1) ∧
      results = done.map (fun d => resultOf d.1 d.2)

theorem spec_runBatch {host : Host} {log : PropLog} {results : List PropResult}
    (hrows : ∀ row ∈ rows, row.2.IsFields) (h : (runBatch host rows).Run log (.ok results))
    (hans : ∀ entry ∈ log, objs.Answers entry.1.2 entry.2) : BatchSpec objs rows log results := by
  rcases run_runBatch h with ⟨rfl, rfl, rfl⟩ | ⟨r, rfl, rfl⟩
  · exact ⟨.nil, by simp, by simp [Refused], fun _ => ⟨[], rfl, by simp, rfl⟩⟩
  · have hr : objs.Answers (.setBatch rows) r := hans _ (List.mem_singleton_self _)
    refine ⟨reports_propResults hrows hr, ?_, ?_, ?_⟩
    · intro x hx
      obtain ⟨l, -, hl⟩ := List.mem_filterMap.mp hx
      exact status_of_propResult hl
    · simp only [Refused, List.mem_singleton, exists_eq_left, PropCmd.setBatch.injEq,
        exists_eq', true_and, propResult_refused, propResults, List.mem_filterMap]
      constructor
      · rintro ⟨l, hl, x, hx, herr⟩
        exact ⟨x, ⟨l, hl, hx⟩, herr⟩
      · rintro ⟨x, ⟨l, hl, hx⟩, herr⟩
        exact ⟨l, hl, x, hx, herr⟩
    · intro hsucc
      exact propResults_eq hrows hr (hsucc _ (List.mem_singleton_self _))

end Batch

/-! ## The counts -/

theorem success_applyReport {results : List PropResult} {notPresent : List Str} :
    (applyReport results notPresent).success = true ↔
      ¬ ∃ x ∈ results, x.status = "ERR".toList := by
  show decide (results.countP (fun x => x.status == "ERR".toList) = 0) = true ↔ _
  simp [List.countP_eq_zero]

/-- Every result is counted once. -/
theorem counts_applyReport {results : List PropResult} {notPresent : List Str}
    (hstatus : ∀ x ∈ results, x.status = "OK".toList ∨ x.status = "ERR".toList)
    (hkind : ∀ x ∈ results, x.kind = "pool".toList ∨ x.kind = "ds".toList) :
    (applyReport results notPresent).poolsSet + (applyReport results notPresent).datasetsSet +
      (applyReport results notPresent).failed = results.length := by
  show results.countP (fun x => x.status == "OK".toList && x.kind == "pool".toList) +
    results.countP (fun x => x.status == "OK".toList && x.kind == "ds".toList) +
    results.countP (fun x => x.status == "ERR".toList) = results.length
  induction results with
  | nil => rfl
  | cons x results ih =>
    have hrest := ih (fun y hy => hstatus y (List.mem_cons_of_mem _ hy))
      (fun y hy => hkind y (List.mem_cons_of_mem _ hy))
    rw [List.countP_cons, List.countP_cons, List.countP_cons, List.length_cons, ← hrest]
    have hx := hstatus x List.mem_cons_self
    have hk := hkind x List.mem_cons_self
    rcases hx with hx | hx
    · rcases hk with hk | hk
      · simp [hx, hk]
        omega
      · simp [hx, hk]
        omega
    · simp [hx]
      omega

/-! ## The result of a run -/

theorem kind_of_reports {results : List PropResult} {rows : List (PropKind × PropItem)}
    (h : List.SublistForall₂ ReportsRow results rows) :
    ∀ x ∈ results, x.kind = "pool".toList ∨ x.kind = "ds".toList := by
  intro x hx
  obtain ⟨row, -, hrow⟩ := exists_of_mem_left h hx
  rw [hrow.kind]
  cases row.1
  · exact .inl rfl
  · exact .inr rfl

theorem mem_listedNames {objs : ZfsObjects} {kind : PropKind} {r : Answer} {n : Str}
    (h : r.stdout = unlines (objs.names kind)) :
    n ∈ listedNames r ↔ ∃ m ∈ objs.names kind, strip m = n := by
  rw [listedNames, h, splitLines_unlines (fun m hm => (objs.isLine kind m hm).1)]
  simp only [List.mem_map, List.mem_filter, decide_eq_true_eq]
  constructor
  · rintro ⟨m, ⟨hm, -⟩, heq⟩
    exact ⟨m, hm, heq⟩
  · rintro ⟨m, hm, heq⟩
    exact ⟨m, ⟨hm, (objs.isLine kind m hm).2⟩, heq⟩

theorem strip_of_isListed {pr dr : Answer} {row : PropKind × PropItem}
    (h : isListed (listedNames pr) (listedNames dr) row = true) : strip row.2.name = row.2.name := by
  have hlisted : ∃ r, row.2.name ∈ listedNames r := by
    unfold isListed at h
    split at h
    · exact ⟨pr, List.contains_iff_mem.mp h⟩
    · exact ⟨dr, List.contains_iff_mem.mp h⟩
  obtain ⟨r, hr⟩ := hlisted
  obtain ⟨m, -, hm⟩ := List.mem_map.mp hr
  rw [← hm, strip_strip]

theorem isListed_of_listings {objs : ZfsObjects} {pr dr : Answer} {row : PropKind × PropItem}
    (hpr : pr.stdout = unlines (objs.names .pool)) (hdr : dr.stdout = unlines (objs.names .ds))
    (hrow : row.2.name ∈ objs.names row.1) (hstrip : strip row.2.name = row.2.name) :
    isListed (listedNames pr) (listedNames dr) row = true := by
  obtain ⟨kind, it⟩ := row
  cases kind
  · exact List.contains_iff_mem.mpr ((mem_listedNames hpr).mpr ⟨_, hrow, hstrip⟩)
  · exact List.contains_iff_mem.mpr ((mem_listedNames hdr).mpr ⟨_, hrow, hstrip⟩)

section Result

variable {objs : ZfsObjects} {host : Host} {archive : Archive}

/-- After listings that succeeded, a script that ended without a refusal has
set every row for an object of the host. -/
theorem results_of_undisturbed {pr dr : Answer} {rest : PropLog} {results : List PropResult}
    (hpr : pr.stdout = unlines (objs.names .pool)) (hdr : dr.stdout = unlines (objs.names .ds))
    (hstrip : ∀ row ∈ propPlan archive, row.2.name ∈ objs.names row.1 →
      strip row.2.name = row.2.name)
    (hspec : BatchSpec objs ((propPlan archive).filter (isListed (listedNames pr) (listedNames dr)))
      rest results)
    (hrest : ∀ entry ∈ rest, entry.2.success = true)
    (hok : ¬ ∃ x ∈ results, x.status = "ERR".toList) :
    results = ((propPlan archive).filter (fun row => row.2.name ∈ objs.names row.1)).map
      (resultOf true) := by
  obtain ⟨done, hdone, hexists, rfl⟩ := hspec.ended hrest
  have hall : ∀ d ∈ done, d.1 = true := by
    intro d hd
    by_contra hfalse
    rw [Bool.not_eq_true] at hfalse
    refine hok ⟨_, List.mem_map_of_mem hd, ?_⟩
    show statusOf d.1 = _
    rw [hfalse]
    rfl
  have hsame : (propPlan archive).filter (isListed (listedNames pr) (listedNames dr)) =
      (propPlan archive).filter (fun row => row.2.name ∈ objs.names row.1) := by
    refine List.filter_congr (fun row hrow => ?_)
    rw [Bool.eq_iff_iff, decide_eq_true_iff]
    constructor
    · intro hlisted
      have hmem : row ∈ done.map Prod.snd := by
        rw [hdone]
        exact List.mem_filter.mpr ⟨hrow, hlisted⟩
      obtain ⟨d, hd, rfl⟩ := List.mem_map.mp hmem
      exact hexists d hd (hall d hd)
    · intro hon
      exact isListed_of_listings hpr hdr hon (hstrip row hrow hon)
  rw [← hsame, ← hdone, List.map_map]
  exact List.map_congr_left (fun d hd => by rw [hall d hd]; rfl)

/-- The result of a run can be relied on if and only if a refused `set` was
reported, or all commands succeeded and no name in question has blanks
around it. -/
theorem applied_faithfully_iff (x : PropRun objs host archive) :
    AppliedFaithfully x ↔ Refused x.log ∨ Undisturbed objs archive x.log := by
  rcases run_applyZfsProperties x.run with
    ⟨hplan, hlog, hresult⟩ | ⟨pr, dr, rest, results, notPresent, hlog, hbatch, hresult⟩
  · have hnil : x.result.results = [] := by
      rw [hresult]
      rfl
    refine iff_of_true ⟨fun _ => by simp [hlog], fun _ => ?_, ?_, by rw [hresult]; rfl⟩
      (.inr ⟨by simp [hlog], by simp [hplan]⟩)
    · rw [hnil, hplan]
      rfl
    · rw [hnil]
      exact .nil
  have hans := x.answers
  rw [hlog] at hans
  have hspec : BatchSpec objs _ _ _ := spec_runBatch
    (fun row hrow => isFields_of_mem_propPlan (List.mem_filter.mp hrow).1) hbatch
    (fun entry hentry => hans entry (by simp [hentry]))
  have hresults : x.result.results = results := by
    rw [hresult]
    rfl
  have hrefused : Refused x.log ↔ ∃ y ∈ results, y.status = "ERR".toList := by
    rw [← hspec.refused, hlog]
    simp [Refused]
  have hsuccess : x.result.success = true ↔ ¬ Refused x.log := by
    rw [hresult, success_applyReport, hrefused]
  constructor
  · intro h
    by_cases hbad : Refused x.log
    · exact .inl hbad
    · have hsucc := hsuccess.mpr hbad
      refine .inr ⟨h.answered hsucc, fun row hrow hon => ?_⟩
      have hmem : resultOf true row ∈ results := by
        rw [← hresults, h.complete hsucc]
        exact List.mem_map_of_mem (List.mem_filter.mpr ⟨hrow, by simpa using hon⟩)
      obtain ⟨row', hrow', hsame⟩ := exists_of_mem_left hspec.reports hmem
      have hlisted := (List.mem_filter.mp hrow').2
      have hname : row.2.name = row'.2.name := hsame.name
      rw [hname]
      exact strip_of_isListed hlisted
  · intro h
    refine ⟨fun hsucc => ?_, fun hsucc => ?_, ?_, ?_⟩
    · exact (h.resolve_left (hsuccess.mp hsucc)).succeeded
    · have hun := h.resolve_left (hsuccess.mp hsucc)
      have hall := hun.succeeded
      rw [hlog] at hall
      rw [hresults]
      refine results_of_undisturbed (hans _ List.mem_cons_self (hall _ List.mem_cons_self))
        (hans ((host, .datasetList), dr) (by simp) (hall ((host, .datasetList), dr) (by simp)))
        hun.stripped hspec (fun entry hentry => hall entry (by simp [hentry])) ?_
      rw [← hrefused]
      exact hsuccess.mp hsucc
    · rw [hresults]
      obtain ⟨part, hall, hpart⟩ := List.sublistForall₂_iff.mp hspec.reports
      exact List.sublistForall₂_iff.mpr ⟨part, hall, hpart.trans List.filter_sublist⟩
    · rw [hresults, hresult]
      exact counts_applyReport hspec.status (kind_of_reports hspec.reports)

end Result

/-! ## Two listings that failed -/

/-- A backup with the compression of one dataset. -/
def compressionBackup : Archive :=
  .ok [⟨"cmd/zfs-properties.txt", true, 0o644,
    .ok ("rpool/data\tcompression\tzstd\tlocal\n".toList.map (fun c => UInt8.ofNat c.toNat))⟩]

example : propPlan compressionBackup = [(.ds, ⟨"rpool/data", "compression", "zstd"⟩)] := by decide

/-- The host has the dataset. -/
def dataHost : ZfsObjects where
  names
    | .pool => ["rpool"]
    | .ds => ["rpool", "rpool/data"]
  isLine kind n hn := by
    cases kind <;> simp only [List.mem_cons, List.not_mem_nil, or_false] at hn
    · rw [hn]
      decide
    · rcases hn with rfl | rfl <;> decide

/-- Neither listing came back, and nothing was set. -/
def unlistedRun : PropRun dataHost hostA compressionBackup where
  log := [((hostA, .poolList), noAnswer), ((hostA, .datasetList), noAnswer)]
  result := applyReport [] ["rpool/data"]
  run := Prog.run_of_transcript (show Prog.transcript _ [noAnswer, noAnswer] = _ by decide)
  answers entry hentry := by
    simp only [List.mem_cons, List.not_mem_nil, or_false] at hentry
    rcases hentry with rfl | rfl <;> exact fun h => absurd h Bool.false_ne_true

/-- Without the listings the restore is a success that set nothing. -/
theorem unlisted_success : ¬ ∀ (objs : ZfsObjects) (host : Host) (archive : Archive)
    (x : PropRun objs host archive), AppliedFaithfully x := by
  intro h
  have hanswered := (h _ _ _ unlistedRun).answered rfl _ List.mem_cons_self
  cases hanswered

end PveZfsTool
