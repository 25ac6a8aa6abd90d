import PveZfsTool.Zfs.SmartStatus
import PveZfsTool.Zfs.TopologyRoundTrip

/-!
# The disks of a pool and its tree

`StatusOutput` is the output of `zpool status` for some pools: the tree of each
of them has containers of every kind, at every level.  `get_smart_status` looks
at the first two words of a line only.

* `isSkipped_text`: which containers the pattern knows.
* `smartLine_row`: what a row of a tree is taken for.
* `disks_of_rows`: what is asked about when each row is read for what it is.
* `right_iff`: when that is.
-/

namespace PveZfsTool.Smart

open Text Dialogue Transducer

/-! ## Trees -/

/-- The containers of `zpool status`.  A disk that is being replaced and one
that a spare stands in for have one of their own. -/
inductive Holder where
  | redundant (kind : Container)
  | replacing (index : Nat)
  | spare (index : Nat)

namespace Holder

def text : Holder → Str
  | .redundant kind => kind.text
  | .replacing index => "replacing-" ++ ofNat index
  | .spare index => "spare-" ++ ofNat index

/-- The pattern has the word of the container. -/
def isKnown : Holder → Bool
  | .redundant (.draid _ _) => false
  | .replacing _ => false
  | _ => true

end Holder

/-- A vdev with what is below it. -/
inductive DiskTree where
  | disk (name : VdevName) (columns : Columns)
  | holder (kind : Holder) (columns : Columns) (first : DiskTree) (others : List DiskTree)

/-- The vdevs of an auxiliary tier. -/
structure DiskGroup where
  tier : AuxTier
  trail : Str
  vdevs : List DiskTree
  blank : ∀ c ∈ trail, c = ' ' ∨ c = '\t'

/-- The titles of the lines before the tree. -/
def titles : List Str := ["state:", "status:", "action:", "see:", "scan:"]

/-- Before the tree, a state stands behind a title only. -/
def isPreamble (line : Str) : Bool :=
  match splitWords line with
  | name :: column :: _ => !vdevStates.contains column || titles.contains name
  | _ => true

/-- What `zpool status` knows of one pool. -/
structure PoolTree where
  pool : VdevName
  columns : Columns
  first : DiskTree
  others : List DiskTree
  groups : List DiskGroup
  preamble : List Str
  headingGap : Nat
  message : Str
  preambleLines : ∀ l ∈ preamble, NoBreak l ∧ isPreamble l = true
  messageLine : NoBreak message

/-- The pools that `zpool status` prints. -/
structure StatusOutput where
  trees : List PoolTree
  distinct : (trees.map fun t => t.pool.text).Nodup

/-! ## Disks -/

mutual

def DiskTree.leaves : DiskTree → List Str
  | .disk name _ => [name.text]
  | .holder _ _ first others => first.leaves ++ leavesOf others

def leavesOf : List DiskTree → List Str
  | [] => []
  | t :: ts => t.leaves ++ leavesOf ts

end

def PoolTree.leaves (t : PoolTree) : List Str :=
  leavesOf (t.first :: t.others) ++ t.groups.flatMap (fun g => leavesOf g.vdevs)

/-! ## Lines -/

/-- A line of the output, with what it is about. -/
inductive StatusLine where
  | other (text : Str)
  | pool (name : VdevName) (columns : Columns)
  | holder (depth : Nat) (kind : Holder) (columns : Columns)
  | disk (pool : Str) (depth : Nat) (name : VdevName) (columns : Columns)

namespace StatusLine

def text : StatusLine → Str
  | .other text => text
  | .pool name columns => rowLine 0 name.text columns
  | .holder depth kind columns => rowLine depth kind.text columns
  | .disk _ depth name columns => rowLine depth name.text columns

/-- The disk of a line, with its pool. -/
def leaf : StatusLine → Option (Str × Str)
  | .disk owner _ name _ => some (owner, name.text)
  | _ => none

end StatusLine

mutual

def DiskTree.lines (pool : Str) (depth : Nat) : DiskTree → List StatusLine
  | .disk name columns => [.disk pool depth name columns]
  | .holder kind columns first others =>
      .holder depth kind columns :: (first.lines pool (depth + 1) ++ linesOf pool (depth + 1) others)

def linesOf (pool : Str) (depth : Nat) : List DiskTree → List StatusLine
  | [] => []
  | t :: ts => t.lines pool depth ++ linesOf pool depth ts

end

def DiskGroup.lines (pool : Str) (g : DiskGroup) : List StatusLine :=
  .other (headerLine g.tier g.trail) :: linesOf pool 1 g.vdevs

namespace PoolTree

def headingLine (t : PoolTree) : Str :=
  '\t' :: (("NAME" : Str) ++ ' ' :: (List.replicate t.headingGap ' ' ++
    ("STATE     READ WRITE CKSUM" : Str)))

/-- The rows of the tree. -/
def rows (t : PoolTree) : List StatusLine :=
  .pool t.pool t.columns :: (linesOf t.pool.text 1 (t.first :: t.others) ++
    t.groups.flatMap (DiskGroup.lines t.pool.text))

def opening (t : PoolTree) : List Str :=
  (("  pool: " : Str) ++ t.pool.text) :: t.preamble ++ [("config:" : Str), [], t.headingLine]

def lines (t : PoolTree) : List StatusLine :=
  t.opening.map .other ++ t.rows ++ [.other [], .other (("errors: " : Str) ++ t.message)]

end PoolTree

/-- The pools with an empty line between them. -/
def linesOfPools : List PoolTree → List StatusLine
  | [] => []
  | [t] => t.lines
  | t :: ts => t.lines ++ .other [] :: linesOfPools ts

namespace StatusOutput

def lines (o : StatusOutput) : List StatusLine := linesOfPools o.trees

def text (o : StatusOutput) : Str := unlines (o.lines.map StatusLine.text)

end StatusOutput

/-! ## A run -/

/-- A run of `get_smart_status` in which `zpool status` prints the output. -/
structure SmartRun where
  output : StatusOutput
  pool : Option Str
  asked : Option Str
  poolList : Answer
  rest : History SmartCmd Answer
  result : SmartResult
  run : (getSmartStatus pool).Run
    ((.poolNames, poolList) :: (.status asked, prints output.text) :: rest) (.ok result)

/-- The line is read for what it is: a disk is added to its own pool, and
nothing else is added. -/
def ReadRight (poolNames : List Str) (above : List StatusLine) (line : StatusLine) : Prop :=
  ((surveyDisks poolNames (above.map StatusLine.text)).step poolNames line.text).2 = line.leaf

namespace SmartRun

def poolNames (R : SmartRun) : List Str := listedPools R.poolList

/-- The disks of each pool are the leaves of its tree, and no container is taken
for a disk and no disk passed over. -/
structure Right (R : SmartRun) : Prop where
  disks : ∀ t ∈ R.output.trees, R.result.queried t.pool.text = t.leaves
  rows : ∀ above line below, R.output.lines = above ++ line :: below →
    ReadRight R.poolNames above line

end SmartRun

/-- What the names and the states in the output have to be like. -/
structure ReadsPlain (poolNames : List Str) (lines : List StatusLine) : Prop where
  disk : ∀ above pool depth name columns below,
    lines = above ++ .disk pool depth name columns :: below →
      columns.state ∈ smartStates ∧ name.text ∉ poolNames ∧ isSkipped name.text = false ∧
        lastPool poolNames (above.map StatusLine.text) = some pool
  holder : ∀ above depth kind columns below, lines = above ++ .holder depth kind columns :: below →
    kind.isKnown = false → columns.state ∈ smartStates →
      kind.text ∈ poolNames ∨ lastPool poolNames (above.map StatusLine.text) = none

/-! ## What a line is taken for -/

theorem startsFolded_append {word s : Str} (h : ∀ c ∈ word, c.toLower = c) :
    startsFolded word (word ++ s) = true := by
  induction word with
  | nil => rfl
  | cons c word ih =>
    have hc : skipLetter c c = true := by
      unfold skipLetter sameLetter
      rw [h c List.mem_cons_self, beq_self_eq_true]
      rfl
    rw [List.cons_append, startsFolded, hc, ih (fun d hd => h d (List.mem_cons_of_mem _ hd))]
    rfl

theorem isSkipped_append {word s : Str} (hword : word ∈ skipWords) : isSkipped (word ++ s) = true := by
  have hlower : ∀ w ∈ skipWords, ∀ c ∈ w, c.toLower = c := by decide
  exact List.any_eq_true.mpr ⟨word, hword, startsFolded_append (hlower word hword)⟩

/-- The pattern passes over a container if it has the word for it. -/
theorem isSkipped_text (kind : Holder) : isSkipped kind.text = kind.isKnown := by
  cases kind with
  | redundant kind =>
    cases kind with
    | mirror index => exact @isSkipped_append "mirror" _ (by decide)
    | raidz parity index => exact @isSkipped_append "raidz" _ (by decide)
    | draid layout plain => rfl
  | replacing index => rfl
  | spare index => exact @isSkipped_append "spare" ("-" ++ ofNat index) (by decide)

section Row

variable {poolNames : List Str} {depth : Nat} {w line : Str} {c : Columns}

theorem smartLine_row (hw : IsWordText w) : smartLine poolNames (rowLine depth w c) =
    if w ∈ poolNames ∧ c.state ∈ smartStates then .pool w
    else if isSkipped w then .nothing
    else if c.state ∈ smartStates then .disk w
    else .nothing := by
  unfold smartLine
  rw [words_row hw]

theorem mem_of_smartLine_pool {name : Str} (h : smartLine poolNames line = .pool name) :
    name ∈ poolNames := by
  unfold smartLine at h
  split at h
  · split_ifs at h with hpool
    obtain rfl := SmartLine.pool.inj h
    exact hpool.1
  · cases h

theorem mem_of_lastPool {lines : List Str} {name : Str} (h : lastPool poolNames lines = some name) :
    name ∈ poolNames := by
  obtain ⟨line, -, hline⟩ := List.mem_filterMap.mp (List.mem_of_getLast? h)
  cases hsmart : smartLine poolNames line with
  | nothing => rw [hsmart] at hline; cases hline
  | disk name' => rw [hsmart] at hline; cases hline
  | pool name' =>
    rw [hsmart] at hline
    obtain rfl := Option.some.inj hline
    exact mem_of_smartLine_pool hsmart

/-- A title, the heading of a tier and the like are no disks. -/
def Quiet (line : Str) : Prop := ∀ poolNames name, smartLine poolNames line ≠ .disk name

theorem quiet_of_skipped {name : Str} {words : List Str} (h : splitWords line = name :: words)
    (hskip : isSkipped name = true) : Quiet line := by
  intro poolNames name' hdisk
  unfold smartLine at hdisk
  rw [splitWords_strip, h] at hdisk
  cases words with
  | nil => cases hdisk
  | cons column words =>
    dsimp only at hdisk
    rw [hskip, if_pos rfl] at hdisk
    split_ifs at hdisk

theorem quiet_of_unknown {name column : Str} {words : List Str}
    (h : splitWords line = name :: column :: words) (hstate : column ∉ smartStates) : Quiet line := by
  intro poolNames name' hdisk
  unfold smartLine at hdisk
  rw [splitWords_strip, h] at hdisk
  dsimp only at hdisk
  rw [if_neg (fun hpool => hstate hpool.2), if_neg hstate] at hdisk
  split_ifs at hdisk

theorem quiet_of_short (h : ∀ name column words, splitWords line ≠ name :: column :: words) :
    Quiet line := by
  intro poolNames name' hdisk
  unfold smartLine at hdisk
  rw [splitWords_strip] at hdisk
  split at hdisk
  · next name column words hwords => exact h name column words hwords
  · cases hdisk

end Row

/-! ## The other lines -/

section Other

theorem quiet_preamble {l : Str} (h : isPreamble l = true) : Quiet l := by
  unfold isPreamble at h
  split at h
  · next name column words hwords =>
    rw [Bool.or_eq_true] at h
    rcases h with hstate | htitle
    · refine quiet_of_unknown hwords (fun hsmart => ?_)
      have hknown : ∀ s ∈ smartStates, vdevStates.contains s = true := by decide
      rw [hknown column hsmart] at hstate
      cases hstate
    · have htitles : ∀ s ∈ titles, isSkipped s = true := by decide
      exact quiet_of_skipped hwords (htitles name (List.contains_iff_mem.mp htitle))
  · next hshort => exact quiet_of_short hshort

theorem quiet_nil : Quiet [] := quiet_of_short (fun name column words h => by cases h)

theorem quiet_header {t : AuxTier} {trail : Str} (htrail : ∀ d ∈ trail, d = ' ' ∨ d = '\t') :
    Quiet (headerLine t trail) := by
  refine quiet_of_short (fun name column words h => ?_)
  rw [words_headerLine htrail] at h
  cases h

variable {t : PoolTree}

theorem words_keyword {keyword rest : Str} (h : IsWordText keyword) :
    splitWords (keyword ++ ' ' :: rest) = keyword :: splitWords rest :=
  splitWords_word h (by decide)

theorem quiet_pool : Quiet (("  pool: " : Str) ++ t.pool.text) := by
  have hspaces : ∀ c ∈ ("  " : Str), isSpace c = true := by decide
  have hkeyword : IsWordText ("pool:" : Str) := ⟨by decide, by decide⟩
  have hwords : splitWords (("  pool: " : Str) ++ t.pool.text) = ("pool:" : Str) :: splitWords t.pool.text :=
    (splitWords_spaces hspaces).trans (words_keyword hkeyword)
  exact quiet_of_skipped hwords (by decide)

theorem quiet_errors : Quiet (("errors: " : Str) ++ t.message) := by
  have hkeyword : IsWordText ("errors:" : Str) := ⟨by decide, by decide⟩
  exact quiet_of_skipped (words_keyword hkeyword) (by decide)

theorem quiet_heading : Quiet t.headingLine := by
  have hkeyword : IsWordText ("NAME" : Str) := ⟨by decide, by decide⟩
  have hwords : splitWords t.headingLine = ("NAME" : Str) ::
      splitWords (List.replicate t.headingGap ' ' ++ ("STATE     READ WRITE CKSUM" : Str)) :=
    (splitWords_cons_space (by decide)).trans (words_keyword hkeyword)
  exact quiet_of_skipped hwords (by decide)

end Other

/-! ## The lines of a tree -/

theorem Holder.isWordText_text (kind : Holder) : IsWordText kind.text := by
  have hword : ∀ (word : Str) (n : Nat), word ≠ [] → (∀ c ∈ word, isSpace c = false) →
      IsWordText (word ++ ofNat n) := by
    intro word n hne hplain
    refine ⟨List.append_ne_nil_of_left_ne_nil hne _, fun c hc => ?_⟩
    rcases List.mem_append.mp hc with hc | hc
    · exact hplain c hc
    · exact isWordText_ofNat.plain c hc
  cases kind with
  | redundant kind => exact kind.isWordText_text
  | replacing index => exact hword "replacing-" index (by decide) (by decide)
  | spare index => exact hword "spare-" index (by decide) (by decide)

/-- What a line of the output for a pool can be. -/
def Belongs (t : PoolTree) : StatusLine → Prop
  | .other text => Quiet text ∧ NoBreak text
  | .pool name _ => name = t.pool
  | .holder _ _ _ => True
  | .disk owner _ _ _ => owner = t.pool.text

section Lines

variable {t : PoolTree} {q : Str}

mutual

theorem belongs_tree (v : DiskTree) (depth : Nat) : ∀ l ∈ v.lines t.pool.text depth, Belongs t l := by
  match v with
  | .disk name columns =>
    rw [DiskTree.lines, List.forall_mem_singleton]
    rfl
  | .holder kind columns first others =>
    rw [DiskTree.lines, List.forall_mem_cons, List.forall_mem_append]
    exact ⟨trivial, belongs_tree first (depth + 1), belongs_trees others (depth + 1)⟩

theorem belongs_trees (vs : List DiskTree) (depth : Nat) :
    ∀ l ∈ linesOf t.pool.text depth vs, Belongs t l := by
  match vs with
  | [] =>
    rw [linesOf]
    exact List.forall_mem_nil _
  | v :: vs =>
    rw [linesOf, List.forall_mem_append]
    exact ⟨belongs_tree v depth, belongs_trees vs depth⟩

end

theorem belongs_opening : ∀ s ∈ t.opening, Quiet s ∧ NoBreak s := by
  have hpool : NoBreak (("  pool: " : Str) ++ t.pool.text) :=
    noBreak_append_iff.mpr ⟨by decide, t.pool.isWord.noBreak⟩
  have hheading : NoBreak t.headingLine := by
    have hfront : NoBreak ('\t' :: (("NAME" : Str) ++ [' '])) := by decide
    have hback : NoBreak ("STATE     READ WRITE CKSUM" : Str) := by decide
    have hall := noBreak_append_iff.mpr
      ⟨hfront, noBreak_append_iff.mpr ⟨noBreak_spaces (n := t.headingGap), hback⟩⟩
    simpa [PoolTree.headingLine] using hall
  have hconfig : Quiet ("config:" : Str) ∧ NoBreak ("config:" : Str) := by
    have hkeyword : IsWordText ("config:" : Str) := ⟨by decide, by decide⟩
    exact ⟨quiet_of_skipped (splitWords_self hkeyword) (by decide), by decide⟩
  unfold PoolTree.opening
  simp only [List.cons_append, List.forall_mem_cons, List.forall_mem_append]
  exact ⟨⟨quiet_pool, hpool⟩,
    fun l hl => ⟨quiet_preamble (t.preambleLines l hl).2, (t.preambleLines l hl).1⟩,
    hconfig, ⟨quiet_nil, by decide⟩, ⟨quiet_heading, hheading⟩, List.forall_mem_nil _⟩

theorem belongs_lines : ∀ l ∈ t.lines, Belongs t l := by
  have hmessage : NoBreak (("errors: " : Str) ++ t.message) :=
    noBreak_append_iff.mpr ⟨by decide, t.messageLine⟩
  unfold PoolTree.lines PoolTree.rows
  simp only [List.forall_mem_append, List.forall_mem_cons, List.forall_mem_map]
  refine ⟨⟨belongs_opening, rfl, belongs_trees (t.first :: t.others) 1, fun l hl => ?_⟩,
    ⟨quiet_nil, by decide⟩, ⟨quiet_errors, hmessage⟩, List.forall_mem_nil _⟩
  obtain ⟨g, -, hl⟩ := List.mem_flatMap.mp hl
  rcases List.mem_cons.mp hl with rfl | hl
  · exact ⟨quiet_header g.blank, noBreak_header g.blank⟩
  · exact belongs_trees g.vdevs 1 l hl

/-- Each tree has a disk. -/
theorem exists_disk (v : DiskTree) (pool : Str) (depth : Nat) :
    ∃ d name columns, StatusLine.disk pool d name columns ∈ v.lines pool depth := by
  match v with
  | .disk name columns =>
    rw [DiskTree.lines]
    exact ⟨depth, name, columns, List.mem_cons_self⟩
  | .holder kind columns first others =>
    obtain ⟨d, name, cs, hmem⟩ := exists_disk first pool (depth + 1)
    rw [DiskTree.lines]
    exact ⟨d, name, cs, List.mem_cons_of_mem _ (List.mem_append_left _ hmem)⟩

theorem exists_disk_lines (t : PoolTree) :
    ∃ d name columns, StatusLine.disk t.pool.text d name columns ∈ t.lines := by
  obtain ⟨d, name, columns, hmem⟩ := exists_disk t.first t.pool.text 1
  refine ⟨d, name, columns, ?_⟩
  unfold PoolTree.lines PoolTree.rows
  rw [linesOf]
  simp [hmem]

/-- The disks among the lines, of one pool. -/
def disksIn (q : Str) (lines : List StatusLine) : List Str :=
  lines.filterMap fun l => addedTo q l.leaf

theorem disksIn_append {ls ls' : List StatusLine} :
    disksIn q (ls ++ ls') = disksIn q ls ++ disksIn q ls' := List.filterMap_append

theorem disksIn_of_owner {pool : Str} (hne : pool ≠ q) {ls : List StatusLine}
    (h : ∀ owner depth name columns, StatusLine.disk owner depth name columns ∈ ls → owner = pool) :
    disksIn q ls = [] := by
  refine List.filterMap_eq_nil_iff.mpr (fun l hl => ?_)
  cases l with
  | disk owner depth name columns =>
    rw [h owner depth name columns hl]
    exact if_neg hne
  | other text => rfl
  | pool name columns => rfl
  | holder depth kind columns => rfl

mutual

theorem disksIn_tree (v : DiskTree) (depth : Nat) : disksIn q (v.lines q depth) = v.leaves := by
  match v with
  | .disk name columns =>
    rw [DiskTree.lines, DiskTree.leaves]
    simp [disksIn, addedTo, StatusLine.leaf]
  | .holder kind columns first others =>
    rw [DiskTree.lines, DiskTree.leaves, ← disksIn_tree first (depth + 1),
      ← disksIn_trees others (depth + 1), ← disksIn_append]
    rfl

theorem disksIn_trees (vs : List DiskTree) (depth : Nat) :
    disksIn q (linesOf q depth vs) = leavesOf vs := by
  match vs with
  | [] =>
    rw [linesOf, leavesOf]
    rfl
  | v :: vs =>
    rw [linesOf, leavesOf, disksIn_append, disksIn_tree v depth, disksIn_trees vs depth]

end

theorem disksIn_lines (t : PoolTree) : disksIn t.pool.text t.lines = t.leaves := by
  have hopening : disksIn t.pool.text (t.opening.map .other) = [] :=
    List.filterMap_eq_nil_iff.mpr (fun l hl => by
      obtain ⟨s, -, rfl⟩ := List.mem_map.mp hl
      rfl)
  have hgroups : disksIn t.pool.text (t.groups.flatMap (DiskGroup.lines t.pool.text)) =
      t.groups.flatMap (fun g => leavesOf g.vdevs) := by
    unfold disksIn
    rw [List.filterMap_flatMap]
    refine List.flatMap_congr (fun g _ => ?_)
    exact disksIn_trees g.vdevs 1
  have hrows : disksIn t.pool.text t.rows = t.leaves := by
    have hfirst := disksIn_trees (q := t.pool.text) (t.first :: t.others) 1
    have happend := @disksIn_append t.pool.text (linesOf t.pool.text 1 (t.first :: t.others))
      (t.groups.flatMap (DiskGroup.lines t.pool.text))
    rw [hfirst, hgroups] at happend
    exact happend
  have hend : disksIn t.pool.text [.other [], .other (("errors: " : Str) ++ t.message)] = [] := rfl
  unfold PoolTree.lines
  rw [disksIn_append, disksIn_append, hopening, hrows, hend, List.nil_append, List.append_nil]

end Lines

/-! ## The lines of all pools -/

section Output

variable {q : Str}

theorem mem_linesOfPools {l : StatusLine} {ts : List PoolTree} (h : l ∈ linesOfPools ts) :
    l = .other [] ∨ ∃ t ∈ ts, l ∈ t.lines := by
  induction ts with
  | nil => cases h
  | cons t ts ih =>
    cases ts with
    | nil => exact .inr ⟨t, List.mem_cons_self, h⟩
    | cons u ts =>
      rcases List.mem_append.mp (h : l ∈ t.lines ++ .other [] :: linesOfPools (u :: ts)) with h | h
      · exact .inr ⟨t, List.mem_cons_self, h⟩
      · rcases List.mem_cons.mp h with rfl | h
        · exact .inl rfl
        · rcases ih h with rfl | ⟨v, hv, hl⟩
          · exact .inl rfl
          · exact .inr ⟨v, List.mem_cons_of_mem _ hv, hl⟩

theorem mem_lines_of_tree {l : StatusLine} {t : PoolTree} {ts : List PoolTree} (ht : t ∈ ts)
    (hl : l ∈ t.lines) : l ∈ linesOfPools ts := by
  induction ts with
  | nil => cases ht
  | cons u ts ih =>
    cases ts with
    | nil => rwa [List.mem_singleton.mp ht] at hl
    | cons v ts =>
      refine List.mem_append.mpr ?_
      rcases List.mem_cons.mp ht with rfl | ht
      · exact .inl hl
      · exact .inr (List.mem_cons_of_mem _ (ih ht))

/-- The disks of a pool that is printed are those of its tree. -/
theorem disksIn_linesOfPools {ts : List PoolTree} (hdistinct : (ts.map fun t => t.pool.text).Nodup)
    {t : PoolTree} (ht : t ∈ ts) : disksIn t.pool.text (linesOfPools ts) = t.leaves := by
  have hother : ∀ u : PoolTree, u.pool.text ≠ t.pool.text → disksIn t.pool.text u.lines = [] :=
    fun u hne => disksIn_of_owner hne fun owner depth name columns hl => belongs_lines _ hl
  have hnone : ∀ us : List PoolTree, (∀ u ∈ us, u.pool.text ≠ t.pool.text) →
      disksIn t.pool.text (linesOfPools us) = [] := by
    intro us hus
    refine List.filterMap_eq_nil_iff.mpr (fun l hl => ?_)
    rcases mem_linesOfPools hl with rfl | ⟨u, hu, hl⟩
    · rfl
    · exact List.filterMap_eq_nil_iff.mp (hother u (hus u hu)) l hl
  induction ts with
  | nil => cases ht
  | cons u ts ih =>
    rw [List.map_cons, List.nodup_cons] at hdistinct
    have hlines : disksIn t.pool.text (linesOfPools (u :: ts)) =
        disksIn t.pool.text u.lines ++ disksIn t.pool.text (linesOfPools ts) := by
      cases ts with
      | nil => exact (List.append_nil _).symm
      | cons v ts => exact disksIn_append
    rw [hlines]
    rcases List.mem_cons.mp ht with rfl | ht
    · rw [disksIn_lines, hnone ts, List.append_nil]
      exact fun u hu heq => hdistinct.1 (List.mem_map.mpr ⟨u, hu, heq⟩)
    · rw [hother u, List.nil_append, ih hdistinct.2 ht]
      exact fun heq => hdistinct.1 (List.mem_map.mpr ⟨t, ht, heq.symm⟩)

theorem noBreak_of_belongs {t : PoolTree} {l : StatusLine} (h : Belongs t l) : NoBreak l.text := by
  cases l with
  | other text => exact h.2
  | pool name columns => exact noBreak_row name.isWord
  | holder depth kind columns => exact noBreak_row kind.isWordText_text
  | disk owner depth name columns => exact noBreak_row name.isWord

theorem splitLines_text (o : StatusOutput) : splitLines o.text = o.lines.map StatusLine.text := by
  refine splitLines_unlines (fun s hs => ?_)
  obtain ⟨l, hl, rfl⟩ := List.mem_map.mp hs
  rcases mem_linesOfPools hl with rfl | ⟨t, -, hl⟩
  · decide
  · exact noBreak_of_belongs (belongs_lines l hl)

end Output

/-! ## The loop over the lines -/

section Loop

variable {poolNames : List Str} {above : List StatusLine} {depth : Nat} {columns : Columns}

theorem step_output (s : DiskSurvey) (line : Str) : (s.step poolNames line).2 =
    match smartLine poolNames line, s.currentPool with
    | .disk name, some pool => some (pool, name)
    | _, _ => none := by
  unfold DiskSurvey.step
  cases smartLine poolNames line with
  | nothing => rfl
  | pool name => rfl
  | disk name => cases s.currentPool <;> rfl

theorem readRight_disk_iff {pool : Str} {name : VdevName} :
    ReadRight poolNames above (.disk pool depth name columns) ↔
      columns.state ∈ smartStates ∧ name.text ∉ poolNames ∧ isSkipped name.text = false ∧
        lastPool poolNames (above.map StatusLine.text) = some pool := by
  unfold ReadRight
  rw [step_output, currentPool_surveyDisks, StatusLine.text, smartLine_row name.isWord]
  by_cases hstate : columns.state ∈ smartStates
  · by_cases hname : name.text ∈ poolNames
    · rw [if_pos ⟨hname, hstate⟩]
      refine iff_of_false (fun h => by cases h) (fun h => h.2.1 hname)
    · rw [if_neg (fun h => hname h.1)]
      cases hskip : isSkipped name.text with
      | true => exact iff_of_false (fun h => by cases h) (fun h => by cases h.2.2.1)
      | false =>
        rw [if_neg (by decide), if_pos hstate]
        cases lastPool poolNames (above.map StatusLine.text) with
        | none => exact iff_of_false (fun h => by cases h) (fun h => by cases h.2.2.2)
        | some p => simp [StatusLine.leaf, hstate, hname]
  · refine iff_of_false (fun h => ?_) (fun h => hstate h.1)
    rw [if_neg (fun hpool => hstate hpool.2), if_neg hstate] at h
    split_ifs at h <;> cases h

theorem readRight_holder_iff {kind : Holder} : ReadRight poolNames above (.holder depth kind columns) ↔
    (kind.isKnown = false → columns.state ∈ smartStates →
      kind.text ∈ poolNames ∨ lastPool poolNames (above.map StatusLine.text) = none) := by
  unfold ReadRight
  rw [step_output, currentPool_surveyDisks, StatusLine.text, smartLine_row kind.isWordText_text,
    isSkipped_text]
  cases hknown : kind.isKnown with
  | true =>
    refine iff_of_true ?_ (fun h => by cases h)
    rw [if_pos rfl]
    split_ifs <;> rfl
  | false =>
    rw [if_neg Bool.false_ne_true]
    by_cases hstate : columns.state ∈ smartStates
    · by_cases hname : kind.text ∈ poolNames
      · rw [if_pos ⟨hname, hstate⟩]
        exact iff_of_true rfl (fun _ _ => .inl hname)
      · rw [if_neg (fun h => hname h.1), if_pos hstate]
        cases lastPool poolNames (above.map StatusLine.text) with
        | none => exact iff_of_true rfl (fun _ _ => .inr rfl)
        | some p =>
          refine iff_of_false (fun h => by cases h) (fun h => ?_)
          rcases h rfl hstate with hin | hnone
          · exact hname hin
          · cases hnone
    · rw [if_neg (fun h => hstate h.2), if_neg hstate]
      exact iff_of_true rfl (fun _ h => absurd h hstate)

theorem readRight_other {text : Str} (h : Quiet text) : ReadRight poolNames above (.other text) := by
  unfold ReadRight
  rw [step_output, StatusLine.text]
  cases hline : smartLine poolNames text with
  | disk name => exact absurd hline (h poolNames name)
  | pool name => rfl
  | nothing => rfl

theorem readRight_pool {name : VdevName} (h : name.text ∈ poolNames) :
    ReadRight poolNames above (.pool name columns) := by
  unfold ReadRight
  rw [step_output, StatusLine.text, smartLine_row name.isWord]
  by_cases hstate : columns.state ∈ smartStates
  · rw [if_pos ⟨h, hstate⟩]
    rfl
  · rw [if_neg (fun h => hstate h.2), if_neg hstate]
    split_ifs <;> rfl

/-- What is asked about, when each row is read for what it is. -/
theorem disks_of_rows {lines : List StatusLine}
    (h : ∀ above line below, lines = above ++ line :: below → ReadRight poolNames above line) (q : Str) :
    (surveyDisks poolNames (lines.map StatusLine.text)).disks q = disksIn q lines := by
  induction lines using List.reverseRecOn with
  | nil => rfl
  | append_singleton lines line ih =>
    have hline : ReadRight poolNames lines line := h lines line [] rfl
    have hrest := ih fun above l below hcut => h above l (below ++ [line]) (by
      rw [hcut, List.append_assoc, List.cons_append])
    have hstep : (surveyDisks poolNames ((lines ++ [line]).map StatusLine.text)) =
        ((surveyDisks poolNames (lines.map StatusLine.text)).step poolNames line.text).1 := by
      unfold surveyDisks
      rw [List.map_append, after_append]
      rfl
    have hlast : disksIn q [line] = (addedTo q line.leaf).toList := by
      unfold disksIn
      rw [List.filterMap_cons, List.filterMap_nil]
      cases addedTo q line.leaf <;> rfl
    rw [hstep, disks_step, hrest, hline, disksIn_append, hlast]

/-- Each row of the output is read for what it is exactly when the names and the
states are plain. -/
theorem rows_iff (o : StatusOutput) :
    (∀ above line below, o.lines = above ++ line :: below → ReadRight poolNames above line) ↔
      ReadsPlain poolNames o.lines := by
  constructor
  · intro h
    exact
      { disk := fun above pool depth name columns below hcut =>
          readRight_disk_iff.mp (h above _ below hcut)
        holder := fun above depth kind columns below hcut =>
          readRight_holder_iff.mp (h above _ below hcut) }
  · intro h above line below hcut
    have hmem : line ∈ o.lines := by
      rw [hcut]
      exact List.mem_append_right _ List.mem_cons_self
    cases line with
    | disk pool depth name columns => exact readRight_disk_iff.mpr (h.disk _ _ _ _ _ _ hcut)
    | holder depth kind columns => exact readRight_holder_iff.mpr (h.holder _ _ _ _ _ hcut)
    | other text =>
      rcases mem_linesOfPools hmem with heq | ⟨t, -, hl⟩
      · rw [heq]
        exact readRight_other quiet_nil
      · exact readRight_other (belongs_lines _ hl).1
    | pool name columns =>
      rcases mem_linesOfPools hmem with heq | ⟨t, ht, hl⟩
      · cases heq
      · -- a disk of the tree is read for one of its pool, so the pool is listed
        obtain rfl : name = t.pool := belongs_lines _ hl
        obtain ⟨depth, disk, cs, hdisk⟩ := exists_disk_lines t
        obtain ⟨before, after, hsplit⟩ := List.append_of_mem (mem_lines_of_tree ht hdisk)
        exact readRight_pool (mem_of_lastPool (h.disk _ _ _ _ _ _ hsplit).2.2.2)

end Loop

namespace SmartRun

theorem queried_eq (R : SmartRun) (q : Str) : R.result.queried q =
    (surveyDisks R.poolNames (R.output.lines.map StatusLine.text)).disks q := by
  have hrun : ∃ pool, (smartStatus pool).Run
      ((.poolNames, R.poolList) :: (.status R.asked, prints R.output.text) :: R.rest) (.ok R.result) := by
    have hrun := R.run
    unfold getSmartStatus at hrun
    split at hrun
    · exact ⟨none, hrun⟩
    · split at hrun
      · exact absurd (Prog.run_ret.mp hrun).1 (List.cons_ne_nil _ _)
      · exact ⟨_, hrun⟩
  obtain ⟨pool, hrun⟩ := hrun
  obtain ⟨poolList, status, rest, htrail, hqueried⟩ := run_smartStatus hrun
  injection htrail with hfirst htail
  injection htail with hsecond _
  obtain rfl := (Prod.mk.inj hfirst).2
  obtain rfl := (Prod.mk.inj hsecond).2
  rw [hqueried rfl q]
  show (surveyDisks _ (splitLines R.output.text)).disks q = _
  rw [splitLines_text]
  rfl

/-- The disks that are asked about are the leaves of the trees if and only if
no disk is called like a pool or a word of the pattern, each has one of the
known states and its own pool's row as the last one above it, and no container
without a word in the pattern has such a state. -/
theorem right_iff (R : SmartRun) : R.Right ↔ ReadsPlain R.poolNames R.output.lines := by
  rw [← rows_iff]
  constructor
  · exact fun h => h.rows
  · intro h
    refine ⟨fun t ht => ?_, h⟩
    rw [queried_eq, disks_of_rows h]
    exact disksIn_linesOfPools R.output.distinct ht

end SmartRun

/-! ## A disk that is being replaced -/

/-- A mirror of two disks, one of which is being replaced. -/
def replacedDisk : StatusOutput where
  trees :=
    [{ pool := ⟨"tank", by decide, by decide⟩
       columns := ⟨8, "DEGRADED", "     0     0     0", by decide, by decide, by decide⟩
       first := .holder (.redundant (.mirror (some 0)))
         ⟨2, "DEGRADED", "     0     0     0", by decide, by decide, by decide⟩
         (.disk ⟨"sda", sda_isWordText⟩
           ⟨5, "ONLINE", "      0     0     0", online_mem_states, by decide, by decide⟩)
         [.holder (.replacing 1) ⟨0, "DEGRADED", "     0     0     0", by decide, by decide, by decide⟩
           (.disk ⟨"sdb", by decide, by decide⟩
             ⟨3, "OFFLINE", "      0     0     0", by decide, by decide, by decide⟩)
           [.disk ⟨"sdc", by decide, by decide⟩
             ⟨3, "ONLINE", "      0     0     0  (resilvering)", online_mem_states, by decide,
               by decide⟩]]
       others := []
       groups := []
       preamble := [" state: DEGRADED"]
       headingGap := 8
       message := "No known data errors"
       preambleLines := by decide
       messageLine := noDataErrors_noBreak }]
  distinct := by decide

def replacedDiskAnswers (cmd : SmartCmd) : Answer :=
  match cmd with
  | .poolNames => prints "tank\n"
  | .status _ => prints replacedDisk.text
  | _ => noAnswer

/-- The container is asked about as if it were a disk. -/
theorem replacing_is_queried : ¬ ∀ R : SmartRun, R.Right := by
  intro hclaim
  obtain ⟨trail, o, hrun, hanswers⟩ := Prog.exists_run (smartStatus none) replacedDiskAnswers
  cases o with
  | error e => exact e.elim
  | ok result =>
    obtain ⟨poolList, status, rest, rfl, -⟩ := run_smartStatus hrun
    obtain rfl : poolList = replacedDiskAnswers .poolNames := hanswers (.poolNames, poolList) (by simp)
    obtain rfl : status = replacedDiskAnswers (.status none) :=
      hanswers (.status none, status) (by simp)
    have hright := hclaim ⟨replacedDisk, none, none, _, _, _, hrun⟩
    have hrow : ReadRight (listedPools (replacedDiskAnswers .poolNames)) (replacedDisk.lines.take 8)
        (.holder 2 (.replacing 1) _) := hright.rows _ _ (replacedDisk.lines.drop 9) rfl
    rcases readRight_holder_iff.mp hrow rfl (by decide) with hlisted | hnone
    · revert hlisted
      decide
    · revert hnone
      decide

end PveZfsTool.Smart
