import PveZfsTool.Migrate.SnapshotCleanup
import PveZfsTool.Lib.Calendar
import Mathlib.Data.List.Pairwise

/-!
# Which migration snapshot is the newest

`make_snapshot_name` names a snapshot after the local time, and
`select_snapshots_to_delete` takes the greatest name of a dataset for its
newest snapshot.

`selection_recent_iff` says for which clocks this spares the snapshot that was
taken last: the clock shows a later second for it than for each one before.
`selection_set_back` is a clock that is set back in between.
-/

namespace PveZfsTool

open Text Calendar

/-! ## The selection -/

section Selection

variable {ds : Str} {snaps : List MigrationSnapshot} {s : MigrationSnapshot}

/-- One turn of the loop: the best one after it is the one before or the
new one, and has the greater name. -/
theorem newestMigration_cons (snaps : List MigrationSnapshot) (s : MigrationSnapshot)
    (best : Option MigrationSnapshot) (hds : s.dataset = ds) : ∃ b, newestMigration ds (s :: snaps) best =
      newestMigration ds snaps (some b) ∧ (b = s ∨ best = some b) ∧ s.snapshot ≤ b.snapshot ∧
        ∀ c ∈ best, c.snapshot ≤ b.snapshot := by
  cases best with
  | none => exact ⟨s, by simp [newestMigration, hds], .inl rfl, le_refl _, by simp⟩
  | some c =>
    by_cases hlt : c.snapshot < s.snapshot
    · exact ⟨s, by simp [newestMigration, hds, hlt], .inl rfl, le_refl _, by simpa using hlt.le⟩
    · exact ⟨c, by simp [newestMigration, hds, hlt], .inr rfl, not_lt.mp hlt, by simp⟩

/-- The newest one is one of the dataset's, and no other has a greater name. -/
theorem newestMigration_some {best : Option MigrationSnapshot} {b : MigrationSnapshot}
    (hbest : ∀ c ∈ best, c.dataset = ds) (h : newestMigration ds snaps best = some b) :
    (b ∈ snaps ∨ best = some b) ∧ b.dataset = ds ∧
      (∀ c ∈ best, c.snapshot ≤ b.snapshot) ∧
      ∀ s ∈ snaps, s.dataset = ds → s.snapshot ≤ b.snapshot := by
  induction snaps generalizing best with
  | nil =>
    have hsome : best = some b := by
      cases best <;> exact h
    exact ⟨.inr hsome, hbest b hsome, by simp [hsome], by simp⟩
  | cons s snaps ih =>
    by_cases hds : s.dataset = ds
    · obtain ⟨d, heq, hd, hs, hle⟩ := newestMigration_cons snaps s best hds
      rw [heq] at h
      have hd_ds : d.dataset = ds := by
        rcases hd with rfl | hd
        · exact hds
        · exact hbest d hd
      obtain ⟨hmem, hb, hdb, hall⟩ := ih (by simpa using hd_ds) h
      have hdb : d.snapshot ≤ b.snapshot := hdb d rfl
      refine ⟨?_, hb, fun c hc => (hle c hc).trans hdb, ?_⟩
      · rcases hmem with hmem | heq
        · exact .inl (List.mem_cons_of_mem _ hmem)
        · obtain rfl := Option.some.inj heq
          rcases hd with hfirst | hd
          · exact .inl (hfirst ▸ List.mem_cons_self)
          · exact .inr hd
      · exact List.forall_mem_cons.mpr ⟨fun _ => hs.trans hdb, hall⟩
    · have heq : newestMigration ds (s :: snaps) best = newestMigration ds snaps best := by
        cases best <;> simp [newestMigration, hds]
      rw [heq] at h
      obtain ⟨hmem, hb, hle, hall⟩ := ih hbest h
      refine ⟨hmem.imp_left (List.mem_cons_of_mem _), hb, hle, ?_⟩
      exact List.forall_mem_cons.mpr ⟨fun heq => absurd heq hds, hall⟩

/-- A dataset with a snapshot has a newest one. -/
theorem exists_newestMigration (hs : s ∈ snaps) (hds : s.dataset = ds) :
    ∃ b, newestMigration ds snaps none = some b := by
  have hsome : ∀ (l : List MigrationSnapshot) (b : MigrationSnapshot),
      ∃ b', newestMigration ds l (some b) = some b' := by
    intro l
    induction l with
    | nil => exact fun b => ⟨b, rfl⟩
    | cons t l ih =>
      intro b
      by_cases ht : t.dataset = ds
      · obtain ⟨d, heq, -⟩ := newestMigration_cons l t (some b) ht
        exact heq ▸ ih d
      · simpa [newestMigration, ht] using ih b
  induction snaps with
  | nil => cases hs
  | cons t snaps ih =>
    by_cases ht : t.dataset = ds
    · obtain ⟨d, heq, -⟩ := newestMigration_cons snaps t none ht
      exact heq ▸ hsome snaps d
    · rcases List.mem_cons.mp hs with rfl | hs
      · exact absurd hds ht
      · simpa [newestMigration, ht] using ih hs

/-- With `keep_latest` a snapshot is spared if and only if no snapshot of its
dataset has a greater name. -/
theorem mem_selectSnapshotsToDelete_iff : s ∈ selectSnapshotsToDelete snaps true ↔
    s ∈ snaps ∧ ∃ t ∈ snaps, t.dataset = s.dataset ∧ s.snapshot < t.snapshot := by
  unfold selectSnapshotsToDelete
  simp only [Bool.not_true, Bool.false_eq_true, if_false, List.mem_filter, decide_eq_true_eq, ne_eq]
  refine and_congr_right (fun hs => ?_)
  obtain ⟨b, hb⟩ := exists_newestMigration hs rfl
  obtain ⟨hmem, hds, -, hall⟩ := newestMigration_some (by simp) hb
  rw [hb, Option.map_some, Option.some_inj]
  constructor
  · intro hne
    have hb_mem : b ∈ snaps := hmem.resolve_right (by simp)
    exact ⟨b, hb_mem, hds, lt_of_le_of_ne (hall s hs rfl) (Ne.symm hne)⟩
  · rintro ⟨t, ht, htds, hlt⟩ heq
    exact absurd (heq ▸ hall t ht htds) (not_le_of_gt hlt)

end Selection

/-! ## The names -/

/-- `make_snapshot_name`, at a local time. -/
def makeSnapshotName (now : DateTime) : Str := "migrate-" ++ now.stamp

/-- A stamp has no fraction of a second. -/
theorem stamp_eq_of_second {d e : DateTime} (h : d.toSecond = e.toSecond) : d.stamp = e.stamp :=
  show d.toSecond.stamp = e.toSecond.stamp from congrArg DateTime.stamp h

theorem makeSnapshotName_lt_iff {d e : DateTime} :
    makeSnapshotName d < makeSnapshotName e ↔ d.toSecond < e.toSecond := by
  unfold makeSnapshotName
  rw [append_lt rfl]
  constructor
  · intro h
    have hstamp : d.stamp < e.stamp := (h.resolve_left (lt_irrefl _)).2
    rcases lt_trichotomy d.toSecond e.toSecond with hlt | heq | hgt
    · exact hlt
    · rw [stamp_eq_of_second heq] at hstamp
      exact absurd hstamp (lt_irrefl _)
    · exact absurd hstamp (lt_asymm (DateTime.stamp_lt hgt))
  · intro h
    exact .inr ⟨rfl, DateTime.stamp_lt h⟩

/-! ## The snapshots in the order they were taken -/

section Taken

variable {T : Type} [LinearOrder T]

/-- A snapshot that was taken at an instant, and its listed size. -/
structure TakenSnapshot (T : Type) where
  dataset : Str
  instant : T
  used : Str

/-- How the snapshot is listed when the local clock shows `clock`. -/
def TakenSnapshot.listed (clock : T → DateTime) (s : TakenSnapshot T) : MigrationSnapshot :=
  let name := makeSnapshotName (clock s.instant)
  ⟨s.dataset, name, s.dataset ++ "@" ++ name, s.used⟩

/-- The snapshots in the order they were taken, those of one dataset at
different instants. -/
def TakenInOrder (taken : List (TakenSnapshot T)) : Prop :=
  taken.Pairwise (fun s t => s.instant ≤ t.instant ∧ (s.dataset = t.dataset → s.instant < t.instant))

/-- A later snapshot of the dataset is in the list. -/
def Superseded (s : TakenSnapshot T) (taken : List (TakenSnapshot T)) : Prop :=
  ∃ t ∈ taken, t.dataset = s.dataset ∧ s.instant < t.instant

/-- The selection takes the snapshots that are superseded, and no others. -/
def SelectsByAge (clock : T → DateTime) (taken : List (TakenSnapshot T)) : Prop :=
  ∀ s ∈ taken, s.listed clock ∈
    selectSnapshotsToDelete (taken.map (TakenSnapshot.listed clock)) true ↔ Superseded s taken

/-- The clock shows a later second for the last snapshot of a dataset than for
each one before. -/
def ClockForward (clock : T → DateTime) (taken : List (TakenSnapshot T)) : Prop :=
  ∀ s ∈ taken, ∀ t ∈ taken, s.dataset = t.dataset → s.instant < t.instant →
    ¬ Superseded t taken → (clock s.instant).toSecond < (clock t.instant).toSecond

variable {clock : T → DateTime} {taken : List (TakenSnapshot T)}

/-- Two snapshots of one dataset were taken at different instants. -/
theorem TakenInOrder.lt_or_lt (h : TakenInOrder taken) {s t : TakenSnapshot T} (hs : s ∈ taken)
    (ht : t ∈ taken) (hne : s ≠ t) (hds : s.dataset = t.dataset) :
    s.instant < t.instant ∨ t.instant < s.instant := by
  let apart (s t : TakenSnapshot T) : Prop :=
    s.dataset = t.dataset → s.instant < t.instant ∨ t.instant < s.instant
  have hsymm : Std.Symm apart := ⟨fun _ _ hst hds => (hst hds.symm).symm⟩
  have happart : taken.Pairwise apart := h.imp (fun hst hds => .inl (hst.2 hds))
  exact happart.forall hs ht hne hds

/-- A superseded snapshot is superseded by the last one of its dataset. -/
theorem exists_last_taken {s : TakenSnapshot T} (h : Superseded s taken) :
    ∃ t ∈ taken, t.dataset = s.dataset ∧ s.instant < t.instant ∧ ¬ Superseded t taken := by
  obtain ⟨u, hu, hds, hlt⟩ := h
  let later := (taken.filter (fun t => t.dataset = s.dataset)).map TakenSnapshot.instant
  have hmem : ∀ {t}, t ∈ taken → t.dataset = s.dataset → t.instant ∈ later := by
    intro t ht htds
    exact List.mem_map_of_mem (List.mem_filter.mpr ⟨ht, decide_eq_true htds⟩)
  obtain ⟨m, hm, hgreatest⟩ := Newest.exists_greatest (List.ne_nil_of_mem (hmem hu hds))
  obtain ⟨t, ht, rfl⟩ := List.mem_map.mp hm
  obtain ⟨htaken, htds⟩ := List.mem_filter.mp ht
  rw [decide_eq_true_eq] at htds
  refine ⟨t, htaken, htds, lt_of_lt_of_le hlt (hgreatest _ (hmem hu hds)), ?_⟩
  rintro ⟨v, hv, hvds, hvlt⟩
  exact absurd hvlt (not_lt.mpr (hgreatest _ (hmem hv (hvds.trans htds))))

omit [LinearOrder T] in
/-- A listed snapshot is selected when another of its dataset shows a later
second. -/
theorem listed_selected_iff {s : TakenSnapshot T} (hs : s ∈ taken) :
    s.listed clock ∈ selectSnapshotsToDelete (taken.map (TakenSnapshot.listed clock)) true ↔
      ∃ t ∈ taken, t.dataset = s.dataset ∧
        (clock s.instant).toSecond < (clock t.instant).toSecond := by
  rw [mem_selectSnapshotsToDelete_iff]
  constructor
  · rintro ⟨-, m, hm, hds, hlt⟩
    obtain ⟨t, ht, rfl⟩ := List.mem_map.mp hm
    exact ⟨t, ht, hds, makeSnapshotName_lt_iff.mp hlt⟩
  · rintro ⟨t, ht, hds, hlt⟩
    exact ⟨List.mem_map_of_mem hs, t.listed clock, List.mem_map_of_mem ht, hds,
      makeSnapshotName_lt_iff.mpr hlt⟩

/-- The selection goes by age if and only if the clock shows a later second
for the last snapshot of each dataset than for those before. -/
theorem selection_recent_iff (horder : TakenInOrder taken) :
    SelectsByAge clock taken ↔ ClockForward clock taken := by
  constructor
  · intro h s hs t ht hds hlt hlast
    -- the earlier one is selected, the last one is not
    obtain ⟨u, hu, hu_ds, hu_lt⟩ := (listed_selected_iff hs).mp ((h s hs).mpr ⟨t, ht, hds.symm, hlt⟩)
    have hspared : ¬ (clock t.instant).toSecond < (clock u.instant).toSecond := by
      intro hlater
      exact hlast ((h t ht).mp
        ((listed_selected_iff ht).mpr ⟨u, hu, hu_ds.trans hds, hlater⟩))
    exact lt_of_lt_of_le hu_lt (not_lt.mp hspared)
  · intro h s hs
    rw [listed_selected_iff hs]
    constructor
    · rintro ⟨u, hu, hds, hlater⟩
      have hne : s ≠ u := by
        rintro rfl
        exact lt_irrefl _ hlater
      rcases horder.lt_or_lt hs hu hne hds.symm with hlt | hlt
      · exact ⟨u, hu, hds, hlt⟩
      · by_contra hlast
        exact lt_asymm hlater (h u hu s hs hds hlt hlast)
    · intro hsuper
      obtain ⟨t, ht, hds, hlt, hlast⟩ := exists_last_taken hsuper
      exact ⟨t, ht, hds, h s hs t ht hds.symm hlt hlast⟩

end Taken

/-! ## The end of summer time -/

/-- 2026-10-25 at a minute of the hour from two to three. -/
def inTheHour (minute : Nat) (h : minute < 60) : DateTime where
  year := 2026
  month := 10
  day := 25
  hour := 2
  minute := minute
  second := 0
  microsecond := 0
  year_bounds := year_2026_bounds
  month_bounds := by decide
  day_bounds := by decide
  hour_lt := by decide
  minute_lt := h
  second_lt := minute_zero_lt
  microsecond_lt := microsecond_zero_lt

theorem minute_fifty_lt : 50 < 60 := by decide

/-- The local clock in the first and in the last ten minutes of an hour, and
in the ten minutes after it is set back. -/
def berlinClock (seconds : Int) : DateTime :=
  if seconds < 600 then inTheHour 0 minute_zero_lt
  else if seconds < 3600 then inTheHour 50 minute_fifty_lt
  else inTheHour 0 minute_zero_lt

def diskSnapshot (seconds : Int) : TakenSnapshot Int := ⟨"rpool/data/vm-100-disk-0", seconds, "0B"⟩

theorem diskSnapshots_ordered {a b : Int} (h : a < b) :
    TakenInOrder [diskSnapshot a, diskSnapshot b] :=
  List.pairwise_pair.mpr ⟨h.le, fun _ => h⟩

theorem selection_recent_hour :
    SelectsByAge berlinClock [diskSnapshot 0, diskSnapshot 3000] := by
  refine (selection_recent_iff (diskSnapshots_ordered (by omega))).mpr ?_
  intro s hs t ht _ hlt _
  simp only [List.mem_cons, List.not_mem_nil, or_false] at hs ht
  rcases hs with rfl | rfl <;> rcases ht with rfl | rfl
  · exact absurd hlt (lt_irrefl _)
  · rw [lt_iff_fields]
    decide
  · have hback : (3000 : Int) < 0 := hlt
    omega
  · exact absurd hlt (lt_irrefl _)

/-- The clock is set back between two snapshots.  The second one is selected,
and the first one spared. -/
theorem selection_set_back : ¬ ∀ (clock : Int → DateTime) (taken : List (TakenSnapshot Int)),
    TakenInOrder taken → SelectsByAge clock taken := by
  intro h
  have hlater : (3000 : Int) < 3700 := by omega
  have hselected := (h berlinClock _ (diskSnapshots_ordered hlater) (diskSnapshot 3000)
    List.mem_cons_self).mpr ⟨diskSnapshot 3700, by simp, rfl, hlater⟩
  obtain ⟨t, ht, -, hlt⟩ := (listed_selected_iff List.mem_cons_self).mp hselected
  rw [lt_iff_fields] at hlt
  simp only [List.mem_cons, List.not_mem_nil, or_false] at ht
  rcases ht with rfl | rfl
  · exact absurd hlt (by decide)
  · exact absurd hlt (by decide)

end PveZfsTool
