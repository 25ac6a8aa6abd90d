import PveZfsTool.Lib.Trimmed
import PveZfsTool.Replication.Matrix

/-!
# Lineages against the configured direction

A replication config is on the target host and names its source, as an address
or as `user@address`.  `_config_mismatch` compares the text of the source with
the addresses of the hosts, so a source with a user is none of them.

`flagsRight_iff` says when the mismatches are flagged nevertheless: where such a
config has a mismatch, another config of the same host without a user has one.
-/

namespace PveZfsTool.Replication

open Text

/-! ## Configs as `list_configs` reports them -/

/-- An address has neither whitespace nor an at sign. -/
def IsAddress (address : Str) : Prop := address ≠ [] ∧ ∀ c ∈ address, isSpace c = false ∧ c ≠ '@'

/-- How a config names its source.  In local mode there is none. -/
inductive SourceName where
  | localMode
  | bare (address : Str)
  | withUser (user address : Str)
  deriving DecidableEq

namespace SourceName

/-- The `source` of the config. -/
def text : SourceName → Str
  | .localMode => []
  | .bare address => address
  | .withUser user address => user ++ '@' :: address

/-- The host that it names. -/
def address? : SourceName → Option Str
  | .localMode => none
  | .bare address | .withUser _ address => some address

end SourceName

/-- A config on the host with the address `host`. -/
structure ReportedConfig where
  host : Str
  source : SourceName
  hostAddress : IsAddress host
  sourceAddress : ∀ address ∈ source.address?, IsAddress address

/-- What `_collect_one_host` keeps of the config. -/
def ReportedConfig.pair (c : ReportedConfig) : IntendedPair := ⟨c.host, c.source.text⟩

/-- The hosts with their snapshots, guests and configs. -/
structure Estate where
  fleet : Fleet
  guests : GuestLists
  autosnap : Dict Str LocalAutosnap
  configs : List ReportedConfig
  hosts : ∀ p ∈ places fleet, IsAddress p.host

namespace Estate

/-- `build_matrix` of the estate. -/
def matrix (E : Estate) : Option (List MatrixEntry) :=
  buildMatrix E.fleet E.guests (E.configs.map ReportedConfig.pair) E.autosnap

/-- The host has a copy of the lineage of `k`. -/
def HoldsCopy (F : Fleet) (k : LineageKey) (host : Str) : Prop :=
  ∃ k', IsKey F k' ∧ Chained F k k' ∧ k'.1 = host

/-- The config pulls to the host of `k` from a host that has a copy. -/
def Contradicts (E : Estate) (k : LineageKey) (c : ReportedConfig) : Prop :=
  c.host = k.1 ∧ ∃ address ∈ c.source.address?, HoldsCopy E.fleet k address

/-- Exactly the guest disks that a config contradicts are flagged. -/
def FlagsRight (E : Estate) : Prop :=
  ∀ m, E.matrix = some m → ∀ e ∈ m, e.noSnapshots = false →
    (e.configMismatch ≠ [] ↔ ∃ c ∈ E.configs, E.Contradicts (e.sourceHost, e.sourceDataset) c)

/-- Where a config with a user contradicts the source of a guest disk, one
without a user does. -/
def BareSuffices (E : Estate) : Prop :=
  ∀ k, RanksFirst E.fleet k → (guestRefFromDataset k.2).isSome = true →
    ∀ c ∈ E.configs, E.Contradicts k c →
      ∃ c' ∈ E.configs, (∃ address, c'.source = .bare address) ∧ E.Contradicts k c'

/-! ## What is flagged -/

section Flagged

variable {E : Estate} {k : LineageKey} {e : MatrixEntry}

theorem configMismatch_ne_nil {source : Copy} {rows : List MatrixRow}
    {configured : List IntendedPair} : configMismatch source rows configured ≠ [] ↔
      ∃ cfg ∈ configured, (strip cfg.targetHost ≠ [] ∧ strip cfg.source ≠ []) ∧
        source.host = strip cfg.targetHost ∧ ∃ r ∈ rows, r.host = strip cfg.source := by
  induction configured with
  | nil => simp [configMismatch]
  | cons cfg configured ih =>
    rw [configMismatch]
    simp only [List.exists_mem_cons_iff]
    rw [← ih]
    by_cases hempty : strip cfg.targetHost = [] ∨ strip cfg.source = []
    · rw [if_pos (by simpa using hempty)]
      refine ⟨.inr, fun h => h.resolve_left (fun ⟨hne, _⟩ => ?_)⟩
      exact hempty.elim hne.1 hne.2
    · rw [if_neg (by simpa using hempty)]
      by_cases hmatch : source.host = strip cfg.targetHost ∧ ∃ r ∈ rows, r.host = strip cfg.source
      · rw [if_pos (by simpa using hmatch)]
        exact iff_of_true (by simp) (.inl ⟨not_or.mp hempty, hmatch⟩)
      · rw [if_neg (by simpa using hmatch)]
        exact ⟨.inr, fun h => h.resolve_left (fun h => hmatch h.2)⟩

theorem strip_address {address : Str} (h : IsAddress address) : strip address = address :=
  strip_eq_self (fun c hc => (h.2 c hc).1)

/-- A source with a user is not the address of a host. -/
theorem strip_withUser {user address host : Str} (hhost : IsAddress host) :
    strip (user ++ '@' :: address) ≠ host := by
  rintro rfl
  have hmem : '@' ∈ (user ++ '@' :: address).filter (fun c => !isSpace c) :=
    List.mem_filter.mpr ⟨by simp, by decide⟩
  rw [← filter_strip] at hmem
  exact (hhost.2 _ (List.mem_of_mem_filter hmem)).2 rfl

theorem isAddress_of_copy {host : Str} (h : HoldsCopy E.fleet k host) : IsAddress host := by
  obtain ⟨k', ⟨p, hp, rfl⟩, -, rfl⟩ := h
  exact E.hosts p hp

/-- The rows of an entry are on the hosts with a copy. -/
theorem exists_row_iff {L : List LineageKey} (hL : L ∈ lineageKeys E.fleet) (hk : k ∈ L) (host : Str) :
    (∃ r ∈ matrixRows E.autosnap (copyOf E.fleet k) (L.map (copyOf E.fleet)), r.host = host) ↔
      HoldsCopy E.fleet k host := by
  have hkeys : ((matrixRows E.autosnap (copyOf E.fleet k) (L.map (copyOf E.fleet))).map
      MatrixRow.key).Perm L := by
    have hperm := @matrixRows_perm E.autosnap (copyOf E.fleet k) (L.map (copyOf E.fleet))
    have hid : (L.map (copyOf E.fleet)).map Copy.key = L := by
      rw [List.map_map]
      exact List.map_id _
    rwa [hid] at hperm
  constructor
  · intro ⟨r, hr, hhost⟩
    have hmem : r.key ∈ L := hkeys.mem_iff.mp (List.mem_map_of_mem hr)
    obtain ⟨hkey, hchained⟩ := (mem_lineage_iff hL hk _).mp hmem
    exact ⟨r.key, hkey, hchained, hhost⟩
  · intro ⟨k', hkey, hchained, hhost⟩
    have hmem := hkeys.mem_iff.mpr ((mem_lineage_iff hL hk k').mpr ⟨hkey, hchained⟩)
    obtain ⟨r, hr, rfl⟩ := List.mem_map.mp hmem
    exact ⟨r, hr, hhost⟩

/-- An entry is flagged for a config without a user that contradicts it. -/
theorem flagged_iff_bare {L : List LineageKey} (hL : L ∈ lineageKeys E.fleet) (hk : k ∈ L) :
    configMismatch (copyOf E.fleet k)
        (matrixRows E.autosnap (copyOf E.fleet k) (L.map (copyOf E.fleet)))
        (E.configs.map ReportedConfig.pair) ≠ [] ↔
      ∃ c ∈ E.configs, (∃ address, c.source = .bare address) ∧ E.Contradicts k c := by
  rw [configMismatch_ne_nil]
  have hhost : (copyOf E.fleet k).host = k.1 := rfl
  simp only [exists_row_iff hL hk, hhost]
  constructor
  · intro ⟨cfg, hcfg, ⟨_, hsource⟩, htarget, hcopy⟩
    obtain ⟨c, hc, rfl⟩ := List.mem_map.mp hcfg
    rw [show c.pair.targetHost = c.host from rfl, strip_address c.hostAddress] at htarget
    refine ⟨c, hc, ?_⟩
    cases hname : c.source with
    | localMode =>
      rw [show c.pair.source = c.source.text from rfl, hname] at hsource
      exact absurd rfl hsource
    | bare address =>
      have haddress : address ∈ c.source.address? := by rw [hname]; rfl
      rw [show c.pair.source = c.source.text from rfl, hname,
        show (SourceName.bare address).text = address from rfl,
        strip_address (c.sourceAddress address haddress)] at hcopy
      exact ⟨⟨address, rfl⟩, htarget.symm, address, haddress, hcopy⟩
    | withUser user address =>
      rw [show c.pair.source = c.source.text from rfl, hname] at hcopy
      exact absurd rfl (strip_withUser (isAddress_of_copy hcopy))
  · intro ⟨c, hc, ⟨address, hname⟩, htarget, address', haddress, hcopy⟩
    have haddresses := c.sourceAddress address' haddress
    rw [hname] at haddress
    obtain rfl : address = address' := Option.some.inj haddress
    have hsource : strip c.pair.source = address := by
      show strip c.source.text = address
      rw [hname]
      exact strip_address haddresses
    have hpair : strip c.pair.targetHost = c.host := strip_address c.hostAddress
    refine ⟨c.pair, List.mem_map_of_mem hc, ?_⟩
    rw [hsource, hpair]
    exact ⟨⟨c.hostAddress.1, haddresses.1⟩, htarget.symm, hcopy⟩

end Flagged

/-- The mismatches are flagged right if the configs without a user suffice, and
for an estate with a matrix only then. -/
theorem flagsRight_iff (E : Estate) : (E.BareSuffices → E.FlagsRight) ∧
    (ReadableVmids E.fleet E.guests → E.FlagsRight → E.BareSuffices) := by
  constructor
  · intro hbare m hm e he hflag
    rcases (mem_buildMatrix hm).mp he with hlineage | ⟨g, -, rfl⟩
    · obtain ⟨L, hL, k, hk, hfirst, ref, href, rfl⟩ := mem_lineageEntries.mp hlineage
      show configMismatch _ _ _ ≠ [] ↔ ∃ c ∈ E.configs, E.Contradicts k c
      rw [flagged_iff_bare hL hk]
      constructor
      · intro ⟨c, hc, _, hcontra⟩
        exact ⟨c, hc, hcontra⟩
      · intro ⟨c, hc, hcontra⟩
        exact hbare k hfirst (by rw [href]; rfl) c hc hcontra
    · cases hflag
  · intro hreadable hright k hfirst hguest c hc hcontra
    obtain ⟨m, hm⟩ := buildMatrix_isSome (E.configs.map ReportedConfig.pair) E.autosnap hreadable
    obtain ⟨L, hL, hk⟩ := exists_lineage hfirst.1
    obtain ⟨ref, href⟩ := Option.isSome_iff_exists.mp hguest
    have hentry := (mem_buildMatrix hm).mpr
      (.inl (mem_lineageEntries.mpr ⟨L, hL, k, hk, hfirst, ref, href, rfl⟩))
    exact (flagged_iff_bare hL hk).mp ((hright m hm _ hentry rfl).mpr ⟨c, hc, hcontra⟩)

/-- The replica has a newer snapshot than its source, and its config names the
source as `root@pve1`. -/
def aheadEstate : Estate where
  fleet := {
    entries := [("pve1".toList, [⟨"rpool/data/vm-100-disk-0", "daily-1", "77", 1767225600⟩]),
      ("pve2".toList, [⟨"tank/pve1/vm-100-disk-0", "daily-1", "77", 1767225600⟩,
        ⟨"tank/pve1/vm-100-disk-0", "daily-2", "78", 1767312000⟩])]
    distinct := by decide }
  guests := Dict.empty
  autosnap := Dict.empty
  configs := [{
    host := "pve2"
    source := .withUser "root" "pve1"
    hostAddress := by unfold IsAddress; decide
    sourceAddress := by
      intro address haddress
      obtain rfl : "pve1".toList = address := Option.some.inj haddress
      unfold IsAddress
      decide }]
  hosts := by unfold IsAddress; decide

theorem contradicts_ahead : ∃ c ∈ aheadEstate.configs,
    aheadEstate.Contradicts ("pve2".toList, "tank/pve1/vm-100-disk-0".toList) c := by
  refine ⟨_, List.mem_cons_self, rfl, "pve1", rfl, ("pve1".toList, "rpool/data/vm-100-disk-0".toList),
    ?_, Relation.ReflTransGen.single ⟨"77", ?_, ?_, ?_⟩, rfl⟩
  · show ∃ p ∈ places aheadEstate.fleet, _
    decide
  · show ∃ p ∈ places aheadEstate.fleet, _
    decide
  · show ∃ p ∈ places aheadEstate.fleet, _
    decide
  · decide

/-- It is not flagged. -/
theorem ahead_not_flagged : ¬ ∀ E : Estate, E.FlagsRight := by
  intro hall
  have hentry : ∃ e ∈ aheadEstate.matrix.getD [], e.noSnapshots = false ∧ e.configMismatch = [] ∧
      e.sourceHost = "pve2".toList ∧ e.sourceDataset = "tank/pve1/vm-100-disk-0".toList := by decide
  obtain ⟨e, he, hflag, hmismatch, hhost, hdataset⟩ := hentry
  have hm : aheadEstate.matrix = some (aheadEstate.matrix.getD []) := by decide
  refine (hall aheadEstate _ hm e he hflag).mpr ?_ hmismatch
  rw [hhost, hdataset]
  exact contradicts_ahead

end Estate

end PveZfsTool.Replication
