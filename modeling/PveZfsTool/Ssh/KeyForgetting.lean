import PveZfsTool.Ssh.PinSafety
import PveZfsTool.Lib.Words

/-!
# Forgetting the keys of an address

`_forget_host_key` of `app/ssh_manager.py` drops the entries of an address
from the known-hosts file.  It takes the address back out of each name by
cutting the name at its first colon.

`forget_exact_iff` says for which files exactly the entries of the address
are dropped, and `ipv6_not_forgotten` is one where none is.
-/

namespace PveZfsTool.Ssh

open Text

/-! ## The names of an address -/

/-- An entry with this name is stored for the address, at some port. -/
def StoredFor (address name : Str) : Prop :=
  ∃ port : Nat, 1 ≤ port ∧ port ≤ 65535 ∧ name = knownHostsName address port

/-- A host name or an IP address: it has no brackets. -/
def BracketFree (address : Str) : Prop := '[' ∉ address ∧ ']' ∉ address

theorem beforeBracketColon_cons {c : Char} {s : Str} (h : c ≠ ']') :
    beforeBracketColon (c :: s) = c :: beforeBracketColon s := by
  simp [beforeBracketColon, h]

theorem beforeBracketColon_append {s t : Str} (h : ']' ∉ s) :
    beforeBracketColon (s ++ ']' :: ':' :: t) = s := by
  induction s with
  | nil => rfl
  | cons c s ih =>
    rw [List.mem_cons, not_or] at h
    rw [List.cons_append, beforeBracketColon_cons (Ne.symm h.1), ih h.2]

theorem beforeBracketColon_eq_self {s : Str} (h : ']' ∉ s) : beforeBracketColon s = s := by
  induction s with
  | nil => rfl
  | cons c s ih =>
    rw [List.mem_cons, not_or] at h
    rw [beforeBracketColon_cons (Ne.symm h.1), ih h.2]

/-- What `strip("[]")` takes off. -/
def isBracket (c : Char) : Bool := c == '[' || c == ']'

theorem BracketFree.isBracket_eq {address : Str} (h : BracketFree address) :
    ∀ c ∈ address, isBracket c = false := by
  intro c hc
  have hopen : c ≠ '[' := ne_of_mem_of_not_mem hc h.1
  have hclose : c ≠ ']' := ne_of_mem_of_not_mem hc h.2
  simp [isBracket, hopen, hclose]

theorem dropBrackets_of_free {s t : Str} (hs : ∀ c ∈ s, isBracket c = false) (hne : s ≠ []) :
    (s ++ t).dropWhile isBracket = s ++ t := by
  obtain ⟨c, s, rfl⟩ := List.exists_cons_of_ne_nil hne
  rw [List.cons_append, List.dropWhile_cons_of_neg (by simp [hs c List.mem_cons_self])]

/-- Brackets are only stripped at the end. -/
theorem dropBracketsEnd_of_free {s t : Str} (ht : ∀ c ∈ t, isBracket c = false) (hne : t ≠ []) :
    ((s ++ t).reverse.dropWhile isBracket).reverse = s ++ t := by
  rw [List.reverse_append, dropBrackets_of_free (by simpa using ht) (by simpa using hne)]
  simp

theorem isBracket_of_digit {c : Char} (h : isAsciiDigit c = true) : isBracket c = false := by
  have hopen : c ≠ '[' := by
    rintro rfl
    cases h
  have hclose : c ≠ ']' := by
    rintro rfl
    cases h
  simp [isBracket, hopen, hclose]

theorem bareName_plain {address : Str} (h : BracketFree address) :
    bareName address = beforeFirst ':' address := by
  by_cases hne : address = []
  · rw [hne]
    rfl
  · show beforeFirst ':' (beforeBracketColon
      ((address.dropWhile isBracket).reverse.dropWhile isBracket).reverse) = _
    have hfront := dropBrackets_of_free (t := []) h.isBracket_eq hne
    have hback := dropBracketsEnd_of_free (s := []) h.isBracket_eq hne
    rw [List.append_nil] at hfront
    rw [List.nil_append] at hback
    rw [hfront, hback, beforeBracketColon_eq_self h.2]

theorem bareName_bracketed {address digits : Str} (h : BracketFree address)
    (hdigits : ∀ c ∈ digits, isAsciiDigit c = true) (hne : digits ≠ []) :
    bareName ('[' :: (address ++ ']' :: ':' :: digits)) = beforeFirst ':' address := by
  have hback : ∀ s : Str, ((s ++ digits).reverse.dropWhile isBracket).reverse = s ++ digits :=
    fun s => dropBracketsEnd_of_free (fun c hc => isBracket_of_digit (hdigits c hc)) hne
  show beforeFirst ':' (beforeBracketColon
    ((('[' :: (address ++ ']' :: ':' :: digits)).dropWhile isBracket).reverse.dropWhile
      isBracket).reverse) = _
  rw [List.dropWhile_cons_of_pos (by decide)]
  by_cases haddress : address = []
  · rw [haddress, List.nil_append, List.dropWhile_cons_of_pos (by decide),
      List.dropWhile_cons_of_neg (by decide)]
    have hcolon := hback [':']
    rw [List.singleton_append] at hcolon
    rw [hcolon, beforeBracketColon_cons (by decide)]
    rfl
  · have hfull := hback (address ++ [']', ':'])
    rw [List.append_assoc] at hfull
    rw [dropBrackets_of_free h.isBracket_eq haddress]
    show beforeFirst ':' (beforeBracketColon
      ((address ++ ([']', ':'] ++ digits)).reverse.dropWhile isBracket).reverse) = _
    rw [hfull]
    exact congrArg (beforeFirst ':') (beforeBracketColon_append h.2)

/-- The bare name of an entry for an address is the address up to its first
colon. -/
theorem bareName_knownHostsName {address : Str} (h : BracketFree address) (port : Nat) :
    bareName (knownHostsName address port) = beforeFirst ':' address := by
  unfold knownHostsName
  generalize hport : (if (port : Int) = 0 then (22 : Int) else port) = q
  have hq : ∃ n : Nat, q = n := by
    split at hport
    · exact ⟨22, hport.symm⟩
    · exact ⟨port, hport.symm⟩
  obtain ⟨n, rfl⟩ := hq
  dsimp only
  split
  · exact bareName_plain h
  · have hname : '[' :: address ++ "]:".toList ++ ofInt n =
        '[' :: (address ++ ']' :: ':' :: ofNat n) := by
      simp [ofInt]
    rw [hname]
    exact bareName_bracketed h (fun c hc => isAsciiDigit_of_mem_ofNat hc)
      Nat.toDigits_ne_nil

theorem beforeFirst_eq_self_iff {sep : Char} {s : Str} : beforeFirst sep s = s ↔ sep ∉ s := by
  constructor
  · intro h hsep
    rw [← h] at hsep
    exact not_mem_beforeFirst sep s hsep
  · intro h
    exact List.takeWhile_eq_self_iff.mpr (ne_sep_of_not_mem h)

/-! ## The file -/

/-- The names of a table are those of its entries: a load into an empty table
has those of the file, and deleting a name takes its entry away. -/
structure KeyTables.NamesLawful {T : Type} (H : KeyTables T) : Prop where
  mem_names_load : ∀ f n, n ∈ H.names (H.load H.empty f) ↔ n ∈ H.names f
  mem_names_delete : ∀ t n m, m ∈ H.names (H.delete t n) ↔ m ∈ H.names t ∧ m ≠ n

section

variable {T : Type} (H : KeyTables T)

/-- `_forget_host_key`.  `readable` and `writable` say that the load and the
save raised nothing. -/
def forgetHostKey (address : Str) (file : Option T) (readable writable : Bool) : Option T :=
  match file with
  | none => none
  | some f =>
      let table := openTable H (some f) true
      if readable && writable && (H.names table).any (fun n => bareName n = address) then
        some (forgetNames H address table)
      else some f

/-- The entries for the address are gone, and each other one is as it was. -/
structure ForgetsExactly (address : Str) (f f' : T) : Prop where
  names : ∀ n, n ∈ H.names f' ↔ n ∈ H.names f ∧ ¬ StoredFor address n
  keys : ∀ n ∈ H.names f', ∀ k, k ∈ H.lookup f' n ↔ k ∈ H.lookup f n

/-- The names for which the cut at the colon finds the right entries. -/
structure CutsRight (address : Str) (names : List Str) : Prop where
  /-- An address that has an entry is no IPv6 address. -/
  colonFree : (∃ n ∈ names, StoredFor address n) → ':' ∉ address
  /-- No entry of another host is cut to the address. -/
  stored : ∀ n ∈ names, bareName n = address → StoredFor address n

end

section

variable {T : Type} {H : KeyTables T} {address : Str} {t f : T}

theorem mem_names_forgetNames (hN : H.NamesLawful) {n : Str} :
    n ∈ H.names (forgetNames H address t) ↔ n ∈ H.names t ∧ bareName n ≠ address := by
  have hfold : ∀ (l : List Str) (t : T), n ∈ H.names (l.foldl H.delete t) ↔
      n ∈ H.names t ∧ n ∉ l := by
    intro l
    induction l with
    | nil => simp
    | cons m l ih =>
      intro t
      rw [List.foldl_cons, ih, hN.mem_names_delete, List.mem_cons, not_or, and_assoc]
  rw [forgetNames, hfold]
  simp only [List.mem_filter, decide_eq_true_eq, ne_eq, not_and]
  exact ⟨fun h => ⟨h.1, h.2 h.1⟩, fun h => ⟨h.1, fun _ => h.2⟩⟩

theorem mem_lookup_forgetNames (hH : H.Lawful) {n : Str} {k : HostKey} (hn : bareName n ≠ address) :
    k ∈ H.lookup (forgetNames H address t) n ↔ k ∈ H.lookup t n :=
  ⟨mem_foldl_delete hH, mem_forgetNames hH hn⟩

/-- What is left of a file. -/
theorem exists_forgotten (hH : H.Lawful) (hN : H.NamesLawful) (address : Str) (f : T) :
    ∃ f', forgetHostKey H address (some f) true true = some f' ∧
      (∀ n, n ∈ H.names f' ↔ n ∈ H.names f ∧ bareName n ≠ address) ∧
      ∀ n ∈ H.names f', ∀ k, k ∈ H.lookup f' n ↔ k ∈ H.lookup f n := by
  unfold forgetHostKey
  have hopen : ∀ n, n ∈ H.names (openTable H (some f) true) ↔ n ∈ H.names f := hN.mem_names_load f
  dsimp only
  split_ifs with hany
  · refine ⟨_, rfl, fun n => ?_, fun n hn k => ?_⟩
    · rw [mem_names_forgetNames hN, hopen]
    · rw [mem_lookup_forgetNames hH (mem_names_forgetNames hN |>.mp hn).2, mem_openTable hH]
  · refine ⟨f, rfl, fun n => ⟨fun hn => ⟨hn, fun hbare => hany ?_⟩, And.left⟩, fun _ _ _ => Iff.rfl⟩
    simp only [Bool.and_true, Bool.true_and, List.any_eq_true, decide_eq_true_eq]
    exact ⟨n, (hopen n).mpr hn, hbare⟩

/-- In a file that can be read and written, exactly the entries of the address
are forgotten if and only if the cut at the colon finds them. -/
theorem forget_exact_iff (hH : H.Lawful) (hN : H.NamesLawful) (haddress : BracketFree address)
    (f : T) : (∀ f', forgetHostKey H address (some f) true true = some f' →
      ForgetsExactly H address f f') ↔ CutsRight address (H.names f) := by
  obtain ⟨f', hf', hnames, hkeys⟩ := exists_forgotten hH hN address f
  have hstored : ∀ {n}, StoredFor address n → bareName n = beforeFirst ':' address := by
    rintro n ⟨port, -, -, rfl⟩
    exact bareName_knownHostsName haddress port
  constructor
  · intro h
    have hexact := (h f' hf').names
    constructor
    · rintro ⟨n, hn, hfor⟩
      have hgone : n ∉ H.names f' := fun hleft => ((hexact n).mp hleft).2 hfor
      have hbare : bareName n = address := by
        by_contra hother
        exact hgone ((hnames n).mpr ⟨hn, hother⟩)
      exact beforeFirst_eq_self_iff.mp ((hstored hfor).symm.trans hbare)
    · intro n hn hbare
      by_contra hother
      exact ((hnames n).mp ((hexact n).mpr ⟨hn, hother⟩)).2 hbare
  · intro h f'' hf''
    obtain rfl := Option.some.inj (hf'.symm.trans hf'')
    refine ⟨fun n => ?_, hkeys⟩
    rw [hnames]
    refine and_congr_right (fun hn => not_congr ⟨h.stored n hn, fun hfor => ?_⟩)
    rw [hstored hfor]
    exact beforeFirst_eq_self_iff.mpr (h.colonFree ⟨n, hn, hfor⟩)

end

/-! ## Two files -/

theorem mem_dict_names {t : Dict (Str × Str) Str} {n : Str} :
    n ∈ dictTables.names t ↔ ∃ type, (n, type) ∈ t.keys := by
  show n ∈ (t.keys.map Prod.fst).dedup ↔ _
  simp

theorem dictTables_namesLawful : dictTables.NamesLawful where
  mem_names_load f n := by
    rw [mem_dict_names, mem_dict_names]
    refine exists_congr (fun type => ?_)
    show (n, type) ∈ (Dict.empty.update f).keys ↔ _
    rw [← Dict.get?_isSome, ← Dict.get?_isSome, Dict.get?_update, Dict.get?_empty, Option.or_none]
  mem_names_delete t n m := by
    rw [mem_dict_names, mem_dict_names]
    show (∃ type, (m, type) ∈ (t.entries.filter (fun e => e.1.1 ≠ n)).map Prod.fst) ↔
      (∃ type, (m, type) ∈ t.entries.map Prod.fst) ∧ m ≠ n
    simp only [List.mem_map, List.mem_filter, decide_eq_true_eq]
    constructor
    · rintro ⟨type, e, ⟨he, hne⟩, heq⟩
      exact ⟨⟨type, e, he, heq⟩, by rw [heq] at hne; exact hne⟩
    · rintro ⟨⟨type, e, he, heq⟩, hne⟩
      exact ⟨type, e, ⟨he, by rw [heq]; exact hne⟩, heq⟩

/-- A file with the key of one host. -/
def oneKey (name : Str) : Dict (Str × Str) Str := dictTables.add Dict.empty name (ed25519 "AAAA1")

theorem names_oneKey (name : Str) : dictTables.names (oneKey name) = [name] := rfl

theorem forget_exact_ipv4 : CutsRight "10.0.0.1" (dictTables.names (oneKey "[10.0.0.1]:2222")) ∧
    ∀ f', forgetHostKey dictTables "10.0.0.1" (some (oneKey "[10.0.0.1]:2222")) true true = some f' →
      ForgetsExactly dictTables "10.0.0.1" (oneKey "[10.0.0.1]:2222") f' := by
  have hcuts : CutsRight "10.0.0.1" (dictTables.names (oneKey "[10.0.0.1]:2222")) := by
    rw [names_oneKey]
    refine ⟨fun _ => by decide, fun n hn _ => ?_⟩
    obtain rfl := List.mem_singleton.mp hn
    exact ⟨2222, by decide, by decide, by decide⟩
  exact ⟨hcuts, (forget_exact_iff dictTables_lawful dictTables_namesLawful ⟨by decide, by decide⟩ _).mpr hcuts⟩

/-- The entry of an IPv6 address stays. -/
theorem ipv6_not_forgotten : ¬ ∀ (T : Type) (H : KeyTables T), H.Lawful → H.NamesLawful →
    ∀ address, BracketFree address → ∀ f f', forgetHostKey H address (some f) true true = some f' →
      ForgetsExactly H address f f' := by
  intro h
  have hexact := h _ dictTables dictTables_lawful dictTables_namesLawful "2001:db8::5"
    ⟨by decide, by decide⟩ (oneKey "2001:db8::5") (oneKey "2001:db8::5") rfl
  have hgone := ((hexact.names "2001:db8::5").mp (by rw [names_oneKey]; exact List.mem_singleton_self _)).2
  exact hgone ⟨22, by decide, by decide, by decide⟩

end PveZfsTool.Ssh
