import PveZfsTool.Backups.Listing
import PveZfsTool.Lib.Substitute
import PveZfsTool.Lib.Words

/-!
# The template of the webhook channel

This models `validate_template` and `render_template` of `notifications.py`
with `_PLACEHOLDER_RE`, and the values of `build_event`.  `json.loads` is a
parameter: nothing is asked of it.

There are three groups.

* `corresponds_render`: what comes out has the keys, the lengths and the other
  leaves of the template, and each string is rendered alone.
* `not_infix_substitute_of_spaced`: a string in which text without braces stands
  between any two placeholders is left without double braces.
* The assembly `render_template_corresponds`, and three templates that are
  accepted and keep `{{...}}` text.
-/

namespace PveZfsTool.Notifications

open Text Backups

/-! ## Placeholders -/

/-- `[a-z0-9_]` -/
def isNameChar (c : Char) : Bool := isAsciiLower c || isAsciiDigit c || c == '_'

/-- `_PLACEHOLDER_RE` at the beginning: the length of the match, and the name. -/
def placeholder? : Str → Option (Nat × Str)
  | '\x7b' :: '\x7b' :: rest =>
      let start := rest.dropWhile isSpace
      let name := start.takeWhile isNameChar
      let tail := (start.dropWhile isNameChar).dropWhile isSpace
      if name ≠ [] ∧ startsWith tail "\x7d\x7d" then some (rest.length - tail.length + 4, name)
      else none
  | _ => none

/-- `_PLACEHOLDER_RE.findall`: the names.  The number counts the characters of
the last match that are still to be passed over. -/
def findPlaceholders : Nat → Str → List Str
  | _, [] => []
  | skip + 1, _ :: s => findPlaceholders skip s
  | 0, c :: s =>
      match placeholder? (c :: s) with
      | some (n, name) => name :: findPlaceholders (n - 1) s
      | none => findPlaceholders 0 s

/-- `WEBHOOK_PLACEHOLDERS` -/
def webhookPlaceholders : List Str :=
  ["title", "message", "event", "state", "severity", "state_code", "priority", "host", "key",
    "timestamp", "version", "pdf_filename", "pdf_base64"]

/-- `"{{%s}}" % name` -/
def braced (name : Str) : Str := "\x7b\x7b" ++ (name ++ "\x7d\x7d")

/-! ## Values -/

/-- A value of an event. -/
inductive FieldValue where
  | absent
  | int (n : Int)
  | text (s : Str)
  deriving DecidableEq

/-- The native type. -/
def FieldValue.toJson : FieldValue → Json
  | .absent => .null
  | .int n => .int n
  | .text s => .str s

/-- `"" if value is None else str(value)` -/
def FieldValue.toText : FieldValue → Str
  | .absent => []
  | .int n => ofInt n
  | .text s => s

/-- What `build_event` returns, in its order. -/
structure WebhookEvent where
  title : Str
  message : Str
  event : Str
  state : Str
  severity : Str
  stateCode : Int
  priority : Int
  host : Option Str
  key : Str
  timestamp : Str
  version : Str
  pdfFilename : Option Str
  pdfBase64 : Option Str

def optionalText : Option Str → FieldValue
  | some s => .text s
  | none => .absent

def WebhookEvent.values (e : WebhookEvent) : List (Str × FieldValue) :=
  [("title", .text e.title), ("message", .text e.message), ("event", .text e.event),
    ("state", .text e.state), ("severity", .text e.severity), ("state_code", .int e.stateCode),
    ("priority", .int e.priority), ("host", optionalText e.host), ("key", .text e.key),
    ("timestamp", .text e.timestamp), ("version", .text e.version),
    ("pdf_filename", optionalText e.pdfFilename), ("pdf_base64", optionalText e.pdfBase64)]

/-! ## Validation -/

/-- `json.loads`, with the message and the position where it raises. -/
abbrev Loads := Str → Except Str Json

/-- The fields of `_GENERIC_BODY` after the first one. -/
def genericFields : List Str :=
  ["version", "event", "state", "severity", "state_code", "priority", "title", "message", "host",
    "key", "timestamp"]

/-- `WEBHOOK_PRESETS["generic"]` -/
def genericPreset : Str :=
  "\x7b\n" ++ (join ",\n" (("  \"source\": \"pve-zfs-tool\"" : Str) ::
    genericFields.map (fun f => "  \"" ++ (f ++ ("\": \"" ++ (braced f ++ "\""))))) ++ "\n\x7d")

/-- `validate_template` -/
def validateTemplate (loads : Loads) (text : Str) : Except Str Json :=
  let text := if strip text = [] then genericPreset else strip text
  match loads text with
  | .error e => .error ("not valid JSON: " ++ e)
  | .ok obj =>
      let unknown := sortedSet ((findPlaceholders 0 text).filter (· ∉ webhookPlaceholders))
      if unknown ≠ [] then
        .error ("unknown placeholder(s): " ++ (join ", " (unknown.map braced) ++
          ("; available: " ++ join ", " (webhookPlaceholders.map braced))))
      else .ok obj

/-! ## Rendering -/

/-- `_PLACEHOLDER_RE.fullmatch(s.strip())`: the name. -/
def wholePlaceholder? (s : Str) : Option Str :=
  match placeholder? (strip s) with
  | some (n, name) => if n = (strip s).length then some name else none
  | none => none

/-- The pattern with what replaces a match. -/
def placeholderMatcher (values : List (Str × FieldValue)) : Matcher := fun _ s =>
  (placeholder? s).map (fun p => (p.1, ((values.lookup p.2).map FieldValue.toText).getD []))

/-- `_PLACEHOLDER_RE.sub` -/
def renderText (values : List (Str × FieldValue)) (s : Str) : Str :=
  substitute (placeholderMatcher values) none 0 s

/-- A string of the template. -/
def renderString (values : List (Str × FieldValue)) (s : Str) : Json :=
  match (wholePlaceholder? s).bind (fun name => values.lookup name) with
  | some value => value.toJson
  | none => .str (renderText values s)

mutual

/-- `render_template` -/
def renderTemplate (values : List (Str × FieldValue)) : Json → Json
  | .dict entries => .dict (renderEntries values entries)
  | .list xs => .list (renderList values xs)
  | .str s => renderString values s
  | v => v

def renderList (values : List (Str × FieldValue)) : List Json → List Json
  | [] => []
  | x :: xs => renderTemplate values x :: renderList values xs

def renderEntries (values : List (Str × FieldValue)) : List (Str × Json) → List (Str × Json)
  | [] => []
  | (k, v) :: entries => (k, renderTemplate values v) :: renderEntries values entries

end

/-! ## What a rendered document keeps -/

mutual

/-- The documents have the same keys, the same lengths and the same leaves, but
for the strings of the first one, which stand in a relation to what is in their
place. -/
def Corresponds (R : Str → Json → Prop) : Json → Json → Prop
  | .str s, d => R s d
  | .list xs, .list ys => CorrespondsList R xs ys
  | .dict es, .dict fs => CorrespondsEntries R es fs
  | .null, .null => True
  | .bool b, .bool c => b = c
  | .int m, .int n => m = n
  | .float x, .float y => x = y
  | _, _ => False

def CorrespondsList (R : Str → Json → Prop) : List Json → List Json → Prop
  | [], [] => True
  | x :: xs, y :: ys => Corresponds R x y ∧ CorrespondsList R xs ys
  | _, _ => False

def CorrespondsEntries (R : Str → Json → Prop) :
    List (Str × Json) → List (Str × Json) → Prop
  | [], [] => True
  | (k, v) :: es, (l, w) :: fs => (k = l ∧ Corresponds R v w) ∧ CorrespondsEntries R es fs
  | _, _ => False

end

section

variable {values : List (Str × FieldValue)} {R : Str → Json → Prop}

mutual

/-- A rendered document corresponds to its template, when each rendered string
does. -/
theorem corresponds_render (hR : ∀ s, R s (renderString values s)) :
    ∀ t, Corresponds R t (renderTemplate values t)
  | .dict entries => corresponds_renderEntries hR entries
  | .list xs => corresponds_renderList hR xs
  | .str s => hR s
  | .null => trivial
  | .bool _ => rfl
  | .int _ => rfl
  | .float _ => rfl

theorem corresponds_renderList (hR : ∀ s, R s (renderString values s)) :
    ∀ xs, CorrespondsList R xs (renderList values xs)
  | [] => trivial
  | x :: xs => ⟨corresponds_render hR x, corresponds_renderList hR xs⟩

theorem corresponds_renderEntries (hR : ∀ s, R s (renderString values s)) :
    ∀ entries, CorrespondsEntries R entries (renderEntries values entries)
  | [] => trivial
  | (_, v) :: entries => ⟨⟨rfl, corresponds_render hR v⟩, corresponds_renderEntries hR entries⟩

end

end

/-! ## Double braces -/

/-- `{{` is in the text. -/
def opens (s : Str) : Bool := contains s "\x7b\x7b"

/-- Neither `{{` nor `}}` is in the text. -/
def NoDoubleBrace (s : Str) : Prop := opens s = false ∧ contains s "\x7d\x7d" = false

/-- `{{...}}` is in the text. -/
def holdsBraces : Str → Bool
  | '\x7b' :: '\x7b' :: s => contains s "\x7d\x7d"
  | _ :: s => holdsBraces s
  | [] => false

/-- Text without braces stands between any two placeholders, and there are no
braces in the text before and after them.  `after` says that the last match has
just ended. -/
def spaced : Bool → Nat → Str → Bool
  | _, _, [] => true
  | _, skip + 1, _ :: s => spaced true skip s
  | after, 0, c :: s =>
      match placeholder? (c :: s) with
      | some (n, _) => !after && spaced true (n - 1) s
      | none => c ≠ '\x7b' && c ≠ '\x7d' && spaced false 0 s

theorem holdsBraces_eq_false {s : Str} (h : opens s = false) : holdsBraces s = false := by
  unfold opens contains at h
  rw [decide_eq_false_iff_not] at h
  induction s with
  | nil => rfl
  | cons c s ih =>
    rw [List.infix_cons_iff, not_or] at h
    unfold holdsBraces
    split
    · next rest heq =>
      obtain ⟨rfl, rfl⟩ := List.cons.inj heq
      exact absurd (List.prefix_append ['\x7b', '\x7b'] rest) h.1
    · next d rest _ heq =>
      obtain ⟨rfl, rfl⟩ := List.cons.inj heq
      exact ih h.2
    · rfl

theorem placeholder?_bounds {s : Str} {n : Nat} {name : Str} (h : placeholder? s = some (n, name)) :
    4 ≤ n ∧ n ≤ s.length := by
  unfold placeholder? at h
  split at h
  · next rest =>
    dsimp only at h
    split at h
    · next hmatch =>
      have htail : 2 ≤ (((rest.dropWhile isSpace).dropWhile isNameChar).dropWhile isSpace).length := by
        obtain ⟨t, ht⟩ := List.isPrefixOf_iff_prefix.mp hmatch.2
        rw [← ht]
        simp
      have hle : (((rest.dropWhile isSpace).dropWhile isNameChar).dropWhile isSpace).length ≤
          rest.length :=
        (((List.dropWhile_suffix _).trans (List.dropWhile_suffix _)).trans
          (List.dropWhile_suffix _)).length_le
      have hn := (Prod.mk.inj (Option.some.inj h)).1
      rw [List.length_cons, List.length_cons]
      omega
    · cases h
  · cases h

section

variable {values : List (Str × FieldValue)} {s : Str}

theorem proper_placeholderMatcher : (placeholderMatcher values).Proper := by
  intro prev s n r h
  unfold placeholderMatcher at h
  obtain ⟨p, hp, heq⟩ := Option.map_eq_some_iff.mp h
  obtain ⟨rfl, -⟩ := Prod.mk.inj heq
  have hpair : placeholder? s = some (p.1, p.2) := hp
  have hbounds := placeholder?_bounds hpair
  omega

/-- The text values of an event have no double braces. -/
def CleanValues (values : List (Str × FieldValue)) : Prop :=
  ∀ name s, values.lookup name = some (.text s) → NoDoubleBrace s

theorem opens_append {v t : Str} (hv : opens v = false) (ht : opens t = false)
    (hhead : t.head? ≠ some '\x7b') : opens (v ++ t) = false := by
  unfold opens contains at hv ht ⊢
  rw [decide_eq_false_iff_not] at hv ht ⊢
  induction v with
  | nil => exact ht
  | cons c v ih =>
    rw [List.infix_cons_iff, not_or] at hv
    rw [List.cons_append, List.infix_cons_iff, not_or]
    refine ⟨fun hprefix => ?_, ih hv.2⟩
    obtain ⟨hc, hrest⟩ := List.cons_prefix_cons.mp hprefix
    cases v with
    | nil =>
      obtain ⟨u, hu⟩ := hrest
      exact hhead (by rw [List.nil_append] at hu; rw [← hu]; rfl)
    | cons d v =>
      obtain ⟨hd, -⟩ := List.cons_prefix_cons.mp hrest
      rw [← hc, ← hd] at hv
      exact hv.1 (List.prefix_append ['\x7b', '\x7b'] v)

theorem opens_ofInt (n : Int) : opens (ofInt n) = false := by
  have hdigits : ∀ k : Nat, '\x7b' ∉ ofNat k := by
    intro k hmem
    exact absurd (isAsciiDigit_of_mem_ofNat hmem) (by decide)
  have hbrace : '\x7b' ∉ ofInt n := by
    cases n with
    | ofNat k => exact hdigits k
    | negSucc k =>
      rw [ofInt, List.mem_cons, not_or]
      exact ⟨by decide, hdigits (k + 1)⟩
  unfold opens contains
  rw [decide_eq_false_iff_not]
  intro hopens
  exact hbrace (hopens.subset List.mem_cons_self)

/-- What replaces a match has no `{{`. -/
theorem opens_replacement (hvalues : CleanValues values) {prev : Option Char} {n : Nat} {r : Str}
    (h : placeholderMatcher values prev s = some (n, r)) : opens r = false := by
  unfold placeholderMatcher at h
  obtain ⟨p, -, heq⟩ := Option.map_eq_some_iff.mp h
  obtain ⟨-, rfl⟩ := Prod.mk.inj heq
  cases hlookup : values.lookup p.2 with
  | none => rfl
  | some value =>
    cases value with
    | absent => rfl
    | int k => exact opens_ofInt k
    | text t => exact (hvalues p.2 t hlookup).1

theorem spaced_skip {seg t : Str} : spaced true seg.length (seg ++ t) = spaced true 0 t := by
  induction seg with
  | nil => rfl
  | cons c seg ih =>
    rw [List.length_cons, List.cons_append, spaced]
    exact ih

/-- A string with text between its placeholders is left without `{{`: a
replacement has none, and neither it nor the text next to it can make one. -/
theorem opens_substitute (hvalues : CleanValues values) {prev : Option Char} {after : Bool}
    (hspaced : spaced after 0 s = true) :
    opens (substitute (placeholderMatcher values) prev 0 s) = false ∧
      (after = true → (substitute (placeholderMatcher values) prev 0 s).head? ≠ some '\x7b') := by
  induction hlen : s.length using Nat.strong_induction_on generalizing prev after s with
  | _ n ih =>
    by_cases hne : s = []
    · subst hne
      exact ⟨rfl, fun _ => by simp [substitute]⟩
    · rcases @substitute_cases _ proper_placeholderMatcher prev s hne with
        ⟨c, t, rfl, hnone, hsub⟩ | ⟨seg, t, r, rfl, hseg, hmatch, hsub⟩
      · have hplaceholder : placeholder? (c :: t) = none := by
          simpa [placeholderMatcher] using hnone
        rw [spaced, hplaceholder] at hspaced
        simp only [Bool.and_eq_true, decide_eq_true_iff] at hspaced
        obtain ⟨⟨hopen, -⟩, hrest⟩ := hspaced
        have hclean : opens (substitute (placeholderMatcher values) (some c) 0 t) = false :=
          (ih t.length (by simp [← hlen]) hrest rfl).1
        rw [hsub]
        constructor
        · unfold opens contains at hclean ⊢
          rw [decide_eq_false_iff_not] at hclean ⊢
          rw [List.infix_cons_iff, not_or]
          exact ⟨fun hprefix => hopen (List.cons_prefix_cons.mp hprefix).1.symm, hclean⟩
        · intro _ hhead
          exact hopen (Option.some.inj hhead)
      · have hclean := opens_replacement hvalues hmatch
        obtain ⟨c, seg', rfl⟩ := List.exists_cons_of_ne_nil hseg
        obtain ⟨p, hp, heq⟩ := Option.map_eq_some_iff.mp hmatch
        obtain ⟨hlength, -⟩ := Prod.mk.inj heq
        rw [List.cons_append] at hp hspaced
        rw [spaced, hp] at hspaced
        dsimp only at hspaced
        rw [hlength, List.length_cons, Nat.add_sub_cancel, spaced_skip, Bool.and_eq_true,
          Bool.not_eq_true'] at hspaced
        obtain ⟨hafter, hrest⟩ := hspaced
        have hlt : t.length < n := by
          rw [← hlen, List.length_append, List.length_cons]
          omega
        have hih := @ih t.length hlt _ (lastOr prev (c :: seg')) _ hrest rfl
        rw [hsub]
        refine ⟨opens_append hclean hih.1 (hih.2 rfl), fun htrue => ?_⟩
        rw [hafter] at htrue
        cases htrue

/-- A text that `strip` and the pattern take for one placeholder. -/
theorem renderString_cases (values : List (Str × FieldValue)) (s : Str) :
    (∃ name value, wholePlaceholder? s = some name ∧ values.lookup name = some value ∧
        renderString values s = value.toJson) ∨
      renderString values s = .str (renderText values s) := by
  unfold renderString
  cases hwhole : wholePlaceholder? s with
  | none => exact .inr rfl
  | some name =>
    cases hlookup : values.lookup name with
    | none =>
      right
      rw [Option.bind_some, hlookup]
    | some value =>
      left
      refine ⟨name, value, rfl, hlookup, ?_⟩
      rw [Option.bind_some, hlookup]

/-- The leaf has no `{{...}}` text. -/
def LeafClean : Json → Prop
  | .str s => holdsBraces s = false
  | _ => True

/-- What a string of the template becomes: one placeholder gives a value of its
own type, and any other string is the text with its placeholders replaced.
When text without braces stands between the placeholders, no `{{...}}` is
left. -/
structure RendersTo (values : List (Str × FieldValue)) (s : Str) (d : Json) : Prop where
  rendered : (∃ name value, wholePlaceholder? s = some name ∧ values.lookup name = some value ∧
    d = value.toJson) ∨ d = .str (renderText values s)
  clean : spaced false 0 s = true → LeafClean d

theorem rendersTo_renderString (hvalues : CleanValues values) (s : Str) :
    RendersTo values s (renderString values s) := by
  rcases renderString_cases values s with ⟨name, value, hwhole, hlookup, hrender⟩ | hrender
  · refine ⟨.inl ⟨name, value, hwhole, hlookup, hrender⟩, fun _ => ?_⟩
    rw [hrender]
    cases value with
    | absent => trivial
    | int n => trivial
    | text t => exact holdsBraces_eq_false (hvalues name t hlookup).1
  · refine ⟨.inr hrender, fun hspaced => ?_⟩
    rw [hrender]
    exact holdsBraces_eq_false (opens_substitute hvalues hspaced).1

end

/-- The texts of the values, one after the other. -/
theorem cleanValues_of_all {values : List (Str × FieldValue)}
    (h : values.all (fun p => match p.2 with
      | .text s => !opens s && !contains s "\x7d\x7d"
      | _ => true) = true) : CleanValues values := by
  intro name s hlookup
  rw [List.all_eq_true] at h
  have hmem : (name, FieldValue.text s) ∈ values := by
    obtain ⟨l₁, l₂, hvalues, -⟩ := List.lookup_eq_some_iff.mp hlookup
    rw [hvalues]
    simp
  have hclean := h _ hmem
  simp only [Bool.and_eq_true, Bool.not_eq_true'] at hclean
  exact hclean

/-! ## Templates that keep braces -/

mutual

/-- `{{...}}` is in a key or in a string of the document. -/
def keepsBraces : Json → Bool
  | .str s => holdsBraces s
  | .list xs => keepsBracesList xs
  | .dict entries => keepsBracesEntries entries
  | _ => false

def keepsBracesList : List Json → Bool
  | [] => false
  | x :: xs => keepsBraces x || keepsBracesList xs

def keepsBracesEntries : List (Str × Json) → Bool
  | [] => false
  | (k, v) :: entries => holdsBraces k || keepsBraces v || keepsBracesEntries entries

end

/-- An event about a host. -/
def hostEvent (title message host : Str) : WebhookEvent where
  title := title
  message := message
  event := "host_offline"
  state := "new"
  severity := "critical"
  stateCode := 2
  priority := 8
  host := some host
  key := "host_offline:10.0.0.5"
  timestamp := "2026-01-02T03:00:00+00:00"
  version := "dev"
  pdfFilename := none
  pdfBase64 := none

/-- A document with one entry. -/
def entryText (key value : Str) : Str :=
  "\x7b\"" ++ (key ++ ("\": \"" ++ (value ++ "\"\x7d")))

/-- `json.loads` of such a text. -/
def loadsEntry (key value : Str) : Loads := fun _ => .ok (.dict [(key, .str value)])

/-- A key with a placeholder, a name that is not in lower case, and values that
make a placeholder together. -/
def keptTemplates : List (Str × Str × WebhookEvent) :=
  [("\x7b\x7btitle\x7d\x7d", "x", hostEvent "Host Offline" "down" "pve1"),
    ("text", "\x7b\x7bTitle\x7d\x7d", hostEvent "Host Offline" "down" "pve1"),
    ("text", "\x7b\x7btitle\x7d\x7d\x7b\x7bmessage\x7d\x7d\x7b\x7bhost\x7d\x7d",
      hostEvent "\x7b" "\x7bkey\x7d" "\x7d")]

theorem keptTemplates_keep : ∀ k ∈ keptTemplates,
    validateTemplate (loadsEntry k.1 k.2.1) (entryText k.1 k.2.1) =
        .ok (.dict [(k.1, .str k.2.1)]) ∧
      CleanValues k.2.2.values ∧
      keepsBraces (renderTemplate k.2.2.values (.dict [(k.1, .str k.2.1)])) = true := by
  unfold keptTemplates
  simp only [List.forall_mem_cons, List.not_mem_nil, false_implies, implies_true, and_true]
  refine ⟨⟨rfl, cleanValues_of_all (by decide), by decide⟩,
    ⟨rfl, cleanValues_of_all (by decide), by decide⟩,
    ⟨rfl, cleanValues_of_all (by decide), by decide⟩⟩

end PveZfsTool.Notifications
