import PveZfsTool.Lib.Text
import Mathlib.Tactic.ByContra
import Mathlib.Data.List.Infix

/-!
# The secrets of the notification channels

This models `mask_secret`, `is_masked` and `resolve_masked` of
`notifications.py`, and what `api_notify_config` and `api_save_notify_config`
of `main.py` do with the four secrets.  The other settings pass through both
unchanged and are left out.

* `isMasked_maskSecret`: a mask is taken for one.
* `savedRight_iff`: when a save does with a secret what the form means.
-/

namespace PveZfsTool.Notifications

open Text

/-- `mask_secret` -/
def maskSecret (val : Str) : Str :=
  if val.length < 6 then val else val.take 2 ++ "..." ++ lastN 2 val

/-- `is_masked` -/
def isMasked (val : Str) : Bool := val ≠ [] && contains val "..." && val.length < 32

/-- `resolve_masked` -/
def resolveMasked (val stored : Str) : Str := if isMasked val then stored else val

/-- The sections and fields with a secret. -/
inductive SecretField where
  | emailSmtpPassword
  | telegramBotToken
  | gotifyToken
  | matrixAccessToken
  deriving DecidableEq

/-- The secrets that `load_config` returns: an empty text where the file has
none. -/
abbrev StoredSecrets := SecretField → Str

/-- The secrets in a document.  `none` where it has not the field. -/
abbrev SentSecrets := SecretField → Option Str

/-- What `api_notify_config` shows. -/
def shownSecrets (stored : StoredSecrets) : StoredSecrets := fun field =>
  if stored field ≠ [] then maskSecret (stored field) else stored field

/-- The document that `api_save_notify_config` saves. -/
def savedSecrets (stored : StoredSecrets) (data : SentSecrets) : SentSecrets := fun field =>
  let newVal := (data field).getD []
  let resolved := resolveMasked newVal (stored field)
  if resolved ≠ newVal then some resolved else data field

/-- `load_config` of a document that was saved. -/
def loadSecrets (saved : SentSecrets) : StoredSecrets := fun field => (saved field).getD []

/-- What is stored after a save. -/
def storedAfter (stored : StoredSecrets) (data : SentSecrets) : StoredSecrets :=
  loadSecrets (savedSecrets stored data)

/-- The text that was sent for a secret. -/
def sent (data : SentSecrets) (field : SecretField) : Str := (data field).getD []

/-- The save keeps the secret when the form has the text that was shown for it,
and stores any other text. -/
def SavedRight (stored : StoredSecrets) (data : SentSecrets) (field : SecretField) : Prop :=
  (sent data field = shownSecrets stored field → storedAfter stored data field = stored field) ∧
    (sent data field ≠ shownSecrets stored field → storedAfter stored data field = sent data field)

theorem storedAfter_eq {stored : StoredSecrets} {data : SentSecrets} {field : SecretField} :
    storedAfter stored data field = resolveMasked (sent data field) (stored field) := by
  unfold storedAfter loadSecrets savedSecrets sent
  dsimp only
  by_cases h : resolveMasked ((data field).getD []) (stored field) = (data field).getD []
  · rw [if_neg (not_not.mpr h), h]
  · rw [if_pos h]
    rfl

theorem shownSecrets_eq {stored : StoredSecrets} {field : SecretField} :
    shownSecrets stored field = maskSecret (stored field) := by
  unfold shownSecrets
  split_ifs with h
  · rfl
  · rw [ne_eq, not_not] at h
    rw [h]
    rfl

/-- A text that is shown instead of a secret counts as a mask. -/
theorem isMasked_maskSecret {val : Str} (h : 6 ≤ val.length) : isMasked (maskSecret val) = true := by
  have hlength : (maskSecret val).length = 7 := by
    unfold maskSecret lastN
    rw [if_neg (by omega)]
    simp
    omega
  have hne : maskSecret val ≠ [] := by
    intro hnil
    rw [hnil] at hlength
    cases hlength
  have hdots : contains (maskSecret val) "..." = true := by
    unfold contains maskSecret
    rw [if_neg (by omega), decide_eq_true_iff]
    exact ⟨val.take 2, lastN 2 val, rfl⟩
  unfold isMasked
  rw [hdots, hlength, decide_eq_true hne]
  rfl

/-- A form that is sent back as it was shown changes nothing. -/
theorem resolveMasked_maskSecret (val : Str) : resolveMasked (maskSecret val) val = val := by
  by_cases h : val.length < 6
  · unfold resolveMasked maskSecret
    rw [if_pos h]
    split_ifs <;> rfl
  · unfold resolveMasked
    rw [if_pos (isMasked_maskSecret (by omega))]

/-- A save does with a secret what the form means, unless it takes a new text
for a mask: one with three dots and less than 32 characters that is neither the
text shown nor the secret itself. -/
theorem savedRight_iff (stored : StoredSecrets) (data : SentSecrets) (field : SecretField) :
    SavedRight stored data field ↔
      isMasked (sent data field) = false ∨ sent data field = shownSecrets stored field ∨
        sent data field = stored field := by
  unfold SavedRight
  rw [storedAfter_eq, shownSecrets_eq]
  generalize sent data field = val
  constructor
  · intro ⟨_, hother⟩
    by_cases hshown : val = maskSecret (stored field)
    · exact .inr (.inl hshown)
    · by_cases hmasked : isMasked val = true
      · have hval := hother hshown
        rw [resolveMasked, if_pos hmasked] at hval
        exact .inr (.inr hval.symm)
      · exact .inl (Bool.not_eq_true _ ▸ hmasked)
  · intro hor
    constructor
    · intro hshown
      rw [hshown]
      exact resolveMasked_maskSecret (stored field)
    · intro hother
      rcases hor with hmasked | hshown | hsame
      · rw [resolveMasked, hmasked]
        rfl
      · exact absurd hshown hother
      · rw [hsame, resolveMasked]
        split_ifs <;> rfl

/-- A new token with dots in it is ignored. -/
theorem dotted_token_ignored : ¬ ∀ stored data field, SavedRight stored data field := by
  intro hclaim
  have hsaved := hclaim (fun _ => "SuperSecretToken123") (fun _ => some "my...token".toList)
    .gotifyToken
  exact absurd (hsaved.2 (by decide)) (by decide)

end PveZfsTool.Notifications
