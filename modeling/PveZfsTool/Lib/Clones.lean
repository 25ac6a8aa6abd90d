import Mathlib.Logic.Basic

/-!
# Clones and what depends on them

Datasets form a tree, and a dataset may be a clone: it was made from a
snapshot of another dataset.  Removing a snapshot of a dataset with all that
depends on it takes the snapshots of that name below the dataset, too, and
goes on from clone to clone.

* `Removed`: the datasets such a command removes.
* `removed_clones_iff`: all removed clones are of one kind exactly when the
  first clones are, and no chain of clones of that kind leads out of it.
-/

namespace Clones

/-- Datasets of type `D` with snapshots named by `S`. -/
structure Forest (D S : Type) where
  /-- `below e d`: `e` is `d`, or lies below it. -/
  below : D → D → Prop
  below_refl : ∀ d, below d d
  below_trans : ∀ {a b c}, below a b → below b c → below a c
  /-- `origin e s c`: `c` is a clone of the snapshot `s` of `e`. -/
  origin : D → S → D → Prop

namespace Forest

variable {D S : Type} (f : Forest D S)

def IsClone (c : D) : Prop := ∃ e s, f.origin e s c

/-- `c` is a clone of the snapshot `snap` of `ds`, or of a dataset below. -/
def Covers (ds : D) (snap : S) (c : D) : Prop := ∃ e, f.below e ds ∧ f.origin e snap c

/-- The clone `c'` cannot stay without `c`: it lies below `c`, or was made
from a snapshot there. -/
def Depends (c c' : D) : Prop :=
  f.IsClone c' ∧ (f.below c' c ∨ ∃ e s, f.below e c ∧ f.origin e s c')

/-- What is removed with the snapshot `snap` of `ds`: its clones and those of
the snapshots of that name below `ds`, all that lies below them, and the
clones of the snapshots of all of these. -/
inductive Removed (ds : D) (snap : S) : D → Prop
  | clone {c : D} (hcovers : f.Covers ds snap c) : Removed ds snap c
  | child {c e : D} (hremoved : Removed ds snap c) (hbelow : f.below e c) : Removed ds snap e
  | again {e c : D} {s : S} (hremoved : Removed ds snap e) (horigin : f.origin e s c) :
      Removed ds snap c

/-- The clones that are reached through clones in `kind` only. -/
inductive Chain (kind : D → Prop) (ds : D) (snap : S) : D → Prop
  | first {c : D} (hcovers : f.Covers ds snap c) (hkind : kind c) : Chain kind ds snap c
  | next {c c' : D} (hchain : Chain kind ds snap c) (hdepends : f.Depends c c')
      (hkind : kind c') : Chain kind ds snap c'

variable {f} {kind : D → Prop} {ds : D} {snap : S}

theorem Covers.isClone {c : D} (h : f.Covers ds snap c) : f.IsClone c := by
  obtain ⟨e, -, horigin⟩ := h
  exact ⟨e, snap, horigin⟩

/-- What depends on a removed clone is removed. -/
theorem Removed.depends {c c' : D} (h : f.Removed ds snap c) (hdepends : f.Depends c c') :
    f.Removed ds snap c' := by
  obtain ⟨-, hbelow | ⟨e, s, hbelow, horigin⟩⟩ := hdepends
  · exact .child h hbelow
  · exact .again (.child h hbelow) horigin

theorem Chain.removed {c : D} (h : f.Chain kind ds snap c) : f.Removed ds snap c := by
  induction h with
  | first hcovers _ => exact .clone hcovers
  | next _ hdepends _ ih => exact ih.depends hdepends

/-- Where no chain leads out of `kind`, whatever is removed lies below the end
of one. -/
theorem Removed.below_chain {e : D} (h : f.Removed ds snap e)
    (hfirst : ∀ c, f.Covers ds snap c → kind c)
    (hnext : ∀ c, f.Chain kind ds snap c → ∀ c', f.Depends c c' → kind c') :
    ∃ c, f.Chain kind ds snap c ∧ f.below e c := by
  induction h with
  | clone hcovers => exact ⟨_, .first hcovers (hfirst _ hcovers), f.below_refl _⟩
  | child _ hbelow ih =>
    obtain ⟨c, hchain, hc⟩ := ih
    exact ⟨c, hchain, f.below_trans hbelow hc⟩
  | again _ horigin ih =>
    obtain ⟨c, hchain, hc⟩ := ih
    have hdepends : f.Depends c _ := ⟨⟨_, _, horigin⟩, Or.inr ⟨_, _, hc, horigin⟩⟩
    exact ⟨_, .next hchain hdepends (hnext c hchain _ hdepends), f.below_refl _⟩

/-- All removed clones lie in `kind` exactly when the clones of the covered
snapshots do, and no chain leads out of `kind`. -/
theorem removed_clones_iff :
    (∀ c, f.Removed ds snap c → f.IsClone c → kind c) ↔
      (∀ c, f.Covers ds snap c → kind c) ∧
        ∀ c, f.Chain kind ds snap c → ∀ c', f.Depends c c' → kind c' := by
  constructor
  · intro hall
    constructor
    · intro c hcovers
      exact hall c (.clone hcovers) hcovers.isClone
    · intro c hchain c' hdepends
      exact hall c' (hchain.removed.depends hdepends) hdepends.1
  · rintro ⟨hfirst, hnext⟩ c hremoved hclone
    obtain ⟨c₀, hchain, hbelow⟩ := hremoved.below_chain hfirst hnext
    exact hnext c₀ hchain c ⟨hclone, Or.inl hbelow⟩

end Forest

end Clones
