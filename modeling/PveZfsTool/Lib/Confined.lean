import PveZfsTool.Lib.Transducer

/-!
# Operations that keep to one part of a state

A `view` is a part of a state and `others` is what is left of it.  An operation is
`Confined` when its answer and what it makes of the view depend on the view alone,
and it leaves the others as they are.

Where every input of a machine has an owner and is confined to the view of the owner,
`purge` takes the inputs of all other owners out of a run: the view of one owner and
the answers it gets are the same as without them.
-/

namespace Transducer

variable {σ ι ω κ ν ρ : Type} {view : σ → ν} {others : σ → ρ}

structure Confined (view : σ → ν) (others : σ → ρ) (f : σ → σ × ω) : Prop where
  answers : ∀ s s', view s = view s' → (f s).2 = (f s').2
  moves : ∀ s s', view s = view s' → view (f s).1 = view (f s').1
  leaves : ∀ s, others (f s).1 = others s

/-! ## How confined operations are put together -/

/-- One operation after the other, with all that both have put out. -/
def followedBy (f g : σ → σ × List ω) (s : σ) : σ × List ω :=
  ((g (f s).1).1, (f s).2 ++ (g (f s).1).2)

/-- The operation for each input in turn, with all that it has put out. -/
def sweep (step : σ → ι → σ × List ω) (is : List ι) (s : σ) : σ × List ω :=
  (after step s is, (turns step s is).flatMap Turn.output)

theorem sweep_cons {step : σ → ι → σ × List ω} {i : ι} {is : List ι} :
    sweep step (i :: is) = followedBy (step · i) (sweep step is) := rfl

namespace Confined

variable {f g : σ → σ × List ω}

theorem skip : Confined view others (fun s => (s, ([] : List ω))) :=
  ⟨fun _ _ _ => rfl, fun _ _ h => h, fun _ => rfl⟩

theorem followedBy (hf : Confined view others f) (hg : Confined view others g) :
    Confined view others (followedBy f g) where
  answers := by
    intro s s' h
    unfold Transducer.followedBy
    rw [hf.answers s s' h, hg.answers _ _ (hf.moves s s' h)]
  moves := fun s s' h => hg.moves _ _ (hf.moves s s' h)
  leaves := fun s => (hg.leaves _).trans (hf.leaves s)

theorem sweep {step : σ → ι → σ × List ω} {is : List ι} (h : ∀ i ∈ is, Confined view others (step · i)) :
    Confined view others (sweep step is) := by
  induction is with
  | nil => exact skip
  | cons i is ih =>
    rw [sweep_cons]
    exact (h i List.mem_cons_self).followedBy (ih fun j hj => h j (List.mem_cons_of_mem _ hj))

/-- An operation whose answer is packed up is as confined as it was. -/
theorem map {ω' : Type} {f : σ → σ × ω} (hf : Confined view others f) (g : ω → ω') :
    Confined view others (fun s => ((f s).1, g (f s).2)) :=
  ⟨fun s s' h => congrArg g (hf.answers s s' h), hf.moves, hf.leaves⟩

end Confined

/-! ## A run without the inputs of the other owners -/

variable [DecidableEq κ] {step : σ → ι → σ × ω} {owner : ι → κ} {viewOf : κ → σ → ν} {othersOf : κ → σ → ρ}
  {is : List ι} {k : κ}

theorem purge (hconfined : ∀ i ∈ is, Confined (viewOf (owner i)) (othersOf (owner i)) (step · i))
    (hapart : ∀ i ∈ is, owner i ≠ k → ∀ s s', othersOf (owner i) s = othersOf (owner i) s' → viewOf k s = viewOf k s')
    {s s' : σ} (hview : viewOf k s = viewOf k s') :
    viewOf k (after step s is) = viewOf k (after step s' (is.filter (fun i => owner i = k))) ∧
      ((turns step s is).filter (fun t => owner t.input = k)).map Turn.output =
        (turns step s' (is.filter (fun i => owner i = k))).map Turn.output := by
  induction is generalizing s s' with
  | nil => exact ⟨hview, rfl⟩
  | cons i is ih =>
    have hi := hconfined i List.mem_cons_self
    have hrest : ∀ {s s' : σ}, viewOf k s = viewOf k s' → _ :=
      ih (fun j hj => hconfined j (List.mem_cons_of_mem _ hj)) (fun j hj => hapart j (List.mem_cons_of_mem _ hj))
    by_cases hown : owner i = k
    · rw [hown] at hi
      obtain ⟨hafter, hanswers⟩ := hrest (hi.moves s s' hview)
      rw [List.filter_cons_of_pos (by rw [hown, decide_eq_true rfl]), turns_cons, turns_cons,
        List.filter_cons_of_pos (by rw [hown, decide_eq_true rfl]), List.map_cons, List.map_cons, hanswers]
      exact ⟨hafter, congrArg (· :: _) (hi.answers s s' hview)⟩
    · -- the view does not change, and the turn is not among those of the owner
      have hkept : viewOf k (step s i).1 = viewOf k s' :=
        (hapart i List.mem_cons_self hown _ _ (hi.leaves s)).trans hview
      obtain ⟨hafter, hanswers⟩ := hrest hkept
      rw [List.filter_cons_of_neg (by rw [decide_eq_true_eq]; exact hown), turns_cons,
        List.filter_cons_of_neg (by rw [decide_eq_true_eq]; exact hown)]
      exact ⟨hafter, hanswers⟩

end Transducer
