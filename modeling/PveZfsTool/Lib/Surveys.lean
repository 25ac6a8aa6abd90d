import PveZfsTool.Lib.Dialogue

/-!
# Programs that ask about each item of a list

`survey` asks one question for each item, in the order of the list, and keeps
what it makes of the answers.  `run_survey` lists the answers of a run beside
the items.  `Said` looks for an answer in a log, and `said_survey` finds there
what the survey kept.
-/

namespace Dialogue

variable {Q A ε X Y : Type}

/-- An answer to the question with this property is in the log. -/
def Said (log : History Q A) (q : Q) (P : A → Prop) : Prop := ∃ a, (q, a) ∈ log ∧ P a

theorem said_append {log log' : History Q A} {q : Q} {P : A → Prop} :
    Said (log ++ log') q P ↔ Said log q P ∨ Said log' q P := by
  simp only [Said, List.mem_append, or_and_right, exists_or]

/-- A question that was never asked has no answer. -/
theorem not_said {log : History Q A} {q : Q} {P : A → Prop} (h : ∀ entry ∈ log, entry.1 ≠ q) :
    ¬ Said log q P := by
  rintro ⟨a, hmem, -⟩
  exact h _ hmem rfl

/-- Ask about each item, and keep what `keep` makes of the answers. -/
def survey (ask : X → Q) (keep : X → A → Option Y) : List X → Prog Q A ε (List Y)
  | [] => return []
  | x :: xs => do
    let a ← Prog.issue (ask x)
    let ys ← survey ask keep xs
    return match keep x a with
      | some y => y :: ys
      | none => ys

variable {ask : X → Q} {keep : X → A → Option Y} {xs : List X} {log : History Q A} {ys : List Y}

/-- A survey asks about every item once, and keeps what the answers say. -/
theorem run_survey (h : (survey ask keep xs : Prog Q A ε (List Y)).Run log (.ok ys)) :
    ∃ entries : List (X × A), entries.map Prod.fst = xs ∧
      log = entries.map (fun e => (ask e.1, e.2)) ∧
      ys = entries.filterMap (fun e => keep e.1 e.2) := by
  induction xs generalizing log ys with
  | nil =>
    obtain ⟨rfl, hys⟩ := Prog.run_ret.mp h
    exact ⟨[], rfl, rfl, Except.ok.inj hys⟩
  | cons x xs ih =>
    rw [survey, Prog.issue_bind] at h
    obtain ⟨a, rest, rfl, hrest⟩ := Prog.run_ask.mp h
    obtain ⟨log₁, log₂, zs, rfl, hxs, hret⟩ := Prog.run_bind_ok hrest
    obtain ⟨rfl, hys⟩ := Prog.run_ret.mp hret
    obtain ⟨entries, rfl, rfl, rfl⟩ := ih hxs
    refine ⟨(x, a) :: entries, rfl, by simp, ?_⟩
    rw [Except.ok.inj hys, List.filterMap_cons]
    dsimp only
    cases keep x a <;> rfl

/-- What a survey kept stands in its log, where items with one question are
kept alike. -/
theorem said_survey (hask : ∀ x x', ask x = ask x' → keep x = keep x')
    (h : (survey ask keep xs : Prog Q A ε (List Y)).Run log (.ok ys)) (y : Y) :
    y ∈ ys ↔ ∃ x, Said log (ask x) (fun a => keep x a = some y) := by
  obtain ⟨entries, -, rfl, rfl⟩ := run_survey h
  simp only [List.mem_filterMap, Said, List.mem_map, Prod.mk.injEq, Prod.exists]
  constructor
  · rintro ⟨x, a, hmem, hkeep⟩
    exact ⟨x, a, ⟨x, a, hmem, rfl, rfl⟩, hkeep⟩
  · rintro ⟨x, a, ⟨x', a', hmem, hx, rfl⟩, hkeep⟩
    rw [← hask x' x hx] at hkeep
    exact ⟨x', a', hmem, hkeep⟩

/-- Every item is asked about. -/
theorem asked_survey (h : (survey ask keep xs : Prog Q A ε (List Y)).Run log (.ok ys)) {x : X}
    (hx : x ∈ xs) : Said log (ask x) (fun _ => True) := by
  obtain ⟨entries, rfl, rfl, -⟩ := run_survey h
  obtain ⟨e, he, rfl⟩ := List.mem_map.mp hx
  exact ⟨e.2, List.mem_map.mpr ⟨e, he, rfl⟩, trivial⟩

/-- Nothing else is asked. -/
theorem uses_survey {S : Q → Prop} (h : ∀ x ∈ xs, S (ask x)) :
    (survey ask keep xs : Prog Q A ε (List Y)).Uses S := by
  induction xs with
  | nil => trivial
  | cons x xs ih =>
    refine ⟨h x List.mem_cons_self, fun a => ?_⟩
    exact (ih (fun y hy => h y (List.mem_cons_of_mem _ hy))).bind (fun _ => trivial)

end Dialogue
