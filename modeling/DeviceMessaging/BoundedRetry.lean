import Mathlib.Data.List.Induction

namespace BoundedRetry

/-- What a try of a job comes to. -/
inductive Verdict
  | success | again | giveUp
  deriving DecidableEq

/-- What is done about a job: it is put in line with a number of failed tries, it is
tried, the try is judged, and the job is over. -/
inductive Move
  | scheduled (failures : Nat)
  | tried
  | judged (v : Verdict)
  | finished
  | dropped
  deriving DecidableEq

inductive Job
  | waiting (failures : Nat)
  | trying (failures : Nat)
  | answered (failures : Nat) (v : Verdict)
  | finished
  | dropped
  deriving DecidableEq

/-- A job is tried again until it succeeds, is given up, or has failed `max` times.
To finish a job that is over changes nothing. -/
def Job.step (max : Nat) (j : Job) (m : Move) : Option Job :=
  match j, m with
  | waiting k, .scheduled n => if n = k then some (waiting k) else none
  | waiting k, .tried => if k < max then some (trying k) else none
  | trying k, .judged v => some (answered k v)
  | answered k .again, .scheduled n => if n = k + 1 ∧ k + 1 < max then some (waiting n) else none
  | answered k .again, .dropped => if max ≤ k + 1 then some dropped else none
  | answered _ .giveUp, .dropped => some dropped
  | answered _ .success, .finished => some finished
  | finished, .finished => some finished
  | dropped, .finished => some dropped
  | _, _ => none

def run (max : Nat) (ms : List Move) : Option Job :=
  ms.foldlM (Job.step max) (.waiting 0)

def Move.verdict (m : Move) : Option Verdict :=
  match m with
  | judged v => some v
  | _ => none

def tries (ms : List Move) : Nat :=
  ms.count .tried

def verdicts (ms : List Move) : List Verdict :=
  ms.filterMap Move.verdict

variable {max : Nat} {ms : List Move} {m : Move} {j : Job}

theorem run_snoc (ms : List Move) (m : Move) :
    run max (ms ++ [m]) = (run max ms).bind fun j => j.step max m := by
  simp [run, List.foldlM_append]

/-- A move that carries no verdict and is no try. -/
def Move.Silent (m : Move) : Prop :=
  m ≠ .tried ∧ m.verdict = none

theorem tries_silent (hm : m.Silent) : tries (ms ++ [m]) = tries ms := by
  simp [tries, hm.1]

theorem verdicts_silent (hm : m.Silent) : verdicts (ms ++ [m]) = verdicts ms := by
  simp [verdicts, hm.2]

/-- The tries and the verdicts so far, by where the job is. -/
def Job.Tally (max : Nat) (ms : List Move) (j : Job) : Prop :=
  match j with
  | waiting k => (0 < max → k < max) ∧ tries ms = k ∧ verdicts ms = .replicate k .again
  | trying k => k < max ∧ tries ms = k + 1 ∧ verdicts ms = .replicate k .again
  | answered k v => k < max ∧ tries ms = k + 1 ∧ verdicts ms = .replicate k .again ++ [v]
  | finished => ∃ k, k < max ∧ tries ms = k + 1 ∧ verdicts ms = .replicate k .again ++ [.success]
  | dropped => ∃ k v, k < max ∧ tries ms = k + 1 ∧ verdicts ms = .replicate k .again ++ [v] ∧
      (v = .giveUp ∨ v = .again ∧ k + 1 = max)

theorem Job.Tally.snoc {j' : Job} (hj : j.Tally max ms) (hstep : j.step max m = some j') :
    j'.Tally max (ms ++ [m]) := by
  unfold Job.step at hstep
  split at hstep
  next k n =>
    split at hstep
    next hn =>
      cases hstep
      have hm : (Move.scheduled n).Silent := ⟨nofun, rfl⟩
      exact ⟨hj.1, (tries_silent hm).trans hj.2.1, (verdicts_silent hm).trans hj.2.2⟩
    next => cases hstep
  next k =>
    split at hstep
    next hk =>
      cases hstep
      have htries : tries (ms ++ [.tried]) = tries ms + 1 := by simp [tries]
      have hverdicts : verdicts (ms ++ [.tried]) = verdicts ms := by simp [verdicts, Move.verdict]
      exact ⟨hk, by rw [htries, hj.2.1], hverdicts.trans hj.2.2⟩
    next => cases hstep
  next k v =>
    cases hstep
    have htries : tries (ms ++ [.judged v]) = tries ms := by simp [tries]
    have hverdicts : verdicts (ms ++ [.judged v]) = verdicts ms ++ [v] := by
      simp [verdicts, Move.verdict]
    exact ⟨hj.1, htries.trans hj.2.1, by rw [hverdicts, hj.2.2]⟩
  next k n =>
    split at hstep
    next hn =>
      cases hstep
      obtain ⟨rfl, hk⟩ := hn
      have hm : (Move.scheduled (k + 1)).Silent := ⟨nofun, rfl⟩
      refine ⟨fun _ => hk, (tries_silent hm).trans hj.2.1, (verdicts_silent hm).trans ?_⟩
      rw [hj.2.2, List.replicate_succ']
    next => cases hstep
  next k =>
    split at hstep
    next hk =>
      cases hstep
      have hm : Move.dropped.Silent := ⟨nofun, rfl⟩
      have hmax := hj.1
      exact ⟨k, .again, hmax, (tries_silent hm).trans hj.2.1, (verdicts_silent hm).trans hj.2.2,
        .inr ⟨rfl, by omega⟩⟩
    next => cases hstep
  next k =>
    cases hstep
    have hm : Move.dropped.Silent := ⟨nofun, rfl⟩
    exact ⟨k, .giveUp, hj.1, (tries_silent hm).trans hj.2.1, (verdicts_silent hm).trans hj.2.2,
      .inl rfl⟩
  next k =>
    cases hstep
    have hm : Move.finished.Silent := ⟨nofun, rfl⟩
    exact ⟨k, hj.1, (tries_silent hm).trans hj.2.1, (verdicts_silent hm).trans hj.2.2⟩
  next =>
    cases hstep
    have hm : Move.finished.Silent := ⟨nofun, rfl⟩
    obtain ⟨k, hk, htries, hv⟩ := hj
    exact ⟨k, hk, (tries_silent hm).trans htries, (verdicts_silent hm).trans hv⟩
  next =>
    cases hstep
    have hm : Move.finished.Silent := ⟨nofun, rfl⟩
    obtain ⟨k, v, hk, htries, hv, hwhy⟩ := hj
    exact ⟨k, v, hk, (tries_silent hm).trans htries, (verdicts_silent hm).trans hv, hwhy⟩
  next => cases hstep

/-- What a legal history of moves tells of the tries in it. -/
theorem run_tally (h : run max ms = some j) : j.Tally max ms := by
  induction ms using List.reverseRecOn generalizing j with
  | nil =>
    cases h
    exact ⟨id, rfl, rfl⟩
  | append_singleton ms m ih =>
    rw [run_snoc] at h
    obtain ⟨j₀, h₀, hstep⟩ := Option.bind_eq_some_iff.mp h
    exact (ih h₀).snoc hstep

theorem Job.Tally.tries_le (hj : j.Tally max ms) (hmax : 0 < max) : tries ms ≤ max := by
  cases j with
  | waiting k => have hk := hj.1 hmax; have htries := hj.2.1; omega
  | trying k => have hk := hj.1; have htries := hj.2.1; omega
  | answered k v => have hk := hj.1; have htries := hj.2.1; omega
  | finished => obtain ⟨k, hk, htries, -⟩ := hj; omega
  | dropped => obtain ⟨k, v, hk, htries, -⟩ := hj; omega

/-- At most one try is not judged yet. -/
theorem Job.Tally.tries_judged (hj : j.Tally max ms) :
    (verdicts ms).length ≤ tries ms ∧ tries ms ≤ (verdicts ms).length + 1 := by
  cases j with
  | waiting k => simp [hj.2.1, hj.2.2]
  | trying k => simp [hj.2.1, hj.2.2]
  | answered k v => simp [hj.2.1, hj.2.2]
  | finished => obtain ⟨k, -, htries, hv⟩ := hj; simp [htries, hv]
  | dropped => obtain ⟨k, v, -, htries, hv, -⟩ := hj; simp [htries, hv]

/-- Only the last verdict can end the job, and nothing is tried after it. -/
theorem Job.Tally.final_last (hj : j.Tally max ms) :
    (∀ v ∈ (verdicts ms).dropLast, v = .again) ∧
      ((∃ v ∈ verdicts ms, v ≠ .again) → tries ms = (verdicts ms).length) := by
  have hsome : ∀ k v, verdicts ms = .replicate k .again ++ [v] → tries ms = k + 1 →
      (∀ v ∈ (verdicts ms).dropLast, v = .again) ∧
        ((∃ v ∈ verdicts ms, v ≠ .again) → tries ms = (verdicts ms).length) := by
    intro k v hv htries
    refine ⟨fun u hu => ?_, fun _ => by simp [htries, hv]⟩
    rw [hv, List.dropLast_concat] at hu
    exact List.eq_of_mem_replicate hu
  have hnone : ∀ k, verdicts ms = .replicate k .again →
      (∀ v ∈ (verdicts ms).dropLast, v = .again) ∧
        ((∃ v ∈ verdicts ms, v ≠ .again) → tries ms = (verdicts ms).length) := by
    intro k hv
    constructor
    · intro u hu
      rw [hv] at hu
      exact List.eq_of_mem_replicate (List.dropLast_subset _ hu)
    · rintro ⟨u, hu, hne⟩
      rw [hv] at hu
      exact absurd (List.eq_of_mem_replicate hu) hne
  cases j with
  | waiting k => exact hnone k hj.2.2
  | trying k => exact hnone k hj.2.2
  | answered k v => exact hsome k v hj.2.2 hj.2.1
  | finished => obtain ⟨k, -, htries, hv⟩ := hj; exact hsome k _ hv htries
  | dropped => obtain ⟨k, v, -, htries, hv, -⟩ := hj; exact hsome k v hv htries

/-- A job is dropped when it is given up or has failed as often as allowed. -/
theorem Job.Tally.dropped_why (hj : Job.dropped.Tally max ms) :
    (.giveUp ∈ verdicts ms ∨ verdicts ms = .replicate max .again) ∧ .success ∉ verdicts ms := by
  obtain ⟨k, v, -, -, hv, hwhy⟩ := hj
  constructor
  · rcases hwhy with rfl | ⟨rfl, hk⟩
    · exact .inl (by simp [hv])
    · exact .inr (by rw [hv, ← List.replicate_succ', hk])
  · rw [hv]
    rcases hwhy with rfl | ⟨rfl, -⟩ <;> simp

/-- A job is dropped by being dropped, and stays so. -/
theorem run_dropped (h : run max ms = some j) : .dropped ∈ ms ↔ j = .dropped := by
  induction ms using List.reverseRecOn generalizing j with
  | nil =>
    cases h
    exact ⟨nofun, nofun⟩
  | append_singleton ms m ih =>
    rw [run_snoc] at h
    obtain ⟨j₀, h₀, hstep⟩ := Option.bind_eq_some_iff.mp h
    have hold := ih h₀
    rw [List.mem_append, List.mem_singleton, hold]
    unfold Job.step at hstep
    split at hstep
    all_goals first | (split at hstep <;> cases hstep) | cases hstep
    all_goals simp

end BoundedRetry
