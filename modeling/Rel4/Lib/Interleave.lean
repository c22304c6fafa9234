import Mathlib.Logic.Function.Basic

/-! Systems whose parties take turns, one move at a time and in any order. -/

namespace Rel4.Lib

variable {σ μ : Type*} {step : σ → μ → Option σ} {allowed : σ → μ → Prop} {start s : σ}

/-- The states that moves lead to, each move allowed where it is made. -/
inductive Run (step : σ → μ → Option σ) (allowed : σ → μ → Prop) (start : σ) : σ → Prop
  | start : Run step allowed start start
  | move {s s' : σ} (run : Run step allowed start s) (move : μ) (moved : step s move = some s')
      (ok : allowed s move) : Run step allowed start s'

/-- What holds at the start and survives every allowed move holds in every state reached. -/
theorem Run.keeps (inv : σ → Prop) (run : Run step allowed start s) (first : inv start)
    (keep : ∀ s move s', inv s → step s move = some s' → allowed s move → inv s') : inv s := by
  induction run with
  | start => exact first
  | move _ _ moved ok ih => exact keep _ _ _ ih moved ok

/-- A run is also one of whatever allows more. -/
theorem Run.mono {allowed' : σ → μ → Prop} (run : Run step allowed start s)
    (weaker : ∀ s move, allowed s move → allowed' s move) : Run step allowed' start s := by
  induction run with
  | start => exact .start
  | move _ move moved ok ih => exact ih.move move moved (weaker _ move ok)

/-- The state a list of moves leads to, if all of them can be made. -/
def moves (step : σ → μ → Option σ) : σ → List μ → Option σ
  | s, [] => some s
  | s, move :: rest => (step s move).bind fun s => moves step s rest

/-- A list of moves that can be made is a run. -/
theorem Run.of_moves {s' : σ} (run : Run step (fun _ _ => True) start s) (list : List μ)
    (made : moves step s list = some s') : Run step (fun _ _ => True) start s' := by
  induction list generalizing s with
  | nil =>
    cases made
    exact run
  | cons move rest ih =>
    obtain ⟨next, moved, made⟩ := Option.bind_eq_some_iff.mp made
    exact ih (run.move move moved trivial) made

/-- The steps that a check lets pass. -/
def guarded (step : σ → μ → Option σ) (check : σ → μ → Bool) (s : σ) (move : μ) : Option σ :=
  if check s move then step s move else none

/-- A list of moves that all pass the check is a run of such moves. -/
theorem Run.of_guarded {check : σ → μ → Bool} {s' : σ} (run : Run step (fun s move => check s move = true) start s)
    (list : List μ) (made : moves (guarded step check) s list = some s') :
    Run step (fun s move => check s move = true) start s' := by
  induction list generalizing s with
  | nil =>
    cases made
    exact run
  | cons move rest ih =>
    obtain ⟨next, moved, made⟩ := Option.bind_eq_some_iff.mp made
    unfold guarded at moved
    split at moved
    · exact ih (run.move move moved ‹_›) made
    · cases moved

section Exclusive

variable {ω τ : Type*} {doing doing' : ω → Option τ} {busy busy' : τ → Prop} {worker : ω} {job : τ}

/-- Every job is done by one worker at most, and is marked busy while it is. -/
structure Exclusive (doing : ω → Option τ) (busy : τ → Prop) : Prop where
  marked : ∀ worker job, doing worker = some job → busy job
  alone : ∀ worker other job, doing worker = some job → doing other = some job → worker = other

namespace Exclusive

section

variable (jobs : Exclusive doing busy)
include jobs

/-- A job that is not marked is done by nobody. -/
theorem free (unmarked : ¬ busy job) (other : ω) :
    doing other ≠ some job :=
  fun does => unmarked (jobs.marked other job does)

/-- A worker's job is done by nobody else. -/
theorem mine (does : doing worker = some job) (other : ω) (isOther : other ≠ worker) : doing other ≠ some job :=
  fun does' => isOther (jobs.alone other worker job does' does)

/-- As long as nobody changes jobs, they stay apart. -/
theorem stay (same : ∀ worker, doing' worker = doing worker)
    (kept : ∀ job, busy job → busy' job) : Exclusive doing' busy' where
  marked worker job does := kept job (jobs.marked worker job (same worker ▸ does))
  alone worker other job does does' :=
    jobs.alone worker other job (same worker ▸ does) (same other ▸ does')

/-- A worker may take up or leave a job that nobody else does. -/
theorem turn (worker : ω) (job : τ) (others : ∀ other, other ≠ worker → doing' other = doing other)
    (free : ∀ other, other ≠ worker → doing other ≠ some job)
    (fits : doing' worker = none ∨ doing' worker = some job ∧ busy' job)
    (kept : ∀ other, other ≠ job → busy other → busy' other) : Exclusive doing' busy' := by
  -- The worker can only do this job, and nobody else does it.
  have mine : ∀ job', doing' worker = some job' → job' = job ∧ busy' job := by
    intro job' does
    rcases fits with nothing | ⟨isJob, isBusy⟩
    · cases nothing.symm.trans does
    · exact ⟨Option.some.inj (does.symm.trans isJob), isBusy⟩
  have theirs : ∀ other job', other ≠ worker → doing' other = some job' →
      doing other = some job' ∧ job' ≠ job := by
    intro other job' isOther does
    have before : doing other = some job' := (others other isOther).symm.trans does
    refine ⟨before, ?_⟩
    rintro rfl
    exact free other isOther before
  constructor
  · intro other job' does
    by_cases isWorker : other = worker
    · subst isWorker
      obtain ⟨rfl, isBusy⟩ := mine job' does
      exact isBusy
    · obtain ⟨before, distinct⟩ := theirs other job' isWorker does
      exact kept job' distinct (jobs.marked other job' before)
  · intro one other job' does does'
    by_cases isOne : one = worker <;> by_cases isOther : other = worker
    · exact isOne.trans isOther.symm
    · subst isOne
      exact absurd (mine job' does).1 (theirs other job' isOther does').2
    · subst isOther
      exact absurd (mine job' does').1 (theirs one job' isOne does).2
    · exact jobs.alone one other job' (theirs one job' isOne does).1 (theirs other job' isOther does').1

end

/-- The stage of a job that nobody does may change. -/
theorem setStage {γ : Type*} [DecidableEq τ] {stages : τ → γ} {polling stage : γ}
    (jobs : Exclusive doing fun job => stages job = polling)
    (free : ∀ other, doing other ≠ some job) :
    Exclusive doing fun other => Function.update stages job stage other = polling where
  marked other job' does := by
    have distinct : job' ≠ job := by
      rintro rfl
      exact free other does
    simpa [distinct] using jobs.marked other job' does
  alone := jobs.alone

section Update

variable {κ γ : Type*} [DecidableEq ω] {polls : κ → Option τ} {workers : ω → κ} {work : κ}
  {stages : τ → γ} {polling stage : γ}

/-- A worker that goes on with the same job, or with none, disturbs nobody. -/
theorem update (jobs : Exclusive (fun worker => polls (workers worker)) busy)
    (same : polls work = polls (workers worker)) :
    Exclusive (fun other => polls (Function.update workers worker work other)) busy := by
  refine jobs.stay (fun other => ?_) fun _ isBusy => isBusy
  by_cases isWorker : other = worker
  · simp [isWorker, same]
  · simp [isWorker]

/-- A worker may take up or leave a job that nobody else does, with the job's stage. -/
theorem updateStage [DecidableEq τ]
    (jobs : Exclusive (fun worker => polls (workers worker)) fun job => stages job = polling)
    (free : ∀ other, other ≠ worker → polls (workers other) ≠ some job)
    (fits : polls work = none ∨ polls work = some job ∧ stage = polling) :
    Exclusive (fun other => polls (Function.update workers worker work other))
      fun other => Function.update stages job stage other = polling := by
  refine jobs.turn worker job (fun other isOther => ?_) free ?_ fun other isOther isBusy => ?_
  · simp [isOther]
  · simpa using fits
  · simpa [isOther] using isBusy

end Update

end Exclusive

end Exclusive

end Rel4.Lib
