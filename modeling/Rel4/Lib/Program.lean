import Mathlib.Order.Defs.Unbundled

/-!
Preconditions of programs that read and write a state and may abort.

Each rule computes what must hold before a program from what should hold after it.
-/

namespace Rel4.Lib

variable {ε σ α β : Type} {post : α → σ → Prop} {fail : ε → σ → Prop} {s : σ}

/-- Run from this state, the program ends in the first condition, or aborts in the second. -/
def wp (prog : EStateM ε σ α) (post : α → σ → Prop) (fail : ε → σ → Prop) (s : σ) : Prop :=
  match prog s with
  | .ok a s' => post a s'
  | .error e s' => fail e s'

/-- A guarantee is about the one way in which the run ends. -/
theorem wp_of_run {prog : EStateM ε σ α} (ok : ∀ a s', prog s = .ok a s' → post a s')
    (err : ∀ e s', prog s = .error e s' → fail e s') : wp prog post fail s := by
  unfold wp
  split
  case h_1 a s' run => exact ok a s' run
  case h_2 e s' run => exact err e s' run

theorem ok_of_wp {prog : EStateM ε σ α} {a : α} {s' : σ} (guaranteed : wp prog post fail s)
    (run : prog s = .ok a s') : post a s' := by
  unfold wp at guaranteed
  rwa [run] at guaranteed

theorem error_of_wp {prog : EStateM ε σ α} {e : ε} {s' : σ} (guaranteed : wp prog post fail s)
    (run : prog s = .error e s') : fail e s' := by
  unfold wp at guaranteed
  rwa [run] at guaranteed

/-- Weaker conditions are met by more runs. -/
theorem wp_mono {prog : EStateM ε σ α} {post' : α → σ → Prop} {fail' : ε → σ → Prop}
    (before : wp prog post fail s) (ok : ∀ a s', post a s' → post' a s')
    (err : ∀ e s', fail e s' → fail' e s') : wp prog post' fail' s :=
  wp_of_run (fun a s' run => ok a s' (ok_of_wp before run))
    fun e s' run => err e s' (error_of_wp before run)

/-- Two guarantees of one run hold together. -/
theorem wp_and {prog : EStateM ε σ α} {post' : α → σ → Prop} {fail' : ε → σ → Prop}
    (first : wp prog post fail s) (second : wp prog post' fail' s) :
    wp prog (fun a s' => post a s' ∧ post' a s') (fun e s' => fail e s' ∧ fail' e s') s :=
  wp_of_run (fun _ _ run => ⟨ok_of_wp first run, ok_of_wp second run⟩)
    fun _ _ run => ⟨error_of_wp first run, error_of_wp second run⟩

/-- A program that cannot fail has a result. -/
theorem exists_ok_of_wp {prog : EStateM ε σ α} (guaranteed : wp prog post (fun _ _ => False) s) :
    ∃ a s', prog s = .ok a s' ∧ post a s' := by
  unfold wp at guaranteed
  split at guaranteed
  case h_1 a s' run => exact ⟨a, s', run, guaranteed⟩
  case h_2 => exact guaranteed.elim

/-- A program that cannot return has an error. -/
theorem exists_error_of_wp {prog : EStateM ε σ α} (guaranteed : wp prog (fun _ _ => False) fail s) :
    ∃ e s', prog s = .error e s' ∧ fail e s' := by
  unfold wp at guaranteed
  split at guaranteed
  case h_1 => exact guaranteed.elim
  case h_2 e s' run => exact ⟨e, s', run, guaranteed⟩

/-- From a state that is given, a guarantee can be evaluated. -/
instance decidableWp (prog : EStateM ε σ α) [∀ a s', Decidable (post a s')]
    [∀ e s', Decidable (fail e s')] : Decidable (wp prog post fail s) := by
  delta wp
  cases prog s with
  | ok a s' => exact inferInstanceAs (Decidable (post a s'))
  | error e s' => exact inferInstanceAs (Decidable (fail e s'))

/-- A program that must return one result in one state does so. -/
theorem run_eq_ok_of_wp {prog : EStateM ε σ α} {b : α} {s' : σ}
    (h : wp prog (fun a t => a = b ∧ t = s') (fun _ _ => False) s) : prog s = .ok b s' := by
  unfold wp at h
  split at h
  case h_1 a t run =>
    obtain ⟨rfl, rfl⟩ := h
    exact run
  case h_2 => exact h.elim

/-- What follows a program goes on from what it returned. -/
theorem bind_of_ok {prog : EStateM ε σ α} {rest : α → EStateM ε σ β} {a : α} {s' : σ}
    (run : prog s = .ok a s') : (prog >>= rest) s = rest a s' := by
  simp only [bind, EStateM.bind, run]

/-- A program that returns a value does so in some state. -/
theorem ok_of_run' {prog : EStateM ε σ α} {a : α} (h : prog.run' s = some a) :
    ∃ s', prog s = .ok a s' := by
  unfold EStateM.run' at h
  split at h
  case h_1 b s' run =>
    cases h
    exact ⟨s', run⟩
  case h_2 => cases h

@[simp] theorem wp_pure (a : α) : wp (pure a : EStateM ε σ α) post fail s ↔ post a s := Iff.rfl

@[simp] theorem wp_bind (prog : EStateM ε σ α) (rest : α → EStateM ε σ β)
    {post : β → σ → Prop} :
    wp (prog >>= rest) post fail s ↔
      wp prog (fun a s' => wp (rest a) post fail s') fail s := by
  simp only [wp, bind, EStateM.bind]
  cases prog s <;> rfl

@[simp] theorem wp_map (f : α → β) (prog : EStateM ε σ α) {post : β → σ → Prop} :
    wp (f <$> prog) post fail s ↔ wp prog (fun a s' => post (f a) s') fail s := by
  simp only [wp, Functor.map, EStateM.map]
  cases prog s <;> rfl

@[simp] theorem wp_get {post : σ → σ → Prop} :
    wp (get : EStateM ε σ σ) post fail s ↔ post s s := Iff.rfl

@[simp] theorem wp_set {post : PUnit → σ → Prop} (s' : σ) :
    wp (set s' : EStateM ε σ PUnit) post fail s ↔ post ⟨⟩ s' := Iff.rfl

@[simp] theorem wp_modify {post : PUnit → σ → Prop} (change : σ → σ) :
    wp (modify change : EStateM ε σ PUnit) post fail s ↔ post ⟨⟩ (change s) := Iff.rfl

@[simp] theorem wp_throw (e : ε) :
    wp (throw e : EStateM ε σ α) post fail s ↔ fail e s := Iff.rfl

@[simp] theorem wp_ite {c : Prop} [Decidable c] (yes no : EStateM ε σ α) :
    wp (if c then yes else no) post fail s ↔
      (c → wp yes post fail s) ∧ (¬ c → wp no post fail s) := by
  split <;> simp_all

section Returns

/-- What the program returns from this state, if it returns, meets the condition. -/
abbrev Returns (prog : EStateM ε σ α) (post : α → σ → Prop) (s : σ) : Prop := wp prog post (fun _ _ => True) s

theorem Returns.mono {prog : EStateM ε σ α} {post' : α → σ → Prop} (returns : Returns prog post s)
    (weaker : ∀ a s', post a s' → post' a s') : Returns prog post' s :=
  wp_mono returns weaker fun _ _ => id

/-- What is known of the first part is used for the rest. -/
theorem Returns.bind {prog : EStateM ε σ α} {rest : α → EStateM ε σ β} {post' : β → σ → Prop}
    (first : Returns prog post s) (second : ∀ a s', post a s' → Returns (rest a) post' s') :
    Returns (prog >>= rest) post' s :=
  (wp_bind prog rest).mpr (first.mono second)

end Returns

section Follows

variable {R : σ → σ → Prop} {prog : EStateM ε σ α} {s₀ : σ}

/-- Whichever way the program ends, the state has only moved along the relation. -/
def Follows (R : σ → σ → Prop) (prog : EStateM ε σ α) (s : σ) : Prop :=
  wp prog (fun _ => R s) (fun _ => R s) s

/-- A call after a run that has followed the relation so far. -/
theorem Follows.wp_of [IsTrans σ R] (follows : Follows R prog s) (sofar : R s₀ s)
    (ok : ∀ a s', prog s = .ok a s' → R s₀ s' → post a s')
    (err : ∀ e s', R s₀ s' → fail e s') : wp prog post fail s := by
  refine wp_of_run (fun a s' run => ?_) fun e s' run => ?_
  · have moved := ok_of_wp follows run
    exact ok a s' run (trans_of R sofar moved)
  · have moved := error_of_wp follows run
    exact err e s' (trans_of R sofar moved)

theorem Follows.after [IsTrans σ R] (follows : Follows R prog s) (sofar : R s₀ s) :
    wp prog (fun _ => R s₀) (fun _ => R s₀) s :=
  follows.wp_of sofar (fun _ _ _ => id) fun _ _ => id

/-- A program that follows a relation follows every weaker one. -/
theorem Follows.mono {R' : σ → σ → Prop} (follows : Follows R prog s)
    (weaker : ∀ s', R s s' → R' s s') : Follows R' prog s :=
  wp_mono follows (fun _ => weaker) fun _ => weaker

/-- A program that follows a relation from wherever it starts. -/
def Always (R : σ → σ → Prop) (prog : EStateM ε σ α) : Prop := ∀ s, Follows R prog s

theorem Always.mono {R' : σ → σ → Prop} (always : Always R prog) (weaker : ∀ s s', R s s' → R' s s') :
    Always R' prog := fun s => (always s).mono (weaker s)

theorem always_pure [Std.Refl R] (a : α) : Always R (pure a : EStateM ε σ α) := fun s =>
  Std.Refl.refl s

theorem always_get [Std.Refl R] : Always R (get : EStateM ε σ σ) := fun s => Std.Refl.refl s

theorem always_throw [Std.Refl R] (e : ε) : Always R (throw e : EStateM ε σ α) := fun s =>
  Std.Refl.refl s

theorem always_modify {change : σ → σ} (moves : ∀ s, R s (change s)) :
    Always R (modify change : EStateM ε σ PUnit) := moves

theorem always_bind [IsTrans σ R] {rest : α → EStateM ε σ β} (first : Always R prog)
    (second : ∀ a, Always R (rest a)) : Always R (prog >>= rest) := by
  intro s
  unfold Follows
  rw [wp_bind]
  refine wp_mono (first s) (fun a s' moved => ?_) fun _ _ => id
  exact (second a s').after moved

theorem always_ite {c : Prop} [Decidable c] {yes no : EStateM ε σ α} (first : Always R yes)
    (second : Always R no) : Always R (if c then yes else no) := by
  split
  · exact first
  · exact second

end Follows

section Succeeds

variable {R : σ → σ → Prop} {prog : EStateM ε σ α}

/-- The program never aborts, and the state only moves along the relation. -/
def Succeeds (R : σ → σ → Prop) (prog : EStateM ε σ α) : Prop :=
  ∀ s, wp prog (fun _ => R s) (fun _ _ => False) s

theorem succeeds_pure [Std.Refl R] (a : α) : Succeeds R (pure a : EStateM ε σ α) := fun s =>
  Std.Refl.refl s

theorem succeeds_get [Std.Refl R] : Succeeds R (get : EStateM ε σ σ) := fun s => Std.Refl.refl s

theorem succeeds_bind [IsTrans σ R] {rest : α → EStateM ε σ β} (first : Succeeds R prog)
    (second : ∀ a, Succeeds R (rest a)) : Succeeds R (prog >>= rest) := by
  intro s
  rw [wp_bind]
  refine wp_mono (first s) (fun a s' moved => ?_) fun _ _ => id
  exact wp_mono (second a s') (fun _ _ => trans_of R moved) fun _ _ => id

theorem succeeds_ite {c : Prop} [Decidable c] {yes no : EStateM ε σ α} (first : Succeeds R yes)
    (second : Succeeds R no) : Succeeds R (if c then yes else no) := by
  split
  · exact first
  · exact second

end Succeeds

end Rel4.Lib
