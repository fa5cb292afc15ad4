import PulseSequencer.Outcome

/-!
This module contains how a computation that may fail comes to an end: each of its steps succeeds, or the first one that
fails is the last one. It also contains what it means that a computation can be repeated.
-/

namespace PulseSequencer

theorem bind_eq_ok_iff {ε β γ : Type} {x : Except ε β} {f : β → Except ε γ} {r : γ} :
    x >>= f = .ok r ↔ ∃ a, x = .ok a ∧ f a = .ok r := by
  cases x with
  | error cause => simp [bind, Except.bind]
  | ok a => simp [bind, Except.bind]

theorem bind_eq_error_iff {ε β γ : Type} {x : Except ε β} {f : β → Except ε γ} {cause : ε} :
    x >>= f = .error cause ↔ x = .error cause ∨ ∃ a, x = .ok a ∧ f a = .error cause := by
  cases x with
  | error cause => simp [bind, Except.bind]
  | ok a => simp [bind, Except.bind]

theorem map_eq_ok_iff {ε β γ : Type} {x : Except ε β} {f : β → γ} {r : γ} :
    x.map f = .ok r ↔ ∃ a, x = .ok a ∧ f a = r := by
  cases x with
  | error cause => simp [Except.map]
  | ok a => simp [Except.map]

theorem map_eq_error_iff {ε β γ : Type} {x : Except ε β} {f : β → γ} {cause : ε} :
    x.map f = .error cause ↔ x = .error cause := by
  cases x with
  | error cause => simp [Except.map]
  | ok a => simp [Except.map]

theorem exists_ok_of_isOk {ε β : Type} {x : Except ε β} (h : x.isOk = true) : ∃ a, x = .ok a := by
  cases x with
  | error cause => cases h
  | ok a => exact ⟨a, rfl⟩

theorem exists_error_of_not_isOk {ε β : Type} {x : Except ε β} (h : x.isOk = false) : ∃ cause, x = .error cause := by
  cases x with
  | error cause => exact ⟨cause, rfl⟩
  | ok a => cases h

theorem isOk_mapError {ε ε' β : Type} (x : Except ε β) (f : ε → ε') : (x.mapError f).isOk = x.isOk := by
  cases x with
  | error cause => rfl
  | ok a => rfl

namespace Outcome

variable {α σ ρ τ : Type}

theorem result_andThen_eq_ok_iff {first : Outcome α σ ρ} {next : ρ → σ → Outcome α σ τ} {r : τ} :
    (first.andThen next).result = .ok r ↔ ∃ a, first.result = .ok a ∧ (next a first.state).result = .ok r := by
  obtain ⟨_ | a, state, events⟩ := first
  · simp [andThen]
  · simp [andThen]

theorem state_andThen (first : Outcome α σ ρ) (next : ρ → σ → Outcome α σ τ) :
    (first.andThen next).state
      = match first.result with | .ok a => (next a first.state).state | .error _ => first.state := by
  obtain ⟨_ | a, state, events⟩ := first
  · rfl
  · rfl

theorem state_andThen_of_ok {first : Outcome α σ ρ} {a : ρ} (h : first.result = .ok a)
    (next : ρ → σ → Outcome α σ τ) : (first.andThen next).state = (next a first.state).state := by
  rw [state_andThen, h]

theorem state_andThen_of_error {first : Outcome α σ ρ} {cause : Error α} (h : first.result = .error cause)
    (next : ρ → σ → Outcome α σ τ) : (first.andThen next).state = first.state := by
  rw [state_andThen, h]

theorem result_andThen (first : Outcome α σ ρ) (next : ρ → σ → Outcome α σ τ) :
    (first.andThen next).result = first.result.bind fun a => (next a first.state).result := by
  obtain ⟨_ | a, state, events⟩ := first
  · rfl
  · rfl

def Succeeds (P : ρ → σ → Prop) (o : Outcome α σ ρ) : Prop :=
  ∃ a, o.result = .ok a ∧ P a o.state

theorem Succeeds.andThen {P : ρ → σ → Prop} {Q : τ → σ → Prop} {first : Outcome α σ ρ}
    {next : ρ → σ → Outcome α σ τ} (done : first.Succeeds P) (later : ∀ a s, P a s → (next a s).Succeeds Q) :
    (first.andThen next).Succeeds Q := by
  obtain ⟨a, ok, here⟩ := done
  obtain ⟨b, ok', there⟩ := later a first.state here
  refine ⟨b, result_andThen_eq_ok_iff.mpr ⟨a, ok, ok'⟩, ?_⟩
  rw [state_andThen_of_ok ok]
  exact there

def check (found : Except (Error α) ρ) (s : σ) : Outcome α σ ρ := ⟨found, s, []⟩

def write (change : σ → σ) (s : σ) : Outcome α σ Unit := .done () (change s)

def settle (s : σ) : Except (Error α) (σ × ρ) → Outcome α σ ρ
  | .ok (s', value) => .done value s'
  | .error cause => .failed cause s

section Writes

variable {s : σ}

@[simp]
theorem check_ok_andThen (a : ρ) (next : ρ → σ → Outcome α σ τ) :
    (check (.ok a : Except (Error α) ρ) s).andThen next = next a s := rfl

@[simp]
theorem check_error_andThen (cause : Error α) (next : ρ → σ → Outcome α σ τ) :
    (check (.error cause) s).andThen next = .failed cause s := rfl

@[simp]
theorem write_andThen (change : σ → σ) (next : Unit → σ → Outcome α σ τ) :
    (write change s).andThen next = next () (change s) := rfl

theorem state_settle_of_error {answer : Except (Error α) (σ × ρ)} {cause : Error α}
    (refused : (settle s answer).result = .error cause) : (settle s answer).state = s := by
  cases answer with
  | error cause => rfl
  | ok done => cases refused

end Writes

structure AllOrNothing (o : Outcome α σ ρ) (s : σ) : Prop where
  unchanged : ∀ cause, o.result = .error cause → o.state = s
  silent : o.events = []

theorem AllOrNothing.settle (s : σ) (answer : Except (Error α) (σ × ρ)) : AllOrNothing (settle s answer) s where
  unchanged _ refused := state_settle_of_error refused
  silent := by cases answer <;> rfl

theorem AllOrNothing.eq_settle {o : Outcome α σ ρ} {s : σ} (whole : AllOrNothing o s) :
    o = .settle s (o.result.map fun value => (o.state, value)) := by
  obtain ⟨cause | value, state, events⟩ := o
  · cases whole.unchanged cause rfl
    cases whole.silent
    rfl
  · cases whole.silent
    rfl

structure Repeats (work : σ → Outcome α σ ρ) (s : σ) : Prop where
  result : (work (work s).state).result = (work s).result
  state : (work (work s).state).state = (work s).state

namespace Repeats

variable {work : σ → Outcome α σ ρ} {s : σ}

theorem of_done {value : ρ} (done : work s = .done value s) : Repeats work s := by
  have state : (work s).state = s := by rw [done, Outcome.done]
  constructor
  · rw [state]
  · rw [state, state]

theorem andThen {next : ρ → σ → Outcome α σ τ} (again : Repeats work s) (still : ∀ a t, (next a t).state = t) :
    Repeats (fun t => (work t).andThen next) s := by
  have state (t : σ) : ((work t).andThen next).state = (work t).state := by
    rw [state_andThen]
    cases (work t).result with
    | error cause => rfl
    | ok a => exact still a (work t).state
  constructor
  · rw [state, result_andThen, result_andThen, again.result, again.state]
  · rw [state, state, again.state]

end Repeats

def onEach (work : τ → σ → Outcome α σ τ) (value : τ) : List σ → Outcome α (List σ) τ
  | [] => .done value []
  | s :: rest =>
    match work value s with
    | ⟨.error cause, s, events⟩ => ⟨.error cause, s :: rest, events⟩
    | ⟨.ok value, s, events⟩ =>
      match onEach work value rest with
      | ⟨result, rest, later⟩ => ⟨result, s :: rest, events ++ later⟩

theorem Repeats.onEach {work : τ → σ → Outcome α σ τ} {row : List σ} (each : ∀ s ∈ row, ∀ value, Repeats (work value) s)
    (value : τ) : Repeats (Outcome.onEach work value) row := by
  induction row generalizing value with
  | nil => exact .of_done rfl
  | cons s rest ih =>
    rw [List.forall_mem_cons] at each
    obtain ⟨result, state⟩ := each.1 value
    rcases first : work value s with ⟨cause | next, s', events⟩
    · rw [first] at result state
      rcases again : work value s' with ⟨result', s'', events'⟩
      rw [again] at result state
      cases result
      cases state
      constructor
      · simp only [Outcome.onEach, first, again]
      · simp only [Outcome.onEach, first, again]
    · rw [first] at result state
      rcases again : work value s' with ⟨result', s'', events'⟩
      rw [again] at result state
      cases result
      cases state
      have later := ih each.2 next
      constructor
      · simp only [Outcome.onEach, first, again]
        exact later.result
      · simp only [Outcome.onEach, first, again]
        rw [later.state]

end Outcome

end PulseSequencer
