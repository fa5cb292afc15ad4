import PulseSequencer.Proofs.Sequence.Compilation
import PulseSequencer.Proofs.Sequence.Run

/-!
This module contains that a compilation which fails stores nothing, and that the channels which it was to compile wait
until one succeeds.
-/

namespace PulseSequencer.Sequence

variable {α : Type} [Scalar α]

/--
The sequences that come about from another one as long as no compilation succeeds. The slices may be replaced by any
others in between, with whatever memory.
-/
inductive Unfinished (q : Sequence α) : Sequence α → Prop
  | refl : Unfinished q q
  | perform {r : Sequence α} (command : Command α) : Unfinished q r →
    (command = .compile → ∃ cause, r.compile.result = .error cause) → Unfinished q (r.perform command)
  | rework {r : Sequence α} (slices : List (Slice α)) : Unfinished q r → Unfinished q { r with slices := slices }

variable {q r : Sequence α} {cause : Error α} {ch : ChannelId}

theorem mem_recompilationSet_of_pending (waiting : ch ∈ q.pendingCompile) : ch ∈ q.recompilationSet := by
  unfold recompilationSet
  rw [ChannelSet.mem_union, ChannelSet.mem_union]
  exact .inl (.inl waiting)

theorem compile_state_of_error (failed : q.compile.result = .error cause) :
    q.compile.state = { q with slices := q.compile.state.slices, pendingCompile := q.recompilationSet } := by
  rcases compile_cases q with ⟨_, slices, _, state, _⟩ | ⟨_, ok, _⟩
  · rw [state]
  · rw [failed] at ok
    cases ok

theorem compile_result_eq_ok {todo : ChannelSet} (ok : q.compile.result = .ok todo) : todo = q.recompilationSet :=
  (compile_of_ok ok).1

theorem mem_pendingCompile_perform {command : Command α} (waiting : ch ∈ q.pendingCompile)
    (unfinished : command = .compile → ∃ cause, q.compile.result = .error cause) :
    ch ∈ (q.perform command).pendingCompile := by
  rcases perform_cases q command with kept | ⟨s, rfl, added⟩ | ⟨name, rfl⟩ | ⟨top, rest, c, rfl⟩ | rfl
  · rw [kept.pendingCompile]
    exact waiting
  · obtain ⟨_, state⟩ := addSlice_eq_ok added
    rw [state]
    exact waiting
  · exact waiting
  · simp only [perform, workIn]
    split
    · exact waiting
    · exact waiting
  · obtain ⟨cause, failed⟩ := unfinished rfl
    rw [perform, compile_state_of_error failed]
    exact mem_recompilationSet_of_pending waiting

theorem Unfinished.mem_pendingCompile (run : Unfinished q r) (waiting : ch ∈ q.pendingCompile) :
    ch ∈ r.pendingCompile := by
  induction run with
  | refl => exact waiting
  | perform command _ unfinished ih => exact mem_pendingCompile_perform ih unfinished
  | rework slices _ ih => exact ih

/--
A compilation that fails changes nothing but the memory of slices and the set of the channels that wait to be compiled.
These are the ones that it was to compile, and whatever follows, each compilation up to the next success has them to do.
-/
theorem compile_retries (failed : q.compile.result = .error cause) :
    q.compile.state = { q with slices := q.compile.state.slices, pendingCompile := q.recompilationSet }
      ∧ q.compile.state.slices.map Slice.renew = q.slices.map Slice.renew
      ∧ (∀ ch ∈ q.pendingCompile, ch ∈ q.recompilationSet)
      ∧ ∀ r, Unfinished q.compile.state r → ∀ ch ∈ q.recompilationSet,
        ch ∈ r.recompilationSet ∧ ∀ todo, r.compile.result = .ok todo → ch ∈ todo := by
  have state := compile_state_of_error failed
  refine ⟨state, map_renew_compile q, fun ch => mem_recompilationSet_of_pending, ?_⟩
  intro r run ch mem
  have waiting : ch ∈ q.compile.state.pendingCompile := by
    rw [state]
    exact mem
  have again := mem_recompilationSet_of_pending (run.mem_pendingCompile waiting)
  refine ⟨again, ?_⟩
  intro todo ok
  rw [compile_result_eq_ok ok]
  exact again

theorem compile_earlyPulse_retries :
    ∃ cause, earlyPulse.compile.result = .error cause
      ∧ ∃ r, Unfinished earlyPulse.compile.state r ∧ r.compile.result.isOk = true
        ∧ ∀ todo, r.compile.result = .ok todo → ⟨0⟩ ∈ todo := by
  obtain ⟨cause, failed⟩ := exists_error_of_not_isOk (x := earlyPulse.compile.result) (by decide +kernel)
  have again := exists_error_of_not_isOk (x := earlyPulse.compile.state.compile.result) (by decide +kernel)
  have run : Unfinished earlyPulse.compile.state ((earlyPulse.compile.state.perform .compile).perform
      (.atSlice "drive" [] (.edit ⟨0⟩ .clearWaveform))) :=
    .perform _ (.perform .compile .refl fun _ => again) nofun
  refine ⟨cause, failed, _, run, by decide +kernel, ?_⟩
  exact ((compile_retries failed).2.2.2 _ run ⟨0⟩ (by decide +kernel)).2

end PulseSequencer.Sequence
