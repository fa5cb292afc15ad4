import PulseSequencer.Proofs.Sequence.Names
import PulseSequencer.Proofs.Sequence.Phases
import PulseSequencer.Proofs.Waveform.Sampling

/-!
This module contains when the channels can be loaded after a compilation, given devices that do as they are told: all
waiting channels have to have one, and those with nothing to play are not exempt.
-/

namespace PulseSequencer.Sequence

variable {α : Type} [Scalar α]

open ChannelDevice

section Success

variable {q : Sequence α} {ids : List ChannelId} {ch : ChannelId}

def Operational (ids : List ChannelId) (q : Sequence α) : Prop :=
  ∀ ch ∈ ids, ∃ d, q.devices.get? ch = some d ∧ d.Works

theorem Operational.callChannel {ρ : Type} {name : String} {operation : Operation}
    {call : ChannelDevice α → Reply α (ChannelDevice α) ρ} (operational : Operational ids q) (mem : ch ∈ ids)
    (dependable : Dependable call) :
    (q.callChannel ch name operation call).Succeeds fun _ r => Operational ids r := by
  obtain ⟨d, here, works⟩ := operational ch mem
  obtain ⟨value, ok, still⟩ := dependable d works
  unfold Sequence.callChannel
  rw [here]
  dsimp only
  rw [ok]
  refine ⟨value, rfl, ?_⟩
  intro c other
  dsimp only
  rw [Table.get?_insert]
  split
  · exact ⟨_, rfl, still⟩
  · exact operational c other

theorem Operational.asked {r : Sequence α} (operational : Operational ids q) (asked : Asked q r) : Operational ids r := by
  intro ch mem
  obtain ⟨d, here, works⟩ := operational ch mem
  have devices := asked.devices ch
  rw [here, Option.map_some, Option.map_eq_some_iff] at devices
  obtain ⟨d', found, same⟩ := devices
  exact ⟨d', found, works.of_unjournaled same⟩

theorem Operational.prepareAll (operational : Operational ids q) (ready : ∀ ch ∈ ids, ¬ Unready q ch) :
    (Sequence.prepareAll ids q).Succeeds fun loads r => (∀ load ∈ loads, load.channel ∈ ids) ∧ Operational ids r := by
  have asked := (surveyed_prepareAll ids q).asked
  have fails : (∃ cause, (prepareAllTraced ids q).outcome.result = .error cause) ↔ ∃ ch ∈ ids, Unready q ch :=
    prepareAll_fails_iff
  rw [outcome_prepareAllTraced] at asked fails
  cases made : (Sequence.prepareAll ids q).result with
  | error cause =>
    obtain ⟨ch, mem, unready⟩ := fails.mp ⟨cause, made⟩
    exact absurd unready (ready ch mem)
  | ok loads =>
    refine ⟨loads, made, ?_, operational.asked asked⟩
    intro load mem
    rw [← channels_of_prepareAll made]
    exact List.mem_map_of_mem mem

theorem Operational.loadOne {load : Load α} (operational : Operational ids q) (mem : load.channel ∈ ids) :
    (Sequence.loadOne load q).Succeeds fun _ r => Operational ids r := by
  apply (operational.callChannel mem dependable_stop).andThen
  intro _ r operational
  have written : (writeLoad load r).Succeeds fun _ s => Operational ids s := by
    unfold writeLoad
    cases load.buffer with
    | none => exact ⟨(), rfl, operational⟩
    | some buffer => exact operational.callChannel mem (dependable_write buffer.1 buffer.2)
  apply written.andThen
  intro _ s operational
  exact ⟨(), rfl, operational⟩

theorem forAll_succeeds {β : Type} {work : β → Sequence α → Outcome α (Sequence α) Unit} {xs : List β}
    {P : Sequence α → Prop} (step : ∀ x ∈ xs, ∀ r, P r → (work x r).Succeeds fun _ s => P s) (start : P q) :
    (forAll work xs q).Succeeds fun _ s => P s := by
  induction xs generalizing q with
  | nil => exact ⟨(), rfl, start⟩
  | cons x rest ih =>
    rw [List.forall_mem_cons] at step
    apply (step.1 q start).andThen
    intro _ r here
    exact ih step.2 here

theorem program_of_operational (operational : Operational q.pendingProgram.ids q)
    (ready : ∀ ch ∈ q.pendingProgram, ¬ Unready q ch) : ∃ n, q.program.result = .ok n := by
  have loaded : q.program.Succeeds fun _ _ => True := by
    apply (operational.prepareAll ready).andThen
    rintro loads r ⟨mems, operational⟩
    apply (forAll_succeeds (fun load mem s => fun here => here.loadOne (mems load mem)) operational).andThen
    intro _ s _
    exact ⟨loads.length, rfl, trivial⟩
  obtain ⟨n, ok, _⟩ := loaded
  exact ⟨n, ok⟩

end Success

section Missing

variable {q r : Sequence α} {before after : List ChannelId} {c : ChannelId}

theorem Asked.missing (asked : Asked q r) (missing : q.devices.get? c = none) : r.devices.get? c = none := by
  have devices := asked.devices c
  rw [missing, Option.map_none, Option.map_eq_none_iff] at devices
  exact devices

theorem prepareAll_of_missing (ready : ∀ ch ∈ before, ¬ Unready q ch) (missing : q.devices.get? c = none) :
    (prepareAll (before ++ c :: after) q).result = .error (.unknown .channel (q.registry.channelName c)) := by
  induction before generalizing q with
  | nil =>
    have refused : (q.prepare c).result = .error (.unknown .channel (q.registry.channelName c)) := by
      unfold prepare
      rw [missing]
      rfl
    rw [List.nil_append, prepareAll, Outcome.result_andThen, refused]
    rfl
  | cons ch rest ih =>
    rw [List.forall_mem_cons] at ready
    have asked := surveyed_prepare q ch
    have fails : (∃ cause, (q.prepareTraced ch).outcome.result = .error cause) ↔ Unready q ch := prepare_fails_iff
    rw [outcome_prepareTraced] at asked fails
    have registry : (q.prepare ch).state.registry = q.registry := by rw [asked.rest]
    have later := ih (fun c mem => mt (unready_congr asked).mp (ready.2 c mem)) (asked.missing missing)
    rw [List.cons_append, prepareAll, Outcome.result_andThen]
    cases first : (q.prepare ch).result with
    | error cause => exact absurd (fails.mp ⟨cause, first⟩) ready.1
    | ok load =>
      dsimp only [Except.bind]
      rw [Outcome.result_andThen, later, registry]
      rfl

theorem program_of_missing (split : q.pendingProgram.ids = before ++ c :: after)
    (ready : ∀ ch ∈ before, ¬ Unready q ch) (missing : q.devices.get? c = none) :
    q.program.result = .error (.unknown .channel (q.registry.channelName c)) := by
  unfold program
  rw [split, Outcome.result_andThen, prepareAll_of_missing ready missing]
  rfl

end Missing

section Compiled

variable {q : Sequence α} {todo : ChannelSet}

def AllWork (q : Sequence α) : Prop :=
  ∀ ch d, q.devices.get? ch = some d → d.Works

/--
Whether what a channel has to play can be sampled for its device, so that the number of samples is a word.
-/
def Samplable (q : Sequence α) (ch : ChannelId) : Prop :=
  ∀ d w, q.devices.get? ch = some d → q.compiled.get? ch = some w →
    Grid.roundUp (w.sampleCount d.rate) d.minUnit < 2 ^ 64

theorem unready_iff_of_allWork {ch : ChannelId} (works : q.AllWork) :
    Unready q ch ↔ q.devices.get? ch = none ∨ ¬ Samplable q ch := by
  constructor
  · rintro (missing | ⟨d, w, here, content, ⟨cause, failed⟩ | lost⟩)
    · exact .inl missing
    · obtain ⟨rate, ok, _⟩ := dependable_sampleRate d (works ch d here)
      rw [failed] at ok
      cases ok
    · rw [Waveform.normalizedSample_eq_none_iff, ← not_lt] at lost
      exact .inr fun samplable => lost (samplable d w here content)
  · rintro (missing | lost)
    · exact .inl missing
    · unfold Samplable at lost
      push Not at lost
      obtain ⟨d, w, here, content, beyond⟩ := lost
      exact .inr ⟨d, w, here, content, .inr (Waveform.normalizedSample_eq_none_iff.mpr beyond)⟩

theorem not_unready_of_allWork {ch : ChannelId} (works : q.AllWork) (present : q.devices.get? ch ≠ none)
    (samplable : Samplable q ch) : ¬ Unready q ch := by
  rw [unready_iff_of_allWork works, not_or, not_not]
  exact ⟨present, samplable⟩

theorem operational_of_allWork {ids : List ChannelId} (works : q.AllWork)
    (present : ∀ ch ∈ ids, q.devices.get? ch ≠ none) : Operational ids q := by
  intro ch mem
  obtain ⟨d, here⟩ := Option.ne_none_iff_exists'.mp (present ch mem)
  exact ⟨d, here, works ch d here⟩

theorem program_of_allWork (works : q.AllWork) :
    ((∃ n, q.program.result = .ok n) ↔ ∀ ch ∈ q.pendingProgram, q.devices.get? ch ≠ none ∧ Samplable q ch)
      ∧ ((∃ n, q.program.result = .ok n) → Completed q)
      ∧ ∀ before c after, q.pendingProgram.ids = before ++ c :: after →
        (∀ ch ∈ before, q.devices.get? ch ≠ none ∧ Samplable q ch) → q.devices.get? c = none →
          q.program.result = .error (.unknown .channel (q.registry.channelName c)) ∧ Abandoned q := by
  refine ⟨⟨?_, ?_⟩, ?_, ?_⟩
  · rintro ⟨n, ok⟩ ch waiting
    by_contra bad
    rw [not_and_or, not_not, ← unready_iff_of_allWork works] at bad
    obtain ⟨cause, failed⟩ := (abandoned_of_unready ⟨ch, waiting, bad⟩).failed
    rw [ok] at failed
    cases failed
  · intro fit
    apply program_of_operational (operational_of_allWork works fun ch mem => (fit ch mem).1)
    intro ch waiting
    exact not_unready_of_allWork works (fit ch waiting).1 (fit ch waiting).2
  · rintro ⟨n, ok⟩
    exact completed_of_ok ok
  · intro before c after split fit missing
    have waiting : c ∈ q.pendingProgram := by
      rw [ChannelSet.mem_def, split]
      simp
    refine ⟨program_of_missing split ?_ missing, abandoned_of_unready ⟨c, waiting, .inl missing⟩⟩
    intro ch mem
    exact not_unready_of_allWork works (fit ch mem).1 (fit ch mem).2

theorem pendingProgram_compile (ok : q.compile.result = .ok todo) :
    q.compile.state.pendingProgram = q.pendingProgram ∪ todo := by
  obtain ⟨rfl, _, state, _⟩ := compile_of_ok ok
  rw [state]
  rfl

/--
Loading after a successful compilation, with devices that work and one for each channel that has something to play. All
channels that were compiled wait to be loaded, also those with nothing to play. If all of them have devices, and not more
samples than can be counted, then loading succeeds. If not, then the first one without a device, which has nothing to play,
keeps all others from being loaded.
-/
theorem program_after_compile (ok : q.compile.result = .ok todo) (works : q.AllWork)
    (present : ∀ ch w, q.compile.state.compiled.get? ch = some w → q.devices.get? ch ≠ none) :
    q.compile.state.pendingProgram = q.pendingProgram ∪ todo
      ∧ ((∃ n, q.compile.state.program.result = .ok n)
        ↔ ∀ ch, ch ∈ q.pendingProgram ∨ ch ∈ todo → q.devices.get? ch ≠ none ∧ Samplable q.compile.state ch)
      ∧ ((∃ n, q.compile.state.program.result = .ok n) → Completed q.compile.state)
      ∧ ∀ before c after, (q.pendingProgram ∪ todo).ids = before ++ c :: after →
        (∀ ch ∈ before, q.devices.get? ch ≠ none ∧ Samplable q.compile.state ch) → q.devices.get? c = none →
          q.compile.state.compiled.get? c = none
            ∧ q.compile.state.program.result = .error (.unknown .channel (q.registry.channelName c))
            ∧ Abandoned q.compile.state := by
  have pending := pendingProgram_compile ok
  have still : q.compile.state.AllWork := by
    unfold AllWork
    rw [devices_compile]
    exact works
  have loading := program_of_allWork still
  rw [devices_compile, registry_compile, pending] at loading
  obtain ⟨succeeds, completed, fails⟩ := loading
  refine ⟨pending, ?_, completed, ?_⟩
  · rw [succeeds]
    simp only [ChannelSet.mem_union]
  · intro before c after split ready missing
    refine ⟨?_, fails before c after split ready missing⟩
    cases content : q.compile.state.compiled.get? c with
    | none => rfl
    | some w => exact absurd missing (present c w content)

def looseChannel : Sequence Float :=
  (onePulse.perform (.addChannel "loose")).perform (.atSlice "drive" [] (.edit ⟨1⟩ .clearWaveform))

theorem made_looseChannel : looseChannel.Made := by
  refine .perform (.atSlice "drive" [] (.edit ⟨1⟩ .clearWaveform)) ?_ trivial
  exact .perform (.addChannel "loose") made_onePulse trivial

theorem allWork_of_memory {q : Sequence Float} {ch : ChannelId} {rate : Float} {minUnit : UInt64}
    (devices : q.devices = (∅ : Table ChannelId (ChannelDevice Float)).insert ch (.memory rate minUnit)) : q.AllWork := by
  intro c d here
  rw [devices, Table.get?_insert] at here
  split at here
  · cases here
    exact ⟨fun _ => rfl, rfl⟩
  · cases here

theorem samplable_of_memory {q : Sequence Float} {ch c : ChannelId} {rate : Float}
    (devices : q.devices = (∅ : Table ChannelId (ChannelDevice Float)).insert ch (.memory rate 1)) :
    Samplable q.compile.state c := by
  intro d w here _
  rw [devices_compile, devices, Table.get?_insert] at here
  split at here
  · cases here
    have single : (1 : UInt64).toNat ≤ 1 := by decide
    change Grid.roundUp (w.sampleCount rate) 1 < 2 ^ 64
    rw [Grid.roundUp_of_le_one single]
    exact UInt64.toNat_lt _
  · cases here

theorem present_of_keys {q r : Sequence Float} (all : ∀ ch ∈ r.compiled.keys, (q.devices.get? ch).isSome = true) :
    ∀ ch w, r.compiled.get? ch = some w → q.devices.get? ch ≠ none := by
  intro ch w content
  have found := all ch ((Table.mem_keys_iff r.compiled ch).mpr (by rw [content]; rfl))
  exact Option.isSome_iff_ne_none.mp found

theorem program_onePulse_and_looseChannel :
    Completed onePulse.compile.state
      ∧ looseChannel.compile.state.program.result = .error (.unknown .channel "loose")
      ∧ Abandoned looseChannel.compile.state := by
  constructor
  · obtain ⟨todo, ok⟩ := exists_ok_of_isOk (x := onePulse.compile.result) (by decide +kernel)
    obtain ⟨pending, succeeds, completed, _⟩ :=
      program_after_compile ok (allWork_of_memory rfl) (present_of_keys (by decide +kernel))
    have present : ∀ ch ∈ onePulse.compile.state.pendingProgram.ids, (onePulse.devices.get? ch).isSome = true := by
      decide +kernel
    apply completed
    rw [succeeds]
    intro ch waiting
    rw [← ChannelSet.mem_union, ← pending] at waiting
    exact ⟨Option.isSome_iff_ne_none.mp (present ch waiting), samplable_of_memory rfl⟩
  · obtain ⟨todo, ok⟩ := exists_ok_of_isOk (x := looseChannel.compile.result) (by decide +kernel)
    obtain ⟨pending, _, _, fails⟩ :=
      program_after_compile ok (allWork_of_memory rfl) (present_of_keys (by decide +kernel))
    have split : (looseChannel.pendingProgram ∪ todo).ids = [⟨0⟩] ++ ⟨1⟩ :: [] := by
      rw [← pending]
      decide +kernel
    have ready : ∀ ch ∈ [⟨0⟩], looseChannel.devices.get? ch ≠ none ∧ Samplable looseChannel.compile.state ch := by
      intro ch mem
      rw [List.mem_singleton.mp mem]
      exact ⟨nofun, samplable_of_memory rfl⟩
    obtain ⟨_, failed, abandoned⟩ := fails [⟨0⟩] ⟨1⟩ [] split ready rfl
    exact ⟨failed, abandoned⟩

/--
It is not true that the channels can be loaded after every successful compilation.
-/
theorem not_program_after_every_compile :
    ¬ ∀ q : Sequence Float, q.Made → ∀ todo, q.compile.result = .ok todo → q.AllWork →
      (∀ ch w, q.compile.state.compiled.get? ch = some w → q.devices.get? ch ≠ none) →
        (∃ n, q.compile.state.program.result = .ok n) ∧ q.compile.state.program.state.pendingProgram = ∅ := by
  intro every
  obtain ⟨todo, ok⟩ := exists_ok_of_isOk (x := looseChannel.compile.result) (by decide +kernel)
  obtain ⟨⟨n, loaded⟩, _⟩ := every looseChannel made_looseChannel todo ok (allWork_of_memory rfl)
    (present_of_keys (by decide +kernel))
  have missing : looseChannel.compile.state.devices.get? ⟨1⟩ = none := Option.isNone_iff_eq_none.mp (by decide +kernel)
  obtain ⟨cause, failed⟩ := (abandoned_of_unready ⟨⟨1⟩, by decide +kernel, .inl missing⟩).failed
  rw [loaded] at failed
  cases failed

end Compiled

end PulseSequencer.Sequence
