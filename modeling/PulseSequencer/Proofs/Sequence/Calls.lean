import PulseSequencer.Proofs.Device.Channel
import PulseSequencer.Proofs.Sequence.Hardware

/-!
This module contains the loading of channels with a record of the calls that are issued to their devices. The record is
kept beside the loading itself, and it agrees with what the devices have noted in their journals.
-/

namespace PulseSequencer.Sequence

variable {α : Type} [Scalar α]

structure Issued where
  channel : ChannelId
  operation : Operation
  carriedOut : Bool
deriving DecidableEq, Repr

structure Traced (α : Type) [Scalar α] (ρ : Type) where
  outcome : Outcome α (Sequence α) ρ
  calls : List Issued

namespace Traced

variable {ρ τ : Type}

def silent (o : Outcome α (Sequence α) ρ) : Traced α ρ := ⟨o, []⟩

def andThen (first : Traced α ρ) (next : ρ → Sequence α → Traced α τ) : Traced α τ where
  outcome := first.outcome.andThen fun a q => (next a q).outcome
  calls :=
    match first.outcome.result with
    | .ok a => first.calls ++ (next a first.outcome.state).calls
    | .error _ => first.calls

section Steps

variable {first : Traced α ρ} {next : ρ → Sequence α → Traced α τ} {a : ρ} {cause : Error α}

theorem result_of_ok (ok : first.outcome.result = .ok a) :
    (first.andThen next).outcome.result = (next a first.outcome.state).outcome.result := by
  unfold andThen
  rw [Outcome.result_andThen, ok]
  rfl

theorem state_of_ok (ok : first.outcome.result = .ok a) :
    (first.andThen next).outcome.state = (next a first.outcome.state).outcome.state :=
  Outcome.state_andThen_of_ok ok _

theorem calls_of_ok (ok : first.outcome.result = .ok a) :
    (first.andThen next).calls = first.calls ++ (next a first.outcome.state).calls := by
  unfold andThen
  rw [ok]

theorem result_of_error (failed : first.outcome.result = .error cause) :
    (first.andThen next).outcome.result = .error cause := by
  unfold andThen
  rw [Outcome.result_andThen, failed]
  rfl

theorem state_of_error (failed : first.outcome.result = .error cause) :
    (first.andThen next).outcome.state = first.outcome.state :=
  Outcome.state_andThen_of_error failed _

theorem calls_of_error (failed : first.outcome.result = .error cause) : (first.andThen next).calls = first.calls := by
  unfold andThen
  rw [failed]

end Steps

end Traced

section Program

variable {β ρ : Type}

def callTraced (q : Sequence α) (ch : ChannelId) (name : String) (operation : Operation)
    (call : ChannelDevice α → Reply α (ChannelDevice α) ρ) : Traced α ρ :=
  let o := q.callChannel ch name operation call
  ⟨o, if q.devices.contains ch then [⟨ch, operation, o.result.isOk⟩] else []⟩

def forAllTraced (work : β → Sequence α → Traced α Unit) : List β → Sequence α → Traced α Unit
  | [], q => .silent (.done () q)
  | x :: rest, q => (work x q).andThen fun _ q => forAllTraced work rest q

def prepareTraced (q : Sequence α) (ch : ChannelId) : Traced α (Load α) :=
  let name := q.registry.channelName ch
  match q.devices.get? ch, q.compiled? ch with
  | none, _ => .silent (.failed (.unknown .channel name) q)
  | some _, none => .silent (.done ⟨ch, name, none⟩ q)
  | some device, some w =>
    (q.callTraced ch name .sampleRate (·.sampleRate)).andThen fun rate q =>
      .silent (q.makeLoad ch name (w.normalizedSample rate device.minUnit))

def prepareAllTraced : List ChannelId → Sequence α → Traced α (List (Load α))
  | [], q => .silent (.done [] q)
  | ch :: rest, q =>
    (q.prepareTraced ch).andThen fun load q =>
    (prepareAllTraced rest q).andThen fun loads q => .silent (.done (load :: loads) q)

def stopTraced (load : Load α) (q : Sequence α) : Traced α Unit :=
  q.callTraced load.channel load.name .stop (·.stop)

def writeTraced (load : Load α) (q : Sequence α) : Traced α Unit :=
  match load.buffer with
  | some (samples, peak) => q.callTraced load.channel load.name .writeRawWaveform (·.write samples peak)
  | none => .silent (.done () q)

def loadOneTraced (load : Load α) (q : Sequence α) : Traced α Unit :=
  (stopTraced load q).andThen fun _ q =>
  (writeTraced load q).andThen fun _ q =>
  .silent (.done () { q with pendingProgram := q.pendingProgram.erase load.channel })

def programTraced (q : Sequence α) : Traced α Nat :=
  (prepareAllTraced q.pendingProgram.ids q).andThen fun loads q =>
  (forAllTraced loadOneTraced loads q).andThen fun _ q =>
  .silent (({ q with programmed := true }.note (.programmed loads.length)).andThen fun _ q =>
  .done loads.length q)

def programCalls (q : Sequence α) : List Issued :=
  q.programTraced.calls

end Program

section Outcomes

variable {β : Type} {q : Sequence α}

theorem outcome_prepareTraced (q : Sequence α) (ch : ChannelId) : (q.prepareTraced ch).outcome = q.prepare ch := by
  unfold prepareTraced prepare
  dsimp only
  cases q.devices.get? ch with
  | none => rfl
  | some device =>
    cases q.compiled? ch with
    | none => rfl
    | some w => rfl

theorem outcome_prepareAllTraced (ids : List ChannelId) (q : Sequence α) :
    (prepareAllTraced ids q).outcome = prepareAll ids q := by
  induction ids generalizing q with
  | nil => rfl
  | cons ch rest ih =>
    simp only [prepareAllTraced, prepareAll, Traced.andThen, Traced.silent, outcome_prepareTraced, ih]

theorem outcome_writeTraced (load : Load α) (q : Sequence α) : (writeTraced load q).outcome = writeLoad load q := by
  unfold writeTraced writeLoad
  cases load.buffer with
  | none => rfl
  | some buffer => rfl

theorem outcome_loadOneTraced (load : Load α) (q : Sequence α) : (loadOneTraced load q).outcome = loadOne load q := by
  simp only [loadOneTraced, loadOne_eq, Traced.andThen, Traced.silent, outcome_writeTraced]
  rfl

theorem outcome_forAllTraced {work : β → Sequence α → Traced α Unit} {plain : β → Sequence α → Outcome α (Sequence α) Unit}
    (same : ∀ x q, (work x q).outcome = plain x q) (xs : List β) (q : Sequence α) :
    (forAllTraced work xs q).outcome = forAll plain xs q := by
  induction xs generalizing q with
  | nil => rfl
  | cons x rest ih => simp only [forAllTraced, forAll, Traced.andThen, same, ih]

theorem outcome_programTraced (q : Sequence α) : q.programTraced.outcome = q.program := by
  have loaded (loads : List (Load α)) (r : Sequence α) :
      (forAllTraced loadOneTraced loads r).outcome = forAll loadOne loads r :=
    outcome_forAllTraced outcome_loadOneTraced loads r
  simp only [programTraced, program, Traced.andThen, Traced.silent, outcome_prepareAllTraced, loaded]

end Outcomes

/--
Relations between the sequence before, the calls issued, and the sequence after, that hold along a run of operations if
they hold of each.
-/
structure Composes (R : Sequence α → List Issued → Sequence α → Prop) : Prop where
  refl : ∀ q, R q [] q
  trans : ∀ {q r s c d}, R q c r → R r d s → R q (c ++ d) s

namespace Composes

variable {R : Sequence α → List Issued → Sequence α → Prop} {ρ τ β : Type} {q : Sequence α} (composes : Composes R)

include composes

theorem andThen {first : Traced α ρ} {next : ρ → Sequence α → Traced α τ}
    (here : R q first.calls first.outcome.state)
    (later : ∀ a, R first.outcome.state (next a first.outcome.state).calls (next a first.outcome.state).outcome.state) :
    R q (first.andThen next).calls (first.andThen next).outcome.state := by
  cases h : first.outcome.result with
  | error cause =>
    rw [Traced.state_of_error h, Traced.calls_of_error h]
    exact here
  | ok a =>
    rw [Traced.state_of_ok h, Traced.calls_of_ok h]
    exact composes.trans here (later a)

theorem forAllTraced {work : β → Sequence α → Traced α Unit} {xs : List β}
    (step : ∀ x ∈ xs, ∀ r, R r (work x r).calls (work x r).outcome.state) (q : Sequence α) :
    R q (Sequence.forAllTraced work xs q).calls (Sequence.forAllTraced work xs q).outcome.state := by
  induction xs generalizing q with
  | nil => exact composes.refl q
  | cons x rest ih =>
    rw [List.forall_mem_cons] at step
    exact composes.andThen (step.1 q) fun _ => ih step.2 _

theorem prepareAllTraced {ids : List ChannelId}
    (step : ∀ ch ∈ ids, ∀ r, R r (r.prepareTraced ch).calls (r.prepareTraced ch).outcome.state) (q : Sequence α) :
    R q (Sequence.prepareAllTraced ids q).calls (Sequence.prepareAllTraced ids q).outcome.state := by
  induction ids generalizing q with
  | nil => exact composes.refl q
  | cons ch rest ih =>
    rw [List.forall_mem_cons] at step
    exact composes.andThen (step.1 q) fun _ => composes.andThen (ih step.2 _) fun _ => composes.refl _

theorem prepareTraced {ch : ChannelId}
    (asked : ∀ name, R q (q.callTraced ch name .sampleRate (·.sampleRate)).calls
      (q.callTraced ch name .sampleRate (·.sampleRate)).outcome.state) :
    R q (q.prepareTraced ch).calls (q.prepareTraced ch).outcome.state := by
  unfold Sequence.prepareTraced
  dsimp only
  split
  · exact composes.refl q
  · exact composes.refl q
  · apply composes.andThen (asked _)
    intro rate
    rw [Traced.silent, state_makeLoad]
    exact composes.refl _

theorem loadOneTraced {load : Load α} (stopped : R q (stopTraced load q).calls (stopTraced load q).outcome.state)
    (written : ∀ r, R r (writeTraced load r).calls (writeTraced load r).outcome.state)
    (erased : ∀ r : Sequence α, R r [] { r with pendingProgram := r.pendingProgram.erase load.channel }) :
    R q (Sequence.loadOneTraced load q).calls (Sequence.loadOneTraced load q).outcome.state := by
  unfold Sequence.loadOneTraced
  apply composes.andThen stopped
  intro _
  apply composes.andThen (written _)
  intro _
  exact erased _

end Composes

section Journal

variable {ρ : Type} {q r : Sequence α} {calls : List Issued} {ch : ChannelId}

def carriedOut (ch : ChannelId) (calls : List Issued) : List Operation :=
  (calls.filter fun i => i.channel = ch ∧ i.carriedOut = true).map (·.operation)

/--
Whether all devices stay in place, and the journal of each has grown by the calls that it has carried out.
-/
def Recorded (q : Sequence α) (calls : List Issued) (r : Sequence α) : Prop :=
  ∀ ch d, q.devices.get? ch = some d → ∃ d', r.devices.get? ch = some d'
    ∧ d'.calls.map (·.operation) = d.calls.map (·.operation) ++ carriedOut ch calls

theorem composes_recorded : Composes (Recorded (α := α)) where
  refl := by
    intro q ch d here
    refine ⟨d, here, ?_⟩
    exact (List.append_nil _).symm
  trans := by
    intro q r s c d first second ch device here
    obtain ⟨between, found, journal⟩ := first ch device here
    obtain ⟨final, found', journal'⟩ := second ch between found
    refine ⟨final, found', ?_⟩
    rw [journal', journal, carriedOut, carriedOut, carriedOut, List.filter_append, List.map_append, List.append_assoc]

theorem recorded_callTraced {name : String} {operation : Operation}
    {call : ChannelDevice α → Reply α (ChannelDevice α) ρ} (journaled : ChannelDevice.Journaled operation call) :
    Recorded q (q.callTraced ch name operation call).calls (q.callTraced ch name operation call).outcome.state := by
  unfold callTraced callChannel Table.contains
  cases here : q.devices.get? ch with
  | none => exact composes_recorded.refl q
  | some device =>
    intro c d found
    dsimp only
    rw [Table.get?_insert]
    split
    · rename_i same
      subst same
      obtain rfl := Option.some.inj (here.symm.trans found)
      refine ⟨_, rfl, ?_⟩
      rcases journaled device with ⟨cause, failed, kept⟩ | ⟨value, entry, ok, journal, kind⟩
      · rw [isOk_mapError, failed, kept]
        simp [carriedOut, Except.isOk, Except.toBool]
      · rw [isOk_mapError, ok, journal]
        simp [carriedOut, Except.isOk, Except.toBool, kind]
    · rename_i other
      refine ⟨d, found, ?_⟩
      simp [carriedOut, other]

theorem recorded_program (q : Sequence α) : Recorded q q.programCalls q.program.state := by
  rw [← outcome_programTraced]
  unfold programCalls programTraced
  have prepared : ∀ ch ∈ q.pendingProgram.ids, ∀ r : Sequence α,
      Recorded r (r.prepareTraced ch).calls (r.prepareTraced ch).outcome.state := by
    intro ch _ r
    exact composes_recorded.prepareTraced fun name => recorded_callTraced ChannelDevice.journaled_sampleRate
  apply composes_recorded.andThen (composes_recorded.prepareAllTraced prepared q)
  intro loads
  have written (load : Load α) (r : Sequence α) :
      Recorded r (writeTraced load r).calls (writeTraced load r).outcome.state := by
    unfold writeTraced
    cases load.buffer with
    | none => exact composes_recorded.refl r
    | some buffer => exact recorded_callTraced (ChannelDevice.journaled_write buffer.1 buffer.2)
  have loaded : ∀ load ∈ loads, ∀ r : Sequence α,
      Recorded r (loadOneTraced load r).calls (loadOneTraced load r).outcome.state := by
    intro load _ r
    apply composes_recorded.loadOneTraced (recorded_callTraced ChannelDevice.journaled_stop) (written load)
    exact fun s => composes_recorded.refl s
  apply composes_recorded.andThen (composes_recorded.forAllTraced loaded _)
  intro _
  exact composes_recorded.refl _

end Journal

end PulseSequencer.Sequence
