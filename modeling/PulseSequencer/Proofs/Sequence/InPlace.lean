import PulseSequencer.Proofs.Registry.InPlace
import PulseSequencer.Proofs.Sequence.Paths

/-!
This module contains the registrations and the edits of a sequence in place: whatever a step of them has written stays
written, also if a later step fails. That they are refused without a trace is therefore a matter of what is looked at before
something is written, and of what cannot fail any more after that.
-/

namespace PulseSequencer

open Outcome

namespace Slice

variable {α : Type} [Scalar α]

def nestInPlace (child parent : Slice α) : Outcome α (Slice α) Unit :=
  (check (checkSub parent child) parent).andThen fun _ s =>
  (write (fun s => { s with memo := { s.memo with dirty := s.memo.dirty ∪ child.changed } }) s).andThen fun _ s =>
  (write (fun s => { s with memo := { s.memo with dirty := s.memo.dirty ∪ child.channels } }) s).andThen fun _ s =>
  (write (fun s => { s with memo := { s.memo with durations := s.memo.durations.insert child.name 0.0 } }) s).andThen
    fun _ s =>
  (write (fun s => { s with subs := s.subs ++ [child] }) s).andThen fun _ s =>
  write (fun s => { s with memo := { s.memo with valid := false } }) s

theorem nestInPlace_eq (child parent : Slice α) :
    nestInPlace child parent = settle parent ((parent.addSub child).map (·, ())) := by
  unfold nestInPlace addSub
  cases checkSub parent child with
  | error cause => rfl
  | ok accepted => rfl

theorem perform_nest_eq (child parent : Slice α) :
    (Command.nest child).perform parent = settle parent ((parent.addSub child).map (·, ())) := by
  simp only [Command.perform]
  cases parent.addSub child with
  | error cause => rfl
  | ok whole => rfl

theorem nestInPlace_eq_perform (child : Slice α) : nestInPlace child = ((Command.nest child).perform ·) := by
  funext parent
  rw [nestInPlace_eq, perform_nest_eq]

end Slice

namespace Sequence

variable {α : Type} [Scalar α]

open Slice

def onRegistry {ρ : Type} (work : Registry α → Outcome α (Registry α) ρ) (q : Sequence α) : Outcome α (Sequence α) ρ :=
  (work q.registry).mapState fun registry => { q with registry := registry }

def linkChannelInPlace (trigger : TriggerId) (name : String) (device : ChannelDevice α) (q : Sequence α) :
    Outcome α (Sequence α) ChannelId :=
  (check (q.registry.trigger trigger) q).andThen fun _ q =>
  (q.onRegistry (·.addChannelInPlace name)).andThen fun ch q =>
  (q.onRegistry (·.linkInPlace ch trigger)).andThen fun _ q =>
  (write (fun q => { q with devices := q.devices.insert ch device }) q).andThen fun _ q =>
  .done ch q

def checkRoom (q : Sequence α) (s : Slice α) : Except (Error α) Unit :=
  match leastEnd? s with
  | some finish => q.checkEnd s.name finish
  | none => .ok ()

def addSliceInPlace (s : Slice α) (q : Sequence α) : Outcome α (Sequence α) Unit :=
  (check (checkName .slice s.name) q).andThen fun _ q =>
  (check (checkFree .slice s.name (q.slices.map (·.name))) q).andThen fun _ q =>
  (check (q.checkRoom s) q).andThen fun _ q =>
  write (fun q => { q with slices := q.slices ++ [s] }) q

def editInPlace (path channel : String) (edit : Slice α → ChannelId → Slice α) (q : Sequence α) :
    Outcome α (Sequence α) Unit :=
  (check (q.registry.channelId channel) q).andThen fun ch q =>
  q.workAt path (write fun s => edit s ch)

inductive Request (α : Type) [Scalar α]
  | addTrigger (name : String) (output : Nat) (raiseAt dropAfter : α)
  | linkChannel (trigger : TriggerId) (name : String) (device : ChannelDevice α)
  | addSlice (s : Slice α)
  | addSubSlice (path : String) (child : Slice α)
  | addWaveform (path channel : String) (w : Waveform α)
  | clearWaveform (path channel : String)
  | setPadding (path channel : String) (position : Padding)

def Request.Answer : Request α → Type
  | .addTrigger .. => TriggerId
  | .linkChannel .. => ChannelId
  | _ => Unit

def submit (q : Sequence α) : (request : Request α) → Except (Error α) (Sequence α × request.Answer)
  | .addTrigger name output raiseAt dropAfter => q.addTrigger name output raiseAt dropAfter
  | .linkChannel trigger name device => q.linkChannel trigger name device
  | .addSlice s => (q.addSlice s).map (·, ())
  | .addSubSlice path child =>
    let o := q.workAt path ((Command.nest child).perform ·)
    o.result.map fun _ => (o.state, ())
  | .addWaveform path channel w => (q.addWaveform path channel w).map (·, ())
  | .clearWaveform path channel => (q.clearWaveform path channel).map (·, ())
  | .setPadding path channel position => (q.setPadding path channel position).map (·, ())

def attempt (q : Sequence α) : (request : Request α) → Outcome α (Sequence α) request.Answer
  | .addTrigger name output raiseAt dropAfter =>
    q.onRegistry (·.addTriggerInPlace name output raiseAt dropAfter)
  | .linkChannel trigger name device => q.linkChannelInPlace trigger name device
  | .addSlice s => q.addSliceInPlace s
  | .addSubSlice path child => q.workAt path (nestInPlace child)
  | .addWaveform path channel w => q.editInPlace path channel (·.addWaveform · w)
  | .clearWaveform path channel => q.editInPlace path channel (·.clearWaveform ·)
  | .setPadding path channel position => q.editInPlace path channel (·.setPadding · position)

/--
A sequence from which requests are refused without a trace.
-/
structure Traceless (q : Sequence α) : Prop where
  settled : ∀ request, q.attempt request = settle q (q.submit request)
  unchanged : ∀ request cause, (q.attempt request).result = .error cause → (q.attempt request).state = q
  equipped : ∀ trigger name device ch,
    let after := (q.attempt (.linkChannel trigger name device)).state
    ch.index < after.registry.channels.length →
      ch.index < q.registry.channels.length ∧ after.devices.get? ch = q.devices.get? ch
        ∨ (q.attempt (.linkChannel trigger name device)).result = .ok ch ∧ after.devices.get? ch = some device
  performed : ∀ path child, q.attempt (.addSubSlice path child) = q.workAt path ((Command.nest child).perform ·)
  nested : ∀ child parent : Slice α, nestInPlace child parent = settle parent ((parent.addSub child).map (·, ()))
  untouched : ∀ (child parent : Slice α) cause, (nestInPlace child parent).result = .error cause →
    (nestInPlace child parent).state = parent

section

variable {q : Sequence α}

theorem linkChannelInPlace_eq (q : Sequence α) (trigger : TriggerId) (name : String) (device : ChannelDevice α) :
    q.linkChannelInPlace trigger name device = settle q (q.linkChannel trigger name device) := by
  unfold linkChannelInPlace linkChannel
  cases here : q.registry.trigger trigger with
  | error cause => rfl
  | ok t =>
    rw [check_ok_andThen]
    simp only [onRegistry, Registry.addChannelInPlace_eq, Registry.linkInPlace_eq]
    cases added : q.registry.addChannel name with
    | error cause => rfl
    | ok done =>
      obtain ⟨named, ch⟩ := done
      -- The channel is written now, but neither look-up can fail: the trigger was found before, and the channel is new.
      obtain ⟨linked, bound⟩ := Registry.exists_link_of_added here added
      simp only [settle, done, mapState, andThen, bound, Except.map, bind, Except.bind, write, List.nil_append]

theorem addSliceInPlace_eq (q : Sequence α) (s : Slice α) :
    q.addSliceInPlace s = settle q ((q.addSlice s).map (·, ())) := by
  have taken : (find? q.slices s.name).isSome = true ↔ s.name ∈ q.slices.map (·.name) := by
    rw [← not_iff_not, ← find?_eq_none_iff]
    simp
  unfold addSliceInPlace addSlice checkFree checkRoom
  cases checkName (α := α) .slice s.name with
  | error cause => rfl
  | ok named =>
    simp only [taken, check_ok_andThen]
    split
    · rfl
    · cases leastEnd? s with
      | none => rfl
      | some finish =>
        cases room : q.checkEnd s.name finish with
        | error cause => simp [room, bind, Except.bind, Except.map, settle]
        | ok fits => simp [room, bind, Except.bind, Except.map, settle, write]

theorem allOrNothing_workAt {ρ : Type} {work : Slice α → Outcome α (Slice α) ρ} (each : ∀ u, (work u).AllOrNothing u)
    (addressable : Addressable q.slices) (path : String) : (q.workAt path work).AllOrNothing q := by
  obtain ⟨top, rest, cut⟩ := List.exists_cons_of_ne_nil (SlicePath.names_ne_nil path)
  rw [workAt_cons work cut]
  have below := Slice.allOrNothing_workAt (s := q.whole) each addressable (top :: rest)
  cases found : find? q.slices top with
  | none =>
    rw [workIn_of_missing work found]
    exact ⟨fun _ _ => rfl, rfl⟩
  | some u =>
    simp only [Slice.workAt, whole, found] at below
    rw [workIn_of_find? work found]
    exact ⟨fun cause refused => congrArg (fun whole => { q with slices := whole.subs }) (below.unchanged cause refused),
      below.silent⟩

theorem workAt_nestInPlace_eq (addressable : Addressable q.slices) (path : String) (child : Slice α) :
    q.workAt path (nestInPlace child)
      = settle q ((q.workAt path ((Command.nest child).perform ·)).result.map fun _ =>
          ((q.workAt path ((Command.nest child).perform ·)).state, ())) := by
  have each (u : Slice α) : ((Command.nest child).perform u).AllOrNothing u := by
    rw [perform_nest_eq]
    exact .settle u _
  rw [nestInPlace_eq_perform]
  exact (allOrNothing_workAt each addressable path).eq_settle

theorem editInPlace_eq (addressable : Addressable q.slices) (path channel : String)
    (edit : Slice α → ChannelId → Slice α) :
    q.editInPlace path channel edit = settle q ((q.editChannel path channel edit).map (·, ())) := by
  unfold editInPlace editChannel
  cases q.registry.channelId channel with
  | error cause => rfl
  | ok ch =>
    have each (u : Slice α) : (write (α := α) (edit · ch) u).AllOrNothing u := ⟨nofun, rfl⟩
    have whole := allOrNothing_workAt each addressable path
    rw [check_ok_andThen, whole.eq_settle]
    unfold write
    dsimp only [bind, Except.bind]
    cases (q.workAt path fun s => .done () (edit s ch)).result with
    | error cause => rfl
    | ok done => rfl

theorem attempt_eq (addressable : Addressable q.slices) (request : Request α) :
    q.attempt request = settle q (q.submit request) := by
  cases request with
  | addTrigger name output raiseAt dropAfter =>
    simp only [attempt, submit, onRegistry, addTrigger, Registry.addTriggerInPlace_eq]
    cases q.registry.addTrigger name output raiseAt dropAfter with
    | error cause => rfl
    | ok done => rfl
  | linkChannel trigger name device => exact linkChannelInPlace_eq q trigger name device
  | addSlice s => exact addSliceInPlace_eq q s
  | addSubSlice path child => exact workAt_nestInPlace_eq addressable path child
  | addWaveform path channel w => exact editInPlace_eq addressable path channel _
  | clearWaveform path channel => exact editInPlace_eq addressable path channel _
  | setPadding path channel position => exact editInPlace_eq addressable path channel _

theorem device_of_linkChannel {q' : Sequence α} {trigger : TriggerId} {name : String} {device : ChannelDevice α}
    {id ch : ChannelId} (granted : q.linkChannel trigger name device = .ok (q', id))
    (registered : ch.index < q'.registry.channels.length) :
    ch.index < q.registry.channels.length ∧ q'.devices.get? ch = q.devices.get? ch
      ∨ id = ch ∧ q'.devices.get? ch = some device := by
  obtain ⟨named, linked, added, bound, rfl⟩ := linkChannel_eq_ok granted
  obtain ⟨_, channels, rfl⟩ := Registry.channels_addChannel added
  have count : linked.channels.length = q.registry.channels.length + 1 := by
    have names := congrArg List.length (Registry.channelNames_link bound)
    simpa [Registry.channelNames, channels] using names
  rw [count] at registered
  simp only [Table.get?_insert]
  by_cases last : ch.index = q.registry.channels.length
  · have same : (⟨q.registry.channels.length⟩ : ChannelId) = ch := by rw [← last]
    exact .inr ⟨same, if_pos same⟩
  · have other : (⟨q.registry.channels.length⟩ : ChannelId) ≠ ch := by
      rintro rfl
      exact last rfl
    exact .inl ⟨by omega, if_neg other⟩

end

/--
However a sequence came about, and whatever is asked of it, a request that is refused leaves no trace.
-/
theorem traceless_of_made {q : Sequence α} (made : q.Made) : q.Traceless := by
  have settled := attempt_eq (addressable_of_made made)
  refine ⟨settled, ?_, ?_, ?_, nestInPlace_eq, ?_⟩
  · intro request cause refused
    rw [settled] at refused ⊢
    exact state_settle_of_error refused
  · intro trigger name device ch after registered
    have done : q.attempt (.linkChannel trigger name device) = settle q (q.linkChannel trigger name device) := settled _
    simp only [after, done] at registered ⊢
    cases answer : q.linkChannel trigger name device with
    | error cause =>
      rw [answer] at registered
      exact .inl ⟨registered, rfl⟩
    | ok granted =>
      rw [answer] at registered
      rcases device_of_linkChannel answer registered with before | ⟨same, device⟩
      · exact .inl before
      · exact .inr ⟨congrArg Except.ok same, device⟩
  · intro path child
    exact congrArg (q.workAt path) (nestInPlace_eq_perform child)
  · intro child parent cause refused
    rw [nestInPlace_eq] at refused ⊢
    exact state_settle_of_error refused

theorem traceless_onePulse :
    onePulse.Made ∧ (onePulse.attempt (.linkChannel ⟨0⟩ "out" (.memory 4.0 1))).result.isOk = false
      ∧ (onePulse.attempt (.addSubSlice "drive" (.fixed "late" 0.5 0.25))).result.isOk = false
      ∧ (onePulse.attempt (.clearWaveform "drive/pi" "out")).result.isOk = false ∧ onePulse.Traceless := by
  refine ⟨made_onePulse, ?_, ?_, ?_, traceless_of_made made_onePulse⟩
  · decide +kernel
  · decide +kernel
  · decide +kernel

end Sequence

end PulseSequencer
