import PulseSequencer.Proofs.Device.Channel
import PulseSequencer.Proofs.Sequence.Names

/-!
This module contains which devices the offsets of a pair of channels reach. Each of the two names may lead nowhere, and the
second one is only looked at once the first device has its offset.
-/

namespace PulseSequencer

theorem Registry.channelId_injective {α : Type} {r : Registry α} {name name' : String} {ch : ChannelId}
    (found : r.channelId name = .ok ch) (found' : r.channelId name' = .ok ch) : name = name' := by
  have named {name : String} (found : r.channelId name = .ok ch) : r.channelNames[ch.index]? = some name := by
    unfold Registry.channelId at found
    split at found
    · rename_i id here
      cases found
      rw [findChannel?_eq] at here
      obtain ⟨index, place, rfl⟩ := Option.map_eq_some_iff.mp here
      obtain ⟨bound, same, _⟩ := List.findIdx?_eq_some_iff_getElem.mp place
      rw [List.getElem?_eq_getElem bound, beq_iff_eq.mp same]
    · cases found
  exact Option.some.inj ((named found).symm.trans (named found'))

def ChannelDevice.offsetTo {α : Type} (d : ChannelDevice α) (offset : α) : ChannelDevice α :=
  { d with state := { d.state with offset := offset }, calls := d.calls ++ [.setOffset offset] }

namespace Sequence

variable {α : Type} [Scalar α]

structure Leads (q : Sequence α) (name : String) (ch : ChannelId) (d : ChannelDevice α) : Prop where
  registered : q.registry.channelId name = .ok ch
  present : q.devices.get? ch = some d

def LeadsNowhere (q : Sequence α) (name : String) : Prop := ∀ ch d, ¬ Leads q name ch d

def Accepts (q : Sequence α) (name : String) : Prop :=
  ∃ ch d, Leads q name ch d ∧ d.faults.get? .setOffset = none

def putDevice (q : Sequence α) (ch : ChannelId) (d : ChannelDevice α) : Sequence α :=
  { q with devices := q.devices.insert ch d }

/--
What it does to the devices to give a pair of channels its offsets. Nothing else of a sequence has to do with it.
-/
structure Paired (q : Sequence α) (iName qName : String) (iOffset qOffset : α) (o : Outcome α (Sequence α) Unit) :
    Prop where
  succeeds : o.result = .ok () ↔ Accepts q iName ∧ Accepts q qName
  both : o.result = .ok () → iName ≠ qName → ∀ i d k e, Leads q iName i d → Leads q qName k e →
    o.state.devices.get? i = some (d.offsetTo iOffset) ∧ o.state.devices.get? k = some (e.offsetTo qOffset)
  others : ∀ ch, (∀ d, ¬ Leads q iName ch d) → (∀ d, ¬ Leads q qName ch d) →
    o.state.devices.get? ch = q.devices.get? ch
  unknown : ∀ name, o.result = .error (.unknown .channel name) →
    (name = iName ∧ LeadsNowhere q iName ∧ o.state = q)
      ∨ (name = qName ∧ LeadsNowhere q qName ∧ ∃ i d, Leads q iName i d
        ∧ ∀ ch, o.state.devices.get? ch = if i = ch then some (d.offsetTo iOffset) else q.devices.get? ch)
  rest : o.state = { q with devices := o.state.devices }

section Single

variable {q : Sequence α} {name : String} {ch ch' : ChannelId} {d d' : ChannelDevice α} {offset : α}

theorem Leads.unique (leads : Leads q name ch d) (leads' : Leads q name ch' d') : ch = ch' ∧ d = d' := by
  obtain rfl := Except.ok.inj (leads.registered.symm.trans leads'.registered)
  exact ⟨rfl, Option.some.inj (leads.present.symm.trans leads'.present)⟩

theorem leads_or_nowhere (q : Sequence α) (name : String) : (∃ ch d, Leads q name ch d) ∨ LeadsNowhere q name := by
  by_cases leads : ∃ ch d, Leads q name ch d
  · exact .inl leads
  · exact .inr fun ch d here => leads ⟨ch, d, here⟩

theorem setOffset_of_nowhere (nowhere : LeadsNowhere q name) (offset : α) :
    q.setOffset name offset = .failed (.unknown .channel name) q := by
  unfold setOffset
  cases registered : q.registry.channelId name with
  | error cause =>
    unfold Registry.channelId at registered
    split at registered
    · cases registered
    · cases registered
      rfl
  | ok ch =>
    simp only [callChannel]
    cases present : q.devices.get? ch with
    | none => rfl
    | some d => exact absurd ⟨registered, present⟩ (nowhere ch d)

theorem setOffset_of_leads (leads : Leads q name ch d) (offset : α) :
    (q.setOffset name offset).result = (d.setOffset offset).result.mapError (.device name .setOffset)
      ∧ (q.setOffset name offset).state = q.putDevice ch (d.setOffset offset).device := by
  have called : q.setOffset name offset = q.callChannel ch name .setOffset (·.setOffset offset) := by
    simp only [setOffset, leads.registered]
  rw [called]
  unfold callChannel
  rw [leads.present]
  exact ⟨rfl, rfl⟩

theorem setOffset_of_accepts (leads : Leads q name ch d) (able : d.faults.get? .setOffset = none) (offset : α) :
    (q.setOffset name offset).result = .ok () ∧ (q.setOffset name offset).state = q.putDevice ch (d.offsetTo offset) := by
  obtain ⟨result, state⟩ := setOffset_of_leads leads offset
  rw [result, state]
  unfold ChannelDevice.setOffset ChannelDevice.attempt
  rw [able]
  exact ⟨rfl, rfl⟩

theorem setOffset_of_fault {message : String} (leads : Leads q name ch d)
    (fault : d.faults.get? .setOffset = some message) (offset : α) :
    (q.setOffset name offset).result = .error (.device name .setOffset ⟨message⟩)
      ∧ (q.setOffset name offset).state = q.putDevice ch d := by
  obtain ⟨result, state⟩ := setOffset_of_leads leads offset
  rw [result, state]
  unfold ChannelDevice.setOffset ChannelDevice.attempt
  rw [fault]
  exact ⟨rfl, rfl⟩

theorem setOffset_cases (q : Sequence α) (name : String) (offset : α) :
    (∃ ch d, Leads q name ch d ∧ Accepts q name ∧ (q.setOffset name offset).result = .ok ()
        ∧ (q.setOffset name offset).state = q.putDevice ch (d.offsetTo offset))
      ∨ (∃ ch d cause, Leads q name ch d ∧ ¬ Accepts q name
        ∧ (q.setOffset name offset).result = .error (.device name .setOffset cause)
        ∧ (q.setOffset name offset).state = q.putDevice ch d)
      ∨ (LeadsNowhere q name ∧ ¬ Accepts q name ∧ (q.setOffset name offset).result = .error (.unknown .channel name)
        ∧ (q.setOffset name offset).state = q) := by
  rcases leads_or_nowhere q name with ⟨ch, d, leads⟩ | nowhere
  · cases fault : d.faults.get? .setOffset with
    | none => exact .inl ⟨ch, d, leads, ⟨ch, d, leads, fault⟩, setOffset_of_accepts leads fault offset⟩
    | some message =>
      refine .inr (.inl ⟨ch, d, ⟨message⟩, leads, ?_, setOffset_of_fault leads fault offset⟩)
      rintro ⟨ch', d', leads', able⟩
      obtain ⟨_, rfl⟩ := leads.unique leads'
      rw [fault] at able
      cases able
  · rw [setOffset_of_nowhere nowhere]
    exact .inr (.inr ⟨nowhere, fun ⟨ch, d, leads, _⟩ => nowhere ch d leads, rfl, rfl⟩)

theorem rest_setOffset (q : Sequence α) (name : String) (offset : α) :
    (q.setOffset name offset).state = { q with devices := (q.setOffset name offset).state.devices } := by
  unfold setOffset
  cases q.registry.channelId name with
  | error cause => rfl
  | ok ch =>
    simp only [callChannel]
    cases q.devices.get? ch with
    | none => rfl
    | some d => rfl

theorem get?_putDevice (q : Sequence α) (ch c : ChannelId) (d : ChannelDevice α) :
    (q.putDevice ch d).devices.get? c = if ch = c then some d else q.devices.get? c :=
  Table.get?_insert ..

end Single

section Pair

variable {q : Sequence α} {iName qName name : String} {iOffset qOffset : α} {i ch : ChannelId} {d d' e : ChannelDevice α}

theorem leads_putDevice_iff :
    Leads (q.putDevice i d') name ch e
      ↔ q.registry.channelId name = .ok ch ∧ (if i = ch then some d' else q.devices.get? ch) = some e := by
  rw [← get?_putDevice]
  exact ⟨fun leads => ⟨leads.registered, leads.present⟩, fun ⟨registered, present⟩ => ⟨registered, present⟩⟩

theorem leadsNowhere_putDevice_iff (present : q.devices.get? i = some d) :
    LeadsNowhere (q.putDevice i d') name ↔ LeadsNowhere q name := by
  constructor
  · intro nowhere ch e leads
    by_cases same : i = ch
    · exact nowhere ch d' (leads_putDevice_iff.mpr ⟨leads.registered, if_pos same⟩)
    · exact nowhere ch e (leads_putDevice_iff.mpr ⟨leads.registered, (if_neg same).trans leads.present⟩)
  · intro nowhere ch e leads
    obtain ⟨registered, here⟩ := leads_putDevice_iff.mp leads
    split at here
    · rename_i same
      exact nowhere ch d ⟨registered, same ▸ present⟩
    · exact nowhere ch e ⟨registered, here⟩

theorem accepts_putDevice_iff (present : q.devices.get? i = some d) (faults : d'.faults = d.faults) :
    Accepts (q.putDevice i d') name ↔ Accepts q name := by
  constructor
  · rintro ⟨ch, e, leads, able⟩
    obtain ⟨registered, here⟩ := leads_putDevice_iff.mp leads
    split at here
    · rename_i same
      cases here
      exact ⟨ch, d, ⟨registered, same ▸ present⟩, faults ▸ able⟩
    · exact ⟨ch, e, ⟨registered, here⟩, able⟩
  · rintro ⟨ch, e, leads, able⟩
    by_cases same : i = ch
    · subst same
      obtain rfl := Option.some.inj (present.symm.trans leads.present)
      exact ⟨i, d', leads_putDevice_iff.mpr ⟨leads.registered, if_pos rfl⟩, faults.symm ▸ able⟩
    · exact ⟨ch, e, leads_putDevice_iff.mpr ⟨leads.registered, (if_neg same).trans leads.present⟩, able⟩

theorem applyOffsets_of_error {cause : Error α} (failed : (q.setOffset iName iOffset).result = .error cause)
    (qName : String) (qOffset : α) :
    (q.applyOffsets iName qName iOffset qOffset).result = .error cause
      ∧ (q.applyOffsets iName qName iOffset qOffset).state = (q.setOffset iName iOffset).state := by
  refine ⟨?_, Outcome.state_andThen_of_error failed _⟩
  rw [applyOffsets, Outcome.result_andThen, failed]
  rfl

theorem applyOffsets_of_ok (ok : (q.setOffset iName iOffset).result = .ok ()) (qName : String) (qOffset : α) :
    (q.applyOffsets iName qName iOffset qOffset).result = ((q.setOffset iName iOffset).state.setOffset qName qOffset).result
      ∧ (q.applyOffsets iName qName iOffset qOffset).state
        = ((q.setOffset iName iOffset).state.setOffset qName qOffset).state := by
  refine ⟨?_, Outcome.state_andThen_of_ok ok _⟩
  rw [applyOffsets, Outcome.result_andThen, ok]
  rfl

theorem rest_applyOffsets (q : Sequence α) (iName qName : String) (iOffset qOffset : α) :
    (q.applyOffsets iName qName iOffset qOffset).state
      = { q with devices := (q.applyOffsets iName qName iOffset qOffset).state.devices } := by
  have first := rest_setOffset q iName iOffset
  apply andThen_invariant (P := fun r => r = { q with devices := r.devices }) first
  intro _
  rw [first]
  exact rest_setOffset ..

theorem paired_of_error {o : Outcome α (Sequence α) Unit} {cause : Error α} (failed : o.result = .error cause)
    (unable : ¬ (Accepts q iName ∧ Accepts q qName)) (rest : o.state = { q with devices := o.state.devices })
    (others : ∀ ch, (∀ d, ¬ Leads q iName ch d) → o.state.devices.get? ch = q.devices.get? ch)
    (unknown : ∀ name, cause = .unknown .channel name → (name = iName ∧ LeadsNowhere q iName ∧ o.state = q)
      ∨ (name = qName ∧ LeadsNowhere q qName ∧ ∃ i d, Leads q iName i d
        ∧ ∀ ch, o.state.devices.get? ch = if i = ch then some (d.offsetTo iOffset) else q.devices.get? ch)) :
    Paired q iName qName iOffset qOffset o := by
  refine ⟨?_, ?_, fun ch other _ => others ch other, ?_, rest⟩
  · rw [failed]
    exact iff_of_false nofun unable
  · intro ok
    rw [failed] at ok
    cases ok
  · intro name missing
    rw [failed] at missing
    exact unknown name (Except.error.inj missing)

theorem paired_of_accepts {o : Outcome α (Sequence α) Unit} (leads : Leads q iName i d) (accepts : Accepts q iName)
    (result : o.result = ((q.putDevice i (d.offsetTo iOffset)).setOffset qName qOffset).result)
    (state : o.state = ((q.putDevice i (d.offsetTo iOffset)).setOffset qName qOffset).state)
    (rest : o.state = { q with devices := o.state.devices }) :
    Paired q iName qName iOffset qOffset o := by
  have first (ch : ChannelId) := get?_putDevice q i ch (d.offsetTo iOffset)
  have accepts_iff : Accepts (q.putDevice i (d.offsetTo iOffset)) qName ↔ Accepts q qName :=
    accepts_putDevice_iff leads.present rfl
  have apart {ch : ChannelId} (other : ∀ d, ¬ Leads q iName ch d) : i ≠ ch := by
    rintro rfl
    exact other d leads
  rcases setOffset_cases (q.putDevice i (d.offsetTo iOffset)) qName qOffset with
    ⟨k, e, second, able, ok, last⟩ | ⟨k, e, cause, second, unable, failed, last⟩ | ⟨nowhere, unable, failed, last⟩
  · rw [ok] at result
    rw [last] at state
    obtain ⟨registered, here⟩ := leads_putDevice_iff.mp second
    refine ⟨iff_of_true result ⟨accepts, accepts_iff.mp able⟩, ?_, ?_, ?_, rest⟩
    · intro _ differ i' d' k' e' leads' found
      obtain ⟨rfl, rfl⟩ := leads.unique leads'
      obtain rfl := Except.ok.inj (registered.symm.trans found.registered)
      have ids : i ≠ k := by
        rintro rfl
        exact differ (Registry.channelId_injective leads.registered found.registered)
      rw [if_neg ids, found.present] at here
      cases here
      rw [state]
      constructor
      · rw [get?_putDevice, if_neg ids.symm, first, if_pos rfl]
      · rw [get?_putDevice, if_pos rfl]
    · intro ch other other'
      have ids : k ≠ ch := by
        rintro rfl
        rw [if_neg (apart other)] at here
        exact other' e ⟨registered, here⟩
      rw [state, get?_putDevice, if_neg ids, first, if_neg (apart other)]
    · intro name unknown
      rw [result] at unknown
      cases unknown
  · rw [failed] at result
    rw [last] at state
    refine paired_of_error result (fun both => unable (accepts_iff.mpr both.2)) rest ?_ nofun
    intro ch other
    have still : (q.putDevice i (d.offsetTo iOffset)).devices.get? ch = q.devices.get? ch := by
      rw [first, if_neg (apart other)]
    rw [state, get?_putDevice]
    split
    · rename_i same
      rw [← still, ← same, second.present]
    · exact still
  · rw [failed] at result
    rw [last] at state
    refine paired_of_error result (fun both => unable (accepts_iff.mpr both.2)) rest ?_ ?_
    · intro ch other
      rw [state, first, if_neg (apart other)]
    · rintro name ⟨⟩
      refine .inr ⟨rfl, (leadsNowhere_putDevice_iff leads.present).mp nowhere, i, d, leads, fun ch => ?_⟩
      rw [state, first]

/--
Offsets are given to both channels of a pair or to none, unless the first name leads to a device and the second one leads
nowhere or to a device with a fault: then the first device keeps its offset. No other device is touched, and nothing else
of the sequence.
-/
theorem applyOffsets_paired (q : Sequence α) (iName qName : String) (iOffset qOffset : α) :
    Paired q iName qName iOffset qOffset (q.applyOffsets iName qName iOffset qOffset) := by
  have rest := rest_applyOffsets q iName qName iOffset qOffset
  rcases setOffset_cases q iName iOffset with
    ⟨i, d, leads, accepts, ok, first⟩ | ⟨i, d, cause, leads, unable, failed, first⟩ | ⟨nowhere, unable, failed, first⟩
  · obtain ⟨result, state⟩ := applyOffsets_of_ok ok qName qOffset
    rw [first] at result state
    exact paired_of_accepts leads accepts result state rest
  · obtain ⟨result, state⟩ := applyOffsets_of_error failed qName qOffset
    rw [first] at state
    refine paired_of_error result (fun both => unable both.1) rest ?_ nofun
    intro ch other
    rw [state, get?_putDevice, if_neg]
    rintro rfl
    exact other d leads
  · obtain ⟨result, state⟩ := applyOffsets_of_error failed qName qOffset
    rw [first] at state
    refine paired_of_error result (fun both => unable both.1) rest ?_ ?_
    · intro ch _
      rw [state]
    · rintro name ⟨⟩
      exact .inl ⟨rfl, nowhere, state⟩

/--
It is not true that no offset changes if one of the two names leads nowhere.
-/
theorem not_applyOffsets_all_or_nothing :
    ¬ ∀ q : Sequence Float, q.Made → ∀ iName qName iOffset qOffset name,
      (q.applyOffsets iName qName iOffset qOffset).result = .error (.unknown .channel name) →
        ∀ ch, ((q.applyOffsets iName qName iOffset qOffset).state.devices.get? ch).map (·.state.offset)
          = (q.devices.get? ch).map (·.state.offset) := by
  intro untouched
  have unknown : (onePulse.applyOffsets "out" "missing" 0.25 0.5).result = .error (.unknown .channel "missing") := by
    rfl
  have same := untouched onePulse made_onePulse "out" "missing" 0.25 0.5 "missing" unknown ⟨0⟩
  revert same
  decide +kernel

end Pair

end Sequence

end PulseSequencer
