import Mathlib.Data.List.Nodup
import PulseSequencer.Proofs.Outcome
import PulseSequencer.Registry

/-!
This module contains how channels are found by their names: every name stays where it was registered, whatever else is
registered and however channels are bound.
-/

namespace PulseSequencer.Registry

variable {α : Type} {r r' : Registry α}

def channelNames (r : Registry α) : List String :=
  r.channels.map (·.name)

theorem findChannel?_eq (r : Registry α) (name : String) :
    r.findChannel? name = (r.channelNames.findIdx? (· == name)).map .mk := by
  unfold findChannel? channelNames
  rw [List.findIdx?_map]
  rfl

theorem findChannel?_eq_none_iff {name : String} : r.findChannel? name = none ↔ name ∉ r.channelNames := by
  rw [findChannel?_eq, Option.map_eq_none_iff, List.findIdx?_eq_none_iff]
  simp only [beq_eq_false_iff_ne]
  constructor
  · intro h mem
    exact h name mem rfl
  · rintro h name' mem rfl
    exact h mem

theorem findChannel?_of_prefix (names : r.channelNames <+: r'.channelNames) {name : String} {ch : ChannelId}
    (h : r.findChannel? name = some ch) : r'.findChannel? name = some ch := by
  obtain ⟨more, names⟩ := names
  rw [findChannel?_eq] at h ⊢
  obtain ⟨index, found, rfl⟩ := Option.map_eq_some_iff.mp h
  rw [← names, List.findIdx?_append, found]
  rfl

theorem findIdx?_of_nodup {names : List String} (distinct : names.Nodup) {index : Nat} {name : String}
    (h : names[index]? = some name) : names.findIdx? (· == name) = some index := by
  obtain ⟨bound, here⟩ := List.getElem?_eq_some_iff.mp h
  rw [List.findIdx?_eq_some_iff_getElem]
  refine ⟨bound, by simp [here], ?_⟩
  intro j before
  -- Two places of one name are one place.
  have other : names[j] ≠ name := by
    intro same
    have := (distinct.getElem_inj_iff).mp (same.trans here.symm)
    omega
  simpa using other

theorem findChannel?_of_getElem? (distinct : r.channelNames.Nodup) {index : Nat} {c : Channel}
    (h : r.channels[index]? = some c) : r.findChannel? c.name = some ⟨index⟩ := by
  have named : r.channelNames[index]? = some c.name := by
    unfold channelNames
    rw [List.getElem?_map, h]
    rfl
  rw [findChannel?_eq, findIdx?_of_nodup distinct named]
  rfl

theorem getElem?_of_triggerOf {ch : ChannelId} {t : Trigger α} (h : r.triggerOf ch = .ok t) :
    ∃ c, r.channels[ch.index]? = some c := by
  obtain ⟨c, found, _⟩ := bind_eq_ok_iff.mp h
  unfold channel at found
  cases hc : r.channels[ch.index]? with
  | none => simp [hc] at found
  | some c => exact ⟨c, rfl⟩

theorem channels_addTrigger {name : String} {output : Nat} {raiseAt dropAfter : α} {id : TriggerId}
    (h : r.addTrigger name output raiseAt dropAfter = .ok (r', id)) : r'.channels = r.channels := by
  obtain ⟨_, _, h⟩ := bind_eq_ok_iff.mp h
  split at h
  · cases h
  · cases h
    rfl

theorem channels_addChannel {name : String} {id : ChannelId} (h : r.addChannel name = .ok (r', id)) :
    name ∉ r.channelNames ∧ r'.channels = r.channels ++ [⟨name, none⟩] ∧ id = ⟨r.channels.length⟩ := by
  obtain ⟨_, _, h⟩ := bind_eq_ok_iff.mp h
  split at h
  · cases h
  · rename_i free
    cases h
    refine ⟨?_, rfl, rfl⟩
    rw [← findChannel?_eq_none_iff]
    simpa using free

theorem channelNames_link {ch : ChannelId} {target : TriggerId} (h : r.link ch target = .ok r') :
    r'.channelNames = r.channelNames := by
  obtain ⟨_, _, h⟩ := bind_eq_ok_iff.mp h
  obtain ⟨c, found, h⟩ := bind_eq_ok_iff.mp h
  have here : r.channels[ch.index]? = some c := by
    unfold channel at found
    cases hc : r.channels[ch.index]? with
    | none => simp [hc] at found
    | some c' => simpa [hc] using found
  split at h
  · cases h
    rfl
  · cases h
    unfold channelNames
    obtain ⟨bound, same⟩ := List.getElem?_eq_some_iff.mp here
    apply List.ext_getElem
    · simp
    · intro i _ _
      rw [List.getElem_map, List.getElem_map, List.getElem_set]
      split
      · rename_i at_index
        subst at_index
        rw [same]
      · rfl

/--
The names of channels are distinct, and more of them may have come behind those of another registry.
-/
structure Extends (r r' : Registry α) : Prop where
  names : r.channelNames <+: r'.channelNames
  distinct : r.channelNames.Nodup → r'.channelNames.Nodup

namespace Extends

theorem of_channelNames_eq (h : r'.channelNames = r.channelNames) : Extends r r' :=
  ⟨h ▸ List.prefix_rfl, fun distinct => h ▸ distinct⟩

theorem refl (r : Registry α) : Extends r r := of_channelNames_eq rfl

theorem trans {r'' : Registry α} (h : Extends r r') (h' : Extends r' r'') : Extends r r'' :=
  ⟨h.names.trans h'.names, fun distinct => h'.distinct (h.distinct distinct)⟩

theorem addTrigger {name : String} {output : Nat} {raiseAt dropAfter : α} {id : TriggerId}
    (h : r.addTrigger name output raiseAt dropAfter = .ok (r', id)) : Extends r r' := by
  apply of_channelNames_eq
  unfold channelNames
  rw [channels_addTrigger h]

theorem addChannel {name : String} {id : ChannelId} (h : r.addChannel name = .ok (r', id)) : Extends r r' := by
  obtain ⟨free, channels, _⟩ := channels_addChannel h
  have names : r'.channelNames = r.channelNames ++ [name] := by
    unfold channelNames
    rw [channels, List.map_append]
    rfl
  refine ⟨⟨[name], names.symm⟩, fun distinct => ?_⟩
  rw [names, List.nodup_append]
  refine ⟨distinct, by simp, ?_⟩
  intro a mem b single
  rw [List.mem_singleton.mp single]
  rintro rfl
  exact free mem

theorem link {ch : ChannelId} {target : TriggerId} (h : r.link ch target = .ok r') : Extends r r' :=
  of_channelNames_eq (channelNames_link h)

end Extends

end PulseSequencer.Registry
