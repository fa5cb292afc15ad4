import PulseSequencer.Proofs.Registry

/-!
This module contains that the two sides of a binding agree: a channel knows its trigger, and the trigger lists the channel.
A channel that is bound anew leaves the list that it was in and goes to the end of the list of its new trigger.
-/

namespace PulseSequencer.Registry

variable {α : Type} {r r' : Registry α} {ch : ChannelId} {target : TriggerId} {name : String}

def bound? (r : Registry α) (ch : ChannelId) : Option TriggerId :=
  r.channels[ch.index]?.bind (·.trigger)

def listedIn (triggers : List (Trigger α)) (t : TriggerId) : List ChannelId :=
  (triggers[t.index]?.map (·.linked)).getD []

def listed (r : Registry α) (t : TriggerId) : List ChannelId :=
  listedIn r.triggers t

def triggerNames (r : Registry α) : List String :=
  r.triggers.map (·.name)

structure Agreeing (r : Registry α) : Prop where
  bound : ∀ ch t, r.bound? ch = some t ↔ ch ∈ r.listed t
  nodup : ∀ t, (r.listed t).Nodup

structure SameBindings (r r' : Registry α) : Prop where
  bound : ∀ ch, r'.bound? ch = r.bound? ch
  listed : ∀ t, r'.listed t = r.listed t

/--
A registry that differs from another one in the binding of a channel, on both sides of it.
-/
structure Rebound (ch : ChannelId) (target : TriggerId) (r r' : Registry α) : Prop where
  anew : r.bound? ch ≠ some target
  bound : ∀ c, r'.bound? c = if c = ch then some target else r.bound? c
  listed : ∀ t, r'.listed t = (r.listed t).filter (· != ch) ++ if t = target then [ch] else []

section Agreeing

theorem agreeing_empty : (empty : Registry α).Agreeing where
  bound := by simp [bound?, listed, listedIn, empty]
  nodup := by simp [listed, listedIn, empty]

theorem SameBindings.refl (r : Registry α) : SameBindings r r := ⟨fun _ => rfl, fun _ => rfl⟩

theorem Agreeing.same (agreeing : r.Agreeing) (same : SameBindings r r') : r'.Agreeing where
  bound := by
    intro ch t
    rw [same.bound, same.listed]
    exact agreeing.bound ch t
  nodup := by
    intro t
    rw [same.listed]
    exact agreeing.nodup t

theorem Agreeing.rebound (agreeing : r.Agreeing) (rebound : Rebound ch target r r') : r'.Agreeing where
  bound := by
    intro c t
    rw [rebound.bound, rebound.listed, List.mem_append, List.mem_filter, ← agreeing.bound]
    by_cases here : c = ch
    · subst here
      by_cases same : t = target
      · simp [same]
      · simp [same, Ne.symm same]
    · by_cases same : t = target <;> simp [here, same]
  nodup := by
    intro t
    rw [rebound.listed, List.nodup_append]
    refine ⟨(agreeing.nodup t).filter _, ?_, ?_⟩
    · split <;> simp
    · intro a mem b last
      split at last
      · rw [List.mem_singleton.mp last]
        simpa using (List.mem_filter.mp mem).2
      · cases last

theorem SameBindings.rebound {r'' : Registry α} (same : SameBindings r r') (rebound : Rebound ch target r' r'') :
    Rebound ch target r r'' where
  anew := by
    rw [← same.bound]
    exact rebound.anew
  bound := by
    intro c
    rw [rebound.bound, same.bound]
  listed := by
    intro t
    rw [rebound.listed, same.listed]

theorem Agreeing.nodup_flatMap (agreeing : r.Agreeing) : (r.triggers.flatMap (·.linked)).Nodup := by
  have lists (i : Nat) (h : i < r.triggers.length) : r.listed ⟨i⟩ = r.triggers[i].linked := by
    rw [listed, listedIn, List.getElem?_eq_getElem h]
    rfl
  rw [List.nodup_flatMap, List.pairwise_iff_getElem]
  constructor
  · intro t mem
    obtain ⟨i, h, rfl⟩ := List.mem_iff_getElem.mp mem
    rw [← lists i h]
    exact agreeing.nodup ⟨i⟩
  · intro i j hi hj less ch here there
    change ch ∈ r.triggers[i].linked at here
    change ch ∈ r.triggers[j].linked at there
    rw [← lists i hi, ← agreeing.bound] at here
    rw [← lists j hj, ← agreeing.bound, here, Option.some.injEq, TriggerId.mk.injEq] at there
    omega

end Agreeing

def rebind (r : Registry α) (ch : ChannelId) (target : TriggerId) (c : Channel) : Registry α where
  triggers :=
    (match c.trigger with
      | some old => r.triggers.modify old.index (unlinkFrom ch)
      | none => r.triggers).modify target.index (linkTo ch)
  channels := r.channels.set ch.index { c with trigger := some target }

section Entries

theorem trigger_eq_ok_iff {t : Trigger α} : r.trigger target = .ok t ↔ r.triggers[target.index]? = some t := by
  unfold trigger
  cases r.triggers[target.index]? <;> simp

theorem channel_eq_ok_iff {c : Channel} : r.channel ch = .ok c ↔ r.channels[ch.index]? = some c := by
  unfold channel
  cases r.channels[ch.index]? <;> simp

theorem Agreeing.paired (agreeing : r.Agreeing) (ch : ChannelId) (t : TriggerId) :
    (∃ c, r.channel ch = .ok c ∧ c.trigger = some t) ↔ ∃ u, r.trigger t = .ok u ∧ ch ∈ u.linked := by
  have bound : r.bound? ch = some t ↔ ∃ c, r.channel ch = .ok c ∧ c.trigger = some t := by
    simp only [bound?, Option.bind_eq_some_iff, channel_eq_ok_iff]
  have listed : ch ∈ r.listed t ↔ ∃ u, r.trigger t = .ok u ∧ ch ∈ u.linked := by
    simp only [trigger_eq_ok_iff]
    unfold Registry.listed listedIn
    cases r.triggers[t.index]? with
    | none => simp
    | some u => simp
  rw [← bound, ← listed]
  exact agreeing.bound ch t

theorem exists_listed {u : Trigger α} (mem : u ∈ r.triggers) : ∃ t, r.listed t = u.linked := by
  obtain ⟨i, h, rfl⟩ := List.mem_iff_getElem.mp mem
  refine ⟨⟨i⟩, ?_⟩
  rw [listed, listedIn, List.getElem?_eq_getElem h]
  rfl

end Entries

section Steps

theorem getElem?_concat_of_ne {β : Type} {l : List β} {b : β} {i : Nat} (other : i ≠ l.length) :
    (l ++ [b])[i]? = l[i]? := by
  by_cases before : i < l.length
  · rw [List.getElem?_append_left before]
  · rw [List.getElem?_eq_none (by simp; omega), List.getElem?_eq_none (by omega)]

theorem addTrigger_eq_ok {output : Nat} {raiseAt dropAfter : α} {id : TriggerId}
    (h : r.addTrigger name output raiseAt dropAfter = .ok (r', id)) :
    Text.isName name = true ∧ name ∉ r.triggerNames ∧ id = ⟨r.triggers.length⟩
      ∧ r' = { r with triggers := r.triggers ++ [⟨name, output, raiseAt, dropAfter, []⟩] } := by
  obtain ⟨_, checked, h⟩ := bind_eq_ok_iff.mp h
  have valid : Text.isName name = true := by
    unfold checkName at checked
    split at checked
    · assumption
    · cases checked
  split at h
  · cases h
  · rename_i free
    cases h
    refine ⟨valid, ?_, rfl, rfl⟩
    simpa [findTrigger?, triggerNames] using free

theorem addChannel_eq_ok {id : ChannelId} (h : r.addChannel name = .ok (r', id)) :
    Text.isName name = true ∧ name ∉ r.channelNames ∧ id = ⟨r.channels.length⟩
      ∧ r' = { r with channels := r.channels ++ [⟨name, none⟩] } := by
  obtain ⟨_, checked, h⟩ := bind_eq_ok_iff.mp h
  have valid : Text.isName name = true := by
    unfold checkName at checked
    split at checked
    · assumption
    · cases checked
  split at h
  · cases h
  · rename_i free
    cases h
    refine ⟨valid, ?_, rfl, rfl⟩
    rw [← findChannel?_eq_none_iff]
    simpa using free

theorem sameBindings_addTrigger {output : Nat} {raiseAt dropAfter : α} {id : TriggerId}
    (h : r.addTrigger name output raiseAt dropAfter = .ok (r', id)) : SameBindings r r' := by
  obtain ⟨_, _, _, rfl⟩ := addTrigger_eq_ok h
  refine ⟨fun _ => rfl, fun t => ?_⟩
  unfold listed listedIn
  by_cases last : t.index = r.triggers.length
  · rw [last, List.getElem?_concat_length, List.getElem?_eq_none (Nat.le_refl _)]
    rfl
  · rw [getElem?_concat_of_ne last]

theorem sameBindings_addChannel {id : ChannelId} (h : r.addChannel name = .ok (r', id)) : SameBindings r r' := by
  obtain ⟨_, _, _, rfl⟩ := addChannel_eq_ok h
  refine ⟨fun ch => ?_, fun _ => rfl⟩
  unfold bound?
  by_cases last : ch.index = r.channels.length
  · rw [last, List.getElem?_concat_length, List.getElem?_eq_none (Nat.le_refl _)]
    rfl
  · rw [getElem?_concat_of_ne last]

theorem link_eq_ok_iff :
    r.link ch target = .ok r' ↔ ∃ t c, r.trigger target = .ok t ∧ r.channel ch = .ok c
      ∧ r' = if c.trigger = some target then r else r.rebind ch target c := by
  unfold link
  rw [bind_eq_ok_iff]
  constructor
  · rintro ⟨t, here, h⟩
    obtain ⟨c, there, h⟩ := bind_eq_ok_iff.mp h
    refine ⟨t, c, here, there, ?_⟩
    split at h
    · rename_i already
      rw [if_pos already]
      exact (Except.ok.inj h).symm
    · rename_i anew
      rw [if_neg anew]
      exact (Except.ok.inj h).symm
  · rintro ⟨t, c, here, there, rfl⟩
    refine ⟨t, here, bind_eq_ok_iff.mpr ⟨c, there, ?_⟩⟩
    split
    · rfl
    · rfl

theorem exists_link_of_added {t : Trigger α} {id : ChannelId} (here : r.trigger target = .ok t)
    (added : r.addChannel name = .ok (r', id)) : ∃ r'', r'.link id target = .ok r'' := by
  obtain ⟨_, _, rfl, rfl⟩ := addChannel_eq_ok added
  refine ⟨_, link_eq_ok_iff.mpr ⟨t, ⟨name, none⟩, here, ?_, rfl⟩⟩
  rw [channel_eq_ok_iff]
  exact List.getElem?_concat_length

theorem listedIn_unlink (triggers : List (Trigger α)) (old t : TriggerId) :
    listedIn (triggers.modify old.index (unlinkFrom ch)) t
      = if t = old then (listedIn triggers t).filter (· != ch) else listedIn triggers t := by
  unfold listedIn
  rw [List.getElem?_modify]
  by_cases here : t = old
  · rw [if_pos here, here]
    cases triggers[old.index]? with
    | none => rfl
    | some u => simp [unlinkFrom]
  · have other : old.index ≠ t.index := fun same => here (congrArg TriggerId.mk same.symm)
    rw [if_neg here]
    cases triggers[t.index]? with
    | none => rfl
    | some u => simp [other]

theorem listedIn_link {triggers : List (Trigger α)} (valid : target.index < triggers.length) (t : TriggerId) :
    listedIn (triggers.modify target.index (linkTo ch)) t
      = listedIn triggers t ++ if t = target then [ch] else [] := by
  unfold listedIn
  rw [List.getElem?_modify]
  by_cases here : t = target
  · rw [if_pos here, here, List.getElem?_eq_getElem valid]
    simp [linkTo]
  · have other : target.index ≠ t.index := fun same => here (congrArg TriggerId.mk same.symm)
    rw [if_neg here, List.append_nil]
    cases triggers[t.index]? with
    | none => rfl
    | some u => simp [other]

theorem bound?_rebind {c : Channel} (found : r.channel ch = .ok c) (d : ChannelId) :
    (r.rebind ch target c).bound? d = if d = ch then some target else r.bound? d := by
  obtain ⟨valid, _⟩ := List.getElem?_eq_some_iff.mp (channel_eq_ok_iff.mp found)
  unfold bound? rebind
  rw [List.getElem?_set]
  by_cases here : d = ch
  · rw [if_pos here, here, if_pos rfl, if_pos valid]
    rfl
  · rw [if_neg here, if_neg fun same => here (congrArg ChannelId.mk same.symm)]

theorem Agreeing.listed_rebind (agreeing : r.Agreeing) {t : Trigger α} {c : Channel}
    (here : r.trigger target = .ok t) (there : r.channel ch = .ok c) (u : TriggerId) :
    (r.rebind ch target c).listed u = (r.listed u).filter (· != ch) ++ if u = target then [ch] else [] := by
  obtain ⟨valid, _⟩ := List.getElem?_eq_some_iff.mp (trigger_eq_ok_iff.mp here)
  have bound : r.bound? ch = c.trigger := by
    rw [bound?, channel_eq_ok_iff.mp there]
    rfl
  -- It is enough to look through the list of the trigger that the channel is bound to.
  have elsewhere (apart : c.trigger ≠ some u) : (r.listed u).filter (· != ch) = r.listed u := by
    rw [List.filter_eq_self]
    intro d mem
    rw [← agreeing.bound] at mem
    have other : d ≠ ch := by
      rintro rfl
      exact apart (bound.symm.trans mem)
    simpa using other
  unfold rebind
  cases free : c.trigger with
  | none =>
    rw [listed, listedIn_link valid, elsewhere (by simp [free])]
    rfl
  | some old =>
    rw [listed, listedIn_link (by simpa using valid), listedIn_unlink]
    by_cases same : u = old
    · rw [if_pos same]
      rfl
    · rw [if_neg same, elsewhere (by simpa [free] using Ne.symm same)]
      rfl

theorem Agreeing.rebound_rebind (agreeing : r.Agreeing) {t : Trigger α} {c : Channel}
    (here : r.trigger target = .ok t) (there : r.channel ch = .ok c) (anew : c.trigger ≠ some target) :
    Rebound ch target r (r.rebind ch target c) where
  anew := by
    rw [bound?, channel_eq_ok_iff.mp there]
    exact anew
  bound := bound?_rebind there
  listed := agreeing.listed_rebind here there

theorem Agreeing.link_cases (agreeing : r.Agreeing) (h : r.link ch target = .ok r') :
    r' = r ∨ Rebound ch target r r' := by
  obtain ⟨t, c, here, there, rfl⟩ := link_eq_ok_iff.mp h
  by_cases already : c.trigger = some target
  · exact .inl (if_pos already)
  · rw [if_neg already]
    exact .inr (agreeing.rebound_rebind here there already)

end Steps

section Names

structure Named (names : List String) : Prop where
  valid : ∀ name ∈ names, Text.isName name = true
  distinct : names.Nodup

/--
A list of names to which at most one has been added that is well formed and was not taken.
-/
def Enlists (names names' : List String) : Prop :=
  names' = names ∨ ∃ name, Text.isName name = true ∧ name ∉ names ∧ names' = names ++ [name]

theorem Enlists.isPrefix {names names' : List String} (enlists : Enlists names names') : names <+: names' := by
  rcases enlists with rfl | ⟨name, _, _, rfl⟩
  · exact List.prefix_rfl
  · exact List.prefix_append ..

theorem Named.enlists {names names' : List String} (named : Named names) (enlists : Enlists names names') :
    Named names' := by
  rcases enlists with rfl | ⟨name, valid, free, rfl⟩
  · exact named
  · constructor
    · intro other mem
      rcases List.mem_append.mp mem with mem | mem
      · exact named.valid other mem
      · rw [List.mem_singleton.mp mem]
        exact valid
    · exact List.nodup_append.mpr ⟨named.distinct, by simp, by grind⟩

theorem findTrigger?_eq (r : Registry α) (name : String) :
    r.findTrigger? name = (r.triggerNames.findIdx? (· == name)).map .mk := by
  unfold findTrigger? triggerNames
  rw [List.findIdx?_map]
  rfl

theorem enlists_addTrigger {output : Nat} {raiseAt dropAfter : α} {id : TriggerId}
    (h : r.addTrigger name output raiseAt dropAfter = .ok (r', id)) :
    Enlists r.triggerNames r'.triggerNames ∧ r'.triggerNames[id.index]? = some name := by
  obtain ⟨valid, free, rfl, rfl⟩ := addTrigger_eq_ok h
  unfold triggerNames at free ⊢
  rw [List.map_append]
  refine ⟨.inr ⟨name, valid, free, rfl⟩, ?_⟩
  exact List.length_map (fun t : Trigger α => t.name) ▸ List.getElem?_concat_length

theorem enlists_addChannel {id : ChannelId} (h : r.addChannel name = .ok (r', id)) :
    Enlists r.channelNames r'.channelNames ∧ r'.channelNames[id.index]? = some name := by
  obtain ⟨valid, free, rfl, rfl⟩ := addChannel_eq_ok h
  unfold channelNames at free ⊢
  rw [List.map_append]
  refine ⟨.inr ⟨name, valid, free, rfl⟩, ?_⟩
  exact List.length_map (fun c : Channel => c.name) ▸ List.getElem?_concat_length

theorem channelNames_addTrigger {output : Nat} {raiseAt dropAfter : α} {id : TriggerId}
    (h : r.addTrigger name output raiseAt dropAfter = .ok (r', id)) : r'.channelNames = r.channelNames := by
  unfold channelNames
  rw [channels_addTrigger h]

theorem triggerNames_addChannel {id : ChannelId} (h : r.addChannel name = .ok (r', id)) :
    r'.triggerNames = r.triggerNames := by
  obtain ⟨_, _, _, rfl⟩ := addChannel_eq_ok h
  rfl

theorem map_modify_of_same {β γ : Type} {g : β → γ} (f : β → β) (same : ∀ b, g (f b) = g b) (l : List β) (i : Nat) :
    (l.modify i f).map g = l.map g := by
  apply List.ext_getElem?
  intro j
  rw [List.getElem?_map, List.getElem?_map, List.getElem?_modify]
  cases l[j]? with
  | none => rfl
  | some b =>
    by_cases here : i = j
    · simp [here, same]
    · simp [here]

theorem triggerNames_link (h : r.link ch target = .ok r') : r'.triggerNames = r.triggerNames := by
  have linked (triggers : List (Trigger α)) (t : TriggerId) :
      (triggers.modify t.index (linkTo ch)).map (·.name) = triggers.map (·.name) :=
    map_modify_of_same (linkTo ch) (fun _ => rfl) ..
  have unlinked (triggers : List (Trigger α)) (t : TriggerId) :
      (triggers.modify t.index (unlinkFrom ch)).map (·.name) = triggers.map (·.name) :=
    map_modify_of_same (unlinkFrom ch) (fun _ => rfl) ..
  obtain ⟨_, c, _, _, rfl⟩ := link_eq_ok_iff.mp h
  unfold triggerNames rebind
  split
  · rfl
  · rw [linked]
    split
    · rw [unlinked]
    · rfl

end Names

end PulseSequencer.Registry
