import Mathlib.Data.List.Induction
import PulseSequencer.Proofs.Registry.Bindings
import PulseSequencer.Sequence.Basic

/-!
This module contains what holds of a registry whatever was called on it before, with whatever handles: both sides of every
binding agree, names are distinct, handles stay what they are, and the lists of the triggers follow the order in which
channels were bound last. A call that fails leaves no trace.
-/

namespace PulseSequencer.Registry

variable {α : Type}

inductive Handle
  | trigger (id : TriggerId)
  | channel (id : ChannelId)
deriving DecidableEq, Repr

/--
Whether a handle stands for something of this name, and is found under it.
-/
def Knows (r : Registry α) (name : String) : Handle → Prop
  | .trigger id => (∃ t, r.trigger id = .ok t ∧ t.name = name) ∧ r.triggerId name = .ok id
  | .channel id => (∃ c, r.channel id = .ok c ∧ c.name = name) ∧ r.channelId name = .ok id

inductive Call (α : Type)
  | addTrigger (name : String) (output : Nat) (raiseAt dropAfter : α)
  | addChannel (name : String)
  | link (ch : ChannelId) (target : TriggerId)
  | linkChannel (target : TriggerId) (name : String)
deriving Repr

namespace Call

def name? : Call α → Option String
  | .addTrigger name .. | .addChannel name | .linkChannel _ name => some name
  | .link .. => none

def take {ρ : Type} (r : Registry α) : Except (Error α) (Registry α × ρ) → Outcome α (Registry α) ρ
  | .ok (r', value) => .done value r'
  | .error cause => .failed cause r

/--
What a call leaves behind. The steps of a call that fails midway are not undone.
-/
def perform (call : Call α) (r : Registry α) : Outcome α (Registry α) (Option Handle) :=
  match call with
  | .addTrigger name output raiseAt dropAfter =>
    take r ((r.addTrigger name output raiseAt dropAfter).map fun (r', id) => (r', some (.trigger id)))
  | .addChannel name => take r ((r.addChannel name).map fun (r', id) => (r', some (.channel id)))
  | .link ch target => take r ((r.link ch target).map (·, none))
  | .linkChannel target name =>
    (take r ((r.trigger target).map (r, ·))).andThen fun _ r =>
      (take r (r.addChannel name)).andThen fun id r =>
        take r ((r.link id target).map (·, some (.channel id)))

end Call

def afterCalls (calls : List (Call α)) : Registry α :=
  calls.foldl (fun r call => (call.perform r).state) .empty

def Rebinds (calls : List (Call α)) (i : Nat) (ch : ChannelId) : Prop :=
  (afterCalls (calls.take (i + 1))).bound? ch ≠ (afterCalls (calls.take i)).bound? ch

structure LastRebinds (calls : List (Call α)) (i : Nat) (ch : ChannelId) : Prop where
  rebinds : Rebinds calls i ch
  last : ∀ j, i < j → ¬ Rebinds calls j ch

/--
Whether a channel has kept its binding for longer than another one.
-/
def BoundBefore (calls : List (Call α)) (c d : ChannelId) : Prop :=
  ∃ i j, i < j ∧ LastRebinds calls i c ∧ LastRebinds calls j d

section Effects

variable {r r' : Registry α} {call : Call α} {answer : Option Handle}

inductive Effect : Call α → Registry α → Registry α → Option Handle → Prop
  | addTrigger {r r' : Registry α} {name : String} {output : Nat} {raiseAt dropAfter : α} {id : TriggerId} :
    r.addTrigger name output raiseAt dropAfter = .ok (r', id) →
    Effect (.addTrigger name output raiseAt dropAfter) r r' (some (.trigger id))
  | addChannel {r r' : Registry α} {name : String} {id : ChannelId} : r.addChannel name = .ok (r', id) →
    Effect (.addChannel name) r r' (some (.channel id))
  | link {r r' : Registry α} {ch : ChannelId} {target : TriggerId} : r.link ch target = .ok r' →
    Effect (.link ch target) r r' none
  | linkChannel {r named r' : Registry α} {target : TriggerId} {name : String} {id : ChannelId} :
    r.addChannel name = .ok (named, id) → named.link id target = .ok r' →
    Effect (.linkChannel target name) r r' (some (.channel id))

theorem exists_of_take_ok {ρ : Type} {done : Except (Error α) (Registry α × ρ)} {value : ρ}
    (h : (Call.take r done).result = .ok value) : ∃ r', done = .ok (r', value) ∧ (Call.take r done).state = r' := by
  cases done with
  | error cause => cases h
  | ok made =>
    cases h
    exact ⟨made.1, rfl, rfl⟩

theorem state_take_of_error {ρ : Type} {done : Except (Error α) (Registry α × ρ)} {cause : Error α}
    (h : (Call.take r done).result = .error cause) : (Call.take r done).state = r := by
  cases done with
  | error cause => rfl
  | ok made => cases h

theorem effect_of_ok (h : (call.perform r).result = .ok answer) : Effect call r (call.perform r).state answer := by
  cases call with
  | addTrigger name output raiseAt dropAfter =>
    obtain ⟨r', answered, state⟩ := exists_of_take_ok h
    obtain ⟨_, added, same⟩ := map_eq_ok_iff.mp answered
    cases same
    exact state ▸ .addTrigger added
  | addChannel name =>
    obtain ⟨r', answered, state⟩ := exists_of_take_ok h
    obtain ⟨_, added, same⟩ := map_eq_ok_iff.mp answered
    cases same
    exact state ▸ .addChannel added
  | link ch target =>
    obtain ⟨r', answered, state⟩ := exists_of_take_ok h
    obtain ⟨_, bound, same⟩ := map_eq_ok_iff.mp answered
    cases same
    exact state ▸ .link bound
  | linkChannel target name =>
    unfold Call.perform at h ⊢
    obtain ⟨_, found, later⟩ := Outcome.result_andThen_eq_ok_iff.mp h
    obtain ⟨id, named, last⟩ := Outcome.result_andThen_eq_ok_iff.mp later
    rw [Outcome.state_andThen_of_ok found, Outcome.state_andThen_of_ok named]
    obtain ⟨_, checked, state⟩ := exists_of_take_ok found
    obtain ⟨_, _, same⟩ := map_eq_ok_iff.mp checked
    cases same
    rw [state] at named last ⊢
    obtain ⟨_, added, state⟩ := exists_of_take_ok named
    rw [state] at last ⊢
    obtain ⟨_, answered, state⟩ := exists_of_take_ok last
    obtain ⟨_, bound, same⟩ := map_eq_ok_iff.mp answered
    cases same
    exact state ▸ .linkChannel added bound

theorem state_of_error {cause : Error α} (h : (call.perform r).result = .error cause) : (call.perform r).state = r := by
  cases call with
  | addTrigger name output raiseAt dropAfter => exact state_take_of_error h
  | addChannel name => exact state_take_of_error h
  | link ch target => exact state_take_of_error h
  | linkChannel target name =>
    unfold Call.perform at h ⊢
    cases found : (Call.take r ((r.trigger target).map (r, ·))).result with
    | error cause => rw [Outcome.state_andThen_of_error found, state_take_of_error found]
    | ok t =>
      obtain ⟨_, checked, state⟩ := exists_of_take_ok found
      obtain ⟨_, here, same⟩ := map_eq_ok_iff.mp checked
      cases same
      rw [Outcome.result_andThen, found, state] at h
      rw [Outcome.state_andThen_of_ok found, state]
      change ((Call.take r (r.addChannel name)).andThen _).result = _ at h
      cases named : (Call.take r (r.addChannel name)).result with
      | error cause => rw [Outcome.state_andThen_of_error named, state_take_of_error named]
      | ok id =>
        -- A channel that was registered a moment ago can be bound.
        exfalso
        obtain ⟨r', added, state⟩ := exists_of_take_ok named
        obtain ⟨r'', bound⟩ := exists_link_of_added here added
        rw [Outcome.result_andThen, named, state] at h
        simp [Except.bind, bound, Except.map, Call.take, Outcome.done] at h

theorem bindings_of_effect (agreeing : r.Agreeing) (effect : Effect call r r' answer) :
    SameBindings r r' ∨ ∃ ch target, Rebound ch target r r' := by
  cases effect with
  | addTrigger added => exact .inl (sameBindings_addTrigger added)
  | addChannel added => exact .inl (sameBindings_addChannel added)
  | link bound =>
    rcases agreeing.link_cases bound with rfl | rebound
    · exact .inl (.refl r')
    · exact .inr ⟨_, _, rebound⟩
  | linkChannel added bound =>
    have same := sameBindings_addChannel added
    rcases (agreeing.same same).link_cases bound with rfl | rebound
    · exact .inl same
    · exact .inr ⟨_, _, same.rebound rebound⟩

theorem names_of_effect (effect : Effect call r r' answer) :
    Enlists r.triggerNames r'.triggerNames ∧ Enlists r.channelNames r'.channelNames := by
  cases effect with
  | addTrigger added => exact ⟨(enlists_addTrigger added).1, .inl (channelNames_addTrigger added)⟩
  | addChannel added => exact ⟨.inl (triggerNames_addChannel added), (enlists_addChannel added).1⟩
  | link bound => exact ⟨.inl (triggerNames_link bound), .inl (channelNames_link bound)⟩
  | linkChannel added bound =>
    rw [triggerNames_link bound, channelNames_link bound]
    exact ⟨.inl (triggerNames_addChannel added), (enlists_addChannel added).1⟩

def Lists (r : Registry α) (name : String) : Handle → Prop
  | .trigger id => r.triggerNames[id.index]? = some name
  | .channel id => r.channelNames[id.index]? = some name

theorem lists_of_effect {handle : Handle} (effect : Effect call r r' (some handle)) :
    ∃ name, call.name? = some name ∧ r'.Lists name handle := by
  cases effect with
  | addTrigger added => exact ⟨_, rfl, (enlists_addTrigger added).2⟩
  | addChannel added => exact ⟨_, rfl, (enlists_addChannel added).2⟩
  | linkChannel added bound =>
    refine ⟨_, rfl, ?_⟩
    rw [Lists, channelNames_link bound]
    exact (enlists_addChannel added).2

def Linked (r : Registry α) (ch : ChannelId) : Prop :=
  ∃ t, r.triggerOf ch = .ok t

theorem linked_iff {ch : ChannelId} :
    r.Linked ch ↔ ∃ target, r.bound? ch = some target ∧ target.index < r.triggerNames.length := by
  unfold Linked triggerOf bound? channel triggerNames
  rw [List.length_map]
  cases r.channels[ch.index]? with
  | none => simp [bind, Except.bind]
  | some c =>
    cases bound : c.trigger with
    | none => simp [bind, Except.bind, bound]
    | some target => simp [bind, Except.bind, bound, trigger_eq_ok_iff, List.getElem?_eq_some_iff]

theorem linked_link {ch c : ChannelId} {target : TriggerId} (linked : r.Linked c) (h : r.link ch target = .ok r') :
    r'.Linked c := by
  rw [linked_iff] at linked ⊢
  rw [triggerNames_link h]
  obtain ⟨t, found, here, there, rfl⟩ := link_eq_ok_iff.mp h
  split
  · exact linked
  · rw [bound?_rebind there]
    split
    · obtain ⟨valid, _⟩ := List.getElem?_eq_some_iff.mp (trigger_eq_ok_iff.mp here)
      exact ⟨target, rfl, (List.length_map (fun t : Trigger α => t.name)).symm ▸ valid⟩
    · exact linked

theorem linked_of_effect {ch : ChannelId} (linked : r.Linked ch) (effect : Effect call r r' answer) : r'.Linked ch := by
  have kept {s : Registry α} (same : SameBindings r s) (names : r.triggerNames <+: s.triggerNames) : s.Linked ch := by
    obtain ⟨target, bound, valid⟩ := linked_iff.mp linked
    exact linked_iff.mpr ⟨target, (same.bound ch).trans bound, Nat.lt_of_lt_of_le valid names.length_le⟩
  cases effect with
  | addTrigger added => exact kept (sameBindings_addTrigger added) (enlists_addTrigger added).1.isPrefix
  | addChannel added => exact kept (sameBindings_addChannel added) (triggerNames_addChannel added ▸ List.prefix_rfl)
  | link bound => exact linked_link linked bound
  | linkChannel added bound =>
    apply linked_link _ bound
    exact kept (sameBindings_addChannel added) (triggerNames_addChannel added ▸ List.prefix_rfl)

end Effects

section Runs

variable {calls : List (Call α)} {call : Call α} {ch c d : ChannelId} {target : TriggerId} {i : Nat}

theorem afterCalls_concat (calls : List (Call α)) (call : Call α) :
    afterCalls (calls ++ [call]) = (call.perform (afterCalls calls)).state := by
  unfold afterCalls
  rw [List.foldl_concat]

theorem Rebinds.lt_length (rebinds : Rebinds calls i ch) : i < calls.length := by
  by_contra beyond
  apply rebinds
  rw [List.take_of_length_le (by omega), List.take_of_length_le (by omega)]

theorem rebinds_concat_of_lt (before : i < calls.length) : Rebinds (calls ++ [call]) i ch ↔ Rebinds calls i ch := by
  unfold Rebinds
  rw [List.take_append_of_le_length (by omega), List.take_append_of_le_length (by omega)]

theorem rebinds_concat_last :
    Rebinds (calls ++ [call]) calls.length ch
      ↔ (call.perform (afterCalls calls)).state.bound? ch ≠ (afterCalls calls).bound? ch := by
  have whole : (calls ++ [call]).take (calls.length + 1) = calls ++ [call] := List.take_of_length_le (by simp)
  have front : (calls ++ [call]).take calls.length = calls := List.take_left' rfl
  rw [Rebinds, whole, front, afterCalls_concat]

theorem LastRebinds.concat (last : LastRebinds calls i ch)
    (kept : (call.perform (afterCalls calls)).state.bound? ch = (afterCalls calls).bound? ch) :
    LastRebinds (calls ++ [call]) i ch where
  rebinds := (rebinds_concat_of_lt last.rebinds.lt_length).mpr last.rebinds
  last := by
    intro j later rebinds
    have bound := rebinds.lt_length
    rw [List.length_append, List.length_singleton] at bound
    by_cases new : j = calls.length
    · rw [new, rebinds_concat_last] at rebinds
      exact rebinds kept
    · rw [rebinds_concat_of_lt (by omega)] at rebinds
      exact last.last j later rebinds

theorem lastRebinds_concat
    (anew : (call.perform (afterCalls calls)).state.bound? ch ≠ (afterCalls calls).bound? ch) :
    LastRebinds (calls ++ [call]) calls.length ch where
  rebinds := rebinds_concat_last.mpr anew
  last := by
    intro j later rebinds
    have bound := rebinds.lt_length
    rw [List.length_append, List.length_singleton] at bound
    omega

theorem BoundBefore.concat (before : BoundBefore calls c d)
    (keptFirst : (call.perform (afterCalls calls)).state.bound? c = (afterCalls calls).bound? c)
    (keptSecond : (call.perform (afterCalls calls)).state.bound? d = (afterCalls calls).bound? d) :
    BoundBefore (calls ++ [call]) c d := by
  obtain ⟨i, j, less, first, second⟩ := before
  exact ⟨i, j, less, first.concat keptFirst, second.concat keptSecond⟩

structure Chronicled (calls : List (Call α)) : Prop where
  agreeing : (afterCalls calls).Agreeing
  dated : ∀ ch t, (afterCalls calls).bound? ch = some t → ∃ i, LastRebinds calls i ch
  ordered : ∀ t, ((afterCalls calls).listed t).Pairwise (BoundBefore calls)

theorem Chronicled.kept (chronicled : Chronicled calls)
    (same : SameBindings (afterCalls calls) (call.perform (afterCalls calls)).state) : Chronicled (calls ++ [call]) where
  agreeing := by
    rw [afterCalls_concat]
    exact chronicled.agreeing.same same
  dated := by
    intro ch t bound
    rw [afterCalls_concat, same.bound] at bound
    obtain ⟨i, last⟩ := chronicled.dated ch t bound
    exact ⟨i, last.concat (same.bound ch)⟩
  ordered := by
    intro t
    rw [afterCalls_concat, same.listed]
    apply (chronicled.ordered t).imp
    intro c d before
    exact before.concat (same.bound c) (same.bound d)

theorem Chronicled.rebound (chronicled : Chronicled calls)
    (rebound : Rebound ch target (afterCalls calls) (call.perform (afterCalls calls)).state) :
    Chronicled (calls ++ [call]) := by
  have kept (c : ChannelId) (other : c ≠ ch) :
      (call.perform (afterCalls calls)).state.bound? c = (afterCalls calls).bound? c := by
    rw [rebound.bound, if_neg other]
  have anew : LastRebinds (calls ++ [call]) calls.length ch := by
    apply lastRebinds_concat
    rw [rebound.bound, if_pos rfl]
    exact rebound.anew.symm
  refine ⟨?_, ?_, ?_⟩
  · rw [afterCalls_concat]
    exact chronicled.agreeing.rebound rebound
  · intro c t bound
    by_cases here : c = ch
    · exact ⟨_, here ▸ anew⟩
    · rw [afterCalls_concat, kept c here] at bound
      obtain ⟨i, last⟩ := chronicled.dated c t bound
      exact ⟨i, last.concat (kept c here)⟩
  · intro t
    have others (c : ChannelId) (mem : c ∈ ((afterCalls calls).listed t).filter (· != ch)) :
        c ≠ ch ∧ (afterCalls calls).bound? c = some t := by
      rw [List.mem_filter, ← chronicled.agreeing.bound] at mem
      exact ⟨by simpa using mem.2, mem.1⟩
    rw [afterCalls_concat, rebound.listed, List.pairwise_append]
    refine ⟨?_, ?_, ?_⟩
    · apply ((chronicled.ordered t).filter _).imp_of_mem
      intro c d first second before
      exact before.concat (kept c (others c first).1) (kept d (others d second).1)
    · split
      · exact List.pairwise_singleton ..
      · exact .nil
    · intro c mem d end_
      obtain ⟨other, bound⟩ := others c mem
      obtain ⟨i, last⟩ := chronicled.dated c t bound
      have : d = ch := by
        split at end_
        · exact List.mem_singleton.mp end_
        · cases end_
      exact ⟨i, calls.length, last.rebinds.lt_length, last.concat (kept c other), this ▸ anew⟩

theorem Chronicled.step (chronicled : Chronicled calls) (call : Call α) : Chronicled (calls ++ [call]) := by
  cases h : (call.perform (afterCalls calls)).result with
  | error cause =>
    apply chronicled.kept
    rw [state_of_error h]
    exact .refl _
  | ok answer =>
    rcases bindings_of_effect chronicled.agreeing (effect_of_ok h) with same | ⟨ch, target, rebound⟩
    · exact chronicled.kept same
    · exact chronicled.rebound rebound

theorem chronicled (calls : List (Call α)) : Chronicled calls := by
  induction calls using List.reverseRecOn with
  | nil => exact ⟨agreeing_empty, by simp [afterCalls, bound?, empty], by simp [afterCalls, listed, listedIn, empty]⟩
  | append_singleton calls call ih => exact ih.step call

end Runs

section Names

variable {r : Registry α} {calls : List (Call α)} {call : Call α} {name : String} {handle : Handle} {i : Nat}

structure Telling (r : Registry α) : Prop where
  triggers : Named r.triggerNames
  channels : Named r.channelNames

theorem Telling.trigger (telling : r.Telling) {id : TriggerId} {t : Trigger α} (h : r.trigger id = .ok t) :
    r.triggerId t.name = .ok id := by
  have named : r.triggerNames[id.index]? = some t.name := by
    rw [triggerNames, List.getElem?_map, trigger_eq_ok_iff.mp h]
    rfl
  rw [triggerId, findTrigger?_eq, findIdx?_of_nodup telling.triggers.distinct named]
  rfl

theorem Telling.channel (telling : r.Telling) {id : ChannelId} {c : Channel} (h : r.channel id = .ok c) :
    r.channelId c.name = .ok id := by
  rw [channelId, findChannel?_of_getElem? telling.channels.distinct (channel_eq_ok_iff.mp h)]

theorem Telling.knows (telling : r.Telling) (lists : r.Lists name handle) : r.Knows name handle := by
  cases handle with
  | trigger id =>
    rw [Lists, triggerNames, List.getElem?_map, Option.map_eq_some_iff] at lists
    obtain ⟨t, found, rfl⟩ := lists
    have here := trigger_eq_ok_iff.mpr found
    exact ⟨⟨t, here, rfl⟩, telling.trigger here⟩
  | channel id =>
    rw [Lists, channelNames, List.getElem?_map, Option.map_eq_some_iff] at lists
    obtain ⟨c, found, rfl⟩ := lists
    have here := channel_eq_ok_iff.mpr found
    exact ⟨⟨c, here, rfl⟩, telling.channel here⟩

theorem getElem?_of_isPrefix {names names' : List String} (more : names <+: names') {index : Nat}
    (h : names[index]? = some name) : names'[index]? = some name := by
  obtain ⟨later, rfl⟩ := more
  obtain ⟨bound, _⟩ := List.getElem?_eq_some_iff.mp h
  rw [List.getElem?_append_left bound, h]

theorem Lists.isPrefix {r' : Registry α} (lists : r.Lists name handle) (triggers : r.triggerNames <+: r'.triggerNames)
    (channels : r.channelNames <+: r'.channelNames) : r'.Lists name handle := by
  cases handle with
  | trigger id => exact getElem?_of_isPrefix triggers lists
  | channel id => exact getElem?_of_isPrefix channels lists

theorem names_perform (call : Call α) (r : Registry α) :
    Enlists r.triggerNames (call.perform r).state.triggerNames
      ∧ Enlists r.channelNames (call.perform r).state.channelNames := by
  cases h : (call.perform r).result with
  | error cause =>
    rw [state_of_error h]
    exact ⟨.inl rfl, .inl rfl⟩
  | ok answer => exact names_of_effect (effect_of_ok h)

theorem telling_afterCalls (calls : List (Call α)) : (afterCalls calls).Telling := by
  induction calls using List.reverseRecOn with
  | nil => exact ⟨⟨nofun, .nil⟩, ⟨nofun, .nil⟩⟩
  | append_singleton calls call ih =>
    have names := names_perform call (afterCalls calls)
    rw [afterCalls_concat]
    exact ⟨ih.triggers.enlists names.1, ih.channels.enlists names.2⟩

theorem lists_of_returned (here : calls[i]? = some call)
    (returned : (call.perform (afterCalls (calls.take i))).result = .ok (some handle)) :
    ∃ name, call.name? = some name ∧ (afterCalls calls).Lists name handle := by
  induction calls using List.reverseRecOn with
  | nil => cases here
  | append_singleton calls last ih =>
    rw [afterCalls_concat]
    by_cases new : i = calls.length
    · rw [new, List.getElem?_concat_length] at here
      cases here
      rw [new, List.take_left' rfl] at returned
      exact lists_of_effect (effect_of_ok returned)
    · rw [getElem?_concat_of_ne new] at here
      obtain ⟨before, _⟩ := List.getElem?_eq_some_iff.mp here
      rw [List.take_append_of_le_length (by omega)] at returned
      obtain ⟨name, named, lists⟩ := ih here returned
      have names := names_perform last (afterCalls calls)
      exact ⟨name, named, lists.isPrefix names.1.isPrefix names.2.isPrefix⟩

end Names

section Main

variable [Scalar α]

/--
What holds of a registry on which some calls were made one after the other: both sides of each binding agree, a trigger lists
its channels in the order in which they were bound, what a call answered with still stands for what was registered then, and
a call that fails leaves nothing behind.
-/
structure Consistent (calls : List (Call α)) (r : Registry α) : Prop where
  paired : ∀ ch t, (∃ c, r.channel ch = .ok c ∧ c.trigger = some t) ↔ ∃ u, r.trigger t = .ok u ∧ ch ∈ u.linked
  once : (r.triggers.flatMap (·.linked)).Nodup
  dated : ∀ u ∈ r.triggers, ∀ ch ∈ u.linked, ∃ i, LastRebinds calls i ch
  ordered : ∀ u ∈ r.triggers, u.linked.Pairwise (BoundBefore calls)
  telling : r.Telling
  returned : ∀ (i : Nat) call handle, calls[i]? = some call →
    (call.perform (afterCalls (calls.take i))).result = .ok (some handle) →
    ∃ name, call.name? = some name ∧ r.Knows name handle
  triggers : ∀ id t, r.trigger id = .ok t → r.triggerId t.name = .ok id
  channels : ∀ id c, r.channel id = .ok c → r.channelId c.name = .ok id
  failing : ∀ (call : Call α) cause, (call.perform r).result = .error cause → (call.perform r).state = r
  linking : ∀ (q : Sequence α) target name device, q.registry = r →
    ((Call.linkChannel target name).perform r).result
        = (q.linkChannel target name device).map (fun linked => some (.channel linked.2))
      ∧ ∀ q' ch, q.linkChannel target name device = .ok (q', ch) →
        q'.registry = ((Call.linkChannel target name).perform r).state

theorem perform_linkChannel (q : Sequence α) (target : TriggerId) (name : String) (device : ChannelDevice α) :
    ((Call.linkChannel target name).perform q.registry).result
        = (q.linkChannel target name device).map (fun linked => some (.channel linked.2))
      ∧ ∀ q' ch, q.linkChannel target name device = .ok (q', ch) →
        q'.registry = ((Call.linkChannel target name).perform q.registry).state := by
  unfold Sequence.linkChannel
  simp only [Call.perform]
  cases here : q.registry.trigger target with
  | error cause =>
    refine ⟨rfl, ?_⟩
    intro q' ch linked
    cases linked
  | ok t =>
    simp only [Except.map, Call.take, Outcome.done, Outcome.andThen]
    cases added : q.registry.addChannel name with
    | error cause =>
      refine ⟨rfl, ?_⟩
      intro q' ch linked
      cases linked
    | ok named =>
      obtain ⟨r', bound⟩ := exists_link_of_added here added
      simp only [bound, bind, Except.bind, true_and]
      intro q' ch linked
      cases linked
      rfl

theorem consistent_afterCalls (calls : List (Call α)) : Consistent calls (afterCalls calls) where
  paired := (chronicled calls).agreeing.paired
  once := (chronicled calls).agreeing.nodup_flatMap
  dated := by
    intro u mem ch listed
    obtain ⟨t, same⟩ := exists_listed mem
    rw [← same, ← (chronicled calls).agreeing.bound] at listed
    exact (chronicled calls).dated ch t listed
  ordered := by
    intro u mem
    obtain ⟨t, same⟩ := exists_listed mem
    rw [← same]
    exact (chronicled calls).ordered t
  telling := telling_afterCalls calls
  returned := by
    intro i call handle here returned
    obtain ⟨name, named, lists⟩ := lists_of_returned here returned
    exact ⟨name, named, (telling_afterCalls calls).knows lists⟩
  triggers := fun _ _ => (telling_afterCalls calls).trigger
  channels := fun _ _ => (telling_afterCalls calls).channel
  failing := fun _ _ => state_of_error
  linking := by
    rintro q target name device same
    rw [← same]
    exact perform_linkChannel q target name device

end Main

end PulseSequencer.Registry
