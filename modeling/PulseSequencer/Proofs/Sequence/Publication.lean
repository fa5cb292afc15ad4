import PulseSequencer.Proofs.Registry.History
import PulseSequencer.Proofs.Sequence.Repetition

/-!
This module contains what the picture of a sequence shows: its last successful compilation. Nothing else changes the
picture, and no channel drops out of it, because a channel that was compiled stays bound to a trigger.
-/

namespace PulseSequencer.Sequence

variable {α : Type} [Scalar α]

open Scalar

/--
What can happen to a sequence: a command, or that its slices are exchanged without any check.
-/
inductive Action (α : Type) [Scalar α]
  | command (command : Command α)
  | exchange (slices : List (Slice α))

def act (q : Sequence α) : Action α → Sequence α
  | .command command => q.perform command
  | .exchange slices => { q with slices := slices }

def afterActions (q : Sequence α) (actions : List (Action α)) : Sequence α :=
  actions.foldl act q

def Emerged (q : Sequence α) : Prop :=
  ∃ driver cycleFrequency actions, q = (create driver cycleFrequency).afterActions actions

def publishes (q : Sequence α) : Action α → Bool
  | .command .compile => q.compile.result.isOk
  | _ => false

def compilations (q : Sequence α) : List (Action α) → List (Sequence α)
  | [] => []
  | action :: rest => (if q.publishes action then [q] else []) ++ compilations (q.act action) rest

def height (slices : List (Slice α)) : α :=
  ((slices.filter (·.start?.isNone)).map Slice.duration).foldl (· + ·) 0.0

def spansOf (slices : List (Slice α)) : List (SliceSpan α) :=
  slices.zipIdx.map fun (s, i) => ⟨s.name, s.start?.getD (height (slices.take i)), s.duration⟩

def Inside (cycleEnd : α) (span : SliceSpan α) : Prop :=
  ¬ cycleEnd + tolerance < span.start + span.duration

def Shows (p q : Sequence α) (ch : ChannelId) (trace : ChannelTrace α) : Prop :=
  ∃ c t w, q.registry.channel ch = .ok c ∧ p.registry.triggerOf ch = .ok t ∧ q.compiled.get? ch = some w
    ∧ trace = ⟨c.name, t.name, t.raiseAt, w⟩

/--
A sequence whose picture shows what was compiled in another state.
-/
structure Mirrors (p q : Sequence α) : Prop where
  cycleFrequency : q.snapshot.cycleFrequency = q.cycleFrequency
  triggers : q.snapshot.triggers = p.registry.triggers.map fun t => ⟨t.name, t.output, t.raiseAt, t.dropAfter⟩
  compiled : q.compiled = p.compile.state.compiled
  channels : ∃ ids : List ChannelId, ids.Perm q.compiled.keys ∧ ids.Pairwise (·.index < ·.index)
    ∧ List.Forall₂ (Shows p q) ids q.snapshot.channels
  slices : q.snapshot.slices = spansOf p.slices

section Spans

variable {registry : Registry α} {cycleEnd : α} {todo : ChannelSet} {timeline timeline' : Timeline α}
  {slices before : List (Slice α)} {s : Slice α}

theorem height_concat (slices : List (Slice α)) (s : Slice α) :
    height (slices ++ [s]) = if s.start?.isNone then height slices + s.duration else height slices := by
  unfold height
  cases own : s.start? with
  | none => simp [own]
  | some start => simp [own]

theorem spansOf_concat (slices : List (Slice α)) (s : Slice α) :
    spansOf (slices ++ [s]) = spansOf slices ++ [⟨s.name, s.start?.getD (height slices), s.duration⟩] := by
  unfold spansOf
  rw [List.zipIdx_append, List.map_append]
  congr 1
  · apply List.map_congr_left
    intro (t, i) mem
    have bound := (List.getElem?_eq_some_iff.mp (List.mk_mem_zipIdx_iff_getElem?.mp mem)).1
    dsimp only
    rw [List.take_append_of_le_length bound.le]
  · simp

theorem advance_eq_ok {cursor start next : α} (h : advance cycleEnd cursor s = .ok (start, next)) :
    start = s.start?.getD cursor ∧ next = (if s.start?.isNone then cursor + s.duration else cursor)
      ∧ (s.start? = none → ¬ cycleEnd + tolerance < cursor + s.duration) := by
  unfold advance at h
  cases own : s.start? with
  | none =>
    simp only [own] at h
    split at h
    · cases h
    · rename_i inside
      cases h
      exact ⟨rfl, rfl, fun _ => inside⟩
  | some start =>
    simp only [own] at h
    cases h
    exact ⟨rfl, rfl, nofun⟩

/--
Whether the slices of which it is known when they end do so within the cycle.
-/
def Snug (cycleEnd : α) (slices : List (Slice α)) : Prop :=
  ∀ s ∈ slices, ∀ finish, leastEnd? s = some finish → ¬ cycleEnd + tolerance < finish

theorem leastEnd?_of_start {start : α} (own : s.start? = some start) : leastEnd? s = some (start + s.duration) := by
  obtain ⟨content, memo, subs⟩ := s
  unfold Slice.start? Slice.kind at own
  unfold leastEnd? Slice.kind Slice.duration Slice.setDuration?
  cases kind : content.kind with
  | fixed start' duration =>
    simp only [kind, Option.some.injEq] at own
    rw [own]
  | fixedLength duration => simp [kind] at own
  | flex => simp [kind] at own

theorem spans_placeSlices (cursor : timeline.cursor = height before) (spans : timeline.spans.reverse = spansOf before)
    (ok : (placeSlices registry cycleEnd todo timeline slices).result = .ok timeline') :
    timeline'.spans.reverse = spansOf (before ++ slices) := by
  induction slices generalizing timeline before with
  | nil =>
    cases ok
    rw [spans, List.append_nil]
  | cons s rest ih =>
    rcases h : placeSlice registry cycleEnd todo timeline s with ⟨_ | next, s', events⟩
    · simp [placeSlices, h] at ok
    · have placed : (placeSlice registry cycleEnd todo timeline s).result = .ok next := by rw [h]
      simp only [placeSlices, h] at ok
      obtain ⟨_, start, after, advanced, _, rfl⟩ := placeSlice_eq_ok_iff.mp placed
      obtain ⟨rfl, rfl, _⟩ := advance_eq_ok advanced
      rw [← List.singleton_append, ← List.append_assoc]
      apply ih _ _ ok
      · rw [height_concat, cursor]
      · rw [spansOf_concat, List.reverse_cons, spans, cursor]

theorem inside_placeSlices (snug : Snug cycleEnd slices)
    (ok : (placeSlices registry cycleEnd todo timeline slices).result = .ok timeline') :
    ∀ span ∈ timeline'.spans, span ∈ timeline.spans ∨ Inside cycleEnd span := by
  induction slices generalizing timeline with
  | nil =>
    cases ok
    exact fun _ mem => .inl mem
  | cons s rest ih =>
    rcases h : placeSlice registry cycleEnd todo timeline s with ⟨_ | next, s', events⟩
    · simp [placeSlices, h] at ok
    · have placed : (placeSlice registry cycleEnd todo timeline s).result = .ok next := by rw [h]
      simp only [placeSlices, h] at ok
      obtain ⟨_, start, after, advanced, _, rfl⟩ := placeSlice_eq_ok_iff.mp placed
      obtain ⟨rfl, _, inside⟩ := advance_eq_ok advanced
      intro span mem
      rcases ih (fun t later => snug t (List.mem_cons_of_mem s later)) ok span mem with mem | within
      · rcases List.mem_cons.mp mem with rfl | mem
        · apply Or.inr
          unfold Inside
          cases own : s.start? with
          | none => exact inside own
          | some start => exact snug s List.mem_cons_self _ (leastEnd?_of_start own)
        · exact .inl mem
      · exact .inr within

end Spans

section Traces

variable {q : Sequence α}

def compiledIds (q : Sequence α) : List ChannelId :=
  q.registry.channels.zipIdx.filterMap fun (_, index) =>
    if (q.compiled.get? ⟨index⟩).isSome then some ⟨index⟩ else none

theorem ascending_compiledIds (q : Sequence α) : q.compiledIds.Pairwise (·.index < ·.index) := by
  unfold compiledIds
  rw [List.pairwise_filterMap, List.pairwise_iff_getElem]
  intro i j hi hj less a first b second
  rw [List.getElem_zipIdx] at first second
  simp only [Option.ite_none_right_eq_some, Option.some.injEq] at first second
  rw [← first.2, ← second.2]
  dsimp only
  omega

theorem perm_compiledIds (linked : ∀ ch w, q.compiled.get? ch = some w → q.registry.Linked ch) :
    q.compiledIds.Perm q.compiled.keys := by
  have distinct : q.compiledIds.Nodup := by
    apply q.ascending_compiledIds.imp
    rintro a b less rfl
    omega
  rw [List.perm_ext_iff_of_nodup distinct (Table.nodup_keys _)]
  intro ch
  rw [Table.mem_keys_iff, compiledIds, List.mem_filterMap]
  constructor
  · rintro ⟨⟨c, index⟩, _, here⟩
    simp only [Option.ite_none_right_eq_some, Option.some.injEq] at here
    exact here.2 ▸ here.1
  · intro here
    obtain ⟨w, compiled⟩ := Option.isSome_iff_exists.mp here
    obtain ⟨t, trigger⟩ := linked ch w compiled
    obtain ⟨c, registered⟩ := Registry.getElem?_of_triggerOf trigger
    exact ⟨(c, ch.index), List.mk_mem_zipIdx_iff_getElem?.mpr registered, if_pos here⟩

theorem shows_takeSnapshot (spans : List (SliceSpan α))
    (linked : ∀ ch w, q.compiled.get? ch = some w → q.registry.Linked ch) :
    List.Forall₂ (Shows q q) q.compiledIds (q.takeSnapshot spans).channels := by
  have same : List.Forall₂ (fun x y => x = y ∧ x ∈ q.registry.channels.zipIdx) q.registry.channels.zipIdx
      q.registry.channels.zipIdx :=
    List.forall₂_same.mpr fun _ mem => ⟨rfl, mem⟩
  apply List.rel_filterMap _ same
  rintro ⟨c, index⟩ _ ⟨rfl, mem⟩
  have registered := Registry.channel_eq_ok_iff.mpr (List.mk_mem_zipIdx_iff_getElem?.mp mem)
  cases compiled : q.compiled.get? ⟨index⟩ with
  | none => simp [compiled]
  | some w =>
    obtain ⟨t, trigger⟩ := linked ⟨index⟩ w compiled
    simp only [compiled, trigger, Option.isSome_some, if_true]
    exact .some ⟨c, t, w, registered, trigger, compiled, rfl⟩

theorem shows_commit {todo : ChannelSet} {slices : List (Slice α)} {timeline : Timeline α}
    (linked : ∀ ch w, (q.commit todo slices timeline).compiled.get? ch = some w → q.registry.Linked ch) :
    List.Forall₂ (Shows q (q.commit todo slices timeline)) (q.commit todo slices timeline).compiledIds
      (q.commit todo slices timeline).snapshot.channels :=
  shows_takeSnapshot (q := { q with compiled := (q.commit todo slices timeline).compiled }) timeline.spans.reverse linked

end Traces

section Steps

variable {q q' : Sequence α} {command : Command α} {action : Action α}

def CalledOnce (q q' : Sequence α) : Prop :=
  q'.registry = q.registry ∨ ∃ call answer, Registry.Effect call q.registry q'.registry answer

theorem calledOnce_perform (q : Sequence α) (command : Command α) : CalledOnce q (q.perform command) := by
  have start : CalledOnce q q := .inl rfl
  cases command with
  | addTrigger name output raiseAt dropAfter =>
    apply accept_map_invariant (P := CalledOnce q) start
    intro _ added
    exact .inr ⟨_, _, .addTrigger added⟩
  | addChannel name =>
    apply accept_map_invariant (P := CalledOnce q) start
    intro _ added
    exact .inr ⟨_, _, .addChannel added⟩
  | link ch target =>
    apply accept_map_invariant (P := CalledOnce q) start
    intro _ bound
    exact .inr ⟨_, _, .link bound⟩
  | linkChannel trigger name device =>
    apply accept_invariant (P := CalledOnce q) start
    intro q' ch h
    obtain ⟨named, linked, added, bound, rfl⟩ := linkChannel_eq_ok h
    exact .inr ⟨_, _, .linkChannel added bound⟩
  | addSlice s =>
    apply accept_map_invariant (P := CalledOnce q) start
    intro _ added
    obtain ⟨_, rfl⟩ := addSlice_eq_ok added
    exact .inl rfl
  | dropSlice name => exact .inl rfl
  | dropDevice ch => exact .inl rfl
  | atSlice top rest command =>
    apply Or.inl
    simp only [perform, workIn]
    cases q.slice top with
    | error cause => rfl
    | ok s => rfl
  | compile => exact .inl (registry_compile q)
  | setupTrigger => exact .inl sameCycle_setupTrigger.registry
  | program => exact .inl sameCycle_program.registry
  | runChannels => exact .inl sameCycle_runChannels.registry
  | stopChannels => exact .inl sameCycle_stopChannels.registry
  | setOffset name offset => exact .inl (sameCycle_setOffset name offset).registry
  | arrangeFault ch operation message => exact .inl (sameCycle_adjust ..).registry
  | setFailWrites ch on => exact .inl (sameCycle_adjust ..).registry

/--
A sequence that has kept what it compiled and the picture of it, and whose registry has grown at most.
-/
structure Retains (q q' : Sequence α) : Prop where
  cycleFrequency : q'.cycleFrequency = q.cycleFrequency
  registry : Registry.Extends q.registry q'.registry
  linked : ∀ ch, q.registry.Linked ch → q'.registry.Linked ch
  compiled : q'.compiled = q.compiled
  snapshot : q'.snapshot = q.snapshot

theorem Retains.of_registry (cycleFrequency : q'.cycleFrequency = q.cycleFrequency) (registry : q'.registry = q.registry)
    (compiled : q'.compiled = q.compiled) (snapshot : q'.snapshot = q.snapshot) : Retains q q' :=
  ⟨cycleFrequency, registry ▸ .refl q.registry, fun _ linked => registry ▸ linked, compiled, snapshot⟩

theorem retains_act (silent : q.publishes action = false) : Retains q (q.act action) := by
  cases action with
  | exchange slices => exact .of_registry rfl rfl rfl rfl
  | command command =>
    have linked (ch : ChannelId) (linked : q.registry.Linked ch) : (q.perform command).registry.Linked ch := by
      rcases calledOnce_perform q command with same | ⟨call, answer, effect⟩
      · exact same ▸ linked
      · exact Registry.linked_of_effect linked effect
    rcases perform_cases q command with
      kept | ⟨s, rfl, added⟩ | ⟨name, rfl⟩ | ⟨top, rest, command, rfl⟩ | rfl
    · exact ⟨kept.cycleFrequency, kept.registry, linked, kept.compiled, kept.snapshot⟩
    · obtain ⟨_, same⟩ := addSlice_eq_ok added
      rw [act, same]
      exact .of_registry rfl rfl rfl rfl
    · exact .of_registry rfl rfl rfl rfl
    · simp only [act, perform, workIn]
      cases q.slice top with
      | error cause => exact .of_registry rfl rfl rfl rfl
      | ok s => exact .of_registry rfl rfl rfl rfl
    · obtain ⟨cause, failed⟩ := exists_error_of_not_isOk silent
      rcases compile_cases q with ⟨_, _, _, state, _⟩ | ⟨_, ok, _⟩
      · rw [act, perform, state]
        exact .of_registry rfl rfl rfl rfl
      · rw [failed] at ok
        cases ok

theorem Shows.retains {p : Sequence α} {ch : ChannelId} {trace : ChannelTrace α} (shown : Shows p q ch trace)
    (retains : Retains q q') : Shows p q' ch trace := by
  obtain ⟨c, t, w, registered, trigger, compiled, rfl⟩ := shown
  rw [Registry.channel_eq_ok_iff] at registered
  have named : q.registry.channelNames[ch.index]? = some c.name := by
    rw [Registry.channelNames, List.getElem?_map, registered]
    rfl
  have later := Registry.getElem?_of_isPrefix retains.registry.names named
  rw [Registry.channelNames, List.getElem?_map, Option.map_eq_some_iff] at later
  obtain ⟨c', registered', same⟩ := later
  rw [← retains.compiled] at compiled
  exact ⟨c', t, w, Registry.channel_eq_ok_iff.mpr registered', trigger, compiled, by rw [same]⟩

theorem Mirrors.retains {p : Sequence α} (mirrors : Mirrors p q) (retains : Retains q q') : Mirrors p q' where
  cycleFrequency := by
    rw [retains.snapshot, retains.cycleFrequency]
    exact mirrors.cycleFrequency
  triggers := by
    rw [retains.snapshot]
    exact mirrors.triggers
  compiled := retains.compiled.trans mirrors.compiled
  channels := by
    obtain ⟨ids, perm, ascending, traces⟩ := mirrors.channels
    rw [retains.compiled, retains.snapshot]
    exact ⟨ids, perm, ascending, traces.imp fun _ _ shown => shown.retains retains⟩
  slices := by
    rw [retains.snapshot]
    exact mirrors.slices

theorem exists_placement_of_isOk (ok : q.compile.result.isOk = true) :
    ∃ timeline, q.placement.result = .ok timeline
      ∧ q.compile.state = q.commit q.recompilationSet q.placement.state timeline := by
  obtain ⟨todo, ok⟩ := exists_ok_of_isOk ok
  cases placed : q.placement.result with
  | error cause =>
    rw [(compile_of_not_placed placed).1] at ok
    cases ok
  | ok timeline => exact ⟨timeline, rfl, (compile_of_placed placed).2⟩

theorem linked_compile (linked : ∀ ch w, q.compiled.get? ch = some w → q.registry.Linked ch)
    (ok : q.compile.result.isOk = true) {ch : ChannelId} {w : Waveform α}
    (compiled : q.compile.state.compiled.get? ch = some w) : q.compile.state.registry.Linked ch := by
  obtain ⟨todo, ok⟩ := exists_ok_of_isOk ok
  rw [registry_compile]
  have tracks := compiled_compile ok ch
  split at tracks
  · rw [compiled] at tracks
    unfold played at tracks
    cases rise : rise? q.registry ch with
    | none =>
      rw [rise] at tracks
      cases placeTrack_none tracks
    | some rise' =>
      obtain ⟨t, trigger, _⟩ := exists_of_rise? rise
      exact ⟨t, trigger⟩
  · rw [tracks] at compiled
    exact linked ch w compiled

theorem mirrors_compile (linked : ∀ ch w, q.compiled.get? ch = some w → q.registry.Linked ch)
    (ok : q.compile.result.isOk = true) : Mirrors q q.compile.state := by
  have bound : ∀ ch w, q.compile.state.compiled.get? ch = some w → q.compile.state.registry.Linked ch :=
    fun _ _ => linked_compile linked ok
  obtain ⟨timeline, placed, state⟩ := exists_placement_of_isOk ok
  have spans : timeline.spans.reverse = spansOf ([] ++ q.slices) := spans_placeSlices rfl rfl placed
  refine ⟨?_, ?_, rfl, ?_, ?_⟩
  · rw [state]
    rfl
  · rw [state]
    rfl
  · refine ⟨q.compile.state.compiledIds, perm_compiledIds bound, ascending_compiledIds _, ?_⟩
    rw [state] at bound ⊢
    exact shows_commit bound
  · rw [state]
    exact spans

theorem generation_compile (ok : q.compile.result.isOk = true) :
    q.compile.state.snapshot.generation = q.snapshot.generation + 1 := by
  obtain ⟨timeline, _, state⟩ := exists_placement_of_isOk ok
  rw [state]
  rfl

theorem inside_compile (snug : Snug q.cycleLength q.slices) (ok : q.compile.result.isOk = true) :
    ∀ span ∈ q.compile.state.snapshot.slices, Inside q.cycleLength span := by
  obtain ⟨timeline, placed, state⟩ := exists_placement_of_isOk ok
  intro span mem
  rw [state] at mem
  rcases inside_placeSlices snug placed span (List.mem_reverse.mp mem) with mem | inside
  · cases mem
  · exact inside

end Steps

section Runs

variable {q q' : Sequence α} {actions : List (Action α)} {action : Action α}

theorem afterActions_concat (q : Sequence α) (actions : List (Action α)) (action : Action α) :
    q.afterActions (actions ++ [action]) = (q.afterActions actions).act action := by
  unfold afterActions
  rw [List.foldl_concat]

theorem compilations_concat (q : Sequence α) (actions : List (Action α)) (action : Action α) :
    q.compilations (actions ++ [action])
      = q.compilations actions
        ++ if (q.afterActions actions).publishes action then [q.afterActions actions] else [] := by
  induction actions generalizing q with
  | nil =>
    rw [List.nil_append, compilations, compilations, compilations, List.append_nil, List.nil_append]
    rfl
  | cons first rest ih =>
    rw [List.cons_append, compilations, ih, compilations, List.append_assoc]
    rfl

theorem leastEnd?_congr {s t : Slice α} (same : s.kind = t.kind) : leastEnd? s = leastEnd? t := by
  unfold leastEnd?
  rw [same]

theorem Snug.congr {cycleEnd : α} {slices slices' : List (Slice α)} (snug : Snug cycleEnd slices)
    (kinds : ∀ s' ∈ slices', ∃ s ∈ slices, s'.kind = s.kind) : Snug cycleEnd slices' := by
  intro s' mem finish least
  obtain ⟨s, found, same⟩ := kinds s' mem
  rw [leastEnd?_congr same] at least
  exact snug s found finish least

theorem kind_perform (s : Slice α) (command : Slice.Command α) : (command.perform s).state.kind = s.kind := by
  cases command with
  | edit ch change =>
    cases change with
    | addWaveform w => rfl
    | clearWaveform => rfl
    | setPadding position => rfl
  | nest child =>
    simp only [Slice.Command.perform]
    cases h : s.addSub child with
    | error cause => rfl
    | ok whole =>
      obtain ⟨_, rfl⟩ := Slice.addSub_eq_ok_iff.mp h
      rfl
  | flatten registry => exact Slice.kind_eq_of_renew_eq (Slice.renew_flatten registry s)
  | getWaveform registry ch =>
    rw [Slice.state_perform_getWaveform]
    exact Slice.kind_eq_of_renew_eq (Slice.renew_flatten registry s)

theorem kind_workAt (path : List String) (s : Slice α) (command : Slice.Command α) :
    (Slice.workAt (command.perform ·) path s).state.kind = s.kind := by
  refine Slice.workAt_induct (P := fun s s' => s'.kind = s.kind) (fun _ => rfl) ?_ path s ?_
  · intro t sub sub' name found same
    rfl
  · intro t found
    exact kind_perform t command

theorem not_lt_of_addSlice {s : Slice α} (h : q.addSlice s = .ok q') {finish : α} (least : leastEnd? s = some finish) :
    ¬ q.cycleLength + tolerance < finish := by
  obtain ⟨_, _, h⟩ := bind_eq_ok_iff.mp h
  split at h
  · cases h
  · simp only [least] at h
    obtain ⟨_, checked, _⟩ := bind_eq_ok_iff.mp h
    unfold checkEnd at checked
    split at checked
    · cases checked
    · assumption

theorem snug_perform (snug : Snug q.cycleLength q.slices) (command : Command α) :
    Snug (q.perform command).cycleLength (q.perform command).slices := by
  rcases perform_cases q command with
    kept | ⟨s, rfl, added⟩ | ⟨name, rfl⟩ | ⟨top, rest, command, rfl⟩ | rfl
  · rw [cycleLength, kept.cycleFrequency, kept.slices]
    exact snug
  · obtain ⟨_, same⟩ := addSlice_eq_ok added
    rw [same]
    intro t mem finish least
    rcases List.mem_append.mp mem with mem | mem
    · exact snug t mem finish least
    · rw [List.mem_singleton.mp mem] at least
      exact not_lt_of_addSlice added least
  · intro s mem
    exact snug s (List.mem_of_mem_filter mem)
  · simp only [perform, workIn, slice]
    cases found : Slice.find? q.slices top with
    | none => exact snug
    | some s =>
      apply snug.congr
      intro t mem
      rcases Slice.mem_replace mem with rfl | mem
      · exact ⟨s, Slice.mem_of_find? found, kind_workAt rest s command⟩
      · exact ⟨t, mem, rfl⟩
  · rw [perform, cycleLength, cycleFrequency_compile]
    apply snug.congr
    intro s' mem
    have renewed : s'.renew ∈ q.slices.map Slice.renew := map_renew_compile q ▸ List.mem_map_of_mem mem
    obtain ⟨s, found, same⟩ := List.mem_map.mp renewed
    exact ⟨s, found, Slice.kind_eq_of_renew_eq same.symm⟩

theorem eq_compile_of_publishes (publishes : q.publishes action = true) :
    action = .command .compile ∧ q.compile.result.isOk = true := by
  cases action with
  | exchange slices => cases publishes
  | command command =>
    cases command with
    | compile => exact ⟨rfl, publishes⟩
    | _ => cases publishes

structure Published (start : Sequence α) (actions : List (Action α)) : Prop where
  generation : (start.afterActions actions).snapshot.generation = (start.compilations actions).length
  mirrors : ∀ p, (start.compilations actions).getLast? = some p → Mirrors p (start.afterActions actions)
  blank : (start.compilations actions).getLast? = none → (start.afterActions actions).compiled = start.compiled
  linked : ∀ ch w, (start.afterActions actions).compiled.get? ch = some w →
    (start.afterActions actions).registry.Linked ch
  distinct : (start.afterActions actions).registry.channelNames.Nodup

theorem Published.step {start : Sequence α} (published : Published start actions) (action : Action α) :
    Published start (actions ++ [action]) := by
  have run := afterActions_concat start actions action
  have log := compilations_concat start actions action
  cases publishes : (start.afterActions actions).publishes action with
  | false =>
    have retains := retains_act publishes
    rw [publishes, if_neg (by simp), List.append_nil] at log
    refine ⟨?_, ?_, ?_, ?_, ?_⟩
    · rw [run, log, retains.snapshot]
      exact published.generation
    · rw [run, log]
      intro p last
      exact (published.mirrors p last).retains retains
    · rw [run, log, retains.compiled]
      exact published.blank
    · rw [run, retains.compiled]
      intro ch w compiled
      exact retains.linked ch (published.linked ch w compiled)
    · rw [run]
      exact retains.registry.distinct published.distinct
  | true =>
    obtain ⟨rfl, ok⟩ := eq_compile_of_publishes publishes
    rw [publishes, if_pos rfl] at log
    refine ⟨?_, ?_, ?_, ?_, ?_⟩
    · rw [run, log, List.length_append, ← published.generation]
      exact generation_compile ok
    · rw [run, log, List.getLast?_concat]
      rintro p ⟨⟩
      exact mirrors_compile published.linked ok
    · rw [log, List.getLast?_concat]
      exact nofun
    · rw [run]
      exact fun ch w => linked_compile published.linked ok
    · rw [run, act, perform, registry_compile]
      exact published.distinct

theorem published_of_actions (driver : Driver) (cycleFrequency : α) (actions : List (Action α)) :
    Published (create driver cycleFrequency) actions := by
  induction actions using List.reverseRecOn with
  | nil => exact ⟨rfl, nofun, fun _ => rfl, nofun, .nil⟩
  | append_singleton actions action ih => exact ih.step action

structure Checked (q : Sequence α) : Prop where
  snug : Snug q.cycleLength q.slices
  inside : ∀ span ∈ q.snapshot.slices, Inside q.cycleLength span

theorem checked_of_actions (driver : Driver) (cycleFrequency : α) (actions : List (Action α))
    (unexchanged : ∀ slices, .exchange slices ∉ actions) :
    Checked ((create driver cycleFrequency).afterActions actions) := by
  induction actions using List.reverseRecOn with
  | nil => exact ⟨nofun, nofun⟩
  | append_singleton actions action ih =>
    have before := ih fun slices mem => unexchanged slices (List.mem_append_left _ mem)
    rw [afterActions_concat]
    cases action with
    | exchange slices => exact absurd List.mem_concat_self (unexchanged slices)
    | command command =>
      refine ⟨snug_perform before.snug command, ?_⟩
      cases publishes : ((create driver cycleFrequency).afterActions actions).publishes (.command command) with
      | false =>
        have retains := retains_act publishes
        rw [cycleLength, retains.cycleFrequency, retains.snapshot]
        exact before.inside
      | true =>
        obtain ⟨same, ok⟩ := eq_compile_of_publishes publishes
        cases same
        rw [act, perform, cycleLength, cycleFrequency_compile]
        exact inside_compile before.snug ok

/--
In every state that a sequence can come into, the picture of it shows its last successful compilation: each channel
that is compiled with the trigger that it had then, and all slices at their places. Its generation counts these
compilations, and nothing else changes it. No slice in it ends too late, if all of them were added with a check.
-/
theorem snapshot_mirrors (driver : Driver) (cycleFrequency : α) (actions : List (Action α)) :
    ((create driver cycleFrequency).afterActions actions).snapshot.generation
        = ((create driver cycleFrequency).compilations actions).length
      ∧ (∀ p, ((create driver cycleFrequency).compilations actions).getLast? = some p →
        Mirrors p ((create driver cycleFrequency).afterActions actions))
      ∧ ((∀ slices, .exchange slices ∉ actions) →
        ∀ span ∈ ((create driver cycleFrequency).afterActions actions).snapshot.slices,
          Inside ((create driver cycleFrequency).afterActions actions).cycleLength span)
      ∧ ∀ action, ((create driver cycleFrequency).afterActions actions).publishes action = false →
        (((create driver cycleFrequency).afterActions actions).act action).snapshot
          = ((create driver cycleFrequency).afterActions actions).snapshot := by
  have published := published_of_actions driver cycleFrequency actions
  refine ⟨published.generation, published.mirrors, ?_, ?_⟩
  · intro unexchanged
    exact (checked_of_actions driver cycleFrequency actions unexchanged).inside
  · intro action silent
    exact (retains_act silent).snapshot

def strayStart : List (Action Float) :=
  [.command (.addSlice (.fixed "late" (0.0 / 0.0) 0.25)), .command .compile]

/--
It is not true that every slice in the picture ends within the cycle, even if all of them were added with a check.
-/
theorem not_spans_within :
    ¬ ∀ actions : List (Action Float), (∀ slices, .exchange slices ∉ actions) →
      ∀ span ∈ ((create .memory 1.0).afterActions actions).snapshot.slices,
        span.start + span.duration ≤ ((create .memory (1.0 : Float)).afterActions actions).cycleLength + tolerance := by
  intro every
  have bound := every strayStart (by simp [strayStart])
  revert bound
  decide +kernel

end Runs

end PulseSequencer.Sequence
