import PulseSequencer.Proofs.Slice.Alongside
import PulseSequencer.Proofs.Slice.Drift
import PulseSequencer.Proofs.Slice.Repetition

/-!
This module contains by how much the waveforms to which slices are flattened can outlast the slices, as exact numbers have
it. A slice with a duration of its own refuses whatever is too long by more than the tolerance. The others refuse nothing, and
so what their sub slices have too much adds up in them, as do the changes of duration that do not rebuild a channel.
-/

namespace PulseSequencer.Slice

variable {K : Type} [Field K] [LinearOrder K] [FloorRing K] [Elementary K]

open Scalar

def Inheriting (ch : ChannelId) (s : Slice K) : Prop :=
  setDuration? s.content.kind = none ∧ s.direct? ch = none

/--
A slice that has come about with a number of successes that left the channel alone, the next one among them, if its
sub slices decide what it plays.
-/
def Aged (age : Slice K → Nat) (ch : ChannelId) (s : Slice K) : Prop :=
  Inheriting ch s → ∃ log, Lived log s ∧ (ch ∈ s.channels → skipped ch (log ++ [s]) ≤ age s)

mutual

/--
How many tolerances the waveform of a slice can be too long: one for a duration of its own, and none for what a slice
holds itself. Otherwise it is those of the sub slices that carry the channel, and one for each sub slice and each success that
left the channel alone.
-/
def leeway (age : Slice K → Nat) (ch : ChannelId) : Slice K → Nat
  | ⟨content, memo, subs⟩ =>
    match setDuration? content.kind, content.waveforms.get? ch with
    | some _, _ => 1
    | none, some _ => 0
    | none, none => subs.length * age ⟨content, memo, subs⟩ + leewayOf age ch subs

def leewayOf (age : Slice K → Nat) (ch : ChannelId) : List (Slice K) → Nat
  | [] => 0
  | s :: rest => (if ch ∈ s.channels then leeway age ch s else 0) + leewayOf age ch rest

end

def Fits (count : Nat) (ch : ChannelId) (s : Slice K) : Prop :=
  ∀ w, s.flattened.get? ch = some w → w.width ≤ s.duration + count * tolerance

def share (age : Slice K → Nat) (ch : ChannelId) (s : Slice K) : Nat :=
  if ch ∈ s.channels then leeway age ch s else 0

section Leeway

variable {age : Slice K → Nat} {ch : ChannelId} {s : Slice K}

theorem leeway_of_setDuration {duration : K} (set : setDuration? s.content.kind = some duration) : leeway age ch s = 1 := by
  obtain ⟨content, memo, subs⟩ := s
  simp only [leeway, set]

theorem leewayOf_eq_sum (subs : List (Slice K)) : leewayOf age ch subs = (subs.map (share age ch)).sum := by
  induction subs with
  | nil => rfl
  | cons s rest ih => rw [leewayOf, ih, List.map_cons, List.sum_cons, share]

theorem leeway_of_inheriting (inheriting : Inheriting ch s) :
    leeway age ch s = s.subs.length * age s + (s.subs.map (share age ch)).sum := by
  obtain ⟨content, memo, subs⟩ := s
  obtain ⟨flex, silent⟩ := inheriting
  unfold direct? at silent
  simp only [leeway, flex, silent, leewayOf_eq_sum]

end Leeway

section Durations

variable {s : Slice K} {ch : ChannelId} {w : Waveform K}

theorem duration_of_set {duration : K} (set : setDuration? s.content.kind = some duration) : s.duration = duration := by
  obtain ⟨content, memo, subs⟩ := s
  simp only [Slice.duration, set]

theorem endOf_exact (start : K) (subs : List (Slice K)) : endOf start subs = start + lasting subs := by
  induction subs generalizing start with
  | nil => simp [endOf, lasting]
  | cons s rest ih =>
    rw [endOf, ih, add_assoc]
    rfl

theorem duration_of_flex (flex : setDuration? s.content.kind = none) :
    s.duration = max (longest s.content) (lasting s.subs) := by
  obtain ⟨content, memo, subs⟩ := s
  simp only [Slice.duration, flex]
  rw [maximum_exact, endOf_exact, zero_exact, zero_add]

theorem le_foldl_width {ws : List (Waveform K)} {top : K} (mem : w ∈ ws ∨ w.width ≤ top) :
    w.width ≤ ws.foldl (fun acc w => maximum acc w.width) top := by
  induction ws generalizing top with
  | nil => exact mem.resolve_left List.not_mem_nil
  | cons first rest ih =>
    rw [List.foldl_cons, maximum_exact]
    apply ih
    rcases mem with mem | short
    · rcases List.mem_cons.mp mem with rfl | mem
      · exact .inr (le_max_right ..)
      · exact .inl mem
    · exact .inr (short.trans (le_max_left ..))

theorem width_le_duration (flex : setDuration? s.content.kind = none) (own : s.direct? ch = some w) :
    w.width ≤ s.duration := by
  rw [duration_of_flex flex]
  exact (le_foldl_width (.inl (Table.mem_values_of_get? own))).trans (le_max_left ..)

end Durations

/--
A slice whose waveforms are not too long for a duration of its own by more than the tolerance, and that plays the waveforms
it holds itself as they are if it has none. What is to be rebuilt may be out of date.
-/
structure TrimHere (s : Slice K) : Prop where
  bounded : ∀ duration, setDuration? s.content.kind = some duration → ∀ ch w, s.memo.flattened.get? ch = some w →
    w.width ≤ duration + tolerance
  own : setDuration? s.content.kind = none → ∀ ch, ch ∉ s.memo.dirty → ∀ w, s.direct? ch = some w →
    s.memo.flattened.get? ch = some w

def Trim : Slice K → Prop := Everywhere TrimHere

section Trimming

variable {s s' : Slice K} {ch : ChannelId} {w : Waveform K}

theorem TrimHere.altered (trim : TrimHere s) (altered : Altered s s') (kind : s'.content.kind = s.content.kind) :
    TrimHere s' where
  bounded := by
    rw [kind, altered.flattened]
    exact trim.bounded
  own := by
    intro flex ch clean w own
    rw [altered.flattened]
    rw [kind] at flex
    rw [altered.direct ch clean] at own
    exact trim.own flex ch (fun dirty => clean (altered.dirty ch dirty)) w own

theorem TrimHere.acknowledge (trim : TrimHere s) : TrimHere s.acknowledge := ⟨trim.bounded, trim.own⟩

theorem trim_ofKind (name : String) (kind : SliceKind K) : (ofKind name kind).Trim :=
  .node ⟨nofun, nofun⟩ nofun

theorem width_pad_le [IsStrictOrderedRing K] {registry : Registry K} {content : Content K} {padded : Waveform K}
    {duration : K} (set : setDuration? content.kind = some duration) (h : pad registry content ch w = .ok padded) :
    padded.width ≤ duration + tolerance := by
  have small : (0 : K) < tolerance := tolerance_pos
  unfold pad at h
  simp only [set] at h
  split at h
  · cases h
  · rename_i fits
    split at h
    · cases h
      linarith
    · split at h
      · cases h
        rw [Waveform.width_concat, Waveform.width_blank]
        linarith
      · cases h
        rw [Waveform.width_concat, Waveform.width_blank]
        linarith

theorem pad_of_flex {registry : Registry K} {content : Content K} (flex : setDuration? content.kind = none) :
    pad registry content ch w = .ok w := by
  unfold pad
  simp only [flex]

theorem assemble_of_own {registry : Registry K} {content : Content K} {row : List (Option (Waveform K) × K)}
    {played : Option (Waveform K)} (flex : setDuration? content.kind = none) (own : content.waveforms.get? ch = some w)
    (h : assemble registry content ch row = .ok played) : played = some w := by
  unfold assemble at h
  rw [own] at h
  split at h
  · cases h
  · rename_i same _
    cases same
    rw [pad_of_flex flex] at h
    exact (Except.ok.inj h).symm
  · rename_i none _
    cases none
  · rename_i none _
    cases none

theorem TrimHere.flatten [IsStrictOrderedRing K] (trim : TrimHere s) (registry : Registry K) :
    TrimHere (s.flatten registry).state := by
  cases result : (s.flatten registry).result with
  | error cause =>
    rw [flatten_of_error result]
    refine ⟨trim.bounded, fun flex ch clean w own => trim.own flex ch (fun dirty => clean ?_) w own⟩
    exact ChannelSet.mem_union.mpr (.inl dirty)
  | ok _ =>
    constructor
    case bounded =>
      intro duration set ch w here
      rw [content_flatten] at set
      by_cases mem : ch ∈ s.updated
      · have rebuilt := rebuild_of_flatten_ok result mem
        rw [here, rebuild_eq_assemble] at rebuilt
        obtain ⟨_, done, _⟩ := exists_of_assemble rebuilt
        exact width_pad_le set done
      · rw [flattened_flatten registry mem] at here
        exact trim.bounded duration set ch w here
    case own =>
      intro flex ch _ w own
      rw [content_flatten] at flex
      have own : s.direct? ch = some w := by
        unfold direct? at own
        rwa [content_flatten] at own
      by_cases mem : ch ∈ s.updated
      · have rebuilt := rebuild_of_flatten_ok result mem
        rw [rebuild_eq_assemble] at rebuilt
        exact assemble_of_own flex own rebuilt
      · rw [flattened_flatten registry mem]
        exact trim.own flex ch (fun dirty => mem (mem_updated.mpr (.inl dirty))) w own

theorem Trim.flatten [IsStrictOrderedRing K] (trim : s.Trim) (registry : Registry K) :
    (s.flatten registry).state.Trim :=
  Everywhere.flatten registry trim (fun _ trim => trim.here.flatten registry) fun _ here => here.acknowledge

theorem Trim.perform [IsStrictOrderedRing K] {command : Command K} (trim : s.Trim)
    (below : ∀ child, command = .nest child → child.Trim) : (command.perform s).state.Trim := by
  cases command with
  | edit ch change =>
    apply Everywhere.apply trim
    apply trim.here.altered (altered_apply ch change)
    cases change <;> rfl
  | nest child =>
    simp only [Command.perform]
    cases h : s.addSub child with
    | error cause => exact trim
    | ok whole =>
      apply Everywhere.nest trim (below child rfl) h
      apply trim.here.altered (altered_nest h)
      obtain ⟨_, rfl⟩ := addSub_eq_ok_iff.mp h
      rfl
  | flatten registry => exact trim.flatten registry
  | getWaveform registry ch =>
    rw [state_perform_getWaveform]
    exact trim.flatten registry

theorem Trim.workAt {ρ : Type} {work : Slice K → Outcome K (Slice K) ρ} {path : List String} (trim : s.Trim)
    (target : ∀ t, t.Trim → (work t).state.Trim) : (workAt work path s).state.Trim := by
  refine Everywhere.workAt trim ?_ target
  intro t sub here
  exact ⟨here.bounded, here.own⟩

theorem trim_of_made [IsStrictOrderedRing K] (made : s.Made) : s.Trim := by
  induction made with
  | ofKind name kind => exact trim_ofKind name kind
  | perform path command _ _ ih below => exact ih.workAt fun t trim => trim.perform below
  | acknowledge path _ ih => exact ih.workAt fun t trim => Everywhere.acknowledge trim trim.here.acknowledge

end Trimming

section Layout

variable [IsStrictOrderedRing K] {pointer limit slack : K} {track : Option (Waveform K)} {segment w : Waveform K}
  {subs : List (Slice K)} {segments : Slice K → Option (Waveform K)} {durations excess : Slice K → K}

theorem width_putOn_le (nonneg : 0 ≤ limit) (short : ∀ w, track = some w → w.width ≤ limit) (soon : pointer ≤ limit) :
    (putOn pointer segment track).width ≤ limit + segment.width := by
  cases track with
  | none =>
    by_cases early : pointer ≤ tolerance
    · rw [putOn, if_pos early]
      linarith
    · rw [putOn, if_neg early, Waveform.width_concat, Waveform.width_blank]
      linarith
  | some track =>
    rw [putOn, Waveform.width_concat]
    have filled : (fillTo track pointer).width ≤ max pointer limit := width_fillTo_le (short track rfl)
    rw [max_eq_right soon] at filled
    linarith

theorem width_layRow_le (loose : 0 ≤ slack) (near : ∀ t ∈ subs, |durations t - t.duration| ≤ slack)
    (nonneg : ∀ t ∈ subs, 0 ≤ t.duration) (room : ∀ t ∈ subs, 0 ≤ excess t)
    (fits : ∀ t ∈ subs, ∀ w, segments t = some w → w.width ≤ t.duration + excess t)
    (begun : 0 ≤ limit) (short : ∀ w, track = some w → w.width ≤ limit) (soon : pointer ≤ limit)
    (laid : layRow pointer track (subs.map fun t => (segments t, durations t)) = some w) :
    w.width ≤ limit + lasting subs + (subs.map excess).sum + subs.length * slack := by
  induction subs generalizing pointer limit track with
  | nil =>
    obtain ⟨track, here, rfl⟩ := Option.map_eq_some_iff.mp laid
    have filled : (fillTo track pointer).width ≤ max pointer limit := width_fillTo_le (short track here)
    rw [max_eq_right soon] at filled
    simpa [lasting] using filled
  | cons s rest ih =>
    rw [List.forall_mem_cons] at near nonneg room fits
    have late : durations s ≤ s.duration + slack := by linarith [(abs_le.mp near.1).2]
    have total : limit + lasting (s :: rest) + ((s :: rest).map excess).sum + (s :: rest).length * slack
        = limit + (s.duration + excess s + slack) + lasting rest + (rest.map excess).sum + rest.length * slack := by
      simp only [lasting, List.map_cons, List.sum_cons, List.length_cons, Nat.cast_add_one]
      ring
    have begun' : 0 ≤ limit + (s.duration + excess s + slack) := by linarith [nonneg.1, room.1]
    have soon' : pointer + durations s ≤ limit + (s.duration + excess s + slack) := by linarith [room.1]
    rw [total]
    rw [List.map_cons] at laid
    cases played : segments s with
    | none =>
      rw [played] at laid
      refine ih near.2 nonneg.2 room.2 fits.2 begun' (fun w here => ?_) soon' laid
      linarith [short w here, nonneg.1, room.1]
    | some segment =>
      rw [played, layRow_some] at laid
      refine ih near.2 nonneg.2 room.2 fits.2 begun' ?_ soon' laid
      rintro _ ⟨⟩
      have put : (putOn pointer segment track).width ≤ limit + segment.width := width_putOn_le begun short soon
      linarith [fits.1 segment played]

end Layout

section Flattening

variable {registry : Registry K} {s : Slice K} {ch : ChannelId}

theorem alongside_flatten (ok : (s.flatten registry).result = .ok ()) :
    Alongside (fun t t' => (t.flatten registry).result = .ok () ∧ t'.flattened = (t.flatten registry).state.flattened
      ∧ t'.duration = t.duration) s (s.flatten registry).state := by
  induction s using induct with
  | node content memo subs ih =>
    refine .of_forall₂ ⟨ok, rfl, duration_flatten registry _⟩ (name_flatten registry _) ?_
    refine forall₂_imp_of_mem (forall₂_subs_flatten ok) ?_
    rintro t mem t' (rfl | rfl)
    · exact ⟨name_flatten registry t, ih t mem (flatten_subs_of_ok ok mem)⟩
    · refine ⟨name_flatten registry t, (ih t mem (flatten_subs_of_ok ok mem)).acknowledge ?_⟩
      rintro t t' ⟨done, flattened, duration⟩
      exact ⟨done, flattened, (duration_acknowledge t').trans duration⟩

variable [IsStrictOrderedRing K] {age : Slice K → Nat} {w : Waveform K}

theorem width_le_of_inheriting {log : List (Slice K)} (lived : Lived log s) (inheriting : Inheriting ch s)
    (aged : ch ∈ s.channels → skipped ch (log ++ [s]) ≤ age s) (nonneg : ∀ t ∈ s.subs, 0 ≤ t.duration)
    (ok : (s.flatten registry).result = .ok ())
    (below : ∀ t ∈ s.subs, ∀ w, (t.flatten registry).state.flattened.get? ch = some w →
      w.width ≤ t.duration + leeway age ch t * tolerance)
    (here : (s.flatten registry).state.flattened.get? ch = some w) :
    w.width ≤ s.duration + leeway age ch s * tolerance := by
  have upkept := upkept_of_lived lived
  obtain ⟨durations, assembled, near⟩ := upkept.exists_assemble ok ch
  rw [here, content_flatten] at assembled
  obtain ⟨inherited, done, direct | ⟨_, laid⟩⟩ := exists_of_assemble assembled
  · rw [show s.content.waveforms.get? ch = none from inheriting.2] at direct
    cases direct
  · rw [pad_of_flex inheriting.1] at done
    obtain rfl := Except.ok.inj done
    have carried : ch ∈ s.channels := (isSome_flatten upkept.stocked ok ch).mp (Option.isSome_of_eq_some here)
    have row : ((s.flatten registry).state.subs.map fun t => (t.flattened.get? ch, durations t.name))
        = s.subs.map fun t => ((t.flatten registry).state.flattened.get? ch, durations t.name) := by
      apply Eq.symm
      apply map_eq_map_of_forall₂
      refine (forall₂_subs_flatten ok).imp ?_
      rintro t _ (rfl | rfl)
      · rw [name_flatten]
      · exact congrArg _ (congrArg durations (name_flatten registry t).symm)
    rw [row] at laid
    have loose : (0 : K) ≤ age s * tolerance := mul_nonneg (Nat.cast_nonneg _) tolerance_pos.le
    have slack : (skipped ch (log ++ [s]) : K) * tolerance ≤ age s * tolerance :=
      mul_le_mul_of_nonneg_right (Nat.cast_le.mpr (aged carried)) tolerance_pos.le
    have room : ∀ t ∈ s.subs, (0 : K) ≤ share age ch t * tolerance :=
      fun t _ => mul_nonneg (Nat.cast_nonneg _) tolerance_pos.le
    have fits : ∀ t ∈ s.subs, ∀ w, (t.flatten registry).state.flattened.get? ch = some w →
        w.width ≤ t.duration + share age ch t * tolerance := by
      intro t mem w entry
      have owned : ch ∈ t.channels :=
        (isSome_flatten (upkept.stocked.of_mem mem) (flatten_subs_of_ok ok mem) ch).mp (Option.isSome_of_eq_some entry)
      rw [share, if_pos owned]
      exact below t mem w entry
    have empty : ∀ w, (none : Option (Waveform K)) = some w → w.width ≤ 0 := nofun
    have bound := width_layRow_le loose (fun t mem => (near t mem).trans slack) nonneg room fits (le_refl 0) empty
      zero_exact.le laid
    have shares : (s.subs.map fun t => (share age ch t : K) * tolerance).sum
        = ((s.subs.map (share age ch)).sum : K) * tolerance := by
      rw [List.sum_map_mul_right, Nat.cast_list_sum, List.map_map]
      rfl
    have lasts : lasting s.subs ≤ s.duration := by
      rw [duration_of_flex inheriting.1]
      exact le_max_right ..
    rw [leeway_of_inheriting inheriting, Nat.cast_add, Nat.cast_mul]
    linarith

theorem width_flatten_le (distinct : s.Distinct) (trim : s.Trim) (aged : s.Everywhere (Aged age ch))
    (nonneg : s.Everywhere fun t => 0 ≤ t.duration) (ok : (s.flatten registry).result = .ok ())
    (here : (s.flatten registry).state.flattened.get? ch = some w) :
    w.width ≤ s.duration + leeway age ch s * tolerance := by
  induction s using induct generalizing w with
  | node content memo subs ih =>
    have trimmed := (trim.flatten registry).here
    have kept := content_flatten registry ⟨content, memo, subs⟩
    cases set : setDuration? content.kind with
    | some duration =>
      rw [duration_of_set set, leeway_of_setDuration set, Nat.cast_one, one_mul]
      exact trimmed.bounded duration (kept ▸ set) ch w here
    | none =>
      cases own : content.waveforms.get? ch with
      | some segment =>
        have clean : ch ∉ (flatten registry ⟨content, memo, subs⟩).state.memo.dirty := fun dirty =>
          not_mem_updated_of_flatten_ok distinct ok ch (mem_updated.mpr (.inl dirty))
        have same := trimmed.own (kept ▸ set) ch clean segment (by rw [direct?, kept]; exact own)
        obtain rfl := Option.some.inj (same.symm.trans here)
        have fits : segment.width ≤ (⟨content, memo, subs⟩ : Slice K).duration := width_le_duration set own
        exact fits.trans (le_add_of_nonneg_right (mul_nonneg (Nat.cast_nonneg _) tolerance_pos.le))
      | none =>
        obtain ⟨log, lived, recent⟩ := aged.here ⟨set, own⟩
        refine width_le_of_inheriting lived ⟨set, own⟩ recent (fun t mem => (nonneg.of_mem mem).here) ok ?_ here
        intro t mem w entry
        exact ih t mem (distinct.of_mem mem) (trim.of_mem mem) (aged.of_mem mem) (nonneg.of_mem mem)
          (flatten_subs_of_ok ok mem) entry

omit [IsStrictOrderedRing K] in
theorem Lived.exists_aged {log : List (Slice K)} (lived : Lived log s) (ch : ChannelId) :
    ∃ age : Slice K → Nat, s.Everywhere (Aged age ch) := by
  classical
  refine ⟨fun t => if own : ∃ log, Lived log t then skipped ch (own.choose ++ [t]) else 0, ?_⟩
  induction s using induct generalizing log with
  | node content memo subs ih =>
    refine .node (fun _ => ?_) fun t mem => ?_
    · have own : ∃ log, Lived log (⟨content, memo, subs⟩ : Slice K) := ⟨log, lived⟩
      refine ⟨own.choose, own.choose_spec, fun _ => ?_⟩
      dsimp only
      rw [dif_pos own]
    · obtain ⟨earlier, lived⟩ := lived.of_mem mem
      exact ih t mem lived

/--
By how much the waveforms of a tree can be too long for its slices once it is flattened with success: by one tolerance at
most for a slice with a duration of its own, however the tree came about. Without one, a slice plays what it holds itself as
it is, and what it inherits is too long by no more than its leeway.
-/
theorem flatten_fits (made : s.Made) (aged : s.Everywhere (Aged age ch)) (nonneg : s.Everywhere fun t => 0 ≤ t.duration)
    (ok : (s.flatten registry).result = .ok ()) :
    Alongside (fun t t' => t'.Fits (leeway age ch t) ch) s (s.flatten registry).state := by
  intro names
  rcases alongside_flatten ok names with ⟨t, t', before, after, done, flattened, duration⟩ | missing
  · refine .inl ⟨t, t', before, after, fun w here => ?_⟩
    rw [flattened] at here
    rw [duration]
    exact width_flatten_le ((distinct_of_made made).follow before) ((trim_of_made made).follow before)
      (aged.follow before) (nonneg.follow before) done here
  · exact .inr missing

end Flattening

section Example

theorem Lived.made {s : Slice K} {log : List (Slice K)} (lived : Lived log s) : s.Made := by
  induction lived with
  | ofKind name kind => exact .ofKind name kind
  | perform path command _ _ _ _ ih below => exact ih.perform path command below
  | acknowledge _ ih => exact ih.acknowledge []

theorem everywhere_of_shallow {P : Slice K → Prop} {s : Slice K} (here : P s)
    (below : ∀ t ∈ s.subs, t.subs = [] ∧ P t) : s.Everywhere P := by
  refine .node here fun t mem => .node (below t mem).2 fun u deeper => ?_
  rw [(below t mem).1] at deeper
  cases deeper

def full (name : String) : Slice ℚ := (ofKind name (.fixedLength 1)).addWaveform ⟨1⟩ (.dc (1 + 9 / 10 ^ 16) 1 0)

def couple (first second : Slice ℚ) : Slice ℚ :=
  (Command.perform (Command.perform (ofKind "couple" .flex) (.nest first)).state (.nest second)).state

def tight : Slice ℚ := couple (full "first") (full "second")

def shorten (width : ℚ) (s : Slice ℚ) : Slice ℚ :=
  let silent := (workAt (Command.perform · (.edit ⟨0⟩ .clearWaveform)) ["first"] (s.flatten .empty).state).state
  (workAt (Command.perform · (.edit ⟨0⟩ (.addWaveform (.dc width 1 0)))) ["first"] silent).state

def fresh : Slice ℚ := couple ((ofKind "first" .flex).addWaveform ⟨0⟩ (.dc 1 1 0)) (full "second")

def worn : Slice ℚ := shorten (1 - 18 / 10 ^ 16) (shorten (1 - 9 / 10 ^ 16) fresh)

theorem lived_add (name : String) (kind : SliceKind ℚ) (ch : ChannelId) {width : ℚ} (nonneg : 0 ≤ width) :
    Lived [] ((ofKind name kind).addWaveform ch (.dc width 1 0)) :=
  (Lived.ofKind name kind).perform [] (.edit ch (.addWaveform (.dc width 1 0))) []
    (Waveform.level_dc _ _ nonneg) nofun

theorem lived_full (name : String) : Lived [] (full name) := lived_add name (.fixedLength 1) ⟨1⟩ (by norm_num)

theorem lived_couple {first second : Slice ℚ} (left : Lived [] first) (right : Lived [] second) :
    Lived [] (couple first second) := by
  have empty : Lived [] (ofKind "couple" (.flex : SliceKind ℚ)) := .ofKind "couple" .flex
  have half := empty.perform [] (.nest first) [] (upkept_of_lived left).level fun child same => by
    cases same
    exact left
  exact half.perform [] (.nest second) [] (upkept_of_lived right).level fun child same => by
    cases same
    exact right

theorem lived_shorten {log : List (Slice ℚ)} {s : Slice ℚ} {width : ℚ} (lived : Lived log s) (nonneg : 0 ≤ width)
    (ok : (s.flatten .empty).result.isOk = true) : Lived (log ++ [s]) (shorten width s) := by
  have silent := (lived.flatten ok).perform ["first"] (.edit ⟨0⟩ .clearWaveform) [] trivial nofun
  have shorter := silent.perform ["first"] (.edit ⟨0⟩ (.addWaveform (.dc width 1 0))) []
    (Waveform.level_dc _ _ nonneg) nofun
  rw [successes, successes, List.append_nil, List.append_nil] at shorter
  exact shorter

theorem lived_tight : Lived [] tight := lived_couple (lived_full "first") (lived_full "second")

theorem lived_worn : Lived [fresh, shorten (1 - 9 / 10 ^ 16) fresh] worn := by
  have first : Lived [] fresh := lived_couple (lived_add "first" .flex ⟨0⟩ zero_le_one) (lived_full "second")
  exact lived_shorten (lived_shorten first (by norm_num) (by decide +kernel)) (by norm_num) (by decide +kernel)

theorem everywhere_duration_nonneg {s : Slice ℚ}
    (h : 0 ≤ s.duration ∧ ∀ t ∈ s.subs, t.subs.isEmpty = true ∧ 0 ≤ t.duration) :
    s.Everywhere fun t => 0 ≤ t.duration :=
  everywhere_of_shallow h.1 fun t mem => ⟨List.isEmpty_iff.mp (h.2 t mem).1, (h.2 t mem).2⟩

theorem aged_worn : worn.Everywhere (Aged (fun _ => 2) ⟨1⟩) := by
  have skips : skipped ⟨1⟩ [fresh, shorten (1 - 9 / 10 ^ 16) fresh, worn] ≤ 2 := by decide +kernel
  have others : ∀ t ∈ worn.subs, t.subs.isEmpty = true
      ∧ ((setDuration? t.content.kind).isNone = true → ⟨1⟩ ∉ t.channels) := by decide +kernel
  apply everywhere_of_shallow
  · exact fun _ => ⟨_, lived_worn, fun _ => skips⟩
  · intro t mem
    obtain ⟨shallow, silent⟩ := others t mem
    refine ⟨List.isEmpty_iff.mp shallow, fun inheriting => ?_⟩
    obtain ⟨log, lived⟩ := lived_worn.of_mem mem
    exact ⟨log, lived, fun carried => absurd carried (silent (Option.isNone_iff_eq_none.mpr inheriting.1))⟩

theorem flatten_worn_fits :
    worn.Made ∧ worn.Everywhere (Aged (fun _ => 2) ⟨1⟩) ∧ worn.Everywhere (fun t => 0 ≤ t.duration)
      ∧ (worn.flatten .empty).result = .ok () ∧ leeway (fun _ => 2) ⟨1⟩ worn = 5
      ∧ Alongside (fun t t' => t'.Fits (leeway (fun _ => 2) ⟨1⟩ t) ⟨1⟩) worn (worn.flatten .empty).state := by
  have ok : (worn.flatten .empty).result = .ok () := by
    obtain ⟨_, ok⟩ := exists_ok_of_isOk (by decide +kernel : (worn.flatten .empty).result.isOk = true)
    exact ok
  have nonneg : worn.Everywhere fun t => 0 ≤ t.duration := everywhere_duration_nonneg (by decide +kernel)
  refine ⟨lived_worn.made, aged_worn, nonneg, ok, by decide +kernel, ?_⟩
  exact flatten_fits lived_worn.made aged_worn nonneg ok

def forsaken : Slice ℚ :=
  let outer := (Command.perform (ofKind "outer" .flex) (.nest ((ofKind "inner" .flex).addWaveform ⟨0⟩ (.dc 1 1 0)))).state
  let cleared := (workAt (Command.perform · (.edit ⟨0⟩ .clearWaveform)) ["inner"] (outer.flatten .empty).state).state
  let flat := (workAt (Command.perform · (.flatten .empty)) ["inner"] cleared).state
  (workAt (fun t => Outcome.done () t.acknowledge) ["inner"] flat).state

theorem made_forsaken : forsaken.Made := by
  have empty : (ofKind "outer" (.flex : SliceKind ℚ)).Made := .ofKind "outer" .flex
  have outer := empty.perform [] (.nest ((ofKind "inner" .flex).addWaveform ⟨0⟩ (.dc 1 1 0))) fun child same => by
    cases same
    exact (lived_add "inner" .flex ⟨0⟩ zero_le_one).made
  have cleared := (outer.perform [] (.flatten .empty) nofun).perform ["inner"] (.edit ⟨0⟩ .clearWaveform) nofun
  exact (cleared.perform ["inner"] (.flatten .empty) nofun).acknowledge ["inner"]

theorem not_fits_of_any {s : Slice ℚ} {ch : ChannelId} {count : Nat}
    (h : (s.flattened.get? ch).any (fun w => s.duration + count * tolerance < w.width) = true) : ¬ s.Fits count ch := by
  intro fits
  cases here : s.flattened.get? ch with
  | none =>
    rw [here] at h
    cases h
  | some w =>
    rw [here, Option.any_some, decide_eq_true_eq] at h
    exact absurd (fits w here) (not_le.mpr h)

/--
It is not true that one tolerance is enough for every slice: not if several sub slices are too long, nor if one has become
shorter more than once. Not even very many are enough if notice is taken of a slice by others than its owner.
-/
theorem not_flatten_fits_tolerance :
    (Lived [] tight ∧ tight.Everywhere (fun t => 0 ≤ t.duration) ∧ (tight.flatten .empty).result.isOk = true
        ∧ ¬ (tight.flatten .empty).state.Fits 1 ⟨1⟩)
      ∧ (worn.Made ∧ worn.Everywhere (fun t => 0 ≤ t.duration) ∧ (worn.flatten .empty).result.isOk = true
        ∧ ¬ (worn.flatten .empty).state.Fits 2 ⟨1⟩)
      ∧ forsaken.Made ∧ forsaken.Everywhere (fun t => 0 ≤ t.duration) ∧ (forsaken.flatten .empty).result.isOk = true
        ∧ ¬ (forsaken.flatten .empty).state.Fits (10 ^ 14) ⟨0⟩ := by
  refine ⟨⟨lived_tight, everywhere_duration_nonneg (by decide +kernel), by decide +kernel,
      not_fits_of_any (by decide +kernel)⟩,
    ⟨lived_worn.made, everywhere_duration_nonneg (by decide +kernel), by decide +kernel,
      not_fits_of_any (by decide +kernel)⟩,
    made_forsaken, everywhere_duration_nonneg (by decide +kernel), by decide +kernel,
    not_fits_of_any (by decide +kernel)⟩

end Example

end PulseSequencer.Slice
