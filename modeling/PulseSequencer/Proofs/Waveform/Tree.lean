import PulseSequencer.Proofs.Waveform.Concat
import PulseSequencer.Calibration
import PulseSequencer.Proofs.Outcome

/-!
This module contains the tree that a waveform is composed of, and the waveforms that can be built. None of them has a
sequence among the parts of a sequence, so its parts are all that is played back to back.
-/

namespace PulseSequencer.Waveform

variable {α : Type} [Scalar α]

def operands : Waveform α → List (Waveform α)
  | .sum lhs rhs | .carry lhs rhs => [lhs, rhs]
  | .sequence parts => parts
  | .iq inner _ | .real inner | .imag inner => [inner]
  | .dc .. | .sin _ | .cos _ | .complexExp _ | .gaussian .. => []

@[elab_as_elim]
theorem induct {motive : Waveform α → Prop} (node : ∀ w, (∀ v ∈ w.operands, motive v) → motive w) : ∀ w, motive w
  | .sum lhs rhs =>
    node (.sum lhs rhs) (List.forall_mem_cons.mpr ⟨induct node lhs, List.forall_mem_singleton.mpr (induct node rhs)⟩)
  | .carry lhs rhs =>
    node (.carry lhs rhs) (List.forall_mem_cons.mpr ⟨induct node lhs, List.forall_mem_singleton.mpr (induct node rhs)⟩)
  | .sequence parts => node (.sequence parts) fun part (_ : part ∈ parts) => induct node part
  | .iq inner arms => node (.iq inner arms) (List.forall_mem_singleton.mpr (induct node inner))
  | .real inner => node (.real inner) (List.forall_mem_singleton.mpr (induct node inner))
  | .imag inner => node (.imag inner) (List.forall_mem_singleton.mpr (induct node inner))
  | .dc width amplitude phase => node (.dc width amplitude phase) (List.forall_mem_nil _)
  | .sin shape => node (.sin shape) (List.forall_mem_nil _)
  | .cos shape => node (.cos shape) (List.forall_mem_nil _)
  | .complexExp shape => node (.complexExp shape) (List.forall_mem_nil _)
  | .gaussian width amplitude => node (.gaussian width amplitude) (List.forall_mem_nil _)

def isSequence : Waveform α → Bool
  | .sequence _ => true
  | _ => false

/--
A waveform in which no part of a sequence is a sequence itself.
-/
inductive Flat : Waveform α → Prop
  | node {w : Waveform α} : (∀ part ∈ w.parts, part.isSequence = false) → (∀ v ∈ w.operands, Flat v) → Flat w

inductive Built : Waveform α → Prop
  | dc (width amplitude phase : α) : Built (.dc width amplitude phase)
  | sin (shape : Oscillation α) : Built (.sin shape)
  | cos (shape : Oscillation α) : Built (.cos shape)
  | complexExp (shape : Oscillation α) : Built (.complexExp shape)
  | gaussian (width amplitude : α) : Built (.gaussian width amplitude)
  | sum {lhs rhs : Waveform α} : Built lhs → Built rhs → Built (.sum lhs rhs)
  | carry {lhs rhs : Waveform α} : Built lhs → Built rhs → Built (.carry lhs rhs)
  | concat {w next : Waveform α} : Built w → Built next → Built (w.concat next)
  | real {inner : Waveform α} : Built inner → Built (.real inner)
  | imag {inner : Waveform α} : Built inner → Built (.imag inner)
  | scale {w scaled : Waveform α} (factor : α) : Built w → w.scale factor = .ok scaled → Built scaled
  | iq {i q : Option (Waveform α)} {pair : CalibratedIq α} (carrierFreq : α) (calibration : Option (Calibration α))
    (conversion : Conversion) : (∀ w ∈ i, Built w) → (∀ w ∈ q, Built w) →
    CalibratedIq.create carrierFreq i q calibration conversion = .ok pair → Built pair.toWaveform

section Trees

variable {w v : Waveform α} {parts scaled : List (Waveform α)} {factor : α}

theorem parts_of_not_sequence (single : w.isSequence = false) : w.parts = [w] := by
  cases w with
  | sequence parts => cases single
  | _ => rfl

theorem ofParts_eq_sequence (single : ∀ part ∈ parts, part.isSequence = false) : ofParts parts = sequence parts := by
  unfold ofParts
  have each : parts.flatMap Waveform.parts = parts.flatMap fun part => [part] := by
    apply List.flatMap_congr
    intro part mem
    exact parts_of_not_sequence (single part mem)
  rw [each]
  simp

theorem map_scale_of_ok (ok : scaleAll factor parts = .ok scaled) : parts.map (scale factor) = scaled.map .ok := by
  induction parts generalizing scaled with
  | nil =>
    cases ok
    rfl
  | cons part rest ih =>
    rw [scaleAll] at ok
    split at ok
    · rename_i v others here there
      cases ok
      rw [List.map_cons, List.map_cons, here, ih there]
    all_goals cases ok

theorem scale_sum_of_ok {lhs rhs : Waveform α} (ok : (sum lhs rhs).scale factor = .ok v) :
    ∃ lhs' rhs', lhs.scale factor = .ok lhs' ∧ rhs.scale factor = .ok rhs' ∧ v = sum lhs' rhs' := by
  rw [scale] at ok
  split at ok
  · rename_i lhs' rhs' left right
    cases ok
    exact ⟨lhs', rhs', left, right, rfl⟩
  all_goals cases ok

theorem scale_sequence_of_ok (ok : (sequence parts).scale factor = .ok v) :
    ∃ scaled, parts.map (scale factor) = scaled.map .ok ∧ v = ofParts scaled := by
  rw [scale] at ok
  obtain ⟨scaled, each, rfl⟩ := map_eq_ok_iff.mp ok
  exact ⟨scaled, map_scale_of_ok each, rfl⟩

theorem exists_part_of_mem (each : parts.map (scale factor) = scaled.map .ok) (mem : v ∈ scaled) :
    ∃ part ∈ parts, part.scale factor = .ok v := by
  have made : Except.ok v ∈ parts.map (scale factor) := each ▸ List.mem_map_of_mem mem
  exact List.mem_map.mp made

namespace Flat

theorem here (flat : w.Flat) : ∀ part ∈ w.parts, part.isSequence = false := by
  cases flat with
  | node here below => exact here

theorem of_mem (flat : w.Flat) (mem : v ∈ w.operands) : v.Flat := by
  cases flat with
  | node here below => exact below v mem

theorem of_mem_parts (flat : w.Flat) (mem : v ∈ w.parts) : v.Flat := by
  cases w with
  | sequence parts => exact flat.of_mem mem
  | _ =>
    obtain rfl := List.mem_singleton.mp mem
    exact flat

theorem of_not_sequence (single : w.isSequence = false) (below : ∀ v ∈ w.operands, v.Flat) : w.Flat := by
  refine .node ?_ below
  rw [parts_of_not_sequence single]
  exact List.forall_mem_singleton.mpr single

theorem sum (flat : w.Flat) (flat' : v.Flat) : (sum w v).Flat :=
  .of_not_sequence rfl (List.forall_mem_cons.mpr ⟨flat, List.forall_mem_singleton.mpr flat'⟩)

theorem carry (flat : w.Flat) (flat' : v.Flat) : (carry w v).Flat :=
  .of_not_sequence rfl (List.forall_mem_cons.mpr ⟨flat, List.forall_mem_singleton.mpr flat'⟩)

theorem concat (flat : w.Flat) (flat' : v.Flat) : (w.concat v).Flat := by
  refine .node ?_ ?_
  · rw [parts_concat, List.forall_mem_append]
    exact ⟨flat.here, flat'.here⟩
  · intro part mem
    rcases List.mem_append.mp (parts_concat w v ▸ mem : part ∈ w.parts ++ v.parts) with mem | mem
    · exact flat.of_mem_parts mem
    · exact flat'.of_mem_parts mem

end Flat

theorem flat_ofParts (single : ∀ part ∈ parts, part.isSequence = false) (flat : ∀ part ∈ parts, part.Flat) :
    (ofParts parts).Flat := by
  rw [ofParts_eq_sequence single]
  exact .node single flat

theorem flat_scale (flat : w.Flat) (ok : w.scale factor = .ok v) : v.Flat ∧ v.isSequence = w.isSequence := by
  induction w using induct generalizing v with
  | node w ih =>
    have below (u u' : Waveform α) (mem : u ∈ w.operands) (ok : u.scale factor = .ok u') :
        u'.Flat ∧ u'.isSequence = u.isSequence :=
      ih u mem (flat.of_mem mem) ok
    cases w with
    | dc | sin | cos | complexExp | gaussian =>
      cases ok
      exact ⟨.of_not_sequence rfl (List.forall_mem_nil _), rfl⟩
    | sum lhs rhs =>
      obtain ⟨lhs', rhs', left, right, rfl⟩ := scale_sum_of_ok ok
      refine ⟨.sum ?_ ?_, rfl⟩
      · exact (below lhs lhs' (by simp [operands]) left).1
      · exact (below rhs rhs' (by simp [operands]) right).1
    | carry lhs rhs =>
      obtain ⟨lhs', left, rfl⟩ := map_eq_ok_iff.mp ok
      refine ⟨.carry ?_ (flat.of_mem (by simp [operands])), rfl⟩
      exact (below lhs lhs' (by simp [operands]) left).1
    | sequence parts =>
      obtain ⟨scaled, each, rfl⟩ := scale_sequence_of_ok ok
      have made (u : Waveform α) (mem : u ∈ scaled) : u.isSequence = false ∧ u.Flat := by
        obtain ⟨part, mem, ok⟩ := exists_part_of_mem each mem
        obtain ⟨flat', same⟩ := below part u mem ok
        exact ⟨same.trans (flat.here part mem), flat'⟩
      exact ⟨flat_ofParts (fun u mem => (made u mem).1) fun u mem => (made u mem).2, rfl⟩
    | iq inner arms => cases ok
    | real inner | imag inner =>
      obtain ⟨inner', within, rfl⟩ := map_eq_ok_iff.mp ok
      have flat' := (below inner inner' (by simp [operands]) within).1
      exact ⟨.of_not_sequence rfl (List.forall_mem_singleton.mpr flat'), rfl⟩

theorem scale_sequence_of_flat (flat : (sequence parts).Flat) (ok : (sequence parts).scale factor = .ok v) :
    ∃ scaled, parts.map (scale factor) = scaled.map .ok ∧ v = sequence scaled := by
  obtain ⟨scaled, each, rfl⟩ := scale_sequence_of_ok ok
  refine ⟨scaled, each, ofParts_eq_sequence ?_⟩
  intro u mem
  obtain ⟨part, mem, ok⟩ := exists_part_of_mem each mem
  exact (flat_scale (flat.of_mem mem) ok).2.trans (flat.here part mem)

theorem flat_baseband {i q : Option (Waveform α)} (first : ∀ w ∈ i, w.Flat) (second : ∀ w ∈ q, w.Flat)
    (given : CalibratedIq.baseband? i q = some w) : w.Flat := by
  have constant (width amplitude phase : α) : (dc width amplitude phase).Flat :=
    .of_not_sequence rfl (List.forall_mem_nil _)
  cases i with
  | none =>
    cases q with
    | none => cases given
    | some q =>
      cases given
      exact .carry (second q rfl) (constant ..)
  | some i =>
    cases q with
    | none =>
      cases given
      exact first w rfl
    | some q =>
      cases given
      exact .sum (first i rfl) (.carry (second q rfl) (constant ..))

theorem Built.flat (built : w.Built) : w.Flat := by
  induction built with
  | dc | sin | cos | complexExp | gaussian => exact .of_not_sequence rfl (List.forall_mem_nil _)
  | sum _ _ left right => exact left.sum right
  | carry _ _ left right => exact left.carry right
  | concat _ _ first second => exact first.concat second
  | real _ inner | imag _ inner => exact .of_not_sequence rfl (List.forall_mem_singleton.mpr inner)
  | scale factor _ ok flat => exact (flat_scale flat ok).1
  | iq carrierFreq calibration conversion _ _ ok first second =>
    unfold CalibratedIq.create at ok
    split at ok
    · cases ok
    · rename_i base given
      cases ok
      have carried := (flat_baseband first second given).carry
        (.of_not_sequence rfl (List.forall_mem_nil _) : (CalibratedIq.carrier base.width carrierFreq conversion).Flat)
      exact .of_not_sequence rfl (List.forall_mem_singleton.mpr carried)

end Trees

section Playing

variable {K : Type} [Field K] [LinearOrder K] [FloorRing K] [Elementary K] {a b : Waveform K}

theorem beqParts_self {parts : List (Waveform K)} (each : ∀ part ∈ parts, beq part part = true) :
    beqParts parts parts = true := by
  induction parts with
  | nil => simp [beqParts]
  | cons part rest ih =>
    rw [List.forall_mem_cons] at each
    simp [beqParts, each.1, ih each.2]

theorem beq_self (w : Waveform K) : beq w w = true := by
  induction w using induct with
  | node w ih =>
    cases w with
    | dc | gaussian => simp [beq]
    | sin shape | cos shape | complexExp shape => simp [beq, BEq.beq, instBEqOscillation.beq]
    | sum lhs rhs | carry lhs rhs =>
      have left := ih lhs (by simp [operands])
      have right := ih rhs (by simp [operands])
      simp [beq, left, right]
    | sequence parts =>
      have each : beqParts parts parts = true := beqParts_self ih
      simp [beq, each]
    | iq inner arms =>
      have carried := ih inner (by simp [operands])
      simp [beq, carried, BEq.beq, instBEqArms.beq]
    | real inner | imag inner =>
      have within := ih inner (by simp [operands])
      simp [beq, within]

/--
What it means that a waveform plays two others back to back. The parts that the halving of start times chooses from are
those that play in turn, and none of them has parts of its own.
-/
structure BackToBack (a b whole : Waveform K) : Prop where
  width : whole.width = a.width + b.width
  value : ∀ t, whole.value t = if t < a.width then a.value t else b.value (t - a.width)
  inTurn : ∀ t, whole.value t = valueInTurn whole.parts t
  flat : whole.Flat

variable [IsStrictOrderedRing K]

theorem value_concat_of_width_left (level : a.Level) (level' : b.Level) (nothing : a.width = 0) (t : K) :
    (a.concat b).value t = b.value t := by
  rw [value_concat level level', nothing, sub_zero]
  split
  · rename_i early
    rw [value_of_outside (.inl early), value_of_outside (.inl early)]
  · rfl

theorem value_concat_of_width_right (level : a.Level) (level' : b.Level) (nothing : b.width = 0) (t : K) :
    (a.concat b).value t = a.value t := by
  rw [value_concat level level']
  split
  · rfl
  · rename_i late
    have ended : a.width ≤ t := not_lt.mp late
    rw [value_of_outside (.inr ended), value_of_outside (.inr _)]
    rw [nothing]
    exact sub_nonneg.mpr ended

/--
Waveforms that were built of parts that do not end before they start play back to back, in whatever order they are put
together, and one without a width does not show.
-/
theorem concat_backToBack (built : a.Built) (built' : b.Built) (level : a.Level) (level' : b.Level) :
    BackToBack a b (a.concat b)
      ∧ (∀ c, (a.concat b).concat c = a.concat (b.concat c) ∧ beq ((a.concat b).concat c) (a.concat (b.concat c)) = true)
      ∧ (a.width = 0 → ∀ t, (a.concat b).value t = b.value t)
      ∧ (b.width = 0 → ∀ t, (a.concat b).value t = a.value t) := by
  refine ⟨?_, ?_, value_concat_of_width_left level level', value_concat_of_width_right level level'⟩
  · exact {
      width := width_concat a b
      value := value_concat level level'
      inTurn := value_eq_valueInTurn_parts (level.concat level')
      flat := (Built.concat built built').flat }
  · intro c
    rw [concat_assoc]
    exact ⟨rfl, beq_self _⟩

def spiked : Waveform ℚ := (dc 1 2 0).concat (dc 0 5 0)

theorem built_spiked : spiked.Built := .concat (.dc 1 2 0) (.dc 0 5 0)

theorem level_spiked : spiked.Level := (level_dc 2 0 (by norm_num)).concat (level_dc 5 0 (le_refl 0))

theorem spiked_concat_spiked_backToBack :
    spiked.Built ∧ spiked.Level ∧ BackToBack spiked spiked (spiked.concat spiked) :=
  ⟨built_spiked, level_spiked, (concat_backToBack built_spiked built_spiked level_spiked level_spiked).1⟩

example : ((spiked.concat spiked).value 1).re = 2 := by
  decide +kernel

end Playing

end PulseSequencer.Waveform
