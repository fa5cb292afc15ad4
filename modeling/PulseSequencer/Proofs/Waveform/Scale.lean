import PulseSequencer.Proofs.Waveform.Tree

/-!
This module contains what it is to multiply a waveform by a number. Either every value of it is multiplied, or nothing is,
because the factor would have been handed down to a calibrated pair.
-/

namespace PulseSequencer.Waveform

section Failure

variable {α : Type} [Scalar α]

/--
Whether a factor is handed down to a calibrated pair: by a sum to both operands, by a product to the first one only, by
a sequence to all parts.
-/
inductive ReachesIq : Waveform α → Prop
  | iq (carried : Waveform α) (arms : Arms α) : ReachesIq (.iq carried arms)
  | sumLeft {lhs : Waveform α} (rhs : Waveform α) : ReachesIq lhs → ReachesIq (.sum lhs rhs)
  | sumRight (lhs : Waveform α) {rhs : Waveform α} : ReachesIq rhs → ReachesIq (.sum lhs rhs)
  | carry {lhs : Waveform α} (rhs : Waveform α) : ReachesIq lhs → ReachesIq (.carry lhs rhs)
  | sequence {parts : List (Waveform α)} {part : Waveform α} : part ∈ parts → ReachesIq part → ReachesIq (.sequence parts)
  | real {inner : Waveform α} : ReachesIq inner → ReachesIq (.real inner)
  | imag {inner : Waveform α} : ReachesIq inner → ReachesIq (.imag inner)

variable {w v : Waveform α} {parts : List (Waveform α)} {factor : α} {cause : Error α}

theorem exists_part_of_error (failed : scaleAll factor parts = .error cause) :
    ∃ part ∈ parts, part.scale factor = .error cause := by
  induction parts with
  | nil => cases failed
  | cons part rest ih =>
    rw [scaleAll] at failed
    split at failed
    · cases failed
    · rename_i here
      cases failed
      exact ⟨part, List.mem_cons_self, here⟩
    · rename_i there _
      cases failed
      obtain ⟨other, mem, here⟩ := ih there
      exact ⟨other, List.mem_cons_of_mem part mem, here⟩

theorem reachesIq_of_error (failed : w.scale factor = .error cause) : cause = .scaleCalibrated ∧ w.ReachesIq := by
  induction w using induct with
  | node w ih =>
    cases w with
    | dc | sin | cos | complexExp | gaussian => cases failed
    | sum lhs rhs =>
      rw [scale] at failed
      split at failed
      · cases failed
      · rename_i left
        cases failed
        obtain ⟨kind, reached⟩ := ih lhs (by simp [operands]) left
        exact ⟨kind, .sumLeft rhs reached⟩
      · rename_i right _
        cases failed
        obtain ⟨kind, reached⟩ := ih rhs (by simp [operands]) right
        exact ⟨kind, .sumRight lhs reached⟩
    | carry lhs rhs =>
      obtain ⟨kind, reached⟩ := ih lhs (by simp [operands]) (map_eq_error_iff.mp failed)
      exact ⟨kind, .carry rhs reached⟩
    | sequence parts =>
      rw [scale] at failed
      obtain ⟨part, mem, failed⟩ := exists_part_of_error (map_eq_error_iff.mp failed)
      obtain ⟨kind, reached⟩ := ih part mem failed
      exact ⟨kind, .sequence mem reached⟩
    | iq carried arms =>
      cases failed
      exact ⟨rfl, .iq carried arms⟩
    | real inner =>
      obtain ⟨kind, reached⟩ := ih inner (by simp [operands]) (map_eq_error_iff.mp failed)
      exact ⟨kind, .real reached⟩
    | imag inner =>
      obtain ⟨kind, reached⟩ := ih inner (by simp [operands]) (map_eq_error_iff.mp failed)
      exact ⟨kind, .imag reached⟩

theorem not_scale_of_reachesIq (reached : w.ReachesIq) : w.scale factor ≠ .ok v := by
  induction reached generalizing v with
  | iq => exact nofun
  | sumLeft rhs _ ih =>
    intro ok
    obtain ⟨lhs', _, left, _, _⟩ := scale_sum_of_ok ok
    exact ih left
  | sumRight lhs _ ih =>
    intro ok
    obtain ⟨_, rhs', _, right, _⟩ := scale_sum_of_ok ok
    exact ih right
  | carry rhs _ ih =>
    intro ok
    obtain ⟨lhs', left, _⟩ := map_eq_ok_iff.mp ok
    exact ih left
  | @sequence parts part mem _ ih =>
    intro ok
    obtain ⟨scaled, each, _⟩ := scale_sequence_of_ok ok
    have made : part.scale factor ∈ scaled.map .ok := each ▸ List.mem_map_of_mem mem
    obtain ⟨u, _, ok⟩ := List.mem_map.mp made
    exact ih ok.symm
  | real _ ih | imag _ ih =>
    intro ok
    obtain ⟨inner', within, _⟩ := map_eq_ok_iff.mp ok
    exact ih within

theorem scale_eq_error_iff : w.scale factor = .error .scaleCalibrated ↔ w.ReachesIq := by
  constructor
  · exact fun failed => (reachesIq_of_error failed).2
  · intro reached
    cases outcome : w.scale factor with
    | ok v => exact absurd outcome (not_scale_of_reachesIq reached)
    | error cause => rw [(reachesIq_of_error outcome).1]

theorem exists_scale (unreached : ¬ w.ReachesIq) (factor : α) : ∃ v, w.scale factor = .ok v := by
  cases outcome : w.scale factor with
  | ok v => exact ⟨v, rfl⟩
  | error cause => exact absurd (reachesIq_of_error outcome).2 unreached

theorem not_reachesIq_of_scale (flat : w.Flat) (ok : w.scale factor = .ok v) : ¬ v.ReachesIq := by
  induction w using induct generalizing v with
  | node w ih =>
    have below (u u' : Waveform α) (mem : u ∈ w.operands) (ok : u.scale factor = .ok u') : ¬ u'.ReachesIq :=
      ih u mem (flat.of_mem mem) ok
    intro reached
    cases w with
    | dc | sin | cos | complexExp | gaussian =>
      cases ok
      cases reached
    | sum lhs rhs =>
      obtain ⟨lhs', rhs', left, right, rfl⟩ := scale_sum_of_ok ok
      cases reached with
      | sumLeft _ reached => exact below lhs lhs' (by simp [operands]) left reached
      | sumRight _ reached => exact below rhs rhs' (by simp [operands]) right reached
    | carry lhs rhs =>
      obtain ⟨lhs', left, rfl⟩ := map_eq_ok_iff.mp ok
      cases reached with
      | carry _ reached => exact below lhs lhs' (by simp [operands]) left reached
    | sequence parts =>
      obtain ⟨scaled, each, rfl⟩ := scale_sequence_of_flat flat ok
      cases reached with
      | sequence mem reached =>
        obtain ⟨part, mem, ok⟩ := exists_part_of_mem each mem
        exact below part _ mem ok reached
    | iq carried arms => cases ok
    | real inner =>
      obtain ⟨inner', within, rfl⟩ := map_eq_ok_iff.mp ok
      cases reached with
      | real reached => exact below inner inner' (by simp [operands]) within reached
    | imag inner =>
      obtain ⟨inner', within, rfl⟩ := map_eq_ok_iff.mp ok
      cases reached with
      | imag reached => exact below inner inner' (by simp [operands]) within reached

end Failure

section Values

variable {K : Type} [Field K] [LinearOrder K] [FloorRing K] [Elementary K]

structure Multiple (factor : K) (w v : Waveform K) : Prop where
  width : v.width = w.width
  value : ∀ t, v.value t = .ofReal factor * w.value t

variable {w v lhs lhs' rhs rhs' inner inner' : Waveform K} {parts scaled : List (Waveform K)} {factor : K}

section Numbers

variable (factor : K) (z z' : Complex K)

theorem ofReal_mul : Complex.ofReal factor * z = ⟨factor * z.re, factor * z.im⟩ := by
  change Complex.mk _ _ = _
  simp [Complex.ofReal]

theorem ofReal_mul_zero : Complex.ofReal factor * Complex.zero = .zero := by
  rw [ofReal_mul]
  simp [Complex.zero]

theorem ofReal_mul_ofReal (x : K) : Complex.ofReal factor * Complex.ofReal x = .ofReal (x * factor) := by
  rw [ofReal_mul]
  simp [Complex.ofReal, mul_comm]

theorem ofReal_mul_ofPolar (radius angle : K) :
    Complex.ofReal factor * Complex.ofPolar radius angle = .ofPolar (radius * factor) angle := by
  rw [ofReal_mul]
  unfold Complex.ofPolar
  congr 1 <;> ring

theorem ofReal_mul_add : Complex.ofReal factor * (z + z') = Complex.ofReal factor * z + Complex.ofReal factor * z' := by
  simp only [ofReal_mul]
  change Complex.mk _ _ = Complex.mk _ _
  congr 1 <;> simp <;> ring

theorem ofReal_mul_ofReal_mul (other : K) :
    Complex.ofReal other * (Complex.ofReal factor * z) = Complex.ofReal (factor * other) * z := by
  simp only [ofReal_mul]
  congr 1 <;> ring

theorem ofReal_one_mul : Complex.ofReal 1 * z = z := by
  rw [ofReal_mul, one_mul, one_mul]

theorem ofReal_mul_assoc : Complex.ofReal factor * z * z' = Complex.ofReal factor * (z * z') := by
  simp only [ofReal_mul]
  change Complex.mk _ _ = Complex.mk _ _
  congr 1 <;> simp <;> ring

end Numbers

namespace Multiple

theorem of_playing (width : v.width = w.width)
    (playing : ∀ t, plays w.width t = true → v.value t = .ofReal factor * w.value t) : Multiple factor w v := by
  refine ⟨width, fun t => ?_⟩
  cases inside : plays w.width t with
  | true => exact playing t inside
  | false => rw [value_of_not_plays inside, value_of_not_plays (width ▸ inside), ofReal_mul_zero]

theorem sum (left : Multiple factor lhs lhs') (right : Multiple factor rhs rhs') :
    Multiple factor (.sum lhs rhs) (.sum lhs' rhs') := by
  have width : (Waveform.sum lhs' rhs').width = (Waveform.sum lhs rhs).width := by
    rw [width_sum, width_sum, left.width, right.width]
  apply of_playing width
  intro t inside
  rw [Waveform.value, Waveform.value, width, if_pos inside, if_pos inside, left.value, right.value, ofReal_mul_add]

theorem carry (left : Multiple factor lhs lhs') (rhs : Waveform K) :
    Multiple factor (.carry lhs rhs) (.carry lhs' rhs) := by
  have width : (Waveform.carry lhs' rhs).width = (Waveform.carry lhs rhs).width := by
    rw [width_carry, width_carry, left.width]
  apply of_playing width
  intro t inside
  rw [Waveform.value, Waveform.value, width, if_pos inside, if_pos inside, left.value, ofReal_mul_assoc]

theorem real (within : Multiple factor inner inner') : Multiple factor (.real inner) (.real inner') := by
  have width : (Waveform.real inner').width = (Waveform.real inner).width := by
    rw [width_real, width_real, within.width]
  apply of_playing width
  intro t inside
  rw [Waveform.value, Waveform.value, width, if_pos inside, if_pos inside, within.value]
  rw [ofReal_mul, ofReal_mul_ofReal]
  exact congrArg Complex.ofReal (mul_comm factor _)

theorem imag (within : Multiple factor inner inner') : Multiple factor (.imag inner) (.imag inner') := by
  have width : (Waveform.imag inner').width = (Waveform.imag inner).width := by
    rw [width_imag, width_imag, within.width]
  apply of_playing width
  intro t inside
  rw [Waveform.value, Waveform.value, width, if_pos inside, if_pos inside, within.value]
  rw [ofReal_mul, ofReal_mul_ofReal]
  exact congrArg Complex.ofReal (mul_comm factor _)

theorem startsFrom (each : List.Forall₂ (Multiple factor) parts scaled) (start : K) :
    startsFrom start scaled = startsFrom start parts := by
  induction each generalizing start with
  | nil => rfl
  | cons here _ ih => simp only [Waveform.startsFrom, here.width, ih]

theorem endOf (each : List.Forall₂ (Multiple factor) parts scaled) (start : K) :
    endOf start scaled = endOf start parts := by
  induction each generalizing start with
  | nil => rfl
  | cons here _ ih => simp only [Waveform.endOf, here.width, ih]

theorem valueOfPart (each : List.Forall₂ (Multiple factor) parts scaled) (k : Nat) (t : K) :
    valueOfPart scaled k t = .ofReal factor * valueOfPart parts k t := by
  induction each generalizing k with
  | nil => exact (ofReal_mul_zero factor).symm
  | cons here _ ih =>
    cases k with
    | zero => exact here.value t
    | succ k => exact ih k

theorem sequence (each : List.Forall₂ (Multiple factor) parts scaled) :
    Multiple factor (.sequence parts) (.sequence scaled) := by
  have width : (Waveform.sequence scaled).width = (Waveform.sequence parts).width := by
    rw [width_sequence, width_sequence, endOf each]
  apply of_playing width
  intro t inside
  rw [Waveform.value, Waveform.value, width, if_pos inside, if_pos inside]
  simp only [starts_sequence, startsFrom each]
  -- The start times stay as they are, so the same part is found.
  cases countFront (· ≤ t) (Waveform.startsFrom 0.0 parts).toArray with
  | zero => exact (ofReal_mul_zero factor).symm
  | succ k => exact valueOfPart each k _

theorem dc (width amplitude phase : K) :
    Multiple factor (.dc width amplitude phase) (.dc width (amplitude * factor) phase) := by
  have same : (Waveform.dc width (amplitude * factor) phase).width = (Waveform.dc width amplitude phase).width := by
    rw [width_dc, width_dc]
  apply of_playing same
  intro t inside
  rw [Waveform.value, Waveform.value, same, if_pos inside, if_pos inside]
  split
  · rw [ofReal_mul_ofReal]
  · rw [ofReal_mul_ofPolar]

theorem sin (shape : Oscillation K) : Multiple factor (.sin shape) (.sin (shape.scale factor)) := by
  have width : (Waveform.sin (shape.scale factor)).width = (Waveform.sin shape).width := by
    rw [width_sin, width_sin, Oscillation.scale]
  apply of_playing width
  intro t inside
  rw [Waveform.value, Waveform.value, width, if_pos inside, if_pos inside, ofReal_mul_ofReal, mul_right_comm]
  rfl

theorem cos (shape : Oscillation K) : Multiple factor (.cos shape) (.cos (shape.scale factor)) := by
  have width : (Waveform.cos (shape.scale factor)).width = (Waveform.cos shape).width := by
    rw [width_cos, width_cos, Oscillation.scale]
  apply of_playing width
  intro t inside
  rw [Waveform.value, Waveform.value, width, if_pos inside, if_pos inside, ofReal_mul_ofReal, mul_right_comm]
  rfl

theorem complexExp (shape : Oscillation K) : Multiple factor (.complexExp shape) (.complexExp (shape.scale factor)) := by
  have width : (Waveform.complexExp (shape.scale factor)).width = (Waveform.complexExp shape).width := by
    rw [width_complexExp, width_complexExp, Oscillation.scale]
  apply of_playing width
  intro t inside
  rw [Waveform.value, Waveform.value, width, if_pos inside, if_pos inside, ofReal_mul_ofPolar]
  rfl

theorem gaussian (width amplitude : K) :
    Multiple factor (.gaussian width amplitude) (.gaussian width (amplitude * factor)) := by
  have same : (Waveform.gaussian width (amplitude * factor)).width = (Waveform.gaussian width amplitude).width := by
    rw [width_gaussian, width_gaussian]
  apply of_playing same
  intro t inside
  rw [Waveform.value, Waveform.value, same, if_pos inside, if_pos inside]
  simp only [ofReal_mul_ofReal, mul_right_comm]

end Multiple

theorem Multiple.trans {other : K} {u : Waveform K} (first : Multiple factor w v) (second : Multiple other v u) :
    Multiple (factor * other) w u := by
  refine ⟨second.width.trans first.width, fun t => ?_⟩
  rw [second.value, first.value, ofReal_mul_ofReal_mul]

theorem multiples_of_scale (each : parts.map (scale factor) = scaled.map .ok)
    (multiple : ∀ part ∈ parts, ∀ v, part.scale factor = .ok v → Multiple factor part v) :
    List.Forall₂ (Multiple factor) parts scaled := by
  induction parts generalizing scaled with
  | nil =>
    cases scaled with
    | nil => exact .nil
    | cons v others => cases each
  | cons part rest ih =>
    rw [List.forall_mem_cons] at multiple
    cases scaled with
    | nil => cases each
    | cons v others =>
      injection each with here there
      exact .cons (multiple.1 v here) (ih there multiple.2)

theorem multiple_of_scale (flat : w.Flat) (ok : w.scale factor = .ok v) : Multiple factor w v := by
  induction w using induct generalizing v with
  | node w ih =>
    have below (u u' : Waveform K) (mem : u ∈ w.operands) (ok : u.scale factor = .ok u') : Multiple factor u u' :=
      ih u mem (flat.of_mem mem) ok
    cases w with
    | dc width amplitude phase =>
      cases ok
      exact .dc width amplitude phase
    | sin shape =>
      cases ok
      exact .sin shape
    | cos shape =>
      cases ok
      exact .cos shape
    | complexExp shape =>
      cases ok
      exact .complexExp shape
    | gaussian width amplitude =>
      cases ok
      exact .gaussian width amplitude
    | sum lhs rhs =>
      obtain ⟨lhs', rhs', left, right, rfl⟩ := scale_sum_of_ok ok
      exact .sum (below lhs lhs' (by simp [operands]) left) (below rhs rhs' (by simp [operands]) right)
    | carry lhs rhs =>
      obtain ⟨lhs', left, rfl⟩ := map_eq_ok_iff.mp ok
      exact .carry (below lhs lhs' (by simp [operands]) left) rhs
    | sequence parts =>
      obtain ⟨scaled, each, rfl⟩ := scale_sequence_of_flat flat ok
      exact .sequence (multiples_of_scale each fun part mem v ok => below part v mem ok)
    | iq carried arms => cases ok
    | real inner =>
      obtain ⟨inner', within, rfl⟩ := map_eq_ok_iff.mp ok
      exact .real (below inner inner' (by simp [operands]) within)
    | imag inner =>
      obtain ⟨inner', within, rfl⟩ := map_eq_ok_iff.mp ok
      exact .imag (below inner inner' (by simp [operands]) within)

/--
To multiply a waveform that was built is to multiply its values, and it fails if and only if that would reach a
calibrated pair. So two factors in turn are their product, and a waveform that is negated twice plays as before.
-/
theorem scale_multiplies (built : w.Built) (factor : K) :
    (w.scale factor = .error .scaleCalibrated ↔ w.ReachesIq)
      ∧ (¬ w.ReachesIq → ∃ v, w.scale factor = .ok v ∧ Multiple factor w v)
      ∧ (¬ w.ReachesIq → ∃ v u, w.negate = .ok v ∧ v.negate = .ok u ∧ u.width = w.width ∧ ∀ t, u.value t = w.value t)
      ∧ (¬ w.ReachesIq → ∀ other, ∃ v u u', w.scale factor = .ok v ∧ v.scale other = .ok u
        ∧ w.scale (factor * other) = .ok u' ∧ u.width = u'.width ∧ ∀ t, u.value t = u'.value t) := by
  have twice (unreached : ¬ w.ReachesIq) (factor other : K) :
      ∃ v u, w.scale factor = .ok v ∧ v.scale other = .ok u ∧ Multiple (factor * other) w u := by
    obtain ⟨v, first⟩ := exists_scale unreached factor
    obtain ⟨u, second⟩ := exists_scale (not_reachesIq_of_scale built.flat first) other
    have multiple := multiple_of_scale (flat_scale built.flat first).1 second
    exact ⟨v, u, first, second, (multiple_of_scale built.flat first).trans multiple⟩
  refine ⟨scale_eq_error_iff, ?_, ?_, ?_⟩
  · intro unreached
    obtain ⟨v, ok⟩ := exists_scale unreached factor
    exact ⟨v, ok, multiple_of_scale built.flat ok⟩
  · intro unreached
    obtain ⟨v, u, first, second, multiple⟩ := twice unreached (-1.0) (-1.0)
    refine ⟨v, u, first, second, multiple.width, fun t => ?_⟩
    have one : (-1.0 : K) * -1.0 = 1 := by norm_num
    rw [multiple.value, one, ofReal_one_mul]
  · intro unreached other
    obtain ⟨v, u, first, second, multiple⟩ := twice unreached factor other
    obtain ⟨u', ok⟩ := exists_scale unreached (factor * other)
    have multiple' := multiple_of_scale built.flat ok
    refine ⟨v, u, u', first, second, ok, multiple.width.trans multiple'.width.symm, fun t => ?_⟩
    rw [multiple.value, multiple'.value]

def gated : Waveform ℚ :=
  let carried := (dc 1 1 0).carry (CalibratedIq.carrier (dc 1 1 0).width 1 .up)
  (dc 1 2 0).carry (.iq carried (CalibratedIq.calibrate 1 1 none))

theorem built_gated : gated.Built := by
  apply Built.carry (.dc 1 2 0)
  have made : CalibratedIq.create (1 : ℚ) (some (dc 1 1 0)) none none .up = .ok ⟨_, _⟩ := rfl
  refine Built.iq (1 : ℚ) none .up ?_ ?_ made
  · rintro w ⟨⟩
    exact .dc 1 1 0
  · exact nofun

theorem not_reachesIq_gated : ¬ gated.ReachesIq := by
  rintro (_ | _ | _ | ⟨_, reached⟩)
  cases reached

theorem scale_gated_multiplies :
    gated.Built ∧ ¬ gated.ReachesIq ∧ ∃ v, gated.scale 2 = .ok v ∧ Multiple 2 gated v :=
  ⟨built_gated, not_reachesIq_gated, (scale_multiplies built_gated 2).2.1 not_reachesIq_gated⟩

end Values

end PulseSequencer.Waveform
