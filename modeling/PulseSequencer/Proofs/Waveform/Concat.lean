import PulseSequencer.Proofs.Scalar.Exact
import PulseSequencer.Waveform.Combine
import PulseSequencer.Waveform.Value

/-!
This module contains what a sequence of waveforms plays: its parts one after the other. The part that plays at a time is
the one that is found by halving the start times, as long as no part ends before it starts.
-/

namespace PulseSequencer

section Search

variable {β : Type} {p : β → Bool} {xs : Array β} {n : Nat}

theorem countFront_go_eq (front : ∀ i (h : i < xs.size), p xs[i] = decide (i < n)) {base size : Nat}
    (above : base ≤ n) (below : n ≤ base + size) (inside : base + size ≤ xs.size) (some : 0 < size) :
    countFront.go p xs base size = n := by
  induction size using Nat.strongRecOn generalizing base with
  | ind size ih =>
    unfold countFront.go
    split
    · rename_i two
      -- The middle of the stretch is in front of its end, so there is an element to look at.
      have bound : base + size / 2 < xs.size := by omega
      have look : xs[base + size / 2]?.any p = decide (base + size / 2 < n) := by
        rw [Array.getElem?_eq_getElem bound]
        exact front _ bound
      dsimp only
      rw [look]
      by_cases h : base + size / 2 < n
      · simp only [h, decide_true, if_true]
        apply ih <;> omega
      · simp only [h, decide_false, Bool.false_eq_true, if_false]
        apply ih <;> omega
    · have bound : base < xs.size := by omega
      rw [Array.getElem?_eq_getElem bound]
      simp only [Option.any_some, front _ bound, decide_eq_true_eq]
      split <;> omega

theorem countFront_eq (front : ∀ i (h : i < xs.size), p xs[i] = decide (i < n)) (bound : n ≤ xs.size) :
    countFront p xs = n := by
  unfold countFront
  by_cases h : xs.size = 0
  · have : xs = #[] := by simpa using h
    subst this
    unfold countFront.go
    simp at bound
    simp [bound]
  · apply countFront_go_eq front <;> omega

theorem countFront_append {front behind : List β} (hold : ∀ x ∈ front, p x = true)
    (fail : ∀ x ∈ behind, p x = false) : countFront p (front ++ behind).toArray = front.length := by
  apply countFront_eq
  · intro i h
    simp only [List.getElem_toArray]
    by_cases inFront : i < front.length
    · rw [List.getElem_append_left inFront]
      simp [hold, inFront]
    · rw [List.getElem_append_right (by omega)]
      simp [fail, inFront]
  · simp

end Search

namespace Waveform

section Silence

variable {α : Type} [Scalar α]

theorem value_of_not_plays {w : Waveform α} {t : α} (silent : plays w.width t = false) : w.value t = .zero := by
  unfold value
  simp [silent]

theorem value_sequence_of_found {parts : List (Waveform α)} {t : α} {k : Nat} (playing : plays (endOf 0.0 parts) t = true)
    (found : countFront (· ≤ t) (startsFrom 0.0 parts).toArray = k + 1) :
    (sequence parts).value t = valueOfPart parts k (t - (startsFrom 0.0 parts).toArray.getD k 0.0) := by
  rw [value, width_sequence, if_pos playing]
  simp only [starts_sequence, found]

theorem valueOfPart_append {before after : List (Waveform α)} {part : Waveform α} (t : α) :
    valueOfPart (before ++ part :: after) before.length t = part.value t := by
  induction before with
  | nil => rfl
  | cons first rest ih => exact ih

theorem endOf_append (start : α) (front behind : List (Waveform α)) :
    endOf start (front ++ behind) = endOf (endOf start front) behind := by
  induction front generalizing start with
  | nil => rfl
  | cons part rest ih => exact ih (start + part.width)

end Silence

variable {K : Type} [Field K] [LinearOrder K] [FloorRing K] [Elementary K]

def LevelParts (parts : List (Waveform K)) : Prop := ∀ part ∈ parts, 0 ≤ part.width

def Level (w : Waveform K) : Prop := LevelParts w.parts

def valueInTurn : List (Waveform K) → K → Complex K
  | [], _ => .zero
  | part :: rest, t => if t < part.width then part.value t else valueInTurn rest (t - part.width)

variable {w : Waveform K} {part : Waveform K} {parts front behind : List (Waveform K)} {start t : K}

theorem plays_iff {width : K} : plays width t = true ↔ 0 ≤ t ∧ t < width := by
  unfold plays
  simp

theorem value_of_outside (h : t < 0 ∨ w.width ≤ t) : w.value t = .zero := by
  apply value_of_not_plays
  rw [← Bool.not_eq_true, plays_iff]
  rintro ⟨nonneg, inside⟩
  rcases h with h | h
  · exact absurd h (not_lt.mpr nonneg)
  · exact absurd h (not_le.mpr inside)

@[simp]
theorem width_blank (width : K) : (blank width).width = width := by
  simp [blank]

theorem value_blank (width t : K) : (blank width).value t = .zero := by
  unfold value blank
  simp [Complex.ofReal, Complex.zero]

theorem endOf_eq_add (start : K) (parts : List (Waveform K)) : endOf start parts = start + endOf 0 parts := by
  induction parts generalizing start with
  | nil => simp [endOf]
  | cons part rest ih =>
    simp only [endOf]
    rw [ih (start + part.width), ih (0 + part.width)]
    ring

theorem width_eq_endOf_parts (w : Waveform K) : w.width = endOf 0 w.parts := by
  unfold parts
  split
  · simp
  · simp [endOf]

theorem width_concat (a b : Waveform K) : (a.concat b).width = a.width + b.width := by
  rw [width_eq_endOf_parts, parts_concat, endOf_append, endOf_eq_add]
  rw [← width_eq_endOf_parts, ← width_eq_endOf_parts]

theorem exists_playing (first : start ≤ t) (last : t < endOf start parts) :
    ∃ front part behind, parts = front ++ part :: behind ∧ endOf start front ≤ t
      ∧ t < endOf start front + part.width := by
  induction parts generalizing start with
  | nil => exact absurd last (not_lt.mpr first)
  | cons part rest ih =>
    by_cases h : t < start + part.width
    · exact ⟨[], part, rest, rfl, first, h⟩
    · obtain ⟨front, playing, behind, rfl, begun, going⟩ := ih (not_lt.mp h) last
      exact ⟨part :: front, playing, behind, rfl, begun, going⟩

theorem LevelParts.append (level : LevelParts front) (level' : LevelParts behind) : LevelParts (front ++ behind) := by
  intro part mem
  rcases List.mem_append.mp mem with mem | mem
  · exact level part mem
  · exact level' part mem

theorem Level.concat {a b : Waveform K} (level : a.Level) (level' : b.Level) : (a.concat b).Level := by
  unfold Level
  rw [parts_concat]
  exact level.append level'

theorem level_dc {width : K} (amplitude phase : K) (nonneg : 0 ≤ width) : (dc width amplitude phase).Level := by
  intro part mem
  rw [List.mem_singleton.mp mem, width_dc]
  exact nonneg

theorem level_blank {width : K} (nonneg : 0 ≤ width) : (blank width).Level :=
  level_dc _ _ nonneg

variable [IsStrictOrderedRing K]

theorem endOf_nonneg (level : LevelParts parts) : 0 ≤ endOf 0 parts := by
  induction parts with
  | nil => exact le_refl 0
  | cons part rest ih =>
    rw [LevelParts, List.forall_mem_cons] at level
    have others := ih level.2
    rw [endOf, endOf_eq_add]
    linarith

theorem Level.width_nonneg (level : w.Level) : 0 ≤ w.width := by
  rw [width_eq_endOf_parts]
  exact endOf_nonneg level

theorem startsFrom_append (start : K) (behind : List (Waveform K)) (level : LevelParts front) :
    ∃ starts, startsFrom start (front ++ behind) = starts ++ startsFrom (endOf start front) behind
      ∧ starts.length = front.length ∧ ∀ s ∈ starts, s ≤ endOf start front := by
  induction front generalizing start with
  | nil => exact ⟨[], rfl, rfl, nofun⟩
  | cons part rest ih =>
    rw [LevelParts, List.forall_mem_cons] at level
    obtain ⟨starts, split, size, early⟩ := ih (start + part.width) level.2
    have finish : start ≤ endOf (start + part.width) rest := by
      have others := endOf_nonneg level.2
      rw [endOf_eq_add]
      linarith
    refine ⟨start :: starts, ?_, ?_, ?_⟩
    · simp only [List.cons_append, startsFrom, split, endOf]
    · simp [size]
    · exact List.forall_mem_cons.mpr ⟨finish, early⟩

theorem le_of_mem_startsFrom (level : LevelParts parts) : ∀ s ∈ startsFrom start parts, start ≤ s := by
  induction parts generalizing start with
  | nil => simp [startsFrom]
  | cons part rest ih =>
    rw [LevelParts, List.forall_mem_cons] at level
    rw [startsFrom, List.forall_mem_cons]
    refine ⟨le_refl start, fun s mem => ?_⟩
    have later := ih level.2 s mem
    linarith

theorem valueInTurn_append (level : LevelParts front) (level' : LevelParts behind) (t : K) :
    valueInTurn (front ++ behind) t
      = if t < endOf 0 front then valueInTurn front t else valueInTurn behind (t - endOf 0 front) := by
  induction front generalizing t with
  | nil =>
    -- Nothing plays at a negative time.
    by_cases early : t < 0
    · rw [List.nil_append, endOf, if_pos early, valueInTurn]
      cases behind with
      | nil => rfl
      | cons part rest =>
        have first : 0 ≤ part.width := level' part (by simp)
        rw [valueInTurn, if_pos (lt_of_lt_of_le early first)]
        exact value_of_outside (.inl early)
    · simp only [List.nil_append, endOf, if_neg early, sub_zero]
  | cons part rest ih =>
    rw [LevelParts, List.forall_mem_cons] at level
    have others := endOf_nonneg level.2
    have finish : endOf 0 (part :: rest) = part.width + endOf 0 rest := by
      rw [endOf, endOf_eq_add, zero_add]
    rw [List.cons_append, valueInTurn, valueInTurn, ih level.2, finish, ← sub_sub]
    by_cases playing : t < part.width
    · have inside : t < part.width + endOf 0 rest := by linarith
      simp only [if_pos playing, if_pos inside]
    · simp only [if_neg playing, sub_lt_iff_lt_add']

theorem valueInTurn_of_end (level : LevelParts parts) (late : endOf 0 parts ≤ t) : valueInTurn parts t = .zero := by
  have split := valueInTurn_append level (nofun : LevelParts []) t
  rw [List.append_nil, if_neg (not_lt.mpr late)] at split
  exact split

theorem valueInTurn_of_neg (level : LevelParts parts) (early : t < 0) : valueInTurn parts t = .zero := by
  have split := valueInTurn_append (nofun : LevelParts []) level t
  rw [List.nil_append, endOf, if_pos early] at split
  exact split

theorem value_sequence (level : LevelParts parts) (t : K) : (sequence parts).value t = valueInTurn parts t := by
  by_cases inside : 0 ≤ t ∧ t < endOf 0 parts
  · obtain ⟨front, part, behind, rfl, begun, going⟩ := exists_playing inside.1 inside.2
    have level_front : LevelParts front := fun p mem => level p (by simp [mem])
    have level_rest : LevelParts (part :: behind) := fun p mem => level p (List.mem_append_right _ mem)
    have level_behind : LevelParts behind := fun p mem => level_rest p (by simp [mem])
    obtain ⟨starts, split, size, early⟩ := startsFrom_append 0 (part :: behind) level_front
    -- The start times up to that of the playing part have been reached, and those behind it have not.
    have found : countFront (· ≤ t) (startsFrom 0 (front ++ part :: behind)).toArray = front.length + 1 := by
      rw [split, startsFrom, List.append_cons, countFront_append]
      · simp [size]
      · intro s mem
        rcases List.mem_append.mp mem with mem | mem
        · simpa using (early s mem).trans begun
        · simpa [List.mem_singleton.mp mem] using begun
      · intro s mem
        have later := le_of_mem_startsFrom level_behind s mem
        simpa using lt_of_lt_of_le going later
    have start : (startsFrom 0 (front ++ part :: behind)).toArray.getD front.length 0 = endOf 0 front := by
      rw [split, ← size, startsFrom]
      simp
    have inTurn : valueInTurn (front ++ part :: behind) t = part.value (t - endOf 0 front) := by
      rw [valueInTurn_append level_front level_rest, if_neg (not_lt.mpr begun), valueInTurn, if_pos]
      linarith
    have playing : plays (endOf 0.0 (front ++ part :: behind)) t = true := by
      rw [plays_iff, Scalar.zero_exact]
      exact inside
    rw [inTurn, value_sequence_of_found playing (by rw [Scalar.zero_exact]; exact found), Scalar.zero_exact, start]
    exact valueOfPart_append _
  · have outside : t < 0 ∨ endOf 0 parts ≤ t := by
      by_cases early : t < 0
      · exact .inl early
      · exact .inr (not_lt.mp fun late => inside ⟨not_lt.mp early, late⟩)
    rw [value_of_outside (by simpa using outside)]
    rcases outside with early | late
    · exact (valueInTurn_of_neg level early).symm
    · exact (valueInTurn_of_end level late).symm

theorem value_eq_valueInTurn_parts (level : w.Level) (t : K) : w.value t = valueInTurn w.parts t := by
  unfold Level at level
  cases w with
  | sequence parts => exact value_sequence level t
  | _ =>
    simp only [parts, valueInTurn]
    split
    · rfl
    · rename_i late
      exact value_of_outside (.inr (not_lt.mp late))

theorem value_concat {a b : Waveform K} (level : a.Level) (level' : b.Level) (t : K) :
    (a.concat b).value t = if t < a.width then a.value t else b.value (t - a.width) := by
  rw [value_eq_valueInTurn_parts (level.concat level'), parts_concat, valueInTurn_append level level']
  rw [← width_eq_endOf_parts, ← value_eq_valueInTurn_parts level, ← value_eq_valueInTurn_parts level']

theorem value_concat_blank {width : K} (level : w.Level) (nonneg : 0 ≤ width) (t : K) :
    (w.concat (blank width)).value t = w.value t := by
  rw [value_concat level (level_blank nonneg)]
  split
  · rfl
  · rename_i late
    rw [value_blank, value_of_outside (.inr (not_lt.mp late))]

end Waveform

end PulseSequencer
