import PulseSequencer.Proofs.Slice.Flattening

/-!
This module contains when the memory of a slice can be trusted, and that flattening then yields what it yields for any
slice of the same content, one that was never flattened before among them.
-/

namespace PulseSequencer.Slice

variable {α : Type} [Scalar α]

/--
Every channel that is not out of date has the waveform that content and sub slices give it.
-/
def SoundHere (s : Slice α) : Prop :=
  ∀ ch, ch ∉ s.updated → ∀ registry,
    assemble registry s.content ch (rowOf ch s.subs) = .ok (s.memo.flattened.get? ch)

def Sound : Slice α → Prop := Everywhere SoundHere

theorem flattened_renew (ch : ChannelId) (s : Slice α) : s.renew.memo.flattened.get? ch = none := by
  rw [memo_renew]
  rfl

theorem sound_renew (s : Slice α) : s.renew.Sound := by
  induction s using induct with
  | node content memo subs ih =>
    refine .node ?_ ?_
    · intro ch h registry
      rw [mem_updated_renew, mem_channels] at h
      rw [flattened_renew, content_renew]
      apply assemble_of_forall_none
      · exact Option.not_isSome_iff_eq_none.mp fun direct => h (.inl direct)
      · intro entry mem
        rw [subs_renew] at mem
        obtain ⟨u, renewed, rfl⟩ := List.mem_map.mp mem
        obtain ⟨t, _, rfl⟩ := List.mem_map.mp renewed
        exact flattened_renew ch t
    · intro t mem
      rw [subs_renew] at mem
      obtain ⟨u, found, rfl⟩ := List.mem_map.mp mem
      exact ih u found

section

variable {registry : Registry α} {s t : Slice α}

theorem assemble_of_flatten (sound : SoundHere s) (ok : (flatten registry s).result = .ok ()) (ch : ChannelId)
    (other : Registry α) :
    assemble other s.content ch (rowOf ch (s.subs.map fun t => (flatten registry t).state))
      = .ok ((flatten registry s).state.memo.flattened.get? ch) := by
  by_cases mem : ch ∈ s.updated
  · have rebuilt := rebuild_of_flatten_ok ok mem
    rw [rebuild_eq_assemble] at rebuilt
    exact assemble_ok_of_ok rebuilt other
  · have row : rowOf ch (s.subs.map fun t => (flatten registry t).state) = rowOf ch s.subs := by
      simp only [rowOf, List.map_map]
      apply List.map_congr_left
      intro t found
      simp only [Function.comp_apply, duration_flatten, flattened_flatten registry (current_of_mem mem found).1]
    rw [row, flattened_flatten registry mem]
    exact sound ch mem other

theorem map_eq_map_of_map_eq {β γ δ : Type} {f : β → γ} {g h : β → δ} {xs ys : List β} (same : xs.map f = ys.map f)
    (step : ∀ x ∈ xs, ∀ y ∈ ys, f x = f y → g x = h y) : xs.map g = ys.map h := by
  induction xs generalizing ys with
  | nil =>
    cases ys with
    | nil => rfl
    | cons y ys => simp at same
  | cons x xs ih =>
    cases ys with
    | nil => simp at same
    | cons y ys =>
      rw [List.map_cons, List.map_cons, List.cons.injEq] at same
      rw [List.map_cons, List.map_cons, step x (by simp) y (by simp) same.1]
      rw [ih same.2 fun x hx y hy => step x (by simp [hx]) y (by simp [hy])]

theorem flatten_agree (other : Registry α) (hs : s.Sound) (ht : t.Sound) (same : s.renew = t.renew)
    (ok : (flatten registry s).result = .ok ()) :
    (flatten other t).result = .ok ()
      ∧ ∀ ch, (flatten registry s).state.memo.flattened.get? ch = (flatten other t).state.memo.flattened.get? ch := by
  -- The rows of both slices are the same by induction, and what is played is a function of the content and the row.
  induction s using induct generalizing t with
  | node content memo subs ih =>
    have below := subs_eq_of_renew_eq same
    have parts : ∀ sub ∈ subs, ∀ sub' ∈ t.subs, sub.renew = sub'.renew →
        (flatten other sub').result = .ok ()
          ∧ ∀ ch, (flatten registry sub).state.memo.flattened.get? ch
            = (flatten other sub').state.memo.flattened.get? ch := by
      intro sub mem sub' mem' same
      exact ih sub mem (hs.of_mem mem) (ht.of_mem mem') same (flatten_subs_of_ok ok mem)
    have rows (ch : ChannelId) :
        rowOf ch (subs.map fun sub => (flatten registry sub).state)
          = rowOf ch (t.subs.map fun sub => (flatten other sub).state) := by
      simp only [rowOf, List.map_map]
      apply map_eq_map_of_map_eq below
      intro sub mem sub' mem' same
      simp only [Function.comp_apply, duration_flatten, (parts sub mem sub' mem' same).2 ch,
        duration_eq_of_renew_eq same]
    have played (ch : ChannelId) (registry' : Registry α) :
        assemble registry' t.content ch (rowOf ch (t.subs.map fun sub => (flatten other sub).state))
          = .ok ((flatten registry ⟨content, memo, subs⟩).state.memo.flattened.get? ch) := by
      rw [← rows, ← content_eq_of_renew_eq same]
      exact assemble_of_flatten hs.here ok ch registry'
    have ok' : (flatten other t).result = .ok () := by
      apply flatten_ok_of_rebuild
      · intro sub' mem'
        have : sub'.renew ∈ subs.map renew := below ▸ List.mem_map_of_mem mem'
        obtain ⟨sub, mem, same⟩ := List.mem_map.mp this
        exact (parts sub mem sub' mem' same).1
      · intro ch _
        rw [rebuild_eq_assemble]
        exact ⟨_, played ch other⟩
    refine ⟨ok', fun ch => ?_⟩
    have played' := assemble_of_flatten ht.here ok' ch other
    rw [played ch other] at played'
    exact Except.ok.inj played'

end

end PulseSequencer.Slice
