import PulseSequencer.Proofs.Slice.Names

/-!
This module contains how two states of one tree of slices are compared: the same names lead to a slice in both of them, and
the two slices are related. Work at the end of one path shows on that path and nowhere else.
-/

namespace PulseSequencer.Slice

variable {α : Type} [Scalar α]

/--
Whether any names lead from two slices on to slices that are related, or from neither of them to any.
-/
def Alongside (R : Slice α → Slice α → Prop) (s s' : Slice α) : Prop :=
  ∀ names, (∃ t t', follow names s = .ok t ∧ follow names s' = .ok t' ∧ R t t')
    ∨ ∃ cause, follow names s = .error cause ∧ follow names s' = .error cause

section Paths

variable {s t u sub : Slice α} {names : List String} {name : String} {P : Slice α → Prop}

theorem follow_cons_of_find? (found : find? s.subs name = some sub) : follow (name :: names) s = follow names sub := by
  simp only [follow, found]

theorem follow_cons_of_mem (distinct : s.Distinct) (mem : t ∈ s.subs) : follow (t.name :: names) s = follow names t :=
  follow_cons_of_find? (find?_of_mem distinct.here mem)

theorem follow_append {above below : List String} (found : follow above s = .ok t) :
    follow (above ++ below) s = follow below t := by
  induction above generalizing s with
  | nil =>
    cases found
    rfl
  | cons name rest ih =>
    simp only [List.cons_append, follow] at found ⊢
    split at found
    · cases found
    · exact ih found

theorem exists_of_follow_cons (found : follow (name :: names) s = .ok t) :
    ∃ sub ∈ s.subs, sub.name = name ∧ follow names sub = .ok t := by
  simp only [follow] at found
  split at found
  · cases found
  · rename_i sub here
    exact ⟨sub, mem_of_find? here, by simpa using List.find?_some here, found⟩

theorem everywhere_iff_follow (distinct : s.Distinct) :
    Everywhere P s ↔ ∀ names t, follow names s = .ok t → P t := by
  constructor
  · exact fun everywhere names t found => (everywhere.follow found).here
  · intro each
    induction s using induct with
    | node content memo subs ih =>
      refine .node (each [] _ rfl) fun t mem => ih t mem (distinct.of_mem mem) fun names u found => ?_
      exact each (t.name :: names) u ((follow_cons_of_mem distinct mem).trans found)

theorem find?_replace (sub : Slice α) (subs : List (Slice α)) (name : String) :
    find? (replace sub subs) name = (find? subs name).map fun s => if s.name == sub.name then sub else s := by
  have named (s : Slice α) : (if s.name == sub.name then sub else s).name = s.name := by
    by_cases same : s.name = sub.name
    · simp [same]
    · simp [same]
  unfold find? replace
  rw [List.find?_map]
  simp only [Function.comp_def, named]

theorem find?_replace_self {subs : List (Slice α)} {sub' : Slice α} (found : find? subs name = some sub)
    (same : sub'.name = sub.name) : find? (replace sub' subs) name = some sub' := by
  rw [find?_replace, found, Option.map_some, if_pos (beq_iff_eq.mpr same.symm)]

theorem find?_of_forall₂ {R : Slice α → Slice α → Prop} (named : ∀ t t', R t t' → t'.name = t.name)
    {subs subs' : List (Slice α)} (related : List.Forall₂ R subs subs') (name : String) :
    (find? subs name = none ∧ find? subs' name = none)
      ∨ ∃ t t', find? subs name = some t ∧ find? subs' name = some t' ∧ R t t' := by
  induction related with
  | nil => exact .inl ⟨rfl, rfl⟩
  | @cons t t' rest rest' first _ ih =>
    unfold find? at ih ⊢
    rw [List.find?_cons, List.find?_cons, named t t' first]
    cases t.name == name with
    | true => exact .inr ⟨t, t', rfl, rfl, first⟩
    | false => exact ih

theorem follow_workAt {ρ : Type} {work : Slice α → Outcome α (Slice α) ρ} {above below : List String}
    (keeps : ∀ t, (work t).state.name = t.name) (found : follow above s = .ok u) :
    follow above (workAt work (above ++ below) s).state = .ok (workAt work below u).state := by
  induction above generalizing s with
  | nil =>
    cases found
    rfl
  | cons name rest ih =>
    simp only [List.cons_append, workAt, follow] at found ⊢
    split at found
    · cases found
    · rename_i sub here
      have named : (workAt work (rest ++ below) sub).state.name = sub.name :=
        workAt_induct (P := fun t t' => t'.name = t.name) (fun _ => rfl) (fun _ _ _ _ _ _ => rfl) _ sub fun t _ => keeps t
      simp only [Outcome.mapState]
      rw [find?_replace_self here named]
      exact ih found

theorem follow_workAt_end {ρ : Type} {work : Slice α → Outcome α (Slice α) ρ}
    (keeps : ∀ t, (work t).state.name = t.name) (found : follow names s = .ok t) :
    follow names (workAt work names s).state = .ok (work t).state := by
  have reached : follow names (workAt work (names ++ []) s).state = .ok (workAt work [] t).state :=
    follow_workAt keeps found
  rw [List.append_nil] at reached
  exact reached

theorem result_workAt {ρ : Type} {work : Slice α → Outcome α (Slice α) ρ} (found : follow names s = .ok t) :
    (workAt work names s).result = (work t).result := by
  induction names generalizing s with
  | nil =>
    cases found
    rfl
  | cons name rest ih =>
    simp only [follow] at found
    split at found
    · cases found
    · rename_i sub here
      simp only [workAt, here, Outcome.mapState]
      exact ih found

end Paths

namespace Alongside

variable {R S T : Slice α → Slice α → Prop} {s s' s'' t t' : Slice α} {names : List String}

theorem here (alongside : Alongside R s s') : R s s' := by
  rcases alongside [] with ⟨t, t', before, after, related⟩ | ⟨cause, missing, _⟩
  · cases before
    cases after
    exact related
  · cases missing

theorem exists_before (alongside : Alongside R s s') (found : follow names s' = .ok t') :
    ∃ t, follow names s = .ok t ∧ R t t' := by
  rcases alongside names with ⟨t, u, before, after, related⟩ | ⟨cause, _, missing⟩
  · obtain rfl := Except.ok.inj (found.symm.trans after)
    exact ⟨t, before, related⟩
  · rw [found] at missing
    cases missing

theorem exists_after (alongside : Alongside R s s') (found : follow names s = .ok t) :
    ∃ t', follow names s' = .ok t' ∧ R t t' := by
  rcases alongside names with ⟨u, t', before, after, related⟩ | ⟨cause, missing, _⟩
  · obtain rfl := Except.ok.inj (found.symm.trans before)
    exact ⟨t', after, related⟩
  · rw [found] at missing
    cases missing

theorem imp (alongside : Alongside R s s') (step : ∀ t t', R t t' → S t t') : Alongside S s s' := by
  intro names
  rcases alongside names with ⟨t, t', before, after, related⟩ | missing
  · exact .inl ⟨t, t', before, after, step t t' related⟩
  · exact .inr missing

theorem refl (same : ∀ t, R t t) (s : Slice α) : Alongside R s s := by
  intro names
  cases found : follow names s with
  | error cause => exact .inr ⟨cause, rfl, rfl⟩
  | ok t => exact .inl ⟨t, t, rfl, rfl, same t⟩

theorem trans (compose : ∀ t u v, R t u → S u v → T t v) (first : Alongside R s s') (second : Alongside S s' s'') :
    Alongside T s s'' := by
  intro names
  rcases first names with ⟨t, u, before, between, related⟩ | ⟨cause, missing, between⟩
  · obtain ⟨v, after, related'⟩ := second.exists_after between
    exact .inl ⟨t, v, before, after, compose t u v related related'⟩
  · rcases second names with ⟨u, _, found, _, _⟩ | ⟨cause', between', missing'⟩
    · rw [between] at found
      cases found
    · obtain rfl := Except.error.inj (between.symm.trans between')
      exact .inr ⟨cause, missing, missing'⟩

theorem follow (alongside : Alongside R s s') (before : Slice.follow names s = .ok t)
    (after : Slice.follow names s' = .ok t') : Alongside R t t' := by
  intro below
  rw [← follow_append before, ← follow_append after]
  exact alongside (names ++ below)

theorem acknowledge (alongside : Alongside R s s') (step : ∀ t t', R t t' → R t t'.acknowledge) :
    Alongside R s s'.acknowledge := by
  intro names
  cases names with
  | nil => exact .inl ⟨s, s'.acknowledge, rfl, rfl, step s s' alongside.here⟩
  | cons name rest => exact alongside (name :: rest)

theorem of_forall₂ (here : R s s') (name : s'.name = s.name)
    (below : List.Forall₂ (fun t t' => t'.name = t.name ∧ Alongside R t t') s.subs s'.subs) : Alongside R s s' := by
  intro names
  cases names with
  | nil => exact .inl ⟨s, s', rfl, rfl, here⟩
  | cons next rest =>
    simp only [Slice.follow, name]
    rcases find?_of_forall₂ (fun t t' related => related.1) below next with ⟨none, none'⟩ | ⟨t, t', found, found', related⟩
    · rw [none, none']
      exact .inr ⟨_, rfl, rfl⟩
    · rw [found, found']
      exact related.2 rest

theorem of_subs_eq (same : ∀ t, R t t) (here : R s s') (name : s'.name = s.name) (subs : s'.subs = s.subs) :
    Alongside R s s' := by
  apply of_forall₂ here name
  rw [subs]
  exact List.forall₂_same.mpr fun t _ => ⟨rfl, refl same t⟩

theorem replace {sub sub' : Slice α} {name : String} (same : ∀ t, R t t)
    (above : ∀ t subs, R t { t with subs := subs }) (named : ∀ t t', R t t' → t'.name = t.name)
    (found : find? s.subs name = some sub) (below : Alongside R sub sub') :
    Alongside R s { s with subs := Slice.replace sub' s.subs } := by
  intro names
  cases names with
  | nil => exact .inl ⟨s, _, rfl, rfl, above s _⟩
  | cons next rest =>
    have at_name : sub.name = name := by simpa using List.find?_some found
    by_cases here : next = name
    · subst here
      rw [follow_cons_of_find? found, follow_cons_of_find? (find?_replace_self found (named sub sub' below.here))]
      exact below rest
    · simp only [Slice.follow, find?_replace]
      cases there : find? s.subs next with
      | none => exact .inr ⟨_, rfl, rfl⟩
      | some other =>
        have other_name : other.name = next := by simpa using List.find?_some there
        have apart : (other.name == sub'.name) = false := by
          rw [beq_eq_false_iff_ne, other_name, named sub sub' below.here, at_name]
          exact here
        simp only [Option.map_some, apart]
        exact refl same other rest

theorem workAt {ρ : Type} {work : Slice α → Outcome α (Slice α) ρ} (same : ∀ t, R t t)
    (above : ∀ t subs, R t { t with subs := subs }) (named : ∀ t t', R t t' → t'.name = t.name) (path : List String)
    (s : Slice α) (target : ∀ t, Alongside R t (work t).state) : Alongside R s (Slice.workAt work path s).state := by
  refine workAt_induct (P := Alongside R) (refl same) ?_ path s fun t _ => target t
  intro t sub sub' name found below
  exact below.replace same above named found

end Alongside

theorem alongside_of_renew_eq {s s' : Slice α} (same : s'.renew = s.renew) :
    Alongside (fun t t' => t'.renew = t.renew) s s' := by
  intro names
  induction names generalizing s s' with
  | nil => exact .inl ⟨s, s', rfl, rfl, same⟩
  | cons name rest ih =>
    have subs : (find? s'.subs name).map renew = (find? s.subs name).map renew := by
      rw [← find?_map_renew, ← find?_map_renew, subs_eq_of_renew_eq same]
    simp only [follow, name_eq_of_renew_eq same]
    cases before : find? s.subs name with
    | none =>
      rw [before, Option.map_none, Option.map_eq_none_iff] at subs
      rw [subs]
      exact .inr ⟨_, rfl, rfl⟩
    | some sub =>
      rw [before, Option.map_some, Option.map_eq_some_iff] at subs
      obtain ⟨sub', after, same⟩ := subs
      rw [after]
      exact ih same

end PulseSequencer.Slice
