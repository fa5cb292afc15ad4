import PulseSequencer.Proofs.Waveform.Tree

/-!
This module contains the nodes of a waveform in preorder. Which node is an operand of which one can be told from how deep they
are alone.
-/

namespace PulseSequencer.Waveform

variable {α : Type} [Scalar α]

def lower (i : Nat) (nodes : List (List Nat × Waveform α)) : List (List Nat × Waveform α) :=
  nodes.map fun (address, v) => (i :: address, v)

mutual

/--
The nodes of a waveform, each in front of those below it. The address of a node tells on each level how many operands stand
before the one that is meant or that has it below it.
-/
def nodes (w : Waveform α) : List (List Nat × Waveform α) :=
  match w with
  | .dc .. | .sin _ | .cos _ | .complexExp _ | .gaussian .. => [([], w)]
  | .sum lhs rhs | .carry lhs rhs => ([], w) :: (lower 0 lhs.nodes ++ lower 1 rhs.nodes)
  | .sequence parts => ([], w) :: nodesFrom 0 parts
  | .iq inner _ | .real inner | .imag inner => ([], w) :: lower 0 inner.nodes

def nodesFrom (i : Nat) : List (Waveform α) → List (List Nat × Waveform α)
  | [] => []
  | v :: rest => lower i v.nodes ++ nodesFrom (i + 1) rest

end

mutual

def nodeCount : Waveform α → Nat
  | .dc .. | .sin _ | .cos _ | .complexExp _ | .gaussian .. => 1
  | .sum lhs rhs | .carry lhs rhs => 1 + (lhs.nodeCount + rhs.nodeCount)
  | .sequence parts => 1 + nodeCountOfParts parts
  | .iq inner _ | .real inner | .imag inner => 1 + inner.nodeCount

def nodeCountOfParts : List (Waveform α) → Nat
  | [] => 0
  | v :: rest => v.nodeCount + nodeCountOfParts rest

end

def nodeAt? : List Nat → Waveform α → Option (Waveform α)
  | [], w => some w
  | i :: address, w => w.operands[i]?.bind (nodeAt? address)

def Operand (a b : List Nat × Waveform α) : Prop :=
  ∃ i, b.1 = a.1 ++ [i] ∧ a.2.operands[i]? = some b.2

/--
Whether a line is the last one above another line that is indented less.
-/
structure Heads (indentations : List Nat) (j k : Nat) : Prop where
  above : j < k
  less : ∃ m n, indentations[j]? = some m ∧ indentations[k]? = some n ∧ m < n
  last : ∀ l m n, j < l → l < k → indentations[l]? = some m → indentations[k]? = some n → n ≤ m

section Nodes

variable {w v : Waveform α} {vs : List (Waveform α)} {address : List Nat} {i : Nat}

theorem nodes_eq (w : Waveform α) : w.nodes = ([], w) :: nodesFrom 0 w.operands := by
  cases w with
  | _ => simp [nodes, nodesFrom, operands]

theorem nodeCount_eq (w : Waveform α) : w.nodeCount = 1 + nodeCountOfParts w.operands := by
  cases w with
  | _ => simp [nodeCount, nodeCountOfParts, operands]

theorem length_nodesFrom (each : ∀ v ∈ vs, v.nodes.length = v.nodeCount) (i : Nat) :
    (nodesFrom i vs).length = nodeCountOfParts vs := by
  induction vs generalizing i with
  | nil => rfl
  | cons v rest ih =>
    rw [List.forall_mem_cons] at each
    rw [nodesFrom, nodeCountOfParts, List.length_append, lower, List.length_map, each.1, ih each.2]

theorem length_nodes (w : Waveform α) : w.nodes.length = w.nodeCount := by
  induction w using induct with
  | node w ih => rw [nodes_eq, nodeCount_eq, List.length_cons, length_nodesFrom ih, Nat.add_comm]

theorem mem_nodesFrom : (address, v) ∈ nodesFrom i vs ↔
    ∃ j rest u, address = (i + j) :: rest ∧ vs[j]? = some u ∧ (rest, v) ∈ u.nodes := by
  induction vs generalizing i with
  | nil => simp [nodesFrom]
  | cons t ts ih =>
    rw [nodesFrom, List.mem_append, ih, lower, List.mem_map]
    constructor
    · rintro (⟨⟨rest, u⟩, mem, same⟩ | ⟨j, rest, u, rfl, stands, mem⟩)
      · cases same
        exact ⟨0, rest, t, rfl, rfl, mem⟩
      · exact ⟨j + 1, rest, u, by rw [Nat.add_assoc, Nat.add_comm 1], stands, mem⟩
    · rintro ⟨j, rest, u, rfl, stands, mem⟩
      cases j with
      | zero =>
        cases stands
        exact .inl ⟨(rest, v), mem, rfl⟩
      | succ j => exact .inr ⟨j, rest, u, by rw [Nat.add_assoc, Nat.add_comm 1], stands, mem⟩

theorem mem_nodes_iff : (address, v) ∈ w.nodes ↔ nodeAt? address w = some v := by
  induction w using induct generalizing address with
  | node w ih =>
    rw [nodes_eq, List.mem_cons, mem_nodesFrom]
    cases address with
    | nil => simp [nodeAt?, eq_comm]
    | cons i rest =>
      simp only [nodeAt?, Option.bind_eq_some_iff]
      constructor
      · rintro (same | ⟨j, rest, u, same, stands, mem⟩)
        · cases same
        · cases same
          rw [Nat.zero_add]
          exact ⟨u, stands, (ih u (List.mem_of_getElem? stands)).mp mem⟩
      · rintro ⟨u, stands, found⟩
        exact .inr ⟨i, rest, u, by rw [Nat.zero_add], stands, (ih u (List.mem_of_getElem? stands)).mpr found⟩

theorem nodeAt?_append_singleton (address : List Nat) (i : Nat) (w : Waveform α) :
    nodeAt? (address ++ [i]) w = (nodeAt? address w).bind (·.operands[i]?) := by
  induction address generalizing w with
  | nil => simp [nodeAt?]
  | cons j rest ih =>
    rw [List.cons_append, nodeAt?, nodeAt?, Option.bind_assoc]
    congr 1
    funext v
    exact ih v

theorem ascending_nodesFrom (each : ∀ v ∈ vs, (v.nodes.map Prod.fst).Pairwise (· < ·)) (i : Nat) :
    ((nodesFrom i vs).map Prod.fst).Pairwise (· < ·) := by
  induction vs generalizing i with
  | nil => exact .nil
  | cons v rest ih =>
    rw [List.forall_mem_cons] at each
    rw [nodesFrom, List.map_append, List.pairwise_append]
    refine ⟨?_, ih each.2 (i + 1), ?_⟩
    · have same : (lower i v.nodes).map Prod.fst = (v.nodes.map Prod.fst).map (i :: ·) := by
        rw [lower, List.map_map, List.map_map]
        rfl
      rw [same, List.pairwise_map]
      exact each.1.imp fun less => List.cons_lt_cons_iff.mpr (.inr ⟨rfl, less⟩)
    · intro a first b later
      obtain ⟨⟨_, u⟩, mem, rfl⟩ := List.mem_map.mp first
      obtain ⟨⟨_, u'⟩, mem', rfl⟩ := List.mem_map.mp later
      obtain ⟨⟨rest', _⟩, _, same⟩ := List.mem_map.mp mem
      obtain ⟨j, rest'', _, same', _⟩ := mem_nodesFrom.mp mem'
      cases same
      dsimp only
      rw [same', List.cons_lt_cons_iff]
      exact .inl (by omega)

theorem ascending_nodes (w : Waveform α) : (w.nodes.map Prod.fst).Pairwise (· < ·) := by
  induction w using induct with
  | node w ih =>
    rw [nodes_eq, List.map_cons, List.pairwise_cons]
    refine ⟨?_, ascending_nodesFrom ih 0⟩
    intro address further
    obtain ⟨⟨_, v⟩, mem, rfl⟩ := List.mem_map.mp further
    obtain ⟨j, rest, _, same, _⟩ := mem_nodesFrom.mp mem
    dsimp only
    rw [same]
    exact List.nil_lt_cons _ _

end Nodes

section Indentations

variable {w : Waveform α} {a b : List Nat × Waveform α} {indentations : List Nat} {i j k : Nat}

theorem Heads.unique (heads : Heads indentations i k) (heads' : Heads indentations j k) : i = j := by
  obtain ⟨m, n, here, there, less⟩ := heads.less
  obtain ⟨m', n', here', there', less'⟩ := heads'.less
  cases there.symm.trans there'
  rcases Nat.lt_trichotomy i j with before | same | behind
  · have := heads.last j m' n before heads'.above here' there
    omega
  · exact same
  · have := heads'.last i m n behind heads.above here there
    omega

theorem lt_iff_address_lt (first : w.nodes[j]? = some a) (second : w.nodes[k]? = some b) : j < k ↔ a.1 < b.1 := by
  have ordered {j k : Nat} {a b : List Nat × Waveform α} (first : w.nodes[j]? = some a) (second : w.nodes[k]? = some b)
      (less : j < k) : a.1 < b.1 := by
    obtain ⟨bound, rfl⟩ := List.getElem?_eq_some_iff.mp first
    obtain ⟨bound', rfl⟩ := List.getElem?_eq_some_iff.mp second
    have ascending := List.pairwise_map.mp (ascending_nodes w)
    exact List.pairwise_iff_getElem.mp ascending j k bound bound' less
  constructor
  · exact ordered first second
  · intro less
    rcases Nat.lt_trichotomy j k with before | rfl | behind
    · exact before
    · cases first.symm.trans second
      exact absurd less (List.lt_irrefl _)
    · exact absurd (ordered second first behind) (List.lt_asymm less)

theorem lt_append_singleton (address : List Nat) (i : Nat) : address < address ++ [i] := by
  induction address with
  | nil => exact List.nil_lt_cons _ _
  | cons j rest ih => exact List.cons_lt_cons_iff.mpr (.inr ⟨rfl, ih⟩)

theorem length_lt_of_between {p q : List Nat} (behind : p < q) (before : q < p ++ [i]) : p.length < q.length := by
  induction p generalizing q with
  | nil =>
    cases q with
    | nil => exact absurd behind (List.lt_irrefl _)
    | cons j rest => exact Nat.succ_pos _
  | cons j p ih =>
    cases q with
    | nil => exact absurd behind (List.not_lt_nil _)
    | cons l q =>
      rw [List.cons_append] at before
      rcases List.cons_lt_cons_iff.mp behind with less | ⟨rfl, less⟩
      · rcases List.cons_lt_cons_iff.mp before with less' | ⟨rfl, _⟩ <;> omega
      · rcases List.cons_lt_cons_iff.mp before with less' | ⟨_, less'⟩
        · omega
        · exact Nat.succ_lt_succ (ih less less')

theorem heads_of_operand (first : w.nodes[j]? = some a) (second : w.nodes[k]? = some b) (operand : Operand a b) :
    Heads (w.nodes.map fun n => 2 * n.1.length) j k := by
  obtain ⟨i, same, _⟩ := operand
  have longer : b.1.length = a.1.length + 1 := by rw [same, List.length_append, List.length_singleton]
  have less : a.1 < b.1 := by
    rw [same]
    exact lt_append_singleton a.1 i
  refine ⟨(lt_iff_address_lt first second).mpr less, ⟨2 * a.1.length, 2 * b.1.length, ?_, ?_, by omega⟩, ?_⟩
  · rw [List.getElem?_map, first]
    rfl
  · rw [List.getElem?_map, second]
    rfl
  · intro l m n behind before here there
    rw [List.getElem?_map, Option.map_eq_some_iff] at here there
    obtain ⟨c, between, rfl⟩ := here
    obtain ⟨b', second', rfl⟩ := there
    cases second.symm.trans second'
    have lower := length_lt_of_between ((lt_iff_address_lt first between).mp behind)
      (same ▸ (lt_iff_address_lt between second).mp before)
    omega

theorem heads_iff : Heads (w.nodes.map fun n => 2 * n.1.length) j k
    ↔ ∃ a b, w.nodes[j]? = some a ∧ w.nodes[k]? = some b ∧ Operand a b := by
  constructor
  · intro heads
    obtain ⟨m, n, here, there, less⟩ := heads.less
    rw [List.getElem?_map, Option.map_eq_some_iff] at here there
    obtain ⟨a, first, rfl⟩ := here
    obtain ⟨⟨address, v⟩, second, rfl⟩ := there
    have deeper : address ≠ [] := by
      rintro rfl
      simp at less
    obtain ⟨parent, i, rfl⟩ := (List.eq_nil_or_concat address).resolve_left deeper
    rw [List.concat_eq_append] at second
    have found := mem_nodes_iff.mp (List.mem_of_getElem? second)
    rw [nodeAt?_append_singleton, Option.bind_eq_some_iff] at found
    obtain ⟨u, above, operand⟩ := found
    obtain ⟨j', first'⟩ := List.getElem?_of_mem (mem_nodes_iff.mpr above)
    have operand : Operand (parent, u) (parent ++ [i], v) := ⟨i, rfl, operand⟩
    -- The line of the parent heads this one as well, and only one line can.
    rw [heads.unique (heads_of_operand first' second operand)]
    exact ⟨_, _, first', second, operand⟩
  · rintro ⟨a, b, first, second, operand⟩
    exact heads_of_operand first second operand

end Indentations

end PulseSequencer.Waveform
