import PulseSequencer.Proofs.Decimal.Notation
import PulseSequencer.Proofs.Waveform.Preorder
import PulseSequencer.Waveform.Text

/-!
This module contains that the text of a waveform is an outline of its tree: a line for each node, in preorder, and indented
so that the last line above which is indented less is that of the node that a node is an operand of. To print the operands
one by one and to indent what was printed comes to the same.
-/

namespace PulseSequencer.Waveform

variable {α : Type} [Scalar α] [NumberText α]

open NumberText Text

mutual

def printed (w : Waveform α) : String :=
  match w with
  | .dc .. | .sin _ | .cos _ | .complexExp _ | .gaussian .. => w.header
  | .sum lhs rhs | .carry lhs rhs => w.header ++ "\n" ++ indented lhs.printed ++ "\n" ++ indented rhs.printed
  | .sequence parts => w.header ++ printedParts parts
  | .iq carried _ => w.header ++ "\n" ++ indented carried.printed
  | .real inner | .imag inner => w.header ++ "\n" ++ indented inner.printed

def printedParts : List (Waveform α) → String
  | [] => ""
  | part :: rest => "\n" ++ indented part.printed ++ printedParts rest

end

def line (node : List Nat × Waveform α) : String :=
  spaces (2 * node.1.length) ++ node.2.header

/--
A waveform whose text is an outline of its tree.
-/
structure Outlined (w : Waveform α) : Prop where
  printed : w.printed = w.text
  lines : pieces w.text = w.nodes.map line
  nodes : ∀ address v, (address, v) ∈ w.nodes ↔ nodeAt? address w = some v
  preorder : (w.nodes.map Prod.fst).Pairwise (· < ·)
  count : (pieces w.text).length = w.nodeCount
  ended : ∀ front, w.text ≠ front ++ "\n"
  indented : (pieces w.text).map indentation = w.nodes.map fun node => 2 * node.1.length
  heads : ∀ j k, Heads ((pieces w.text).map indentation) j k
    ↔ ∃ a b, w.nodes[j]? = some a ∧ w.nodes[k]? = some b ∧ Operand a b

section Lines

variable {w : Waveform α}

theorem lines_eq (w : Waveform α) : w.lines = w.header :: w.operands.flatMap fun v => indent v.lines := by
  have parts (vs : List (Waveform α)) : linesOfParts vs = vs.flatMap fun v => indent v.lines := by
    induction vs with
    | nil => rfl
    | cons v rest ih => rw [linesOfParts, ih, List.flatMap_cons]
  cases w with
  | sequence vs => rw [Waveform.lines, parts, operands]
  | _ => simp [Waveform.lines, operands]

theorem printed_eq (w : Waveform α) :
    w.printed = w.header ++ String.join (w.operands.map fun v => "\n" ++ indented v.printed) := by
  have parts (vs : List (Waveform α)) :
      printedParts vs = String.join (vs.map fun v => "\n" ++ indented v.printed) := by
    induction vs with
    | nil => rfl
    | cons v rest ih => rw [printedParts, ih, List.map_cons, String.join_cons]
  cases w with
  | sequence vs => rw [Waveform.printed, parts, operands]
  | _ => simp [Waveform.printed, operands, String.append_assoc]

theorem lines_ne_nil (w : Waveform α) : w.lines ≠ [] := by
  rw [lines_eq]
  exact List.cons_ne_nil _ _

theorem line_cons (i : Nat) (node : List Nat × Waveform α) : line (i :: node.1, node.2) = "  " ++ line node := by
  unfold line
  rw [List.length_cons, Nat.mul_add, spaces_add_two, String.append_assoc]

theorem map_line_nodesFrom (i : Nat) (vs : List (Waveform α)) :
    (nodesFrom i vs).map line = vs.flatMap fun v => indent (v.nodes.map line) := by
  induction vs generalizing i with
  | nil => rfl
  | cons v rest ih =>
    rw [nodesFrom, List.map_append, ih, List.flatMap_cons, lower, List.map_map, indent, List.map_map]
    congr 1
    exact List.map_congr_left fun node _ => line_cons i node

theorem lines_eq_map_nodes (w : Waveform α) : w.lines = w.nodes.map line := by
  induction w using induct with
  | node w ih =>
    have first : line ([], w) = w.header := String.empty_append
    rw [lines_eq, nodes_eq, List.map_cons, map_line_nodesFrom, first]
    congr 1
    apply List.flatMap_congr
    intro v mem
    rw [ih v mem]

end Lines

section Headers

theorem begins_header (w : Waveform α) : Begins '<' w.header := by
  have oscillation (kind : String) (shape : Oscillation α) : Begins '<' (oscillationHeader kind shape) := by
    have bracket : Begins '<' "<" := rfl
    simp only [oscillationHeader, String.append_assoc, bracket.append]
  cases w with
  | dc width amplitude phase =>
    have blank : Begins '<' "<Blank, " := rfl
    have dc : Begins '<' "<DC, amplitude: " := rfl
    unfold header
    dsimp only
    split <;> simp only [String.append_assoc, blank.append, dc.append]
  | sin shape => exact oscillation "Sin" shape
  | cos shape => exact oscillation "Cos" shape
  | complexExp shape => exact oscillation "ComplexExp" shape
  | gaussian width amplitude =>
    have gaussian : Begins '<' "<Gaussian, amplitude: " := rfl
    unfold header
    simp only [String.append_assoc, gaussian.append]
  | sum lhs rhs => exact Begins.append (s := "<Sum, ") rfl _
  | carry lhs rhs => exact Begins.append (s := "<Carry, ") rfl _
  | sequence parts =>
    have sequence : Begins '<' "<Sequence, " := rfl
    unfold header
    simp only [String.append_assoc, sequence.append]
  | iq carried arms =>
    have iq : Begins '<' "<CalibratedIQ, carrier: " := rfl
    unfold header
    simp only [String.append_assoc, iq.append]
  | real inner => exact Begins.append (s := "<Real, ") rfl _
  | imag inner => exact Begins.append (s := "<Imag, ") rfl _

theorem indentation_line (node : List Nat × Waveform α) : indentation (line node) = 2 * node.1.length :=
  indentation_spaces_append (begins_header node.2) (by decide)

variable [UnbrokenNumbers α]

theorem oneLine_ending : OneLine " s>" :=
  ⟨by decide, '>', by decide, by decide⟩

theorem oneLine_widthText (w : Waveform α) : OneLine w.widthText :=
  .append (unbroken_append.mpr ⟨by decide, UnbrokenNumbers.scientific w.width⟩) oneLine_ending

omit [Scalar α] in
theorem oneLine_oscillationHeader {kind : String} (plain : Unbroken kind) (shape : Oscillation α) :
    OneLine (oscillationHeader kind shape) := by
  refine .append ?_ oneLine_ending
  simp only [unbroken_append, plain, UnbrokenNumbers.plain, UnbrokenNumbers.scientific]
  decide

theorem oneLine_header (w : Waveform α) : OneLine w.header := by
  -- Each header ends with the unit of the width and a bracket.
  cases w with
  | dc width amplitude phase =>
    unfold header
    dsimp only
    split
    · exact .append (by decide) (oneLine_widthText _)
    · refine .append ?_ (oneLine_widthText _)
      simp only [unbroken_append, UnbrokenNumbers.plain]
      decide
  | sin shape => exact oneLine_oscillationHeader (by decide) shape
  | cos shape => exact oneLine_oscillationHeader (by decide) shape
  | complexExp shape => exact oneLine_oscillationHeader (by decide) shape
  | gaussian width amplitude =>
    refine .append ?_ (oneLine_widthText _)
    simp only [unbroken_append, UnbrokenNumbers.plain]
    decide
  | sum lhs rhs => exact .append (by decide) (oneLine_widthText _)
  | carry lhs rhs => exact .append (by decide) (oneLine_widthText _)
  | sequence parts =>
    refine .append ?_ (oneLine_widthText _)
    simp only [unbroken_append, Decimal.unbroken_nat]
    decide
  | iq carried arms =>
    refine .append ?_ (oneLine_widthText _)
    simp only [unbroken_append, UnbrokenNumbers.scientific]
    decide
  | real inner => exact .append (by decide) (oneLine_widthText _)
  | imag inner => exact .append (by decide) (oneLine_widthText _)

theorem oneLine_line (node : List Nat × Waveform α) : OneLine (line node) :=
  .append (unbroken_spaces _) (oneLine_header node.2)

theorem oneLine_of_mem_lines {w : Waveform α} {l : String} (mem : l ∈ w.lines) : OneLine l := by
  rw [lines_eq_map_nodes] at mem
  obtain ⟨node, _, rfl⟩ := List.mem_map.mp mem
  exact oneLine_line node

theorem pieces_text (w : Waveform α) : pieces w.text = w.nodes.map line := by
  rw [text, pieces_intercalate w.lines_ne_nil fun l mem => (oneLine_of_mem_lines mem).unbroken, lines_eq_map_nodes]

theorem lines_text (w : Waveform α) : Text.lines w.text = w.lines :=
  lines_intercalate w.lines_ne_nil fun _ mem => oneLine_of_mem_lines mem

theorem printed_eq_text (w : Waveform α) : w.printed = w.text := by
  induction w using induct with
  | node w ih =>
    have operand (v : Waveform α) (mem : v ∈ w.operands) :
        "\n" ++ indented v.printed = String.join ((indent v.lines).map ("\n" ++ ·)) := by
      have nonempty : indent v.lines ≠ [] := by simpa [indent] using v.lines_ne_nil
      rw [ih v mem, indented, lines_text, ← break_intercalate nonempty]
      rfl
    rw [printed_eq, List.map_congr_left operand, text, lines_eq, intercalate_cons, List.map_flatMap, join_flatMap]

end Headers

/--
The text of a waveform is an outline of its tree, as long as no number is written with a line break in it.
-/
theorem text_outlines [UnbrokenNumbers α] (w : Waveform α) : Outlined w := by
  have indentations : (pieces w.text).map indentation = w.nodes.map fun node => 2 * node.1.length := by
    rw [pieces_text, List.map_map]
    exact List.map_congr_left fun node _ => indentation_line node
  exact {
    printed := printed_eq_text w
    lines := pieces_text w
    nodes := fun _ _ => mem_nodes_iff
    preorder := ascending_nodes w
    count := by rw [pieces_text, List.length_map, length_nodes]
    ended := by
      apply not_ends_of_pieces
      rw [pieces_text, List.mem_map]
      rintro ⟨node, _, empty⟩
      exact (oneLine_line node).ne_empty empty
    indented := indentations
    heads := by
      intro j k
      rw [indentations]
      exact heads_iff }

def layered : Waveform Float :=
  .sequence [.blank 1, .real (.sum (.dc 1 0.5 0) (.gaussian 1 1))]

theorem layered_text_outlines : UnbrokenNumbers Float ∧ Outlined layered :=
  ⟨inferInstance, text_outlines layered⟩

end PulseSequencer.Waveform
