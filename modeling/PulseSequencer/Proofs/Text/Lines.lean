/-!
This module contains how a text falls into lines, and that the lines which a text was joined from are found again, as long as
there is no line break in any of them.
-/

namespace PulseSequencer.Text

def pieces (text : String) : List String :=
  (text.toList.splitOn '\n').map String.ofList

def withoutReturn (line : String) : String :=
  if line.toList.getLast? = some '\r' then String.ofList line.toList.dropLast else line

/--
The lines of a text: a carriage return in front of a line break belongs to the break, and nothing begins behind a line break
at the end.
-/
def lines (text : String) : List String :=
  (pieces text).dropLast.map withoutReturn ++ ((pieces text).getLast?.filter (· != "")).toList

def indented (text : String) : String :=
  "\n".intercalate ((lines text).map ("  " ++ ·))

def spaces (n : Nat) : String :=
  String.ofList (List.replicate n ' ')

def indentation (line : String) : Nat :=
  (line.toList.takeWhile (· = ' ')).length

def Begins (c : Char) (text : String) : Prop :=
  text.toList.head? = some c

instance (c : Char) (text : String) : Decidable (Begins c text) :=
  inferInstanceAs (Decidable (text.toList.head? = some c))

def Unbroken (text : String) : Prop :=
  '\n' ∉ text.toList

instance (text : String) : Decidable (Unbroken text) :=
  inferInstanceAs (Decidable ('\n' ∉ text.toList))

/--
A text that is one line wherever it stands: there is no line break in it, and neither can its end be taken for a part of one.
-/
structure OneLine (text : String) : Prop where
  unbroken : Unbroken text
  closed : ∃ c, text.toList.getLast? = some c ∧ c ≠ '\r'

variable {text line : String} {ls : List String}

@[simp]
theorem unbroken_append {s t : String} : Unbroken (s ++ t) ↔ Unbroken s ∧ Unbroken t := by
  unfold Unbroken
  rw [String.toList_append, List.mem_append, not_or]

theorem unbroken_spaces (n : Nat) : Unbroken (spaces n) := by
  unfold Unbroken spaces
  rw [String.toList_ofList]
  intro mem
  exact absurd (List.eq_of_mem_replicate mem) (by decide)

theorem unbroken_of_isDigit {cs : List Char} (digits : ∀ c ∈ cs, c.isDigit = true) : Unbroken (String.ofList cs) := by
  unfold Unbroken
  rw [String.toList_ofList]
  exact fun mem => absurd (digits '\n' mem) (by decide)

theorem OneLine.append {s : String} (plain : Unbroken s) (one : OneLine text) : OneLine (s ++ text) := by
  obtain ⟨c, last, ordinary⟩ := one.closed
  refine ⟨unbroken_append.mpr ⟨plain, one.unbroken⟩, c, ?_, ordinary⟩
  rw [String.toList_append, List.getLast?_append, last]
  rfl

theorem OneLine.ne_empty (one : OneLine text) : text ≠ "" := by
  rintro rfl
  obtain ⟨c, last, _⟩ := one.closed
  cases last

theorem OneLine.withoutReturn (one : OneLine line) : withoutReturn line = line := by
  obtain ⟨c, last, ordinary⟩ := one.closed
  unfold Text.withoutReturn
  rw [last, if_neg (by simpa using ordinary)]

theorem pieces_intercalate (nonempty : ls ≠ []) (plain : ∀ l ∈ ls, Unbroken l) : pieces ("\n".intercalate ls) = ls := by
  have breaks : "\n".toList = ['\n'] := rfl
  unfold pieces
  rw [String.toList_intercalate, breaks, List.splitOn_intercalate]
  · simp [Function.comp_def]
  · simpa [Unbroken] using plain
  · simpa using nonempty

theorem not_ends_of_pieces (written : "" ∉ pieces text) (front : String) : text ≠ front ++ "\n" := by
  rintro rfl
  apply written
  have breaks : "\n".toList = ['\n'] := rfl
  rw [pieces, String.toList_append, breaks, List.splitOn_append_cons_self]
  simp

theorem lines_intercalate (nonempty : ls ≠ []) (each : ∀ l ∈ ls, OneLine l) : lines ("\n".intercalate ls) = ls := by
  obtain ⟨front, last, rfl⟩ := List.eq_nil_or_concat ls |>.resolve_left nonempty
  have written : ("" : String) ≠ last := fun empty => (each last (by simp)).ne_empty empty.symm
  have kept : front.map withoutReturn = front := by
    rw [List.map_congr_left fun l mem => (each l (by simp [mem])).withoutReturn, List.map_id']
  unfold lines
  rw [pieces_intercalate nonempty fun l mem => (each l mem).unbroken, List.concat_eq_append, List.dropLast_concat, kept,
    List.getLast?_concat]
  simp [written.symm]

theorem intercalate_cons (first : String) (rest : List String) :
    "\n".intercalate (first :: rest) = first ++ String.join (rest.map ("\n" ++ ·)) := by
  induction rest generalizing first with
  | nil => simp
  | cons next rest ih => rw [String.intercalate_cons_cons, ih, List.map_cons, String.join_cons, String.append_assoc,
      String.append_assoc]

theorem break_intercalate (nonempty : ls ≠ []) : "\n" ++ "\n".intercalate ls = String.join (ls.map ("\n" ++ ·)) := by
  obtain ⟨first, rest, rfl⟩ := List.exists_cons_of_ne_nil nonempty
  rw [intercalate_cons, List.map_cons, String.join_cons, String.append_assoc]

theorem join_flatMap {β : Type} (f : β → List String) (bs : List β) :
    String.join (bs.flatMap f) = String.join (bs.map fun b => String.join (f b)) := by
  induction bs with
  | nil => rfl
  | cons b rest ih => rw [List.flatMap_cons, String.join_append, ih, List.map_cons, String.join_cons]

theorem spaces_add_two (n : Nat) : spaces (n + 2) = "  " ++ spaces n := by
  apply String.toList_injective
  unfold spaces
  simp only [String.toList_append, String.toList_ofList, List.replicate_succ]
  rfl

theorem Begins.append {c : Char} {s : String} (begins : Begins c s) (t : String) : Begins c (s ++ t) := by
  unfold Begins
  rw [String.toList_append, List.head?_append, begins]
  rfl

theorem indentation_spaces_append {n : Nat} {c : Char} (begins : Begins c text) (visible : c ≠ ' ') :
    indentation (spaces n ++ text) = n := by
  obtain ⟨rest, letters⟩ := List.head?_eq_some_iff.mp begins
  unfold indentation spaces
  rw [String.toList_append, String.toList_ofList, letters, List.takeWhile_append_of_pos (by simp)]
  simp [visible]

end PulseSequencer.Text
