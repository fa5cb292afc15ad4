import PulseSequencer.Slice.Edit
import PulseSequencer.Outcome

/-!
This module contains the paths by which slices are addressed: the names from the outermost slice inward, with slashes
between them.
-/

namespace PulseSequencer

namespace SlicePath

def split : List Char → List (List Char)
  | [] => [[]]
  | c :: rest =>
    if c = '/' then [] :: split rest
    else
      match split rest with
      | [] => [[c]]
      | piece :: pieces => (c :: piece) :: pieces

def names (path : String) : List String :=
  (split path.toList).map String.ofList

def join (names : List String) : String :=
  "/".intercalate names

end SlicePath

namespace Slice

variable {α : Type} [Scalar α]

def replace (sub : Slice α) (subs : List (Slice α)) : List (Slice α) :=
  subs.map fun s => if s.name == sub.name then sub else s

def follow : List String → Slice α → Except (Error α) (Slice α)
  | [], s => .ok s
  | name :: rest, s =>
    match find? s.subs name with
    | none => .error (.unknown .slice (s.name ++ "/" ++ name))
    | some sub => follow rest sub

def workAt {ρ : Type} (work : Slice α → Outcome α (Slice α) ρ) : List String → Slice α → Outcome α (Slice α) ρ
  | [], s => work s
  | name :: rest, s =>
    match find? s.subs name with
    | none => .failed (.unknown .slice (s.name ++ "/" ++ name)) s
    | some sub => (workAt work rest sub).mapState fun sub => { s with subs := replace sub s.subs }

end Slice

end PulseSequencer
