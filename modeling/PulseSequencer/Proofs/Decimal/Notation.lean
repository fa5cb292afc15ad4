import PulseSequencer.Decimal.Notation
import PulseSequencer.Proofs.Text.Lines

/-!
This module contains that numbers are written on one line.
-/

namespace PulseSequencer

open Text

/--
A type of numbers whose texts have no line break in them.
-/
class UnbrokenNumbers (α : Type) [NumberText α] : Prop where
  plain (x : α) : Unbroken (NumberText.plain x)
  scientific (x : α) : Unbroken (NumberText.scientific x)

namespace Decimal

theorem unbroken_nat (n : Nat) : Unbroken (toString n) := by
  rw [Nat.toString_eq_ofList_toDigits]
  exact unbroken_of_isDigit fun c mem => Nat.isDigit_of_mem_toDigits (by decide) (by decide) mem

theorem unbroken_int (n : Int) : Unbroken (toString n) := by
  cases n with
  | ofNat n => exact unbroken_nat n
  | negSucc n => exact unbroken_append.mpr ⟨by decide, unbroken_nat (n + 1)⟩

def Digits.Proper (d : Digits) : Prop :=
  ∀ c ∈ d.digits, c.isDigit = true

theorem proper_ofCoefficient (coefficient : Nat) (place : Int) : (Digits.ofCoefficient coefficient place).Proper := by
  intro c mem
  have kept : c ∈ Nat.toDigits 10 coefficient := by
    have mem := List.mem_reverse.mp mem
    exact List.mem_reverse.mp ((List.dropWhile_sublist _).subset mem)
  exact Nat.isDigit_of_mem_toDigits (by decide) (by decide) kept

theorem proper_shortest (x : Binary) : x.shortest.Proper := by
  have found (fuel : Nat) (place : Int) : (Binary.shortest.go x fuel place).Proper := by
    fun_induction Binary.shortest.go x fuel place with
    | case1 place => exact proper_ofCoefficient _ place
    | case2 fuel place coefficient hit => exact proper_ofCoefficient coefficient place
    | case3 fuel place miss ih => exact ih
  unfold Binary.shortest
  split
  · intro c mem
    rw [List.mem_singleton.mp mem]
    decide
  · exact found 17 _

theorem unbroken_renderScientific {d : Digits} (proper : d.Proper) : Unbroken d.renderScientific := by
  have first : Unbroken (String.ofList (d.digits.take 1)) :=
    unbroken_of_isDigit fun c mem => proper c (List.mem_of_mem_take mem)
  have fraction : Unbroken (String.ofList (d.digits.drop 1)) :=
    unbroken_of_isDigit fun c mem => proper c (List.mem_of_mem_drop mem)
  have point : Unbroken (if (d.digits.drop 1).isEmpty then "" else ".") := by
    split <;> decide
  unfold Digits.renderScientific
  simp only [unbroken_append]
  exact ⟨⟨⟨⟨first, point⟩, fraction⟩, by decide⟩, unbroken_int d.exponent⟩

theorem unbroken_renderPositional {d : Digits} {wholeTail : String} (proper : d.Proper) (tail : Unbroken wholeTail) :
    Unbroken (d.renderPositional wholeTail) := by
  have zero (n : Nat) : ∀ c ∈ List.replicate n '0', c.isDigit = true := by
    intro c mem
    rw [List.eq_of_mem_replicate mem]
    rfl
  unfold Digits.renderPositional
  split
  · refine unbroken_append.mpr ⟨by decide, unbroken_of_isDigit ?_⟩
    exact List.forall_mem_append.mpr ⟨zero _, proper⟩
  · dsimp only
    refine unbroken_append.mpr ⟨unbroken_of_isDigit ?_, ?_⟩
    · exact List.forall_mem_append.mpr ⟨fun c mem => proper c (List.mem_of_mem_take mem), zero _⟩
    · split
      · exact tail
      · refine unbroken_append.mpr ⟨by decide, unbroken_of_isDigit ?_⟩
        exact fun c mem => proper c (List.mem_of_mem_drop mem)

theorem unbroken_signText (negative : Bool) : Unbroken (signText negative) := by
  cases negative <;> decide

theorem unbroken_render {layout : Layout} (tail : Unbroken layout.wholeTail) (x : Float) : Unbroken (layout.render x) := by
  unfold Layout.render
  split
  · decide
  · exact unbroken_append.mpr ⟨unbroken_signText _, by decide⟩
  · refine unbroken_append.mpr ⟨unbroken_signText _, ?_⟩
    unfold Layout.renderDigits
    split
    · exact unbroken_renderScientific (proper_shortest _)
    · exact unbroken_renderPositional (proper_shortest _) tail

end Decimal

instance : UnbrokenNumbers Float where
  plain := Decimal.unbroken_render (by decide)
  scientific := Decimal.unbroken_render (by decide)

end PulseSequencer
