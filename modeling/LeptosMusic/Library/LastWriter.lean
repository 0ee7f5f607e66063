import Mathlib.Order.Lattice

/-!
# Last-writer registers

A register whose writes carry stamps keeps the newest of them, in whatever order they arrive. A
plain register keeps the one that arrived last.
-/
namespace LastWriter

universe u v

/-- A value with the stamp of its write. -/
@[ext] structure Stamped (ι : Type u) (α : Type v) where
  stamp : ι
  value : α
  deriving DecidableEq, Repr

namespace Stamped
variable {ι : Type u} {α : Type v} [LinearOrder ι]

/-- A write that is not older takes the place of the register. -/
def receive (register : Stamped ι α) : Option (Stamped ι α) → Stamped ι α
  | none => register
  | some arrived => if register.stamp ≤ arrived.stamp then arrived else register

/-- The same write to a plain register. -/
def overwrite (value : α) : Option (Stamped ι α) → α
  | none => value
  | some arrived => arrived.value

/-- The write is not older than the register, or it makes no difference. -/
def InOrder (register : Stamped ι α) (arrived : Option (Stamped ι α)) : Prop :=
  ∀ write ∈ arrived, register.stamp ≤ write.stamp ∨ write.value = register.value

instance [DecidableEq α] (register : Stamped ι α) (arrived : Option (Stamped ι α)) :
    Decidable (register.InOrder arrived) :=
  inferInstanceAs (Decidable (∀ write ∈ arrived, _))

@[simp] theorem receive_none (register : Stamped ι α) : register.receive none = register := rfl

theorem receive_newer {register write : Stamped ι α} (newer : register.stamp ≤ write.stamp) :
    register.receive (some write) = write := if_pos newer

theorem receive_older {register write : Stamped ι α} (older : write.stamp < register.stamp) :
    register.receive (some write) = register := if_neg (not_le_of_gt older)

theorem receive_stamp_le {register : Stamped ι α} {arrived : Option (Stamped ι α)} {bound : ι}
    (before : register.stamp ≤ bound) (writes : ∀ write ∈ arrived, write.stamp ≤ bound) :
    (register.receive arrived).stamp ≤ bound := by
  cases arrived with
  | none => exact before
  | some write =>
      rw [receive]
      split_ifs
      · exact writes write rfl
      · exact before

theorem inOrder_some (register write : Stamped ι α) : register.InOrder (some write) ↔
    register.stamp ≤ write.stamp ∨ write.value = register.value := by
  simp [InOrder]

/-- A plain register that agrees stays in agreement exactly when the write comes in order. -/
theorem overwrite_eq_iff (register : Stamped ι α) (arrived : Option (Stamped ι α)) :
    overwrite register.value arrived = (register.receive arrived).value ↔
      register.InOrder arrived := by
  cases arrived with
  | none => exact iff_of_true rfl nofun
  | some write =>
      rw [inOrder_some, overwrite, receive]
      split_ifs with newer
      · exact iff_of_true rfl (.inl newer)
      · rw [or_iff_right newer]

end Stamped
end LastWriter
