import FabricConfig.Board.Basic
import FabricConfig.Precision.Basic

/-! Names tell the values of a finite type apart, so a value is found by its name and by nothing
else. -/

namespace FabricConfig

/-- Every value has its own name, and is listed. -/
class LawfulNamed (α : Type) [Named α] : Prop where
  mem_all : ∀ a : α, a ∈ Named.all
  name_injective : ∀ a b : α, Named.name a = Named.name b → a = b

namespace Named

variable {α : Type} [Named α] [LawfulNamed α]

theorem ofName?_eq_some_iff {s : String} {a : α} : ofName? s = some a ↔ name a = s := by
  constructor
  · intro h
    simpa using List.find?_some h
  · rintro rfl
    cases hfind : (ofName? (name a) : Option α) with
    | none =>
        have hnone := List.find?_eq_none.mp hfind a (LawfulNamed.mem_all a)
        simp at hnone
    | some b =>
        have hname : name b = name a := by simpa using List.find?_some hfind
        rw [LawfulNamed.name_injective b a hname]

@[simp] theorem ofName?_name (a : α) : ofName? (name a) = some a :=
  ofName?_eq_some_iff.mpr rfl

theorem ofName?_eq_none_iff {s : String} : (ofName? s : Option α) = none ↔ ∀ a : α, name a ≠ s := by
  constructor
  · rintro h a rfl
    rw [ofName?_name] at h
    contradiction
  · intro h
    cases hfind : (ofName? s : Option α) with
    | none => rfl
    | some a => exact absurd (ofName?_eq_some_iff.mp hfind) (h a)

theorem ofName?_ofList_eq_some_iff {text : List Char} {a : α} :
    ofName? (String.ofList text) = some a ↔ text = (name a).toList := by
  rw [ofName?_eq_some_iff, ← String.toList_inj, String.toList_ofList, eq_comm]

end Named

instance : LawfulNamed FloatKind where
  mem_all a := by cases a <;> simp [Named.all]
  name_injective a b := by cases a <;> cases b <;> simp [Named.name]

instance : LawfulNamed Rounding where
  mem_all a := by cases a <;> simp [Named.all]
  name_injective a b := by cases a <;> cases b <;> simp [Named.name]

instance : LawfulNamed Overflow where
  mem_all a := by cases a <;> simp [Named.all]
  name_injective a b := by cases a <;> cases b <;> simp [Named.name]

instance : LawfulNamed Interface where
  mem_all a := by cases a <;> simp [Named.all]
  name_injective a b := by cases a <;> cases b <;> simp [Named.name]

instance : LawfulNamed Driver where
  mem_all a := by cases a <;> simp [Named.all]
  name_injective a b := by cases a <;> cases b <;> simp [Named.name]

end FabricConfig
