/-! The order of strings by their UTF-8 bytes. -/

namespace FabricConfig.Text

/-- The UTF-8 encoding of a string. -/
def bytes (s : String) : List UInt8 :=
  s.toUTF8.data.toList

theorem bytes_inj {a b : String} : bytes a = bytes b ↔ a = b := by
  constructor
  · intro h
    apply String.toByteArray_inj.1
    apply ByteArray.ext
    exact Array.toList_inj.1 h
  · rintro rfl
    rfl

/-- The strict order of strings by their UTF-8 bytes. -/
def ByteLt (a b : String) : Prop :=
  bytes a < bytes b

instance : DecidableRel ByteLt :=
  fun a b => inferInstanceAs (Decidable (bytes a < bytes b))

theorem ByteLt.irrefl (a : String) : ¬ ByteLt a a :=
  List.lt_irrefl _

theorem ByteLt.trans {a b c : String} (hab : ByteLt a b) (hbc : ByteLt b c) : ByteLt a c :=
  List.lt_trans hab hbc

theorem ByteLt.of_not_lt {a b : String} (hne : a ≠ b) (h : ¬ ByteLt a b) : ByteLt b a := by
  have hle : bytes b ≤ bytes a := List.not_lt.1 h
  apply Classical.byContradiction
  intro hba
  exact hne (bytes_inj.1 (List.le_antisymm (List.not_lt.1 hba) hle))

theorem ByteLt.not_lt_trans {a b c : String} (hab : ¬ ByteLt b a) (hbc : ¬ ByteLt c b) :
    ¬ ByteLt c a :=
  List.not_lt.2 (List.le_trans (List.not_lt.1 hab) (List.not_lt.1 hbc))

theorem ByteLt.trans_not_lt {a b c : String} (hab : ByteLt a b) (hbc : ¬ ByteLt c b) :
    ByteLt a c := by
  apply Classical.byContradiction
  intro hac
  exact ByteLt.not_lt_trans hbc hac hab

end FabricConfig.Text
