import FabricConfig.Command.Surroundings
import FabricConfig.Outcome

/-! Laws of file systems of any kind. A file may have several names, so what writing to a path does
is said of all paths that lead to the same file, and of all that lead elsewhere. A file that can be
written need not be one that can be read. -/

namespace FabricConfig

namespace FileStore

variable {σ : Type} [FileStore σ]

/-- The file at a path exists and may be read. -/
def Readable (system : σ) (path : String) : Prop :=
  ∃ bytes, read system path = .ok bytes

/-- A text was put in the file that `path` leads to, and no other file has changed, appeared or
vanished. -/
structure ChangesOnly (path text : String) (before after : σ) : Prop where
  written : content after path = some text.toUTF8
  /-- The file is found by all of its names. -/
  same : ∀ other, SameFile before path other →
    content after other = content after path ∧ read after other = read after path
  content_eq : ∀ other, ¬ SameFile before path other → content after other = content before other
  read_iff : ∀ other, ¬ SameFile before path other → ∀ bytes,
    read after other = .ok bytes ↔ read before other = .ok bytes

/-- A file that was there already holds another text. Nobody can tell the difference who does not
read it. -/
structure Overwrites (path text : String) (before after : σ) : Prop where
  read_path : Readable before path → read after path = .ok text.toUTF8
  read_eq : ∀ other, ¬ SameFile before path other → read after other = read before other
  write_alike : ∀ other replacement,
    (∃ fault, write before other replacement = .error fault ∧
        write after other replacement = .error fault) ∨
      ∃ first second, write before other replacement = .ok first ∧
        write after other replacement = .ok second ∧ read second other = read first other

end FileStore

open FileStore

/-- File systems in which files keep what is written to them. -/
class LawfulFileStore (σ : Type) [FileStore σ] : Prop where
  content_of_read {system : σ} {path : String} {bytes : ByteArray} :
    read system path = .ok bytes → content system path = some bytes
  changesOnly_of_write {system after : σ} {path text : String} :
    write system path text = .ok after → ChangesOnly path text system after
  /-- Writing the same once more changes nothing. -/
  write_of_write {system after : σ} {path text : String} :
    write system path text = .ok after → write after path text = .ok after
  overwrites_of_write {system after : σ} {path text : String} {bytes : ByteArray} :
    content system path = some bytes → write system path text = .ok after →
      Overwrites path text system after

/-! ### Texts in files -/

theorem fromUTF8?_toUTF8 (s : String) : String.fromUTF8? s.toUTF8 = some s := by
  unfold String.fromUTF8?
  exact dif_pos s.isValidUTF8

theorem eq_toUTF8_of_fromUTF8? {bytes : ByteArray} {s : String}
    (h : String.fromUTF8? bytes = some s) : bytes = s.toUTF8 := by
  unfold String.fromUTF8? at h
  split at h
  · rw [← Option.some.inj h]
    rfl
  · contradiction

namespace FileStore

variable {σ : Type} [FileStore σ] {system after : σ} {path other text : String}

/-- The text in a file. -/
def textAt (system : σ) (path : String) : Except FileFault String := do
  let content ← read system path
  match String.fromUTF8? content with
  | some text => return text
  | none => throw .notUtf8

theorem textAt_eq_ok_iff :
    textAt system path = .ok text ↔ read system path = .ok text.toUTF8 := by
  rw [textAt, bind_eq_ok_iff]
  constructor
  · rintro ⟨bytes, hread, h⟩
    cases hcontent : String.fromUTF8? bytes with
    | none => simp [hcontent] at h
    | some s =>
        rw [hcontent] at h
        obtain rfl := Except.ok.inj h
        rw [hread, eq_toUTF8_of_fromUTF8? hcontent]
  · intro hread
    refine ⟨text.toUTF8, hread, ?_⟩
    rw [fromUTF8?_toUTF8]
    rfl

theorem textAt_eq_of_read_eq {first second : σ} (h : read second other = read first path) :
    textAt second other = textAt first path := by
  rw [textAt, textAt, h]

theorem readable_of_textAt (h : textAt system path = .ok text) : Readable system path :=
  ⟨_, textAt_eq_ok_iff.mp h⟩

/-- A file that holds a text can be read as this text, if it may be read at all. -/
theorem textAt_of_content [LawfulFileStore σ] (hcontent : content system path = some text.toUTF8)
    (hreadable : Readable system path) : textAt system path = .ok text := by
  obtain ⟨bytes, hread⟩ := hreadable
  have hbytes := LawfulFileStore.content_of_read hread
  rw [hcontent] at hbytes
  rw [textAt_eq_ok_iff, hread, Option.some.inj hbytes]

theorem ChangesOnly.textAt_eq_ok_iff {content : String} (h : ChangesOnly path text system after)
    (hother : ¬ SameFile system path other) :
    textAt after other = .ok content ↔ textAt system other = .ok content := by
  rw [FileStore.textAt_eq_ok_iff, FileStore.textAt_eq_ok_iff, h.read_iff other hother]

theorem Readable.overwrites [LawfulFileStore σ] (h : Readable system path)
    (hwrite : write system path text = .ok after) : Overwrites path text system after := by
  obtain ⟨bytes, hread⟩ := h
  exact LawfulFileStore.overwrites_of_write (LawfulFileStore.content_of_read hread) hwrite

end FileStore

end FabricConfig
