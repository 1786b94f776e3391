import FabricConfig.Proofs.Command.FileStore
import FabricConfig.Proofs.Command.Following

/-! The file system obeys the laws. What a write leaves is the same whether it made a file or put one
in the place of a file: a file with the text, to which all paths lead that led to its place. -/

namespace FabricConfig

namespace FileSystem

variable {system : FileSystem} {id : Nat} {path : String}

/-! ### What a write leaves -/

/-- A text was written to a file. All paths that led to its place lead to it, and the others lead
elsewhere, as before. -/
structure Wrote (path text : String) (before after : FileSystem) (id : Nat) (access : Access) :
    Prop where
  writable : access.write = true
  file?_eq : after.file? id = some { content := text.toUTF8, access }
  file?_other : ∀ other, other ≠ id → after.file? other = before.file? other
  follow_path : ∀ making, after.follow making path = .ok (.node id)
  follow_same : ∀ other, before.SameFile path other → after.follow false other = .ok (.node id)
  follow_other : ∀ other, ¬ before.SameFile path other →
    (∃ fault fault', before.follow false other = .error fault ∧
        after.follow false other = .error fault') ∨
      ∃ place, place ≠ .node id ∧ before.follow false other = .ok place ∧
        after.follow false other = .ok place

/-- Writing what is there already changes nothing. -/
theorem overwrite_eq_self {file : File} (h : system.file? id = some file) :
    system.overwrite id file = system := by
  obtain ⟨hlt, hnode⟩ := List.getElem?_eq_some_iff.mp (file?_eq_some_iff.mp h)
  have hset : system.nodes.set id (.file file) = system.nodes := by
    rw [← hnode, List.set_getElem_self]
  obtain ⟨nodes, working, hworking, hclosed⟩ := system
  simp only [overwrite, FileSystem.mk.injEq, and_true]
  exact hset

theorem wrote_overwrite {text : String} {file : File}
    (hfollow : system.follow true path = .ok (.node id))
    (hfile : system.file? id = some file) (haccess : file.access.write = true) :
    Wrote path text system (system.overwrite id { file with content := text.toUTF8 }) id
      file.access := by
  have hkept := (sameTree_overwrite hfile { file with content := text.toUTF8 }).follow_eq
  have hpath := follow_of_making hfollow
  refine ⟨haccess, ?_, ?_, ?_, ?_, ?_⟩
  · rw [file?_overwrite hfile, if_pos rfl]
  · intro other hother
    rw [file?_overwrite hfile, if_neg hother]
  · intro making
    rw [hkept]
    cases making with
    | false => exact hpath
    | true => exact hfollow
  · rintro other ⟨place, hplace, hother⟩
    rw [hkept, hother, ← hplace, hpath]
  · intro other hne
    rw [hkept]
    cases hother : system.follow false other with
    | error fault => exact .inl ⟨fault, fault, rfl, rfl⟩
    | ok place =>
        refine .inr ⟨place, ?_, rfl, rfl⟩
        rintro rfl
        exact hne ⟨_, hpath, hother⟩

theorem wrote_create {text name : String} {directory : Directory}
    (hfollow : system.follow true path = .ok (.vacant id name))
    (h : system.directory? id = some directory) :
    Wrote path text system (system.create id directory h name { content := text.toUTF8 })
      system.nodes.length {} := by
  have hname : directory.entries.get? name = none := by
    obtain ⟨found, hfound, hnone⟩ := within_of_follow hfollow
    rw [h] at hfound
    rwa [Option.some.inj hfound]
  have hgrown := grown_follow h hname { content := text.toUTF8 }
  have hpath := follow_of_making hfollow
  refine ⟨rfl, ?_, ?_, ?_, ?_, ?_⟩
  · rw [file?_create, if_pos rfl]
  · intro other hother
    rw [file?_create, if_neg hother]
  · intro making
    have hmade := hgrown making path
    cases making with
    | false => exact (hpath ▸ hmade).eq_made
    | true => exact (hfollow ▸ hmade).eq_made
  · rintro other ⟨place, hplace, hother⟩
    obtain rfl := Except.ok.inj (hpath.symm.trans hplace)
    exact (hother ▸ hgrown false other).eq_made
  · intro other hne
    have hvacant : system.follow false other ≠ .ok (.vacant id name) :=
      fun hother => hne ⟨_, hpath, hother⟩
    rcases (hgrown false other).cases_of_ne hvacant with hfault | ⟨place, hbefore, hafter⟩
    · exact .inl hfault
    · refine .inr ⟨place, ?_, hbefore, hafter⟩
      rintro rfl
      -- no path led to the number of the new file, as there was no such node
      exact Nat.lt_irrefl _ (within_of_follow hbefore)

theorem write_of_node (hfollow : system.follow true path = .ok (.node id)) (text : String) :
    system.write path text =
      match system.file? id with
      | none => .error .isADirectory
      | some file =>
        if file.access.write then .ok (system.overwrite id { file with content := text.toUTF8 })
        else .error .permissionDenied := by
  unfold write
  rw [hfollow]
  rfl

theorem write_of_vacant {name : String} {directory : Directory}
    (hfollow : system.follow true path = .ok (.vacant id name))
    (h : system.directory? id = some directory) (text : String) :
    system.write path text =
      if directory.access.write then
        .ok (system.create id directory h name { content := text.toUTF8 })
      else .error .permissionDenied := by
  unfold write
  rw [hfollow, ok_bind]
  dsimp only
  split
  · next hnone => simp [hnone] at h
  · next found hfound =>
    obtain rfl := Option.some.inj (hfound.symm.trans h)
    rfl

/-- A write puts a file in the place of a file, or makes one. -/
theorem exists_wrote {text : String} {after : FileSystem} (h : system.write path text = .ok after) :
    ∃ id access, Wrote path text system after id access := by
  obtain ⟨place, hfollow, -⟩ := bind_eq_ok_iff.mp h
  cases place with
  | vacant id name =>
      obtain ⟨directory, hdirectory, -⟩ := within_of_follow hfollow
      rw [write_of_vacant hfollow hdirectory] at h
      split at h
      · obtain rfl := Except.ok.inj h
        exact ⟨_, _, wrote_create hfollow hdirectory⟩
      · contradiction
  | node id =>
      rw [write_of_node hfollow] at h
      split at h
      · contradiction
      · next file hfile =>
        split at h
        · next haccess =>
          obtain rfl := Except.ok.inj h
          exact ⟨_, _, wrote_overwrite hfollow hfile haccess⟩
        · contradiction

namespace Wrote

variable {text : String} {before after : FileSystem} {access : Access}
  (h : Wrote path text before after id access)
include h

/-- All names of the file give the same access to it. -/
theorem read_of_follow {other : String} (hother : after.follow false other = .ok (.node id)) :
    after.read other = if access.read then .ok text.toUTF8 else .error .permissionDenied := by
  unfold read
  rw [hother, ok_bind]
  simp only [h.file?_eq]
  rfl

theorem content_of_follow {other : String} (hother : after.follow false other = .ok (.node id)) :
    after.content other = some text.toUTF8 := by
  simp only [content, hother, h.file?_eq, Option.map_some]

theorem read_path :
    after.read path = if access.read then .ok text.toUTF8 else .error .permissionDenied :=
  h.read_of_follow (h.follow_path false)

theorem changesOnly : FileStore.ChangesOnly path text before after := by
  refine ⟨h.content_of_follow (h.follow_path false), ?_, ?_, ?_⟩
  · intro other hsame
    have hother := h.follow_same other hsame
    constructor
    · exact (h.content_of_follow hother).trans (h.content_of_follow (h.follow_path false)).symm
    · exact (h.read_of_follow hother).trans h.read_path.symm
  · intro other hne
    change after.content other = before.content other
    unfold content
    rcases h.follow_other other hne with ⟨_, _, hbefore, hafter⟩ | ⟨place, hplace, hbefore, hafter⟩
    · rw [hbefore, hafter]
    · rw [hbefore, hafter]
      cases place with
      | vacant directory name => rfl
      | node next =>
          have hnext : next ≠ id := fun heq => hplace (congrArg Place.node heq)
          simp only [h.file?_other next hnext]
  · intro other hne bytes
    change after.read other = .ok bytes ↔ before.read other = .ok bytes
    unfold read
    rcases h.follow_other other hne with ⟨_, _, hbefore, hafter⟩ | ⟨place, hplace, hbefore, hafter⟩
    · simp [hbefore, hafter]
    · rw [hbefore, hafter]
      cases place with
      | vacant directory name => rfl
      | node next =>
          have hnext : next ≠ id := fun heq => hplace (congrArg Place.node heq)
          simp only [h.file?_other next hnext, ok_bind]
          cases before.file? next with
          | none => simp
          | some file => rfl

/-- The file is there already, with the same text. -/
theorem write_again : after.write path text = .ok after := by
  rw [write_of_node (h.follow_path true), h.file?_eq]
  simp only [h.writable, if_true, overwrite_eq_self h.file?_eq]

end Wrote

/-! ### Overwriting -/

theorem SameTree.readFault_eq {a b : FileSystem} (h : SameTree a b) (id : Nat) :
    b.readFault id = a.readFault id := by
  simp only [readFault, h.directory?_eq]

section

variable {file : File} (hfile : system.file? id = some file) (text : String)
include hfile

/-- Other files are found as before, or not found for the same reason. -/
theorem read_overwrite (hfollow : system.follow true path = .ok (.node id)) {other : String}
    (hother : ¬ system.SameFile path other) :
    (system.overwrite id { file with content := text.toUTF8 }).read other = system.read other := by
  have htree := sameTree_overwrite hfile { file with content := text.toUTF8 }
  have hpath := follow_of_making hfollow
  unfold read
  rw [htree.follow_eq]
  cases hplace : system.follow false other with
  | error fault => rfl
  | ok place =>
      cases place with
      | vacant directory name => rfl
      | node next =>
          have hnext : next ≠ id := by
            rintro rfl
            exact hother ⟨_, hpath, hplace⟩
          simp only [ok_bind, file?_overwrite hfile, if_neg hnext, htree.readFault_eq]

/-- What may be done with a file does not depend on its content. -/
theorem access_overwrite (other : Nat) :
    ((system.overwrite id { file with content := text.toUTF8 }).file? other).map (·.access) =
      (system.file? other).map (·.access) := by
  rw [file?_overwrite hfile]
  split
  · next heq =>
    rw [heq, hfile]
    rfl
  · rfl

/-- What can be written can be written as before, and fails for the same reason if not. -/
theorem write_overwrite (other replacement : String) :
    (∃ fault, system.write other replacement = .error fault ∧
        (system.overwrite id { file with content := text.toUTF8 }).write other replacement =
          .error fault) ∨
      ∃ first second, system.write other replacement = .ok first ∧
        (system.overwrite id { file with content := text.toUTF8 }).write other replacement =
          .ok second ∧ second.read other = first.read other := by
  have htree := sameTree_overwrite hfile { file with content := text.toUTF8 }
  have hkept := htree.follow_eq true other
  cases hplace : system.follow true other with
  | error fault =>
      rw [hplace] at hkept
      refine .inl ⟨fault, ?_, ?_⟩
      · rw [write, hplace, error_bind]
      · rw [write, hkept, error_bind]
  | ok place =>
      rw [hplace] at hkept
      cases place with
      | vacant next name =>
          obtain ⟨directory, hdirectory, -⟩ := within_of_follow hplace
          have hdirectory' := (htree.directory?_eq next).trans hdirectory
          rw [write_of_vacant hplace hdirectory, write_of_vacant hkept hdirectory']
          cases directory.access.write with
          | false => exact .inl ⟨_, rfl, rfl⟩
          | true =>
              refine .inr ⟨_, _, rfl, rfl, ?_⟩
              exact (wrote_create hkept hdirectory').read_path.trans
                (wrote_create hplace hdirectory).read_path.symm
      | node next =>
          have haccess := access_overwrite hfile text next
          rw [write_of_node hplace, write_of_node hkept]
          cases hfound : system.file? next with
          | none =>
              rw [hfound] at haccess
              rw [Option.map_eq_none_iff.mp haccess]
              exact .inl ⟨_, rfl, rfl⟩
          | some found =>
              rw [hfound] at haccess
              obtain ⟨⟨bytes, _⟩, hfound', rfl⟩ := Option.map_eq_some_iff.mp haccess
              rw [hfound']
              dsimp only
              cases hwrite : found.access.write with
              | false => exact .inl ⟨_, rfl, rfl⟩
              | true =>
                  refine .inr ⟨_, _, rfl, rfl, ?_⟩
                  exact (wrote_overwrite hkept hfound' hwrite).read_path.trans
                    (wrote_overwrite hplace hfound hwrite).read_path.symm

end

/-! ### The laws -/

theorem not_sameFile {other : String} {first second : Place}
    (hfirst : system.follow false path = .ok first)
    (hsecond : system.follow false other = .ok second) (hne : first ≠ second) :
    ¬ system.SameFile path other := by
  rintro ⟨place, hpath, hother⟩
  obtain rfl := Except.ok.inj (hfirst.symm.trans hpath)
  exact hne (Except.ok.inj (hother.symm.trans hsecond))

theorem read_eq_ok_iff {bytes : ByteArray} :
    system.read path = .ok bytes ↔ ∃ id file, system.follow false path = .ok (.node id) ∧
      system.file? id = some file ∧ file.access.read = true ∧ file.content = bytes := by
  unfold read
  cases system.follow false path with
  | error fault => simp
  | ok place =>
      cases place with
      | vacant directory name => simp
      | node id =>
          simp only [ok_bind]
          cases hfile : system.file? id with
          | none => simp [hfile]
          | some file => cases hread : file.access.read <;> simp [hfile, hread]

theorem content_eq_some_iff {bytes : ByteArray} :
    system.content path = some bytes ↔ ∃ id file, system.follow false path = .ok (.node id) ∧
      system.file? id = some file ∧ file.content = bytes := by
  unfold content
  rcases system.follow false path with fault | id | ⟨directory, name⟩
  · simp
  · simp
  · simp

theorem overwrites_of_write {text : String} {bytes : ByteArray} {after : FileSystem}
    (hcontent : system.content path = some bytes) (h : system.write path text = .ok after) :
    FileStore.Overwrites path text system after := by
  obtain ⟨id, file, hpath, hfile, -⟩ := content_eq_some_iff.mp hcontent
  obtain ⟨place, hfollow, -⟩ := bind_eq_ok_iff.mp h
  obtain rfl := Except.ok.inj ((follow_of_making hfollow).symm.trans hpath)
  rw [write_of_node hfollow, hfile] at h
  dsimp only at h
  split at h
  · next haccess =>
    obtain rfl := Except.ok.inj h
    refine ⟨?_, fun other => read_overwrite hfile text hfollow, write_overwrite hfile text⟩
    rintro ⟨bytes, hread⟩
    obtain ⟨found, readable, hfound, hreadable, haccessible, -⟩ := read_eq_ok_iff.mp hread
    obtain rfl := Place.node.inj (Except.ok.inj (hpath.symm.trans hfound))
    obtain rfl := Option.some.inj (hfile.symm.trans hreadable)
    exact (wrote_overwrite hfollow hfile haccess).read_path.trans (if_pos haccessible)
  · contradiction

instance : LawfulFileStore FileSystem where
  content_of_read h := by
    obtain ⟨id, file, hpath, hfile, -, hcontent⟩ := read_eq_ok_iff.mp h
    exact content_eq_some_iff.mpr ⟨id, file, hpath, hfile, hcontent⟩
  changesOnly_of_write h := by
    obtain ⟨id, access, hwrote⟩ := exists_wrote h
    exact hwrote.changesOnly
  write_of_write h := by
    obtain ⟨id, access, hwrote⟩ := exists_wrote h
    exact hwrote.write_again
  overwrites_of_write := overwrites_of_write

end FileSystem

end FabricConfig
