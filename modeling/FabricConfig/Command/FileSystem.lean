import FabricConfig.Command.Surroundings
import FabricConfig.Table
import FabricConfig.Text.Split

/-! A file system as a value. Files, directories and symbolic links have numbers, and directories
give names to them, so that one file may have several names. Paths are followed part by part, as far
as the program is allowed to go. -/

namespace FabricConfig

/-- What the program may do with a file or a directory. -/
structure Access where
  read : Bool := true
  write : Bool := true
  /-- To get to what is in a directory. -/
  search : Bool := true

structure File where
  content : ByteArray
  access : Access := {}

structure Directory where
  entries : Table Nat
  parent : Nat
  access : Access := {}

/-- What has a number in a file system. -/
inductive Node where
  | file (file : File)
  | directory (directory : Directory)
  /-- A symbolic link, which stands for a path. -/
  | link (target : String)

namespace Node

def file? : Node → Option File
  | .file content => some content
  | _ => none

def directory? : Node → Option Directory
  | .directory content => some content
  | _ => none

def link? : Node → Option String
  | .link target => some target
  | _ => none

/-- The numbers of the nodes that a node leads to. -/
def references : Node → List Nat
  | .directory content => content.parent :: content.entries.entries.map Prod.snd
  | _ => []

end Node

/-- Nodes by their numbers, with the root first, and the directory that the program works in. -/
structure FileSystem where
  nodes : List Node
  working : Nat
  working_lt : working < nodes.length
  closed : ∀ node ∈ nodes, ∀ id ∈ node.references, id < nodes.length

/-- What a path leads to. -/
inductive Place where
  | node (id : Nat)
  /-- A directory that has no entry of that name yet. -/
  | vacant (directory : Nat) (name : String)
deriving DecidableEq

/-- What the next part of a path leads to. -/
inductive Hop where
  | next (id : Nat)
  | vacant
  | link (target : String)

/-- How far a path leads up to its first link. -/
inductive Leg where
  | arrived (place : Place)
  | link (directory : Nat) (target : String) (rest : List String)

namespace Path

/-- The parts of a path between its slashes. Some of them may be empty. -/
def parts (path : String) : List String :=
  (Text.split '/' path.toList).map String.ofList

/-- Whether a path starts at the root. -/
def isAbsolute (path : String) : Bool :=
  path.toList.head? == some '/'

/-- Whether nothing but slashes follows a name. -/
def onlySlashes (rest : List String) : Bool :=
  !rest.isEmpty && rest.all (·.isEmpty)

/-- The longest path, in bytes. -/
def maxLength : Nat := 4095

/-- The longest name of a file, in bytes. -/
def maxName : Nat := 255

/-- The most links on the way to a file. -/
def maxLinks : Nat := 40

/-- Where a part of a path leads from a directory. -/
inductive Motion where
  | stay
  | up
  /-- To the entry of that name. -/
  | down

/-- Where a part of a path leads from a directory with some access, given the parts after it. Who is
`making` a file must not name it like a directory. -/
def motion (access : Access) (making : Bool) (part : String) (rest : List String) :
    Except FileFault Motion :=
  if part = "" then .ok .stay
  else if !access.search then .error .permissionDenied
  else if part = "." then .ok .stay
  else if part = ".." then .ok .up
  else if making && onlySlashes rest then .error .isADirectory
  else if maxName < part.utf8ByteSize then .error .nameTooLong
  else .ok .down

end Path

namespace FileSystem

def root : Nat := 0

def file? (system : FileSystem) (id : Nat) : Option File :=
  system.nodes[id]?.bind Node.file?

def directory? (system : FileSystem) (id : Nat) : Option Directory :=
  system.nodes[id]?.bind Node.directory?

def link? (system : FileSystem) (id : Nat) : Option String :=
  system.nodes[id]?.bind Node.link?

/-! ### Following paths -/

/-- Follows one part of a path from a node, given the parts after it. -/
def hop (system : FileSystem) (making : Bool) (id : Nat) (part : String) (rest : List String) :
    Except FileFault Hop :=
  match system.directory? id with
  | none => .error .notADirectory
  | some directory =>
    match Path.motion directory.access making part rest with
    | .error fault => .error fault
    | .ok .stay => .ok (.next id)
    | .ok .up => .ok (.next directory.parent)
    | .ok .down =>
      match directory.entries.get? part with
      | none => if rest.isEmpty then .ok .vacant else .error .notFound
      | some next =>
        match system.link? next with
        | none => .ok (.next next)
        | some target => .ok (.link target)

/-- Follows the parts of a path from a node up to the first link. -/
def descend (system : FileSystem) (making : Bool) (id : Nat) : List String → Except FileFault Leg
  | [] => .ok (.arrived (.node id))
  | part :: rest =>
    match system.hop making id part rest with
    | .error fault => .error fault
    | .ok (.next next) => system.descend making next rest
    | .ok .vacant => .ok (.arrived (.vacant id part))
    | .ok (.link target) => .ok (.link id target rest)

/-- The node at which a path starts in a directory. -/
def start (directory : Nat) (path : String) : Nat :=
  if Path.isAbsolute path then root else directory

/-- Follows a path from a directory, and then the parts in `rest`, through so many links at most. -/
def walk (system : FileSystem) (making : Bool) (links directory : Nat) (path : String)
    (rest : List String) : Except FileFault Place :=
  if path = "" then .error .notFound
  else
    match system.descend making (start directory path) (Path.parts path ++ rest), links with
    | .error fault, _ => .error fault
    | .ok (.arrived place), _ => .ok place
    | .ok (.link _ _ _), 0 => .error .tooManyLinks
    | .ok (.link directory target rest), links + 1 =>
      system.walk making links directory target rest

/-- Follows a path from the working directory. -/
def follow (system : FileSystem) (making : Bool) (path : String) : Except FileFault Place :=
  if path.toList.contains '\x00' then .error .nulInName
  else if Path.maxLength < path.utf8ByteSize then .error .nameTooLong
  else system.walk making Path.maxLinks system.working path []

/-! ### Changes -/

theorem directory?_eq_some_iff {system : FileSystem} {id : Nat} {directory : Directory} :
    system.directory? id = some directory ↔ system.nodes[id]? = some (.directory directory) := by
  unfold directory?
  cases system.nodes[id]? with
  | none => simp
  | some node => cases node <;> simp [Node.directory?]

/-- Puts a file in the place of a node. -/
def overwrite (system : FileSystem) (id : Nat) (file : File) : FileSystem where
  nodes := system.nodes.set id (.file file)
  working := system.working
  working_lt := by simpa using system.working_lt
  closed := by
    intro node hnode next hnext
    rw [List.length_set]
    rcases List.mem_or_eq_of_mem_set hnode with hold | rfl
    · exact system.closed node hold next hnext
    · contradiction

/-- Makes a file in a directory. -/
def create (system : FileSystem) (id : Nat) (directory : Directory)
    (h : system.directory? id = some directory) (name : String) (file : File) : FileSystem where
  nodes := system.nodes.set id (.directory
    { directory with entries := directory.entries.insert name system.nodes.length }) ++ [.file file]
  working := system.working
  working_lt := by simpa using Nat.lt_succ_of_lt system.working_lt
  closed := by
    have hold : ∀ node ∈ system.nodes, ∀ next ∈ node.references,
        next < system.nodes.length + 1 := fun node hnode next hnext =>
      Nat.lt_succ_of_lt (system.closed node hnode next hnext)
    have hdirectory := hold _ (List.mem_of_getElem? (directory?_eq_some_iff.mp h))
    intro node hnode next hnext
    rw [List.length_append, List.length_set, List.length_singleton]
    rcases List.mem_append.mp hnode with hnode | hnode
    · rcases List.mem_or_eq_of_mem_set hnode with hnode | rfl
      · exact hold node hnode next hnext
      · rcases List.mem_cons.mp hnext with rfl | hnext
        · exact hdirectory _ List.mem_cons_self
        · obtain ⟨entry, hentry, rfl⟩ := List.mem_map.mp hnext
          rcases mem_insertEntry hentry with rfl | hentry
          · exact Nat.lt_succ_self _
          · exact hdirectory _ (List.mem_cons_of_mem _ (List.mem_map_of_mem hentry))
    · obtain rfl := List.mem_singleton.mp hnode
      contradiction

/-! ### Reading and writing -/

/-- The fault of reading what is no file. -/
def readFault (system : FileSystem) (id : Nat) : FileFault :=
  match system.directory? id with
  | some directory => if directory.access.read then .isADirectory else .permissionDenied
  | none => .notFound

/-- The content of a file, if it may be read. -/
def read (system : FileSystem) (path : String) : Except FileFault ByteArray := do
  match ← system.follow false path with
  | .vacant _ _ => throw .notFound
  | .node id =>
    match system.file? id with
    | none => throw (system.readFault id)
    | some file => if file.access.read then return file.content else throw .permissionDenied

/-- Stores a text in a file. If there is none, it is made. -/
def write (system : FileSystem) (path text : String) : Except FileFault FileSystem := do
  match ← system.follow true path with
  | .vacant id name =>
    match h : system.directory? id with
    | none => throw .notADirectory
    | some directory =>
      if directory.access.write then
        return system.create id directory h name { content := text.toUTF8 }
      else throw .permissionDenied
  | .node id =>
    match system.file? id with
    | none => throw .isADirectory
    | some file =>
      if file.access.write then
        return system.overwrite id { file with content := text.toUTF8 }
      else throw .permissionDenied

/-- What the file at a path holds. -/
def content (system : FileSystem) (path : String) : Option ByteArray :=
  match system.follow false path with
  | .ok (.node id) => (system.file? id).map (·.content)
  | _ => none

/-- Two paths lead to one place. -/
def SameFile (system : FileSystem) (path other : String) : Prop :=
  ∃ place, system.follow false path = .ok place ∧ system.follow false other = .ok place

instance : FileStore FileSystem where
  read := read
  write := write
  content := content
  SameFile := SameFile

end FileSystem

end FabricConfig
