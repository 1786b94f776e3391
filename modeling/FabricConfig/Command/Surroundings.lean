import FabricConfig.Log.Event

/-! Access to files and to the log. -/

namespace FabricConfig

/-- Why a file cannot be used. -/
inductive FileFault where
  | notFound
  | permissionDenied
  | notADirectory
  | isADirectory
  | nameTooLong
  | tooManyLinks
  | nulInName
  | notUtf8
  | other (message : String)
deriving DecidableEq

def FileFault.message : FileFault → String
  | .notFound => "No such file or directory (os error 2)"
  | .permissionDenied => "Permission denied (os error 13)"
  | .notADirectory => "Not a directory (os error 20)"
  | .isADirectory => "Is a directory (os error 21)"
  | .nameTooLong => "File name too long (os error 36)"
  | .tooManyLinks => "Too many levels of symbolic links (os error 40)"
  | .nulInName => "file name contained an unexpected NUL byte"
  | .notUtf8 => "stream did not contain valid UTF-8"
  | .other message => message

/-- What commands do to the world around them. -/
class Surroundings (m : Type → Type) where
  read : String → m (Except FileFault ByteArray)
  /-- Replaces the content of a file or makes a new one. -/
  write : String → String → m (Except FileFault Unit)
  log : Event → m Unit

/-- The text in a file. -/
def readText {m : Type → Type} [Monad m] [Surroundings m] (path : String) :
    m (Except FileFault String) := do
  match ← Surroundings.read path with
  | .error fault => return .error fault
  | .ok content =>
    match String.fromUTF8? content with
    | some text => return .ok text
    | none => return .error .notUtf8

/-- File systems of one kind, as values. -/
class FileStore (σ : Type) where
  read : σ → String → Except FileFault ByteArray
  write : σ → String → String → Except FileFault σ
  /-- What the file at a path holds, whether it may be read or not. -/
  content : σ → String → Option ByteArray
  /-- Two paths lead to one file, or to where one file can be made. -/
  SameFile : σ → String → String → Prop

/-- A file system and the log so far. -/
structure World (σ : Type) where
  system : σ
  events : List Event := []

instance {σ : Type} [FileStore σ] : Surroundings (StateM (World σ)) where
  read path world := (FileStore.read world.system path, world)
  write path text world :=
    match FileStore.write world.system path text with
    | .ok system => (.ok (), { world with system })
    | .error fault => (.error fault, world)
  log event world := ((), { world with events := world.events ++ [event] })

end FabricConfig
