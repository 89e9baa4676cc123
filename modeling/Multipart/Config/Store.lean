import Multipart.Config.Basic
import Multipart.Toml.Document
import Multipart.Toml.Writer
import Multipart.Trace

/-! # Stored configurations -/

namespace Multipart

structure Environment where
  entries : List (String × Bytes)
  deriving DecidableEq, Repr

namespace Environment

def get? (env : Environment) (name : String) : Option Bytes :=
  (env.entries.find? (·.1 == name)).map (·.2)

def unset (env : Environment) (name : String) : Environment :=
  ⟨env.entries.filter (·.1 != name)⟩

def set (env : Environment) (name : String) (value : Bytes) : Environment :=
  ⟨(name, value) :: (env.unset name).entries⟩

/-- The directory for configurations: the one that is set, if it is absolute, or else the one in
the home directory. -/
def configDirectory? (env : Environment) : Option Path :=
  match (env.get? "XDG_CONFIG_HOME").filter Path.hasRoot with
  | some directory => some directory
  | none =>
    ((env.get? "HOME").filter (· ≠ [])).map fun home => Path.join home (Utf8.encode ".config")

def configPath? (env : Environment) : Option Path :=
  match env.get? "FORMWIRE_CONFIG" with
  | some path => some path
  | none => env.configDirectory?.map fun directory =>
    Path.join (Path.join directory (Utf8.encode "formwire")) (Utf8.encode "config.toml")

end Environment

inductive SaveError
  | noDirectory
  | chunkSizeOutOfRange
  | io (cause : SystemError)
  deriving DecidableEq, Repr

def SaveError.message : SaveError → String
  | .noDirectory => "no config directory for formwire on this platform"
  | .chunkSizeOutOfRange => "out-of-range value for u64 type"
  | .io cause => cause.message

namespace Config

/-- The configuration that a table holds. Missing keys have their standard values, and unknown keys
do not matter. -/
def ofEntries? (entries : Toml.Entries) : Option Config := do
  let chunkSize ← match entries.get? "chunk_size" with
    | none => some standard.chunkSize
    | some (.integer n) => if 0 ≤ n then some n.toNat else none
    | some _ => none
  let boundary ← match entries.get? "boundary" with
    | none => some none
    | some (.string s) => some (some s)
    | some _ => none
  some { chunkSize, boundary }

def ofToml? (text : String) : Option Config := (Toml.read? text).bind ofEntries?

def toToml? (c : Config) : Option String :=
  if Toml.largestInteger < c.chunkSize then none
  else
    let size := Toml.Writer.entry "chunk_size" (Decimal.digits c.chunkSize)
    let boundary := match c.boundary with
      | none => []
      | some b => Toml.Writer.entry "boundary" (Toml.Writer.string b)
    some (String.ofList (size ++ boundary))

def load (env : Environment) (fs : FileSystem) : Traced Config :=
  match env.configPath?.filter fs.fileExists with
  | none => return standard
  | some path =>
    match fs.readText path with
    | .error _ => do
      Traced.report .configUnreadable
      return standard
    | .ok text =>
      match ofToml? text with
      | some config => do
        Traced.report .configLoaded
        return config
      | none => do
        Traced.report .configMalformed
        return standard

/-- Saves a configuration. The directory is made first; a read size out of range is found before the
file is touched. -/
def save (env : Environment) (c : Config) (fs : FileSystem) :
    Traced (Except SaveError Unit × FileSystem) :=
  match env.configPath? with
  | none => return (.error .noDirectory, fs)
  | some path =>
    match fs.makeParent path with
    | (.error e, fs) => return (.error (.io e), fs)
    | (.ok (), fs) =>
      match c.toToml? with
      | none => return (.error .chunkSizeOutOfRange, fs)
      | some text =>
        match fs.writeFile path (Utf8.encode text) with
        | .error e => return (.error (.io e), fs)
        | .ok fs => do
          Traced.report .configSaved
          return (.ok (), fs)

end Config

end Multipart
