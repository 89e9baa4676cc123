import Multipart.Files.Path
import Multipart.Source.Script
import Multipart.Text.Utf8

/-!
# Files

An open file remembers the number of its node, so it outlives the removal of its name and sees what
is written in place.
-/

namespace Multipart

namespace Files

abbrev NodeId := Nat

/-- A device, a pipe, a file that the system makes up as it is read, or one that it cannot read.
Nothing that is written to it stays. -/
structure SpecialFile where
  passesForRegular : Bool
  refusal : Option SystemError := none
  reads : List ScriptedRead := []
  rewinding : Rewinding := .restores
  /-- Where seeking to its end leads, whatever its reads give. -/
  endOffset : Option Nat := none
  deriving DecidableEq, Repr

def SpecialFile.content (file : SpecialFile) : Except SystemError Bytes :=
  match file.refusal with
  | some e => .error e
  | none => Script.gatherAll file.reads

inductive Node
  | directory (parent : NodeId) (entries : List (Bytes × NodeId))
  | regular (content : Bytes)
  | special (file : SpecialFile)
  deriving DecidableEq, Repr

def Node.passesForRegular : Node → Bool
  | .directory .. => false
  | .regular _ => true
  | .special file => file.passesForRegular

end Files

structure FileSystem where
  nodes : List Files.Node
  root : Files.NodeId
  working : Files.NodeId
  /-- Where seeking to the end of a directory leads. -/
  directoryEnd : Option Nat := some 0x7FFFFFFFFFFFFFFF
  deriving DecidableEq, Repr

/-- A regular file or a directory opened for reading, and the position of the next read. -/
structure OpenFile where
  node : Files.NodeId
  offset : Nat
  deriving DecidableEq, Repr

namespace FileSystem

open Files

variable (fs : FileSystem)

def node (id : NodeId) : Node := fs.nodes[id]?.getD (.regular [])

def longestName : Nat := 255

def longestPath : Nat := 4095

def entry? (entries : List (Bytes × NodeId)) (name : Bytes) : Option NodeId :=
  (entries.find? (·.1 == name)).map (·.2)

def enter (id : NodeId) (name : Bytes) : Except SystemError NodeId :=
  match fs.node id with
  | .directory parent entries =>
    if name = [Octet.dot] then .ok id
    else if name = [Octet.dot, Octet.dot] then .ok parent
    else if longestName < name.length then .error .nameTooLong
    else match entry? entries name with
      | some found => .ok found
      | none => .error .notFound
  | _ => .error .notDirectory

def walk (id : NodeId) (names : List Bytes) : Except SystemError NodeId :=
  names.foldlM fs.enter id

def mustBeDirectory (id : NodeId) : Except SystemError NodeId := fs.enter id [Octet.dot]

structure Route where
  start : NodeId
  names : List Bytes
  trailingSlash : Bool

def route (p : Path) : Except SystemError Route :=
  if p.contains 0 then .error .nulInPath
  else if p = [] then .error .notFound
  else if longestPath < p.length then .error .nameTooLong
  else .ok {
    start := if p.hasRoot then fs.root else fs.working
    names := (Bytes.sections Octet.slash p).filter (· ≠ [])
    trailingSlash := p.getLast? == some Octet.slash }

def resolve (p : Path) : Except SystemError NodeId := do
  let r ← fs.route p
  let id ← fs.walk r.start r.names
  if r.trailingSlash then fs.mustBeDirectory id else pure id

def lookup (p : Path) : Except SystemError Node := fs.node <$> fs.resolve p

def fileExists (p : Path) : Bool := (fs.resolve p).toBool

def isDirectory (p : Path) : Bool :=
  match fs.lookup p with
  | .ok (.directory ..) => true
  | _ => false

/-- What an open file of this node holds. A special file is read by its script instead. -/
def content (id : NodeId) : Except SystemError Bytes :=
  match fs.node id with
  | .directory .. => .error .isDirectory
  | .regular content => .ok content
  | .special _ => .ok []

def contentAt (p : Path) : Except SystemError Bytes := do
  let id ← fs.resolve p
  match fs.node id with
  | .special file => file.content
  | .directory .. | .regular _ => fs.content id

def readText (p : Path) : Except SystemError String := do
  match Utf8.decode (← fs.contentAt p) with
  | .ok text => pure text
  | .error _ => throw .notUtf8

def setNode (id : NodeId) (node : Node) : FileSystem := { fs with nodes := fs.nodes.set id node }

def addEntry (directory : NodeId) (name : Bytes) (node : Node) : FileSystem :=
  match fs.node directory with
  | .directory parent entries =>
    let fs := fs.setNode directory (.directory parent (entries ++ [(name, fs.nodes.length)]))
    { fs with nodes := fs.nodes ++ [node] }
  | _ => fs

/-- The directory that the last name of a route is in, if the route ends in a name. -/
def holder (r : Route) : Except SystemError (Option (NodeId × Bytes)) :=
  match r.names.getLast? with
  | none => pure none
  | some last => do
    let directory ← fs.mustBeDirectory (← fs.walk r.start r.names.dropLast)
    if last = [Octet.dot] ∨ last = [Octet.dot, Octet.dot] then pure none
    else pure (some (directory, last))

/-- Writes in place, and creates the file if it is missing. -/
def writeFile (p : Path) (content : Bytes) : Except SystemError FileSystem := do
  let r ← fs.route p
  match ← fs.holder r with
  | none => throw .isDirectory
  | some (directory, name) =>
    if r.trailingSlash then throw .isDirectory
    match fs.enter directory name with
    | .ok id =>
      match fs.node id with
      | .directory .. => throw .isDirectory
      | .regular _ => pure (fs.setNode id (.regular content))
      | .special _ => pure fs
    | .error .notFound => pure (fs.addEntry directory name (.regular content))
    | .error e => throw e

def makeDirectory (p : Path) : Except SystemError FileSystem := do
  let r ← fs.route p
  match ← fs.holder r with
  | none => throw .alreadyExists
  | some (directory, name) =>
    match fs.enter directory name with
    | .ok _ => throw .alreadyExists
    | .error .notFound => pure (fs.addEntry directory name (.directory directory []))
    | .error e => throw e

def ensureDirectory (p : Path) : Except SystemError Unit × FileSystem :=
  match fs.makeDirectory p with
  | .ok fs => (.ok (), fs)
  | .error e => (if fs.isDirectory p then .ok () else .error e, fs)

/-- Makes a directory, and those above it that are missing. What was made stays if a later one
fails. The working directory, which the empty path stands for, is there. -/
def makeDirectoryPath (p : Path) (fs : FileSystem) : Except SystemError Unit × FileSystem :=
  if p = [] then (.ok (), fs)
  else match fs.makeDirectory p with
    | .error .notFound =>
      match h : p.parent? with
      | none => (.error .notFound, fs)
      | some parent =>
        have := Path.length_parent? h
        match makeDirectoryPath parent fs with
        | (.ok (), fs) => fs.ensureDirectory p
        | (.error e, fs) => (.error e, fs)
    | _ => fs.ensureDirectory p
termination_by p.length

def makeParent (p : Path) : Except SystemError Unit × FileSystem :=
  match p.parent? with
  | some directory => makeDirectoryPath directory fs
  | none => (.ok (), fs)

def removeFile (p : Path) : Except SystemError FileSystem := do
  let r ← fs.route p
  match ← fs.holder r with
  | none => throw .isDirectory
  | some (directory, name) =>
    let id ← fs.enter directory name
    match fs.node id, fs.node directory with
    | .directory .., _ => throw .isDirectory
    | _, .directory parent entries =>
      if r.trailingSlash then throw .notDirectory
      pure (fs.setNode directory (.directory parent (entries.filter (·.1 ≠ name))))
    | _, _ => throw .notDirectory

/-- An empty working directory, and above it the special files that programs name. -/
def initial : FileSystem where
  nodes := [
    .directory 0 [(Utf8.encode "dev", 1), (Utf8.encode "proc", 3), (Utf8.encode "tmp", 9)],
    .directory 0 [(Utf8.encode "null", 2)],
    .special { passesForRegular := false, endOffset := some 0 },
    .directory 0 [(Utf8.encode "self", 4), (Utf8.encode "sys", 6)],
    .directory 3 [(Utf8.encode "status", 5)],
    .special { passesForRegular := true, reads := [.data (Utf8.encode "State:\tR (running)\n")] },
    .directory 3 [(Utf8.encode "kernel", 7)],
    .directory 6 [(Utf8.encode "ostype", 8)],
    .special
      { passesForRegular := true, reads := [.data (Utf8.encode "Linux\n")], endOffset := some 0 },
    .directory 0 [(Utf8.encode "work", 10)],
    .directory 9 []]
  root := 0
  working := 10

end FileSystem

namespace OpenFile

open Files

def read (fs : FileSystem) (limit : Nat) (file : OpenFile) :
    Except SystemError Bytes × OpenFile :=
  match fs.content file.node with
  | .error e => (.error e, file)
  | .ok content =>
    let chunk := (content.drop file.offset).take limit
    (.ok chunk, { file with offset := file.offset + chunk.length })

def endOffset? (fs : FileSystem) (file : OpenFile) : Option Nat :=
  match fs.node file.node with
  | .regular content => some content.length
  | .directory .. => fs.directoryEnd
  | .special _ => none

end OpenFile

end Multipart
