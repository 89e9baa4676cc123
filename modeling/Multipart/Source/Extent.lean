import Multipart.Source.Basic

/-!
# How much a source can give

`extent` bounds the number of chunks and failures that one rendering of a source gives, whatever the
size of a chunk: a chunk has an octet in it, and a failure takes an answer.
-/

namespace Multipart

def ScriptedRead.extent : ScriptedRead → Nat
  | .data octets => octets.length
  | .interrupted => 0
  | .failure _ => 1

namespace Script

def extentOf : List ScriptedRead → Nat
  | [] => 0
  | read :: rest => read.extent + extentOf rest

def extent (s : Script) : Nat := extentOf s.whole + extentOf s.rest

end Script

def FileSystem.extentOf (fs : FileSystem) (id : Files.NodeId) : Nat :=
  match fs.content id with
  | .ok content => content.length
  | .error _ => 1

def Reader.extent (fs : FileSystem) : Reader → Nat
  | .cursor content _ => content.length
  | .file f => fs.extentOf f.node
  | .pipe rest => rest.length
  | .script s => s.extent

def Source.extent (fs : FileSystem) : Source → Nat
  | .bytes _ | .text _ => 1
  | .path p =>
    match fs.openFile p with
    | .ok opened => opened.extent fs
    | .error _ => 1
  | .reader r => r.extent fs
  | .stream s => s.length

end Multipart
