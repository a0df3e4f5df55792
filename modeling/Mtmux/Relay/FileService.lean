import Mtmux.Base.FileTree
import Mtmux.Base.OrderedMap
import Mtmux.Crypto.Bytes
import Mtmux.Protocol.Messages

/-! The file service of the relay: the gate on paths, the operations as the operating system
carries them out on the path it is given, and the router's cases that call them. -/
namespace Mtmux.Relay
open Crypto Protocol

def IsName (chars : List Char) : Prop :=
  chars ≠ [] ∧ '/' ∉ chars ∧ chars ≠ ['.'] ∧ chars ≠ ['.', '.']

instance (chars : List Char) : Decidable (IsName chars) :=
  inferInstanceAs (Decidable (_ ∧ _ ∧ _ ∧ _))

abbrev FileName := { chars : List Char // IsName chars }

/-- An absolute path without dot names, as `path.resolve` gives it. -/
abbrev Location := List FileName

abbrev Tree := FileTree FileName Bytes

def slashed : Location → List Char
  | [] => []
  | n :: p => '/' :: (n.1 ++ slashed p)

def pathText : Location → List Char
  | [] => ['/']
  | n :: p => slashed (n :: p)

/-- The parts between slashes. -/
def pathParts : List Char → List (List Char)
  | [] => [[]]
  | c :: rest =>
    if c = '/' then [] :: pathParts rest
    else
      match pathParts rest with
      | [] => [[c]]
      | part :: parts => (c :: part) :: parts

def resolvePart (cur : Location) (part : List Char) : Location :=
  if h : IsName part then cur ++ [⟨part, h⟩]
  else if part = ['.', '.'] then cur.dropLast
  else cur

def pathResolve (cwd : Location) (text : String) : Location :=
  (pathParts text.toList).foldl resolvePart (if text.toList.head? = some '/' then [] else cwd)

/-- What the process runs in, and what of the platform the service uses. `links` is how many
links the system follows on one path. -/
structure FileHost where
  cwd : Location
  home : String
  configDir : Option String
  allowedPaths : List String
  links : Nat
  base64 : String → Bytes
  utf8 : Bytes → String

def maxFileSize : Nat := 100 * 1024
def maxWriteSize : Nat := 1 * 1024 * 1024
def maxUploadBytes : Nat := 10 * 1024 * 1024

section Gate
variable (host : FileHost) (t : Tree)

def joinPath (parts : List String) : String := "/".intercalate parts

def realpathResolve (targetPath : String) : Location :=
  let resolved := pathResolve host.cwd targetPath
  match t.realpath host.links resolved with
  | some real => real
  | none =>
    match resolved.getLast? with
    | none => resolved
    | some base =>
      match t.realpath host.links resolved.dropLast with
      | some parent => parent ++ [base]
      | none => resolved

def deniedRoots : List String :=
  [host.configDir.getD (joinPath [host.home, ".mtmux"]),
    joinPath [host.home, ".tmuxremote"],
    joinPath [host.home, ".ssh"],
    joinPath [host.home, ".aws"],
    joinPath [host.home, ".gnupg"],
    joinPath [host.home, ".config", "gh"],
    joinPath [host.home, ".kube"]]

def resolvedDenied : List Location := (deniedRoots host).map (realpathResolve host t)

def isWithin (resolved root : Location) : Bool :=
  pathText resolved == pathText root || (pathText root ++ ['/']).isPrefixOf (pathText resolved)

variable (denied : List Location)

def isPathAllowed (targetPath : String) : Bool :=
  let resolved := realpathResolve host t targetPath
  if denied.any fun root => isWithin resolved root then false
  else host.allowedPaths.any fun allowed => isWithin resolved (realpathResolve host t allowed)

end Gate

/-- How a call of the system takes its path: the last link is followed to what exists, or to
where a file is created, or the path's own entry is meant. -/
inductive Lookup where
  | opened
  | created
  | entry

/-- Where the system finds what a path names. -/
def lookupPath (host : FileHost) (t : Tree) (p : Location) : Lookup → Option Location
  | .opened => (t.walk false host.links [] (p.map .name)).map Prod.fst
  | .created => (t.walk true host.links [] (p.map .name)).map Prod.fst
  | .entry =>
    match p.getLast? with
    | none => some []
    | some n =>
      match t.walk false host.links [] (p.dropLast.map .name) with
      | none => none
      | some (parent, _) => if t.isDir parent then some (parent ++ [n]) else none

/-! ### Calls of the system, by location -/

def readAt (t : Tree) (loc : Location) : Option Bytes :=
  match t.node loc with
  | some (.file content) => some content
  | some .dir => none
  | some (.link _) => none
  | none => none

def writeAt (t : Tree) (loc : Location) (content : Bytes) : Option Tree :=
  if h : loc ≠ [] ∧ t.isDir loc.dropLast = true ∧ t.isDir loc = false then
    some (t.putFile loc content h.1 h.2.1 h.2.2)
  else none

/-- With the flag `wx`: nothing may be there, and no link is followed. -/
def createAt (t : Tree) (loc : Location) (content : Bytes) : Option Tree :=
  if (t.node loc).isSome then none else writeAt t loc content

def appendAt (t : Tree) (loc : Location) (content : Bytes) : Option Tree :=
  writeAt t loc ((readAt t loc).getD [] ++ content)

def mkdirAt (t : Tree) (loc : Location) : Option Tree :=
  if h : (t.node loc).isSome = false ∧ t.isDir loc.dropLast = true then some (t.addDir loc h.2)
  else none

/-- `rm` of an entry, of a directory only with `recursive`. -/
def removeAt (t : Tree) (loc : Location) (recursive : Bool) : Option Tree :=
  if h : loc ≠ [] ∧ (t.node loc).isSome = true ∧ (recursive = true ∨ t.isDir loc = false) then
    some (t.remove loc h.1)
  else none

/-- `rename`: what is replaced is no directory, or an empty one when a directory takes its
place. Nothing goes into itself. -/
def renameAt (t : Tree) (old new : Location) : Option Tree :=
  if old = new then if (t.node old).isSome then some t else none
  else if h : new ≠ [] ∧ t.isDir new.dropLast = true ∧ ¬ old <+: new ∧ (t.node old).isSome = true ∧
      (t.node new = none ∨ t.isDir old = false ∧ t.isDir new = false ∨
        t.isDir old = true ∧ t.isHollow new = true) then
    some (t.move old new h.1 h.2.1 h.2.2.1)
  else none

/-- How a call ends: as the tree has it, or it fails after all; a write that fails can leave
part of what it was to write, or nothing done. -/
inductive CallEnd where
  | ok
  | fails (left : Option Bytes)

/-- A call that writes `content` by `write` at a place that was looked up. The second part of
the result says whether it succeeded. -/
def performWrite (io : CallEnd) (t : Tree) (loc : Option Location) (content : Bytes)
    (write : Tree → Location → Bytes → Option Tree) : Tree × Bool :=
  match loc with
  | none => (t, false)
  | some loc =>
    match io with
    | .ok =>
      match write t loc content with
      | some after => (after, true)
      | none => (t, false)
    | .fails none => (t, false)
    | .fails (some left) => ((write t loc left).getD t, false)

/-- A call that either takes place or does not. -/
def perform (io : CallEnd) (t : Tree) (call : Option Tree) : Tree × Bool :=
  match io, call with
  | .ok, some after => (after, true)
  | .ok, none => (t, false)
  | .fails _, _ => (t, false)

inductive EntryType where
  | file
  | directory
  | symlink
  deriving DecidableEq

structure ListedEntry where
  name : FileName
  path : Location
  type : EntryType
  size : Nat
  deriving DecidableEq

structure FileStats where
  path : Location
  type : EntryType
  size : Nat
  deriving DecidableEq

def nodeType : FileNode FileName Bytes → EntryType
  | .dir => .directory
  | .file _ => .file
  | .link _ => .symlink

def nodeSize : FileNode FileName Bytes → Nat
  | .dir => 0
  | .file content => content.length
  | .link _ => 0

/-- The uploads of a connection: bytes so far by resolved path. -/
abbrev UploadState := OrderedMap Location Nat

section Operations
variable (host : FileHost) (t : Tree)

/-- `fs.stat`, which follows links. -/
def statAt (p : Location) : Option (FileNode FileName Bytes) :=
  (lookupPath host t p .opened).bind t.node

def listEntry (p : Location) : Option ListedEntry := do
  let name ← p.getLast?
  let entry ← t.node p
  let stat ← statAt host t p
  return { name := name, path := p, type := nodeType entry, size := nodeSize stat }

def listDirectory (dirPath : String) : Option (List ListedEntry) :=
  match lookupPath host t (realpathResolve host t dirPath) .opened with
  | none => none
  | some loc => if t.isDir loc then some ((t.entriesOf loc).filterMap (listEntry host t)) else none

def readFile (filePath : String) : Option (String × Bool) :=
  match (lookupPath host t (realpathResolve host t filePath) .opened).bind (readAt t) with
  | none => none
  | some content =>
    if maxFileSize < content.length then some (host.utf8 (content.take maxFileSize), true)
    else some (host.utf8 content, false)

def getStats (filePath : String) : Option FileStats :=
  match statAt host t (realpathResolve host t filePath) with
  | none => none
  | some node =>
    some { path := realpathResolve host t filePath, type := nodeType node, size := nodeSize node }

/-- `fs.access` comes first, so that nothing new is written. -/
def writeFile (io : CallEnd) (filePath content : String) : Tree × Bool :=
  if maxWriteSize < (utf8ToBytes content).length then (t, false)
  else
    let resolved := realpathResolve host t filePath
    match lookupPath host t resolved .opened with
    | none => (t, false)
    | some _ => performWrite io t (lookupPath host t resolved .created) (utf8ToBytes content) writeAt

def createFile (io : CallEnd) (filePath content : String) : Tree × Bool :=
  performWrite io t (lookupPath host t (realpathResolve host t filePath) .entry) (utf8ToBytes content)
    createAt

def mkdir (io : CallEnd) (dirPath : String) : Tree × Bool :=
  perform io t ((lookupPath host t (realpathResolve host t dirPath) .entry).bind (mkdirAt t))

def deleteFile (io : CallEnd) (filePath : String) : Tree × Bool :=
  let resolved := realpathResolve host t filePath
  if host.allowedPaths.any fun allowed => realpathResolve host t allowed = resolved then (t, false)
  else perform io t ((lookupPath host t resolved .entry).bind fun loc => removeAt t loc true)

def renameFile (io : CallEnd) (oldPath newPath : String) : Tree × Bool :=
  let resolvedOld := realpathResolve host t oldPath
  let resolvedNew := realpathResolve host t newPath
  perform io t ((lookupPath host t resolvedOld .entry).bind fun old =>
    (lookupPath host t resolvedNew .entry).bind fun new => renameAt t old new)

/-- `fs.rm` with `force`, whose failures are ignored. -/
def removeQuietly (io : CallEnd) (resolved : Location) : Tree :=
  (perform io t ((lookupPath host t resolved .entry).bind fun loc => removeAt t loc false)).1

/-- The first chunk creates or truncates, later ones append. -/
def writeChunk (io : CallEnd) (resolved : Location) (currentSize : Nat) (chunk : Bytes) : Tree × Bool :=
  performWrite io t (lookupPath host t resolved .created) chunk
    (if currentSize = 0 then writeAt else appendAt)

end Operations

/-- What the file operations of a connection change. -/
structure FileState where
  tree : Tree
  uploads : UploadState

inductive FileReply where
  | accessDenied
  | failed
  | list (path : String) (entries : List ListedEntry)
  | content (path content : String) (truncated : Bool)
  | stat (stat : FileStats)
  | writeResult (path : String) (size : Option Nat)
  | opResult (op path : String) (success : Bool)
  deriving DecidableEq

namespace FileState
variable (host : FileHost)

def handleUpload (s : FileState) (io : CallEnd) (filePath base64Chunk : String) (final : Bool) :
    FileState × Bool :=
  let resolved := realpathResolve host s.tree filePath
  let chunk := host.base64 base64Chunk
  let currentSize := (s.uploads.get resolved).getD 0
  let newSize := currentSize + chunk.length
  if maxUploadBytes < newSize then
    ({ tree := removeQuietly host s.tree io resolved, uploads := s.uploads.delete resolved }, false)
  else
    let written := writeChunk host s.tree io resolved currentSize chunk
    if written.2 then
      ({ tree := written.1
         uploads := if final then s.uploads.delete resolved else s.uploads.set resolved newSize },
        true)
    else ({ s with tree := written.1 }, false)

def cleanupUploads (s : FileState) (io : Location → CallEnd) : FileState where
  tree := s.uploads.keys.foldl (fun t resolved => removeQuietly host t (io resolved) resolved) s.tree
  uploads := .empty

def changed (s : FileState) (op path : String) (written : Tree × Bool) :
    FileState × Option FileReply :=
  ({ s with tree := written.1 }, some (.opResult op path written.2))

/-- A reading operation that fails throws. -/
def answered (s : FileState) (io : CallEnd) (reply : Option FileReply) : FileState × Option FileReply :=
  match io with
  | .ok => (s, some (reply.getD .failed))
  | .fails _ => (s, some .failed)

/-- The `file:` cases of the router. -/
def handle (denied : List Location) (s : FileState) (io : CallEnd) (msg : ClientMessage) :
    FileState × Option FileReply :=
  let allowed := isPathAllowed host s.tree denied
  match msg with
  | .fileList path =>
    if allowed path then
      s.answered io ((listDirectory host s.tree path).map fun entries => .list path entries)
    else (s, some .accessDenied)
  | .fileRead path =>
    if allowed path then
      s.answered io ((readFile host s.tree path).map fun (text, truncated) =>
        .content path text truncated)
    else (s, some .accessDenied)
  | .fileStat path =>
    if allowed path then s.answered io ((getStats host s.tree path).map .stat)
    else (s, some .accessDenied)
  | .fileWrite path content =>
    if allowed path then
      let written := writeFile host s.tree io path content
      ({ s with tree := written.1 },
        some (.writeResult path (if written.2 then some (utf8ToBytes content).length else none)))
    else (s, some .accessDenied)
  | .fileCreate path content =>
    if allowed path then s.changed "create" path (createFile host s.tree io path (content.getD ""))
    else (s, some .accessDenied)
  | .fileMkdir path =>
    if allowed path then s.changed "mkdir" path (mkdir host s.tree io path)
    else (s, some .accessDenied)
  | .fileDelete path =>
    if allowed path then s.changed "delete" path (deleteFile host s.tree io path)
    else (s, some .accessDenied)
  | .fileRename oldPath newPath =>
    if allowed oldPath && allowed newPath then
      s.changed "rename" newPath (renameFile host s.tree io oldPath newPath)
    else (s, some .accessDenied)
  | .fileUpload path content final =>
    if allowed path then
      let (after, success) := s.handleUpload host io path content final
      (after, if success && !final then none else some (.opResult "upload" path success))
    else (s, some .accessDenied)
  | _ => (s, none)

end FileState
end Mtmux.Relay
