/-
# Replacing a file in one go

A file is replaced in a directory without anyone seeing half of it: its bytes are written
under the hidden name first, and then that file takes the place of the old one. Whatever
happens, what is left under the hidden name is removed at the end, if it can be.

A directory is given by a path, which is looked up again for every file: where the path leads
through the directory itself, a file that has been replaced may have cut it off.

Every operation may fail by itself (`Faults`), and a copy that fails may leave part of the
bytes behind. What has been done to the directory is logged action by action: the tree
afterwards is the tree before with the actions of the log applied in turn.
-/

import ClusterSync.Failure
import ClusterSync.Files.ClusterFile
import ClusterSync.Files.Tree

namespace ClusterSync
namespace Publish

open Files (Place OsError)

/-- Something done to a directory. -/
inductive Action
  /-- These bytes are written under the hidden name of a file. -/
  | fill (file : String) (bytes : ByteArray)
  /-- The hidden file takes its place. -/
  | promote (file : String)
  /-- The hidden file is removed. -/
  | discard (file : String)
  /-- A file is removed. -/
  | delete (file : String)
deriving DecidableEq

/-- What an action makes of a tree, in a directory. -/
def Action.apply (dir : Place) (tree : FileTree) : Action → Except OsError FileTree
  | fill file bytes => tree.write dir (ClusterFile.hidden file) bytes
  | promote file => tree.rename dir (ClusterFile.hidden file) file
  | discard file => tree.remove dir (ClusterFile.hidden file)
  | delete file => tree.remove dir file

/-- What a list of actions makes of a tree. An action that cannot be done is left out. -/
def applyAll (dir : Place) (actions : List Action) (tree : FileTree) : FileTree :=
  actions.foldl (fun tree a =>
    match a.apply dir tree with
    | .ok tree => tree
    | .error _ => tree) tree

/-- A write that fails, and how many of the bytes it leaves: none at all, or a file with
the first of them. -/
structure Torn where
  left : Option Nat
  error : OsError

/-- What goes wrong by itself while files are published. -/
structure Faults where
  /-- No directory can be made to collect the files in. -/
  collect : Option OsError := none
  /-- A file cannot be written there. -/
  stage : String → Option Torn := fun _ => none
  /-- That directory cannot be listed. -/
  listStaged : Option OsError := none
  /-- The directory to publish into cannot be listed. -/
  listPublished : Option OsError := none
  copy : String → Option Torn := fun _ => none
  promote : String → Option OsError := fun _ => none
  discard : String → Option OsError := fun _ => none
  delete : String → Option OsError := fun _ => none

/-- Nothing goes wrong by itself. -/
def Faults.none : Faults := {}

/-- The first bytes of a file. -/
def firstBytes (bytes : ByteArray) (n : Nat) : ByteArray := bytes.extract 0 n

/-- A tree, and the actions that led to it. -/
structure Progress where
  tree : FileTree
  log : List Action := []

namespace Progress

/-- Does an action, unless it fails by itself. -/
def act (p : Progress) (dir : Place) (fault : Option OsError) (a : Action) :
    Progress × Except OsError Unit :=
  match fault with
  | some e => (p, .error e)
  | none =>
    match a.apply dir p.tree with
    | .ok tree => (⟨tree, p.log ++ [a]⟩, .ok ())
    | .error e => (p, .error e)

/-- Writes bytes under the hidden name of a file. Where the write breaks off it leaves the
first of them. -/
def fill (p : Progress) (dir : Place) (fault : Option Torn) (file : String)
    (bytes : ByteArray) : Progress × Except OsError Unit :=
  match fault with
  | none => p.act dir none (.fill file bytes)
  | some ⟨none, e⟩ => (p, .error e)
  | some ⟨some n, e⟩ =>
    match p.act dir none (.fill file (firstBytes bytes n)) with
    | (p, .ok ()) => (p, .error e)
    | (p, .error e) => (p, .error e)

/-- Removes what is left under the hidden name of a file. -/
def tidy (p : Progress) (dir : Place) (fault : Option OsError) (file : String) : Progress :=
  if p.tree.leadsSomewhere dir (ClusterFile.hidden file) then
    (p.act dir fault (.discard file)).1
  else p

/-- Replaces a file by bytes that have been read, or not. -/
def replace (p : Progress) (dir : Place) (faults : Faults) (file : String)
    (bytes : Except OsError ByteArray) : Progress × Except OsError Unit :=
  let (p, result) : Progress × Except OsError Unit :=
    match bytes with
    | .error e => (p, .error e)
    | .ok bytes =>
      match p.fill dir (faults.copy file) file bytes with
      | (p, .error e) => (p, .error e)
      | (p, .ok ()) => p.act dir (faults.promote file) (.promote file)
  (p.tidy dir (faults.discard file) file, result)

end Progress

/-- Why nothing can be reached in a directory by a path that leads to none. -/
def noWay (tree : FileTree) (directory name : String) : OsError :=
  match tree.locate true [] (Files.join directory name) with
  | .error e => e
  | .ok _ => .notFound

namespace Progress

/-- Replaces a file in the directory that a path leads to by now. -/
def replaceIn (p : Progress) (directory : String) (faults : Faults) (file : String)
    (bytes : ByteArray) : Progress × Except OsError Unit :=
  match p.tree.directory? directory with
  | some dir => p.replace dir faults file (.ok bytes)
  | none => (p, .error (noWay p.tree directory (ClusterFile.hidden file)))

/-- Deletes a file in the directory that a path leads to by now. -/
def deleteIn (p : Progress) (directory : String) (fault : Option OsError) (file : String) :
    Progress × Except OsError Unit :=
  match p.tree.directory? directory with
  | some dir => p.act dir fault (.delete file)
  | none => (p, .error (noWay p.tree directory file))

end Progress

/-- Do a path from the top and one from a directory lead to the same place? -/
def leadToOne (tree : FileTree) (path : String) (dir : Place) (other : String) : Bool :=
  match tree.locate true [] path, tree.locate true dir other with
  | .ok a, .ok b => decide (a.place = b.place)
  | _, _ => false

/-- The bytes that a copy finds in the file which a path leads to. If that is the file which
is written, there are none left: it is emptied before it is read. -/
def bytesToCopy (tree : FileTree) (path : String) (dir : Place) (written : String) :
    Except OsError ByteArray :=
  (tree.readRegular [] path).map fun bytes =>
    if leadToOne tree path dir written then .empty else bytes

/-- Copies a file from one directory into another, which sees the old file or the new
one and nothing else. Both directories are given by paths. -/
def atomicCopy (faults : Faults) (source : String) (file : String) (target : String)
    (tree : FileTree) : FileTree × Except Failure Unit :=
  let path := Files.join target file
  let original := Files.join source file
  match tree.directory? target with
  | none =>
    let missing : Except OsError Unit := do
      let _ ← tree.readRegular [] original
      let _ ← tree.locate true [] (Files.join target (ClusterFile.hidden file))
      throw .notFound
    (tree, missing.mapError (.publish path))
  | some dir =>
    let bytes := bytesToCopy tree original dir (ClusterFile.hidden file)
    match (⟨tree, []⟩ : Progress).replace dir faults file bytes with
    | (p, .ok ()) => (p.tree, .ok ())
    | (p, .error e) => (p.tree, .error (.publish path e))

end Publish
end ClusterSync
