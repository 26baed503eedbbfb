import ControlPlane.Manifest.Load
import ControlPlane.Store.Objects

/-!
# Manifest directories

A source keeps the object store in line with a directory: what its manifests describe is applied,
and what an earlier sync applied and no manifest describes any more is deleted. While some
manifest cannot be read nothing is deleted, for it may describe any object.
-/

namespace ControlPlane.Manifest

/-- What a name in a directory stands for. -/
inductive FileEntry where
  | file (content : Bytes)
  | folder
  deriving DecidableEq, Repr

/-- Entries by name. -/
abbrev Directory := Catalog String FileEntry

/-- What stands after the last dot of a name, unless that dot is its first character. -/
def extension? (name : String) : Option String :=
  let reversed := name.toList.reverse
  let ending := reversed.takeWhile (· != '.')
  match reversed.drop ending.length with
  | _ :: _ :: _ => some (String.ofList ending.reverse)
  | _ => none

def isManifestName (name : String) : Bool :=
  match extension? name with
  | some e => ["yaml", "yml", "json"].contains e
  | none => false

/-- The contents of the manifests, by name. -/
def files (directory : Directory) : List Bytes :=
  directory.entries.filterMap fun (name, entry) =>
    match entry with
    | .file content => if isManifestName name then some content else none
    | .folder => none

/-- What a sync has come to. -/
structure SyncReport where
  applied : Nat
  deleted : Nat
  failedFiles : Nat
  deriving DecidableEq, Repr

/-- A source knows the objects that it has applied. -/
structure Source where
  owned : Catalog ObjectKey Unit

namespace Source

def new : Source := ⟨∅⟩

/-- A sync under way: the store, the report, the keys seen, and how many stamps were used. -/
structure Progress where
  objects : ObjectStore
  report : SyncReport
  seen : Catalog ObjectKey Unit
  stamps : Nat

/-- Applies one object. An object that is refused is passed over. -/
def applyObject (stamp : Nat → Stamp) (p : Progress) (o : Object) : Progress :=
  match p.objects.apply (stamp p.stamps) o with
  | .ok (_, objects) =>
    ⟨objects, { p.report with applied := p.report.applied + 1 }, p.seen.insert o.key (),
      p.stamps + 1⟩
  | .error _ => { p with stamps := p.stamps + 1 }

/-- Applies the objects of one manifest. -/
def applyFile (stamp : Nat → Stamp) (p : Progress) (content : Bytes) : Progress :=
  match ofBytes content with
  | .ok objects => objects.foldl (applyObject stamp) p
  | .error _ => { p with report := { p.report with failedFiles := p.report.failedFiles + 1 } }

/-- Deletes one object, unless it is gone already. -/
def deleteObject (p : Progress) (key : ObjectKey) : Progress :=
  match p.objects.delete key with
  | .ok objects =>
    { p with objects := objects, report := { p.report with deleted := p.report.deleted + 1 } }
  | .error _ => p

/-- The keys that were applied before and are not described any more. -/
def abandoned (s : Source) (seen : Catalog ObjectKey Unit) : List ObjectKey :=
  s.owned.keys.filter fun k => !seen.contains k

/-- What is said of a directory that does not exist. -/
def missingText : String := "No such file or directory (os error 2)"

/-- Brings the store in line with a directory. A stamp is at hand for each object. -/
def sync (s : Source) (directory : Option Directory) (stamp : Nat → Stamp) (objects : ObjectStore) :
    Except PlaneError (Source × Progress) :=
  match directory with
  | none => .error (.inputOutput missingText)
  | some directory =>
    let p := (files directory).foldl (applyFile stamp) ⟨objects, ⟨0, 0, 0⟩, ∅, 0⟩
    if p.report.failedFiles = 0 then
      .ok (⟨p.seen⟩, (s.abandoned p.seen).foldl deleteObject p)
    else .ok (⟨p.seen.keys.foldl (fun owned k => owned.insert k ()) s.owned⟩, p)

end Source

end ControlPlane.Manifest
