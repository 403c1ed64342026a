import Handover.Act
import Handover.Storage.FileTree

namespace Handover

/-- How an operation of the object store fails. -/
inductive ObjectFault where
  | refused (refusal : Refusal)
  | credentials (incomplete : Bool)
  | other (failure : Failure)
  deriving Repr

/-- The object store: archives by place, which is bucket and key, the faults to come, and the calls
made so far. -/
structure ObjectStore where
  objects : List (String × Archive)
  faults : List (ObjectOperation × ObjectFault)
  calls : List (ObjectOperation × String)
  deriving Repr

namespace ObjectStore

def empty : ObjectStore :=
  ⟨[], [], []⟩

/-- Makes an operation fail from now on, or work again. -/
def setFault (s : ObjectStore) (operation : ObjectOperation) (fault : Option ObjectFault) :
    ObjectStore :=
  let others := s.faults.filter fun entry => entry.1 ≠ operation
  { s with faults := others ++ (fault.toList.map fun f => (operation, f)) }

def called (s : ObjectStore) (operation : ObjectOperation) (place : String) :
    Option ObjectFault × ObjectStore :=
  (s.faults.lookup operation, { s with calls := s.calls ++ [(operation, place)] })

def put (s : ObjectStore) (place : String) (content : Archive) :
    Except ObjectFault Unit × ObjectStore :=
  match s.called .put place with
  | (some fault, s') => (.error fault, s')
  | (none, s') =>
    let others := s'.objects.filter fun entry => entry.1 ≠ place
    (.ok (), { s' with objects := others ++ [(place, content)] })

def get (s : ObjectStore) (place : String) : Except ObjectFault Archive × ObjectStore :=
  match s.called .get place with
  | (some fault, s') => (.error fault, s')
  | (none, s') =>
    match s'.objects.lookup place with
    | some content => (.ok content, s')
    | none => (.error (.refused ⟨some "NoSuchKey", none⟩), s')

def delete (s : ObjectStore) (place : String) : Except ObjectFault Unit × ObjectStore :=
  match s.called .delete place with
  | (some fault, s') => (.error fault, s')
  | (none, s') => (.ok (), { s' with objects := s'.objects.filter fun entry => entry.1 ≠ place })

def places (s : ObjectStore) : List String :=
  (s.objects.map (·.1)).mergeSort fun a b => a ≤ b

end ObjectStore

end Handover
