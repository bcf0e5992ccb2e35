import Rynmesh.CheckedComputation
import Rynmesh.InsertionDict
import Rynmesh.JsonValue

/-!
# Grants of AI services to friends

`ai_access/store.py`: the owner allows a friend a service, and takes it back, under a
revision that each change raises.

* `Permissions` is what the file holds, as `_read` checks it;
* `Permissions.set` and `Permissions.authorize` are the calls;
* `Step` interleaves the sessions of the owner with changes of the friends.

Fields that the store does not know are left out, and so is the wrong type of an argument.
-/

namespace AIAccess

open Checked

def maxGrants : Nat := 5000

structure Platform where
  /-- The SHA-256 in hexadecimal. -/
  sha256 : String → String

/-- What `relationship` tells of a friend. -/
structure Relationship where
  peerId : String
  active : Bool
  named : 1 ≤ peerId.length ∧ peerId.length ≤ 128

structure Grant where
  serviceId : String
  relationshipId : String
  peerId : String
  allowed : Bool
  revision : Nat
  deriving DecidableEq

/-! ### Keys -/

def isServiceChar (c : Char) : Bool := ('a' ≤ c ∧ c ≤ 'z') ∨ ('0' ≤ c ∧ c ≤ '9')

/-- `[a-z0-9][a-z0-9_.-]{0,127}`. -/
def isService (text : String) : Bool :=
  match text.toList with
  | [] => false
  | c :: rest => isServiceChar c && rest.length ≤ 127 &&
      rest.all fun c => isServiceChar c || c = '_' || c = '.' || c = '-'

/-- `[a-f0-9]{32}`. -/
def isRelationshipId (text : String) : Bool :=
  text.length = 32 && text.toList.all fun c => ('a' ≤ c ∧ c ≤ 'f') ∨ ('0' ≤ c ∧ c ≤ '9')

section Store

variable (p : Platform)

/-- `rule_key`. -/
def ruleKey (serviceId relationshipId : String) : Except String String := do
  require "ai_service_invalid" (isService serviceId = true)
  require "ai_relationship_invalid" (isRelationshipId relationshipId = true)
  return p.sha256 (serviceId ++ "\x00" ++ relationshipId)

/-- The grants of the file. -/
structure Permissions where
  grants : Dict String Grant
  keyed : ∀ key row, grants.get? key = some row →
    ruleKey p row.serviceId row.relationshipId = .ok key
  positive : ∀ key row, grants.get? key = some row → 1 ≤ row.revision
  named : ∀ key row, grants.get? key = some row → 1 ≤ row.peerId.length ∧ row.peerId.length ≤ 128

def Permissions.empty : Permissions p where
  grants := .empty
  keyed := nofun
  positive := nofun
  named := nofun

variable {p}

/-- A grant takes the place of the one with its key. -/
def Permissions.put (store : Permissions p) (key : String) (row : Grant)
    (hkey : ruleKey p row.serviceId row.relationshipId = .ok key) (hpositive : 1 ≤ row.revision)
    (hnamed : 1 ≤ row.peerId.length ∧ row.peerId.length ≤ 128) : Permissions p where
  grants := store.grants.set key row
  keyed := by
    intro other found h
    rw [Dict.get?_set] at h
    split at h
    · rename_i heq
      cases h
      rw [heq]
      exact hkey
    · exact store.keyed other found h
  positive := by
    intro other found h
    rw [Dict.get?_set] at h
    split at h
    · cases h
      exact hpositive
    · exact store.positive other found h
  named := by
    intro other found h
    rw [Dict.get?_set] at h
    split at h
    · cases h
      exact hnamed
    · exact store.named other found h

/-- The row of a service and a relationship. -/
def Permissions.grantAt (store : Permissions p) (serviceId relationshipId : String) :
    Option Grant :=
  match ruleKey p serviceId relationshipId with
  | .ok key => store.grants.get? key
  | .error _ => none

/-! ### The calls -/

/-- The friends as the store sees them. -/
abbrev Friends := String → Option Relationship

/-- An active relationship with a peer. -/
def Friends.activeWith (friends : Friends) (relationshipId peerId : String) : Bool :=
  (friends relationshipId).any fun row => row.active && row.peerId = peerId

/-- What the owner is shown of a grant. -/
structure Public where
  grant : Grant
  effective : Bool

/-- `_public`. -/
def Grant.public (row : Grant) (friends : Friends) : Public :=
  ⟨row, row.allowed && friends.activeWith row.relationshipId row.peerId⟩

/-- What `set` is asked for. -/
structure Request where
  serviceId : String
  relationshipId : String
  allowed : Bool
  expectedRevision : Nat
  deriving DecidableEq

/-- A change of a grant that is there. -/
def Permissions.change (store : Permissions p) (friends : Friends) (request : Request)
    (written : Bool) (key : String) (prior : Grant) (hprior : store.grants.get? key = some prior) :
    Except String (Permissions p × Public) :=
  if prior.revision = request.expectedRevision + 1 ∧ prior.allowed = request.allowed then
    -- exactly the preceding write lost its response
    .ok (store, prior.public friends)
  else if prior.revision ≠ request.expectedRevision then
    .error "ai_permission_revision_conflict"
  else if prior.allowed = request.allowed then .ok (store, prior.public friends)
  else do
    require "ai_relationship_invalid" (request.allowed = true →
      (friends request.relationshipId).map Relationship.peerId = some prior.peerId)
    require "OSError" (written = true)
    let row := { prior with allowed := request.allowed, revision := prior.revision + 1 }
    return (store.put key row (store.keyed key prior hprior) (Nat.le_add_left 1 _)
      (store.named key prior hprior), row.public friends)

/-- The first grant of a service to a friend. -/
def Permissions.create (store : Permissions p) (friends : Friends) (request : Request)
    (written : Bool) (key : String)
    (hkey : ruleKey p request.serviceId request.relationshipId = .ok key) :
    Except String (Permissions p × Public) := do
  let relationship ← demand "ai_friend_inactive" (friends request.relationshipId)
  require "ai_permission_revision_conflict" (0 = request.expectedRevision)
  require "ai_permission_capacity_exhausted" (store.grants.entries.length < maxGrants)
  require "OSError" (written = true)
  let row := ⟨request.serviceId, request.relationshipId, relationship.peerId, request.allowed, 1⟩
  return (store.put key row hkey le_rfl relationship.named, row.public friends)

/-- `set`; `written` says whether the file could be written. -/
def Permissions.set (store : Permissions p) (friends : Friends) (request : Request)
    (written : Bool) : Except String (Permissions p × Public) := do
  let ⟨key, hkey⟩ ← attach (ruleKey p request.serviceId request.relationshipId)
  require "ai_friend_inactive" (request.allowed = true →
    (friends request.relationshipId).any Relationship.active = true)
  match hprior : store.grants.get? key with
  | some prior => store.change friends request written key prior hprior
  | none => store.create friends request written key hkey

/-- What an accepted permission says. -/
structure Accepted where
  relationshipId : String
  revision : Nat
  deriving DecidableEq

/-- `authorize`; the permission comes with the request, in any shape. -/
def Permissions.authorize (store : Permissions p) (friends : Friends) (peerId serviceId : String)
    (permission : Json) : Except String Accepted := do
  let revision ← demand "ai_permission_required" ((permission.get? "revision").bind Json.asInt?)
  require "ai_service_invalid" (isService serviceId = true)
  let relationshipId ← demand "ai_relationship_invalid"
    ((permission.get? "relationship_id").bind Json.asStr?)
  let key ← ruleKey p serviceId relationshipId
  let row ← demand "ai_permission_denied" ((store.grants.get? key).filter fun row =>
    row.peerId = peerId && row.allowed)
  require "ai_permission_revoked" ((row.revision : Int) = revision)
  require "ai_friend_inactive" (friends.activeWith row.relationshipId peerId = true)
  return ⟨row.relationshipId, row.revision⟩

end Store

/-! ### Runs -/

/-- A file and the friends of a node. -/
structure World (p : Platform) where
  store : Permissions p
  friends : Friends

variable {p : Platform}

/-- A call that raises and one of `authorize` change nothing, and are no steps. -/
inductive Step (w : World p) : World p → Prop
  /-- A relationship begins, ends or changes. -/
  | relate (friends : Friends) : Step w { w with friends }
  | set (request : Request) (written : Bool) {store : Permissions p} {shown : Public}
      (h : w.store.set w.friends request written = .ok (store, shown)) : Step w { w with store }

inductive Run (w : World p) : World p → Prop
  | refl : Run w w
  | step {next last : World p} (h : Run w next) (hstep : Step next last) : Run w last

def World.initial (p : Platform) (friends : Friends) : World p := ⟨.empty p, friends⟩

end AIAccess
