import Rynmesh.ConsumptionStore

/-!
# Erasing the reading history at its source

`services/reading_privacy.py`: an erasure empties the history and keeps, for every
identity that it knows, a barrier: the clocks of all its records with a deletion on top.
Where a scope is synced the barriers are its entities; where it is not they stay in the
receipt until the scope is enabled.
-/

namespace ReadingPrivacy

open Checked Reading Consumption
open SyncValues (ScopeName)

structure Platform extends Consumption.Platform where
  /-- `fingerprint` of the actor, the document and the further rows of a review. -/
  review : String → Document → Dict String Row → String
  rowsFingerprint : Dict String Row → String

/-! ### The review -/

/-- A row of the replica. -/
def addRow (lib : Library) (result : Dict String Row) (row : Row) :
    Except String (Dict String Row) := do
  require "reading_privacy_replica_invalid" (row.scope ∈ SCOPES)
  let key ← key lib row.scope row.id
  require "reading_privacy_replica_invalid" (result.get? key).isNone
  Records.validate (lib.scope row.scope) row.id row.record
  return result.set key row

/-- `_additional`. -/
def additional (lib : Library) : Option (List Row) → Except String (Dict String Row)
  | none => .ok .empty
  | some rows => do
      require "reading_privacy_limit" (rows.length ≤ MAX_ENTITIES)
      rows.foldlM (addRow lib) .empty

/-- The identity checks of `_review`. -/
def checkIdentity (actor : String) (document : Document) : Except String Unit := do
  require "sync_device_identity_changed"
    (∀ state, document.sync = some state → state.actor = actor)
  require "sync_device_identity_changed"
    (∀ receipt, document.receipt = some receipt → receipt.actor = actor)

/-- `preview`, of which the token. -/
def preview (p : Platform) (actor : String) (rows : Option (List Row)) (disk : Disk) :
    Except String String := do
  let extra ← additional p.toLibrary rows
  let document ← disk.load p.toLibrary
  checkIdentity actor document
  return p.review actor document extra

/-! ### The erasure -/

/-- A record that an erasure covers; an entity comes with its projection. -/
structure Source where
  scope : ScopeName
  id : String
  record : Records.Record Json
  projected : Option (Records.Record Json)

def Source.ofEntity (entity : Entity) : Source :=
  ⟨entity.scope, entity.id, entity.record, some entity.projected⟩

def Source.ofRow (row : Row) : Source := ⟨row.scope, row.id, row.record, none⟩

/-- What an erasure covers, beside the barriers of the one before. -/
def sources (document : Document) (extra : Dict String Row) : List Source :=
  (match document.sync with
    | some state => state.entities.values.map Source.ofEntity
    | none => []) ++ extra.values.map Source.ofRow

/-- A record, joined with what is known of its entity. -/
def gather (lib : Library) (known : Dict String Row) (source : Source) :
    Except String (Dict String Row) := do
  let key ← key lib source.scope source.id
  let base := ((known.get? key).map Row.record).getD Records.empty
  let joined ← Records.merge (lib.scope source.scope) source.id base source.record
  let whole ← match source.projected with
    | some projected => Records.merge (lib.scope source.scope) source.id joined projected
    | none => pure joined
  return known.set key ⟨source.scope, source.id, whole⟩

/-- The deletion on top of what is known. -/
def deleteKnown (lib : Library) (actor : String) (known : Dict String Row) (entry : String × Row) :
    Except String (Dict String Row) := do
  let record ← Records.write (lib.scope entry.2.scope) entry.2.id entry.2.record actor none false
  return known.set entry.1 ⟨entry.2.scope, entry.2.id, record⟩

/-- The barriers of an erasure. -/
def barriers (lib : Library) (actor : String) (document : Document) (extra : Dict String Row) :
    Except String (Dict String Row) := do
  let known ← (sources document extra).foldlM (gather lib)
    ((document.receipt.map Receipt.barriers).getD .empty)
  require "reading_privacy_limit" (known.entries.length ≤ MAX_ENTITIES)
  known.entries.foldlM (deleteKnown lib actor) known

/-- The ids that an erasure counts. -/
def identities (document : Document) (known : Dict String Row) : Nat :=
  (document.rows.keys ++ known.values.map Row.id).dedup.length

/-- The causal state of an erased history: the barriers of its scopes. -/
def erasedState (known : Dict String Row) (state : ReadingState) : ReadingState :=
  { state with
    entities := (known.filter fun _ row => decide (row.scope ∈ state.scopes)).mapValues
      fun row => ⟨row.scope, row.id, row.record, row.record, none⟩ }

/-- The backup of an erasure and the document that it leaves. -/
def erasedDocument (document : Document) (known : Dict String Row) (receipt : Receipt) :
    Option String × Document :=
  match document with
  | .legacy header _ =>
      (some ".migrated", .erased (Json.object [("legacy_metadata", header)]) .empty none receipt)
  | .synced true header _ sync =>
      (some ".v2.migrated", .erased header .empty (some (erasedState known sync)) receipt)
  | .synced false header _ sync =>
      (some ".v3.migrated", .erased header .empty (some (erasedState known sync)) receipt)
  | .erased header _ sync _ =>
      (none, .erased header .empty (sync.map (erasedState known)) receipt)

/-- An erasure that was reviewed. -/
def eraseReviewed (p : Platform) (actor token : String) (extra : Dict String Row)
    (document : Document) : Except String (Outcome Nat) := do
  checkIdentity actor document
  require "reading_privacy_review_changed" (p.review actor document extra = token)
  let known ← barriers p.toLibrary actor document extra
  require "reading_privacy_limit" (identities document known ≤ MAX_ENTITIES)
  let receipt : Receipt :=
    ⟨actor, token, p.rowsFingerprint extra, known, identities document known⟩
  receipt.check p.toLibrary
  return ⟨some (erasedDocument document known receipt), .ok (identities document known)⟩

/-- An erasure; one that was made before is answered again. -/
def erase (p : Platform) (actor token : String) (extra : Dict String Row)
    (document : Document) : Except String (Outcome Nat) :=
  match document.receipt.filter fun receipt => receipt.reviewToken = token with
  | some previous => do
      require "reading_privacy_review_changed"
        (previous.actor = actor ∧ previous.additionalRevision = p.rowsFingerprint extra)
      return ⟨none, .ok previous.identities⟩
  | none => eraseReviewed p actor token extra document

/-- The checks of `erase_source` before it opens the file. -/
def checkRequest (lib : Library) (token : String) (rows : Option (List Row)) :
    Except String (Dict String Row) := do
  require "reading_privacy_review_changed" (isToken token = true)
  additional lib rows

/-- `erase_source`. -/
def eraseSource (p : Platform) (io : Io) (disk : Disk) (actor token : String)
    (rows : Option (List Row)) : Except String Nat × Disk :=
  match checkRequest p.toLibrary token rows with
  | .error e => (.error e, disk)
  | .ok extra => disk.run p.toLibrary io (erase p actor token extra)

end ReadingPrivacy
