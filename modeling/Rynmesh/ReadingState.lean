import Rynmesh.CausalProjections
import Rynmesh.SyncValues

/-!
# The causal state of the reading history

`device_sync/reading.py`: beside the records of bookmarks and reading positions,
the reading history keeps what this device has observed of each (`projected`).

* `ReadingState.write` is `_write`: a local write, over the projection or, after
  a review, over the whole record;
* `capture`, `clear`, `resolve`, `enable` and `merge` are the calls of the owner
  and of other devices.

Rows of other devices are typed, so the type checks of the source are left out;
a row of the local history is a document of any shape.
-/

namespace Reading

open Checked SyncValues

def MAX_ENTITIES : Nat := 20000

def MAX_FAILURES : Nat := 1000

def SCOPES : List ScopeName := [.bookmarks, .reading]

structure SplitLink where
  scheme : String
  netloc : String
  path : String
  query : String
  fragment : String
  username : Option String
  password : Option String

structure Library where
  values : SyncValues.Library
  /-- `str` of a value. -/
  str : Json → String
  /-- None where `urlsplit` raises a `ValueError`. -/
  splitLink : String → Option SplitLink
  urlunsplit : SplitLink → String
  /-- `fingerprint` of a record. -/
  fingerprint : Records.Record Json → String
  /-- `_entity_key`. -/
  entityKey : ScopeName → String → String

variable (lib : Library)

/-- The causal registers of a scope. -/
def Library.scope (scope : ScopeName) : Records.Scope Json := syncScope lib.values scope

/-! ### Values -/

/-- `link.rsplit('@', 1)[-1]`. -/
def hostPart (netloc : String) : String :=
  String.ofList ((netloc.toList.reverse.takeWhile (· ≠ '@')).reverse)

/-- A link without a user name and a password. -/
def withoutCredentials (link : String) : Except String String := do
  let parsed ← demand "ValueError" (lib.splitLink link)
  if parsed.username.isSome || parsed.password.isSome then
    return lib.urlunsplit { parsed with netloc := hostPart parsed.netloc }
  else return link

/-- A text field of the metadata, with spaces for control characters. -/
def metadataText (item : Json) (field : String × Nat) : String :=
  String.ofList (((lib.str ((item.get? field.1).getD (.str ""))).toList.map fun c =>
    if 32 ≤ c.toNat then c else ' ').take field.2)

/-- `metadata`. -/
def metadata (item : Json) : Except String Json := do
  let identifier ← demand "KeyError" (item.get? "item_id")
  let link ← withoutCredentials lib (metadataText lib item ("link", 4096))
  return .obj (("item_id", identifier) ::
    (ITEM_FIELDS.map fun field => (field.1, .str (metadataText lib item field))).dropLast ++
      [("link", .str link)])

/-- The value that `capture` makes of a row of the history. -/
def capturedValue (row : Json) (scope : ScopeName) : Except String Json := do
  let item ← demand "KeyError" (row.get? "item")
  let metadata ← metadata lib item
  match scope with
  | .bookmarks => do
      let bookmarked ← demand "KeyError" (row.get? "bookmarked")
      return .obj [("item", metadata), ("bookmarked", .bool bookmarked.truthy)]
  | _ => do
      let progress ← demand "KeyError" (row.get? "progress")
      let completed ← demand "KeyError" (row.get? "completed")
      return .obj [("item", metadata), ("progress", progress),
        ("completed", .bool completed.truthy),
        ("content_version", (row.get? "content_version").getD (.str ""))]

/-! ### The state -/

structure Resolution where
  fromRevision : String
  choiceId : String
  toRevision : String
  deriving DecidableEq

structure Entity where
  scope : ScopeName
  id : String
  record : Records.Record Json
  projected : Records.Record Json
  resolution : Option Resolution

structure Failure where
  code : String
  time : Rat

/-- A row of another device. -/
structure Row where
  scope : ScopeName
  id : String
  record : Records.Record Json

/-- What a row is answered with. -/
structure RowReceipt where
  scope : ScopeName
  id : String
  revision : String
  deriving DecidableEq

structure ReadingState where
  actor : String
  scopes : List ScopeName
  entities : Dict String Entity
  failures : Dict String Failure

/-- `scopes`. -/
def scopes (value : List ScopeName) : Except String (List ScopeName) := do
  require "sync_scope_invalid" (value.Nodup ∧ ∀ scope ∈ value, scope ∈ SCOPES)
  return value

/-- `key`. -/
def key (scope : ScopeName) (identifier : String) : Except String String := do
  require "sync_entity_invalid" (Records.isEntityId identifier = true)
  return lib.entityKey scope identifier

def create (actor : String) : Except String ReadingState := do
  require "sync_actor_invalid" (Records.isActorId actor = true)
  return ⟨actor, [], .empty, .empty⟩

/-- An entity that is not there yet. -/
def absent (scope : ScopeName) (identifier : String) : Entity :=
  ⟨scope, identifier, Records.empty, Records.empty, none⟩

/-- The record that a write starts from: after a review all candidates are observed. -/
def Entity.base (entity : Entity) (actor : String) (expectedRevision : Option String) :
    Except String (Records.Record Json) :=
  match expectedRevision with
  | some revision => do
      require "sync_revision_conflict" (revision = lib.fingerprint entity.record)
      return entity.record
  | none => return entity.record.writeBase entity.projected actor

namespace ReadingState

variable (state : ReadingState)

/-- `_write`. -/
def write (scope : ScopeName) (identifier : String) (value : Option Json)
    (expectedRevision : Option String) : Except String ReadingState := do
  let key ← key lib scope identifier
  require "sync_capacity_exhausted"
    ((state.entities.get? key).isSome ∨ state.entities.entries.length < MAX_ENTITIES)
  let entity := (state.entities.get? key).getD (absent scope identifier)
  let base ← entity.base lib state.actor expectedRevision
  let updated ← Records.write (lib.scope scope) identifier base state.actor value false
  let merged ← Records.merge (lib.scope scope) identifier entity.record updated
  let shown ← Records.view (lib.scope scope) identifier merged
  return { state with
    entities := state.entities.set key
      { entity with record := merged, projected := if shown.conflict then updated else merged } }

/-- `capture`; a write resolves an earlier failure of the entity. -/
def capture (row : Json) (scope : ScopeName) (expectedRevision : Option String) :
    Except String ReadingState :=
  if scope ∉ state.scopes then
    if expectedRevision.isSome then .error "sync_scope_denied" else .ok state
  else do
    let identifier ← demand "KeyError" (row.get? "item_id")
    let value ← capturedValue lib row scope
    let identifier ← demand "sync_entity_invalid" identifier.asStr?
    let next ← state.write lib scope identifier (some value) expectedRevision
    return { next with failures := next.failures.erase (lib.entityKey scope identifier) }

/-- `record_capture_failure`. -/
def recordCaptureFailure (scope : ScopeName) (identifier code : String) (time : Rat) :
    Except String ReadingState := do
  let key ← key lib scope identifier
  return { state with failures := (state.failures.setLast key ⟨code, time⟩).newest MAX_FAILURES }

/-- A capture of a row that a scope wants. -/
def captureWanted (wanted : Bool) (row : Json) (scope : ScopeName) : Except String ReadingState :=
  if wanted then state.capture lib row scope none else .ok state

/-- The captures of one row when scopes are added. -/
def captureAdded (added : List ScopeName) (row : Json) : Except String ReadingState := do
  let bookmarked ← state.captureWanted lib
    (decide (.bookmarks ∈ added) && (row.get? "bookmarked").any Json.truthy) row .bookmarks
  bookmarked.captureWanted lib (decide (.reading ∈ added) &&
    ["open_count", "progress", "completed"].any fun field =>
      (row.get? field).any Json.truthy) row .reading

/-- The scopes with further ones, sorted. -/
def withScopes (selected : List ScopeName) : ReadingState :=
  { state with scopes := SCOPES.filter fun scope => scope ∈ state.scopes ∨ scope ∈ selected }

/-- `enable`. -/
def enable (actor : String) (selected : List ScopeName) (rows : List Json) :
    Except String ReadingState := do
  require "sync_device_identity_changed" (state.actor = actor)
  let selected ← Reading.scopes selected
  rows.foldlM (fun current row =>
      current.captureAdded lib (selected.filter fun scope => scope ∉ state.scopes) row)
    (state.withScopes selected)

/-- `clear`. -/
def clear : Except String ReadingState :=
  state.entities.values.foldlM (fun current entity =>
    current.write lib entity.scope entity.id none (some (lib.fingerprint entity.record))) state

/-- The candidates of a record with the dots that name them. -/
def choices (scope : Records.Scope Json) (record : Records.Record Json) :
    List (String × Option Json) :=
  (record.heads.foldl (fun options head =>
      match options.get? (scope.fingerprint head.value) with
      | some _ => options
      | none => options.set (scope.fingerprint head.value)
          (head.actor ++ ":" ++ toString head.counter, head.value))
    (Dict.empty : Dict String (String × Option Json))).entries.insertionSort (fun a b => a.1 ≤ b.1)
    |>.map Prod.snd

/-- The choice of one of the concurrent candidates. -/
def resolveChoice (scope : ScopeName) (identifier key choiceId expectedRevision : String)
    (entity : Entity) (conflict : Bool) : Except String ReadingState := do
  require "sync_revision_conflict" (expectedRevision = lib.fingerprint entity.record)
  require "sync_reading_not_conflicted" (conflict = true)
  let selected ← demand "sync_reading_choice_invalid"
    ((choices (lib.scope scope) entity.record).find? fun choice => choice.1 = choiceId)
  let next ← state.write lib scope identifier selected.2 (some expectedRevision)
  let written ← demand "KeyError" (next.entities.get? key)
  return { next with
    entities := next.entities.set key
      { written with
        resolution := some ⟨expectedRevision, choiceId, lib.fingerprint written.record⟩ } }

/-- `resolve`; a choice that was made before is not made again. -/
def resolve (scope : ScopeName) (identifier choiceId expectedRevision : String) :
    Except String ReadingState := do
  require "sync_scope_invalid" (scope ∈ SCOPES)
  let key ← key lib scope identifier
  let entity ← demand "sync_reading_not_found" (state.entities.get? key)
  let shown ← Records.view (lib.scope scope) identifier entity.record
  if entity.resolution = some ⟨expectedRevision, choiceId, lib.fingerprint entity.record⟩ then
    return state
  else state.resolveChoice lib scope identifier key choiceId expectedRevision entity shown.conflict

/-- One row of `merge`. -/
def mergeRow (row : Row) : Except String ReadingState := do
  let key ← key lib row.scope row.id
  let prior := (state.entities.get? key).getD (absent row.scope row.id)
  let merged ← Records.merge (lib.scope row.scope) row.id prior.record row.record
  let shown ← Records.view (lib.scope row.scope) row.id merged
  return { state with
    entities := state.entities.set key
      { prior with
        scope := row.scope
        id := row.id
        record := merged
        projected := if shown.conflict then prior.projected else merged } }

/-- The loop of `merge`; `seen` are the keys of the rows before. -/
def mergeRows (selected : List ScopeName) :
    ReadingState → List String → List Row → Except String ReadingState
  | state, _, [] => .ok state
  | state, seen, row :: rest => do
      require "sync_scope_denied" (row.scope ∈ selected)
      let key ← key lib row.scope row.id
      require "sync_batch_invalid" (key ∉ seen)
      let next ← state.mergeRow lib row
      mergeRows selected next (key :: seen) rest

/-- The receipt of a row. -/
def receipt (row : Row) : RowReceipt := ⟨row.scope, row.id, lib.fingerprint row.record⟩

/-- `merge`. -/
def merge (rows : List Row) (selected : List ScopeName) :
    Except String (ReadingState × List RowReceipt) := do
  let selected ← Reading.scopes selected
  require "sync_scope_denied" (∀ scope ∈ selected, scope ∈ state.scopes)
  let merged ← mergeRows lib selected state [] rows
  require "sync_capacity_exhausted" (merged.entities.entries.length ≤ MAX_ENTITIES)
  return (merged, rows.map (receipt lib))

variable {lib}

/-- **The loop rule of `merge`.**  What each accepted row keeps, the batch keeps. -/
theorem mergeRows_induction {P : ReadingState → Prop} {selected : List ScopeName}
    {rows : List Row} {state next : ReadingState} {seen : List String} (h : P state)
    (hmerge : mergeRows lib selected state seen rows = .ok next)
    (hrow : ∀ row ∈ rows, row.scope ∈ selected → ∀ {state next : ReadingState}, P state →
      state.mergeRow lib row = .ok next → P next) : P next := by
  induction rows generalizing state seen with
  | nil =>
    injection hmerge with hmerge
    rw [← hmerge]
    exact h
  | cons row rest ih =>
    simp only [mergeRows, bind_ok, require_ok] at hmerge
    obtain ⟨_, hscope, _, _, _, _, middle, hmiddle, hrest⟩ := hmerge
    exact ih (hrow row (.head _) hscope h hmiddle) hrest
      fun other hmem => hrow other (.tail _ hmem)

end ReadingState

end Reading
