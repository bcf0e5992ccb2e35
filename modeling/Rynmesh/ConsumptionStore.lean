import Rynmesh.ReadingState

/-!
# The reading history

`services/consumption.py`: one file holds the rows of the history, from the first
synced device on also their causal state, and after an erasure its receipt.

* `Document` is what the file holds, and `Document.check` what `_document` checks of it;
* `project` lays the causal state over the rows;
* `record`, `clear`, `enableSync`, `receive` and `resolve` are the calls, each with the
  one write that `Disk.run` makes of it.

A row is a document of any shape.  Top-level fields that no call reads are kept in the
header; times are handed in.
-/

namespace Consumption

open Checked Reading
open SyncValues (ScopeName roundFloat)

structure Platform extends Reading.Library where
  /-- `str.lower`. -/
  lower : String → String
  /-- `float` of a value, or the exception that it raises. -/
  float : Json → Except String Json
  /-- `int` of a value. -/
  int : Json → Except String Int
  /-- `len(canonical_json(rows))`. -/
  batchSize : List Row → Nat
  maxItems : Nat

variable (p : Platform)

/-! ### Projections -/

def zero : Json := .float (some 0) "0.0"

def scopeText : ScopeName → String
  | .bookmarks => "bookmarks"
  | .reading => "reading"
  | .conversations => "conversations"

/-- A bookmark shows when all of its candidates do. -/
def isBookmarked (options : List (Option Json)) : Bool :=
  !options.isEmpty && options.all fun value =>
    (value.bind (·.get? "bookmarked")).any Json.truthy

/-- What `project` reads of an entity. -/
structure Shown where
  options : List (Option Json)
  /-- The value of the branch shown here. -/
  candidate : Option Json
  conflict : Bool
  revision : String

def Shown.of (lib : Library) (entity : Entity) : Shown where
  options := Records.candidates (lib.scope entity.scope) entity.record
  candidate := (Records.candidates (lib.scope entity.scope) entity.projected).findSome? id
  conflict := 1 < (Records.candidates (lib.scope entity.scope) entity.record).length
  revision := lib.fingerprint entity.record

/-- The value that labels the item. -/
def Shown.description (shown : Shown) : Option Json :=
  shown.candidate <|> shown.options.findSome? id

def Shown.active (shown : Shown) : ScopeName → Bool
  | .bookmarks => isBookmarked shown.options
  | _ => shown.candidate.isSome && shown.options.all Option.isSome

/-- A row for an item that this device never opened. -/
def remoteRow (identifier : String) (item : Json) : Json :=
  Json.object [("item_id", .str identifier), ("item", item), ("bookmarked", .bool false),
    ("progress", zero), ("completed", .bool false), ("open_count", .int 0),
    ("first_opened_unix", zero), ("last_opened_unix", zero), ("last_activity_unix", zero)]

/-- `row.setdefault(name, {})[key] = value`. -/
def setUnder (row : Json) (name key : String) (value : Json) : Json :=
  row.withField name (((row.get? name).getD (Json.object [])).withField key value)

/-- The fields of a row that a scope owns. -/
def Shown.position (shown : Shown) (scope : ScopeName) (row : Json) : Json :=
  match scope with
  | .bookmarks => row.withField "bookmarked" (.bool (isBookmarked shown.options))
  | _ =>
      match shown.active scope, shown.candidate with
      | true, some value =>
          ((row.withField "progress" ((value.get? "progress").getD .null)).withField "completed"
            ((value.get? "completed").getD .null)).withField "content_version"
            ((value.get? "content_version").getD .null)
      | _, _ => (row.withField "progress" zero).withField "completed" (.bool false)

/-- The row with its derived fields. -/
def Shown.derived (shown : Shown) (scope : ScopeName) (row : Json) : Json :=
  let marked := setUnder (setUnder row "sync_revisions" (scopeText scope) (.str shown.revision))
    "sync_conflicts" (scopeText scope) (.bool shown.conflict)
  match scope with
  | .bookmarks => marked
  | _ => marked.withField "sync_reading_available"
      (.bool (shown.active scope || shown.conflict && shown.description.isSome))

/-- The rows with an entity laid over them. -/
def Shown.overlay (shown : Shown) (scope : ScopeName) (identifier : String)
    (rows : Dict String Json) : Dict String Json :=
  match rows.get? identifier with
  | some row => rows.set identifier (shown.derived scope (shown.position scope row))
  | none =>
      if shown.active scope || shown.conflict && shown.description.isSome then
        rows.set identifier (shown.derived scope (shown.position scope
          (remoteRow identifier ((shown.description.bind (·.get? "item")).getD .null))))
      else rows

def projectEntity (lib : Library) (rows : Dict String Json) (entity : Entity) :
    Except String (Dict String Json) := do
  Records.validate (lib.scope entity.scope) entity.id entity.record
  Records.validate (lib.scope entity.scope) entity.id entity.projected
  return (Shown.of lib entity).overlay entity.scope entity.id rows

/-- `project` of the whole state. -/
def project (lib : Library) (state : ReadingState) (rows : Dict String Json) :
    Except String (Dict String Json) :=
  state.entities.values.foldlM (projectEntity lib) rows

/-- `project` of one item. -/
def projectItem (lib : Library) (state : ReadingState) (identifier : String)
    (rows : Dict String Json) : Except String (Dict String Json) := do
  let bookmark ← key lib .bookmarks identifier
  let position ← key lib .reading identifier
  ([bookmark, position].filterMap state.entities.get?).foldlM (projectEntity lib) rows

/-! ### The file -/

structure Receipt where
  actor : String
  reviewToken : String
  additionalRevision : String
  barriers : Dict String Row
  /-- The one field of the result that is not fixed. -/
  identities : Nat

/-- What the file holds. -/
inductive Document
  | legacy (header : Json) (rows : Dict String Json)
  /-- Version 2, which is `previous`, or 3. -/
  | synced (previous : Bool) (header : Json) (rows : Dict String Json) (sync : ReadingState)
  /-- Version 4. -/
  | erased (header : Json) (rows : Dict String Json) (sync : Option ReadingState)
      (receipt : Receipt)

namespace Document

def rows : Document → Dict String Json
  | legacy _ rows | synced _ _ rows _ | erased _ rows _ _ => rows

def sync : Document → Option ReadingState
  | legacy _ _ => none
  | synced _ _ _ sync => some sync
  | erased _ _ sync _ => sync

def receipt : Document → Option Receipt
  | legacy _ _ | synced _ _ _ _ => none
  | erased _ _ _ receipt => some receipt

end Document

/-- `TOKEN`. -/
def isToken (text : String) : Bool :=
  text.length = 64 && text.toList.all fun c => c ∈ "0123456789abcdef".toList

/-- The checks of one entity in `ReadingState.__init__`. -/
def checkEntity (lib : Library) (state : ReadingState) (entry : String × Entity) :
    Except String Unit := do
  require "sync_record_invalid" (entry.2.scope ∈ SCOPES)
  let key ← key lib entry.2.scope entry.2.id
  require "sync_record_invalid" (entry.1 = key)
  require "sync_scope_denied" (entry.2.scope ∈ state.scopes)
  Records.validate (lib.scope entry.2.scope) entry.2.id entry.2.record
  Records.validate (lib.scope entry.2.scope) entry.2.id entry.2.projected

/-- `ReadingState.__init__`. -/
def checkState (lib : Library) (state : ReadingState) : Except String Unit := do
  require "sync_actor_invalid" (Records.isActorId state.actor = true)
  discard (scopes state.scopes)
  require "sync_capacity_exhausted" (state.entities.entries.length ≤ MAX_ENTITIES)
  require "sync_record_invalid" (state.failures.entries.length ≤ MAX_FAILURES)
  state.entities.entries.forM (checkEntity lib state)

/-- A barrier is a deletion by the owner alone. -/
def isBarrier (actor : String) (record : Records.Record Json) : Bool :=
  match record.heads with
  | [head] => decide (head.value = none) && decide (head.actor = actor)
  | _ => false

def checkBarrier (lib : Library) (actor : String) (entry : String × Row) : Except String Unit := do
  require "reading_privacy_receipt_invalid" (entry.2.scope ∈ SCOPES)
  let key ← key lib entry.2.scope entry.2.id
  require "reading_privacy_receipt_invalid" (entry.1 = key)
  Records.validate (lib.scope entry.2.scope) entry.2.id entry.2.record
  require "reading_privacy_receipt_invalid" (isBarrier actor entry.2.record = true)

/-- `validate_receipt`. -/
def Receipt.check (lib : Library) (receipt : Receipt) : Except String Unit := do
  require "sync_actor_invalid" (Records.isActorId receipt.actor = true)
  require "reading_privacy_receipt_invalid" (isToken receipt.reviewToken = true ∧
    isToken receipt.additionalRevision = true ∧ receipt.barriers.entries.length ≤ MAX_ENTITIES)
  receipt.barriers.entries.forM (checkBarrier lib receipt.actor)
  require "reading_privacy_receipt_invalid" (receipt.identities ≤ MAX_ENTITIES)

def Document.check (lib : Library) : Document → Except String Unit
  | .legacy _ _ => .ok ()
  | .synced _ _ _ sync => checkState lib sync
  | .erased _ _ none receipt => receipt.check lib
  | .erased _ _ (some sync) receipt => do
      receipt.check lib
      require "sync_device_identity_changed" (sync.actor = receipt.actor)
      checkState lib sync

/-- A file that is not there yet reads as an empty history. -/
def Document.empty : Document := .legacy (Json.object []) .empty

/-! ### Writes -/

/-- What the file system answers to the writes of a call. -/
structure Io where
  /-- The copy of the file under a suffix. -/
  backup : String → Except String Unit
  /-- The replacement of the file, which is whole or not made. -/
  save : Document → Except String Unit

structure Disk where
  file : Option Document
  backups : Dict String Document

/-- What a call does: the backup and the document that it writes, and its answer. -/
structure Outcome (α : Type) where
  write : Option (Option String × Document)
  answer : Except String α

/-- `_save_document`, with the backup that it makes before. -/
def Document.saved (document : Document) (rows : Dict String Json) (sync : Option ReadingState) :
    Option String × Document :=
  match document, sync with
  | .erased header _ _ receipt, sync => (none, .erased header rows sync receipt)
  | .synced true header _ _, some sync => (some ".v2.migrated", .synced false header rows sync)
  | .synced false header _ _, some sync => (none, .synced false header rows sync)
  | .legacy header _, some sync => (none, .synced false header rows sync)
  | _, none => (none, .legacy (Json.object []) rows)

namespace Disk

/-- `_document`. -/
def load (lib : Library) (disk : Disk) : Except String Document := do
  let document := disk.file.getD .empty
  document.check lib
  return document

/-- `migration_backup`, where the file is there. -/
def backUp (io : Io) (disk : Disk) (suffix : Option String) : Except String Disk :=
  match suffix, disk.file with
  | some suffix, some document => do
      io.backup suffix
      return { disk with backups := disk.backups.set suffix document }
  | _, _ => .ok disk

/-- The write of a document; what was backed up before stays. -/
def save (io : Io) (disk : Disk) (document : Document) : Except String Disk := do
  io.save document
  return { disk with file := some document }

/-- A call on the file, in one transaction. -/
def run {α : Type} (lib : Library) (io : Io) (disk : Disk)
    (call : Document → Except String (Outcome α)) : Except String α × Disk :=
  match disk.load lib >>= call with
  | .error e => (.error e, disk)
  | .ok ⟨none, answer⟩ => (answer, disk)
  | .ok ⟨some (suffix, document), answer⟩ =>
      match disk.backUp io suffix with
      | .error e => (.error e, disk)
      | .ok backed =>
          match backed.save io document with
          | .error e => (.error e, backed)
          | .ok saved => (answer, saved)

end Disk

/-- A call that saves rows and a causal state. -/
def saving {α : Type} (document : Document) (rows : Dict String Json) (sync : Option ReadingState)
    (answer : Except String α) : Outcome α :=
  ⟨some (document.saved rows sync), answer⟩

/-! ### Rows -/

/-- `value or default`. -/
def orElse (value : Option Json) (default : Json) : Json :=
  match value with
  | some value => if value.truthy then value else default
  | none => default

/-- The time of the last activity, as `sorted` compares it. -/
def activity (row : Json) : Except String (Int × Rat) := do
  let time ← p.float (orElse (row.get? "last_activity_unix") zero)
  return match time with
    | .float (some value) _ => (0, value)
    | .float none "Infinity" => (1, 0)
    | .float none "-Infinity" => (-1, 0)
    | _ => (0, 0)

/-- The rows, the latest first. -/
def newest (rows : List Json) : Except String (List Json) := do
  let times ← rows.mapM (activity p)
  return ((times.zip rows).insertionSort fun a b =>
    b.1.1 < a.1.1 ∨ b.1.1 = a.1.1 ∧ b.1.2 ≤ a.1.2).map Prod.snd

/-- `list`. -/
def list (document : Document) : Except String (List Json) := do
  let rows ← match document.sync with
    | some sync => project p.toLibrary sync document.rows
    | none => pure document.rows
  newest p rows.values

/-- `str(value or "")`. -/
def textOf (value : Option Json) : String :=
  match value with
  | some value => if value.truthy then p.str value else ""
  | none => ""

def TEXTS : List String :=
  ["source_id", "source_title", "source_kind", "title", "link", "summary", "ai_summary", "author",
    "thumbnail", "media_url", "content_kind", "content_type"]

/-- A number of an item, zero for what is none. -/
def cleanNumber (value : Option Json) : Except String Json :=
  match p.float (orElse value zero) with
  | .ok number => .ok number
  | .error e => if e = "TypeError" ∨ e = "ValueError" then .ok zero else .error e

/-- A list of short texts. -/
def cleanTexts (value : Option Json) : Json :=
  match value with
  | some (.arr items) =>
      .arr ((items.take 64).map fun item => .str (String.ofList ((p.str item).toList.take 160)))
  | _ => .arr []

/-- The id that an item is stored under. -/
def itemId (item : Json) : String :=
  String.ofList ((p.values.strip (textOf p (item.get? "item_id"))).toList.take 256)

def cleanText (item : Json) (name : String) : String :=
  String.ofList ((textOf p (item.get? name)).toList.take 4000)

/-- `_clean_item`. -/
def cleanItem (item : Json) : Except String Json := do
  require "consumption_item_invalid" (item.isObj = true)
  require "consumption_item_id_required" (itemId p item ≠ "")
  let published ← cleanNumber p (item.get? "published_unix")
  let score ← cleanNumber p (item.get? "score")
  require "consumption_item_link_invalid"
    ("http://".toList.isPrefixOf (cleanText p item "link").toList = true ∨
      "https://".toList.isPrefixOf (cleanText p item "link").toList = true ∨
      cleanText p item "link" = "rynmesh://content/" ++ p.values.quote (itemId p item))
  return Json.object (("item_id", .str (itemId p item)) ::
    TEXTS.map (fun name => (name, .str (cleanText p item name))) ++
    [("tags", cleanTexts p (item.get? "tags")), ("reasons", cleanTexts p (item.get? "reasons")),
      ("published_unix", published), ("score", score)])

/-- `_clean_progress`. -/
def cleanProgress (value : Json) : Except String Json := do
  let number ← match p.float value with
    | .ok number => pure number
    | .error e =>
        .error (if e = "TypeError" ∨ e = "ValueError" then "consumption_progress_invalid" else e)
  match number with
  | .float (some value) _ => return roundFloat p.values (min 1 (max 0 value))
  | _ => .error "consumption_progress_invalid"

inductive Action
  | opened
  | bookmark
  | unbookmark
  | progress
  | completed
  deriving DecidableEq

/-- `_ACTIONS`, after `strip` and `lower`. -/
def Action.read (text : String) : Option Action :=
  match p.lower (p.values.strip text) with
  | "opened" => some .opened
  | "bookmark" => some .bookmark
  | "unbookmark" => some .unbookmark
  | "progress" => some .progress
  | "completed" => some .completed
  | _ => none

def Action.scope : Action → ScopeName
  | .bookmark => .bookmarks
  | .unbookmark => .bookmarks
  | _ => .reading

/-- A progress that counts as read to the end. -/
def isNearEnd (progress : Json) : Bool :=
  match progress with
  | .float (some value) _ => decide ((p.values.nearest (95 / 100)).1 ≤ value)
  | _ => false

/-- What an action makes of a row. -/
def Action.apply (action : Action) (progress stamp row : Json) : Except String Json :=
  match action with
  | .opened => do
      let first := if (row.get? "first_opened_unix").any Json.truthy then row
        else row.withField "first_opened_unix" stamp
      let count ← p.int (orElse (row.get? "open_count") (.int 0))
      return (first.withField "last_opened_unix" stamp).withField "open_count" (.int (count + 1))
  | .bookmark => return row.withField "bookmarked" (.bool true)
  | .unbookmark => return row.withField "bookmarked" (.bool false)
  | .progress => do
      let progress ← cleanProgress p progress
      let moved := row.withField "progress" progress
      return if isNearEnd p progress then moved.withField "completed" (.bool true) else moved
  | .completed =>
      return (row.withField "progress" (.float (some 1) "1.0")).withField "completed" (.bool true)

/-- A row for an item that was never recorded. -/
def newRow (identifier : String) : Json :=
  Json.object [("item_id", .str identifier), ("first_opened_unix", zero),
    ("last_opened_unix", zero), ("open_count", .int 0), ("bookmarked", .bool false),
    ("progress", zero), ("completed", .bool false)]

/-- The arguments of `record`. -/
structure Change where
  item : Json
  action : String
  progress : Json
  /-- The time of the call, as a float. -/
  stamp : Json
  contentVersion : Option Json
  expectedRevision : Option String

/-- The content version of a call, set in the row. -/
def Change.versioned (change : Change) (row : Json) : Except String Json :=
  match change.contentVersion with
  | none => .ok row
  | some version => do
      let text ← demand "consumption_content_version_invalid" version.asStr?
      require "consumption_content_version_invalid"
        (text.length ≤ 256 ∧ (text.toList.all fun c => 32 ≤ c.toNat) = true)
      return row.withField "content_version" version

/-- The row that a call stores. -/
def Change.row (change : Change) (action : Action) (item row : Json) : Except String Json := do
  let versioned ← change.versioned (row.withField "item" item)
  action.apply p change.progress change.stamp
    (versioned.withField "last_activity_unix" change.stamp)

/-- A reading position that is not a deletion is known. -/
def hasPosition (state : ReadingState) (identifier : String) : Bool :=
  (state.entities.get? (p.entityKey .reading identifier)).any fun entity =>
    entity.record.heads.any fun head => head.value.isSome

/-- `SyncError`s have codes of their own. -/
def isSyncError (code : String) : Bool := "sync_".toList.isPrefixOf code.toList

/-- The time of a call, for a failure that is noted. -/
def Change.time (change : Change) : Rat :=
  match change.stamp with
  | .float (some value) _ => value
  | _ => 0

/-- The capture of a call; a failure is noted unless the call is a review. -/
def Change.capture (change : Change) (action : Action) (identifier : String) (row : Json)
    (state : ReadingState) : Except String ReadingState :=
  if action = .opened ∧ hasPosition p state identifier = true then .ok state
  else
    match state.capture p.toLibrary row action.scope change.expectedRevision with
    | .ok next => .ok next
    | .error e =>
        if change.expectedRevision.isSome || !isSyncError e then .error e
        else state.recordCaptureFailure p.toLibrary action.scope identifier e change.time

/-- The rows of a history that is saved: the latest, without derived fields. -/
def savedRows (rows : List Json) : Except String (Dict String Json) := do
  let ordered ← newest p rows
  (ordered.take p.maxItems).foldlM
    (fun saved row => do
      let identifier ← demand "KeyError" (row.get? "item_id")
      return saved.set (p.str identifier)
        (((row.without "sync_revisions").without "sync_conflicts").without
          "sync_reading_available"))
    .empty

/-- The item's row with its causal state laid over it. -/
def targeted (rows : Dict String Json) (identifier : String) (sync : Option ReadingState) :
    Except String (Dict String Json) :=
  match sync with
  | none => .ok rows
  | some state => do
      let target := match rows.get? identifier with
        | some row => (Dict.empty : Dict String Json).set identifier row
        | none => .empty
      let projected ← projectItem p.toLibrary state identifier target
      return projected.entries.foldl (fun rows entry => rows.set entry.1 entry.2) rows

/-- The causal state after the capture of a call. -/
def Change.synced (change : Change) (action : Action) (identifier : String) (row : Json) :
    Option ReadingState → Except String (Option ReadingState)
  | some state => some <$> change.capture p action identifier row state
  | none => do
      require "sync_not_enabled" (change.expectedRevision = none)
      return none

/-- The row that `record` answers with. -/
def recorded (identifier : String) (row : Json) : Option ReadingState → Except String Json
  | none => .ok row
  | some state => do
      let projected ← projectItem p.toLibrary state identifier
        ((Dict.empty : Dict String Json).set identifier row)
      demand "KeyError" (projected.get? identifier)

/-- A time is a float, finite and not negative. -/
def isStamp (stamp : Json) : Bool :=
  match stamp with
  | .float (some value) _ => decide (0 ≤ value)
  | _ => false

/-- `record`. -/
def record (change : Change) (document : Document) : Except String (Outcome Json) := do
  let action ← demand "consumption_action_invalid" (Action.read p change.action)
  let item ← cleanItem p change.item
  require "consumption_timestamp_invalid" (isStamp change.stamp = true)
  let rows ← targeted p document.rows (itemId p change.item) document.sync
  let row ← change.row p action item
    ((rows.get? (itemId p change.item)).getD (newRow (itemId p change.item)))
  let sync ← change.synced p action (itemId p change.item) row document.sync
  let saved ← savedRows p (rows.set (itemId p change.item) row).values
  return saving document saved sync (recorded p (itemId p change.item) row sync)

/-- `clear`. -/
def clear (document : Document) : Except String (Outcome Unit) :=
  match document.sync with
  | none => .ok (saving document .empty none (.ok ()))
  | some state => do
      let cleared ← state.clear p.toLibrary
      return saving document .empty (some cleared) (.ok ())

/-! ### Synced devices -/

/-- The barriers of the scopes that are added. -/
def seeded (receipt : Receipt) (state : ReadingState) (added : List ScopeName) : ReadingState :=
  receipt.barriers.entries.foldl
    (fun state entry =>
      if entry.2.scope ∈ added then
        { state with
          entities := state.entities.set entry.1
            ⟨entry.2.scope, entry.2.id, entry.2.record, entry.2.record, none⟩ }
      else state)
    state

/-- `seed_barriers`. -/
def seedBarriers (lib : Library) (receipt : Receipt) (sync : Option ReadingState) (actor : String)
    (selected : List ScopeName) (rows : List Json) : Except String ReadingState := do
  require "sync_device_identity_changed" (actor = receipt.actor)
  let selected ← scopes selected
  let state ← match sync with
    | some state => pure state
    | none => create actor
  let enabled ← (seeded receipt state (selected.filter fun scope => scope ∉ state.scopes)).enable
    lib actor selected rows
  require "sync_capacity_exhausted" (enabled.entities.entries.length ≤ MAX_ENTITIES)
  return enabled

/-- All scopes are there already. -/
def covers (state : ReadingState) (selected : List ScopeName) : Except String Bool := do
  let selected ← scopes selected
  return selected.all fun scope => scope ∈ state.scopes

/-- `_enable_sync` of a history with a receipt. -/
def enableErased (lib : Library) (actor : String) (selected : List ScopeName) (document : Document)
    (receipt : Receipt) : Except String (Outcome Unit) := do
  require "sync_device_identity_changed" (actor = receipt.actor)
  let done ← match document.sync with
    | some state => covers state selected
    | none => pure false
  if done then return ⟨none, .ok ()⟩
  else do
    let state ← seedBarriers lib receipt document.sync actor selected document.rows.values
    return saving document document.rows (some state) (.ok ())

/-- `_enable_sync` of a history that is synced. -/
def enableSynced (lib : Library) (actor : String) (selected : List ScopeName) (document : Document)
    (state : ReadingState) : Except String (Outcome Unit) := do
  let done ← if state.actor = actor then covers state selected else pure false
  if done then return ⟨none, .ok ()⟩
  else do
    let enabled ← state.enable lib actor selected document.rows.values
    return saving document document.rows (some enabled) (.ok ())

/-- `enable_sync`. -/
def enableSync (lib : Library) (actor : String) (selected : List ScopeName) :
    Document → Except String (Outcome Unit)
  | .erased header rows sync receipt =>
      enableErased lib actor selected (.erased header rows sync receipt) receipt
  | .synced previous header rows sync =>
      enableSynced lib actor selected (.synced previous header rows sync) sync
  | .legacy header rows => do
      let created ← create actor
      let enabled ← created.enable lib actor selected rows.values
      return ⟨some (some ".migrated",
        .synced false (Json.object [("legacy_metadata", header)]) rows enabled), .ok ()⟩

def MAX_BATCH : Nat := 100

def MAX_BATCH_BYTES : Nat := 12 * 1024 * 1024

/-- The checks of a batch. -/
def checkBatch (batch : List Row) : Except String Unit :=
  require "sync_batch_limit" (batch.length ≤ MAX_BATCH ∧ p.batchSize batch ≤ MAX_BATCH_BYTES)

/-- `sync_receive`, apart from the scopes that it enables before. -/
def receive (batch : List Row) (selected : List ScopeName) (expectedActor : Option String)
    (document : Document) : Except String (Outcome (List RowReceipt)) := do
  checkBatch p batch
  let state ← demand "sync_not_enabled" document.sync
  require "sync_device_identity_changed" (∀ actor, expectedActor = some actor → state.actor = actor)
  let merged ← state.merge p.toLibrary batch selected
  batch.forM fun row => do
    let target := match document.rows.get? row.id with
      | some old => (Dict.empty : Dict String Json).set row.id old
      | none => .empty
    discard (projectItem p.toLibrary merged.1 row.id target)
  return saving document document.rows (some merged.1) (.ok merged.2)

/-- `sync_receive`: with `enable` the scopes are enabled by a write of their own. -/
def Disk.syncReceive (first io : Io) (disk : Disk) (batch : List Row) (selected : List ScopeName)
    (expectedActor : Option String) (enable : Bool) : Except String (List RowReceipt) × Disk :=
  match checkBatch p batch with
  | .error e => (.error e, disk)
  | .ok _ =>
      if enable then
        match disk.run p.toLibrary first
          (enableSync p.toLibrary (expectedActor.getD "") selected) with
        | (.error e, disk) => (.error e, disk)
        | (.ok _, disk) => disk.run p.toLibrary io (receive p batch selected expectedActor)
      else disk.run p.toLibrary io (receive p batch selected expectedActor)

/-- `sync_resolve`. -/
def resolve (lib : Library) (scope : ScopeName) (identifier choiceId expectedRevision : String)
    (document : Document) : Except String (Outcome Unit) := do
  let state ← demand "sync_not_enabled" document.sync
  let resolved ← state.resolve lib scope identifier choiceId expectedRevision
  let target := match document.rows.get? identifier with
    | some row => (Dict.empty : Dict String Json).set identifier row
    | none => .empty
  discard (projectItem lib resolved identifier target)
  return saving document document.rows (some resolved) (.ok ())

/-! ### Views -/

/-- `sync_export`. -/
def syncExport (selected : List ScopeName) (document : Document) : Except String (List Row) := do
  let state ← demand "sync_not_enabled" document.sync
  let selected ← scopes selected
  require "sync_scope_denied" (∀ scope ∈ selected, scope ∈ state.scopes)
  return ((state.entities.entries.insertionSort fun a b => a.1 ≤ b.1).map Prod.snd).filterMap
    fun entity =>
      if entity.scope ∈ selected then some ⟨entity.scope, entity.id, entity.record⟩ else none

/-- The candidates that `view` shows of a record, each with its choice. -/
structure Choices where
  id : String
  revision : String
  conflict : Bool
  candidates : List (String × Option Json)

def Choices.of (lib : Library) (entity : Entity) : Except String Choices := do
  Records.validate (lib.scope entity.scope) entity.id entity.record
  let candidates := ReadingState.choices (lib.scope entity.scope) entity.record
  return ⟨entity.id, lib.fingerprint entity.record, decide (1 < candidates.length), candidates⟩

/-- `sync_read`. -/
def syncRead (lib : Library) (scope : ScopeName) (identifier : String) (document : Document) :
    Except String (Option Choices) := do
  let state ← demand "sync_scope_denied" document.sync
  require "sync_scope_denied" (scope ∈ state.scopes)
  let key ← key lib scope identifier
  match state.entities.get? key with
  | none => return none
  | some entity => some <$> Choices.of lib entity

/-- `sync_issues`: the entities in conflict. -/
def syncIssues (lib : Library) (document : Document) :
    Except String (List (ScopeName × Choices)) :=
  match document.sync with
  | none => .ok []
  | some state => do
      let shown ← state.entities.values.mapM fun entity =>
        (fun choices => (entity.scope, choices)) <$> Choices.of lib entity
      return shown.filter fun entry => entry.2.conflict

end Consumption
