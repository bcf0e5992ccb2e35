import Rynmesh.AskHistory
import Rynmesh.CausalRecordsJoin
import Rynmesh.DoubleRounding
import Rynmesh.JsonFields

/-!
# Values for other devices

`clean_value` of `device_sync/records.py` and `clean_conversation` of
`ask_ryn/store.py` on JSON documents of any shape: what of a local record other
devices may get.

* `cleanConversation` keeps the listed fields of a conversation and of its
  messages and checks them;
* `shared` drops unfinished messages, and then the title and the time they gave;
* `cleanItem` copies the metadata of a bookmark or a reading position;
* `syncScope` makes a scope of the causal registers of each.
-/

namespace SyncValues

open Checked Json Ask

/-! ### The standard library -/

/-- What `urlsplit` reads off a link. -/
structure Link where
  scheme : String
  hostname : Option String
  username : Option String
  password : Option String

structure Library where
  /-- `str.strip`. -/
  strip : String → String
  /-- A text that `datetime.fromisoformat` reads as a time with a zone. -/
  isTimestamp : String → Bool
  /-- None where `urlsplit` or a property of its result raises a `ValueError`. -/
  urlsplit : String → Option Link
  /-- `quote(identifier, safe='')`. -/
  quote : String → String
  /-- The value of the float nearest to a number, and its text. -/
  nearest : Rat → Rat × String
  fingerprint : Option Json → String

variable (lib : Library)

/-! ### Conversations -/

/-- `FIELDS`, without the revision. -/
def CONVERSATION_FIELDS : List String :=
  ["id", "title", "serviceKey", "serviceName", "providerPeerId", "networkId", "createdAt",
    "updatedAt", "messages", "draft", "contextIds"]

def MESSAGE_FIELDS : List String :=
  ["id", "role", "content", "createdAt", "status", "taskId", "inputTokens", "outputTokens", "cost",
    "contextIds", "contextBytes", "promptSha256"]

def TEXT_FIELDS : List (String × Nat) :=
  [("title", 512), ("serviceKey", 2048), ("serviceName", 512), ("providerPeerId", 1024),
    ("networkId", 256)]

/-- `_FINAL`. -/
def FINAL : List String := ["complete", "failed", "cancelled", "interrupted"]

def STATUSES : List String := FINAL ++ ["queued", "running", "cancel_requested"]

/-- The string of a field. -/
def text? (value : Json) (key : String) : Option String := (value.get? key).bind asStr?

/-- `_identity` of a field. -/
def identity (value : Json) (key : String) : Except String String := do
  let text ← demand "ask_invalid_conversation" (text? value key)
  require "ask_invalid_conversation" (isIdentity text = true)
  pure text

/-- `_timestamp` of a field. -/
def checkTimestamp (value : Json) (key : String) : Except String Unit :=
  require "ask_invalid_conversation" ((text? value key).any (fun text =>
    decide (text.length ≤ 64) && lib.isTimestamp text) = true)

/-- A text field: not blank, not too long and without control characters. -/
def isText (limit : Nat) (text : String) : Bool :=
  decide (lib.strip text ≠ "") && decide (text.length ≤ limit) &&
    text.toList.all fun c => 32 ≤ c.toNat

/-- The service key names a service of the provider. -/
def isBound (serviceKey providerPeerId : String) : Bool :=
  (providerPeerId ++ "::").toList.isPrefixOf serviceKey.toList &&
    decide (serviceKey ≠ providerPeerId ++ "::")

/-- `value in names`, which a list or an object cannot be asked for. -/
def checkMember (value : Json) (key : String) (names : List String) : Except String Unit :=
  match value.get? key with
  | some (.arr _) | some (.obj _) => .error "TypeError"
  | _ => require "ask_invalid_conversation" ((text? value key).any (· ∈ names) = true)

/-- A field that may hold a finite amount; `isfinite` raises on an integer that no float holds. -/
def checkAmount (value : Json) (key : String) : Except String Unit :=
  match value.get? key with
  | none => pure ()
  | some (.int n) => do
      require "OverflowError" (n.natAbs < 2 ^ 1024 - 2 ^ 970)
      require "ask_invalid_conversation" (0 ≤ n)
  | some (.float amount _) => require "ask_invalid_conversation" (amount.any (0 ≤ ·) = true)
  | some _ => .error "ask_invalid_conversation"

/-- A list of at most three context ids. -/
def isContextIds (value : Json) : Bool :=
  value.asArr?.any fun ids => decide (ids.length ≤ 3) &&
    ids.all fun item => item.asStr?.any isContextId

/-- The sizes of as many contexts. -/
def isContextBytes (count : Nat) (value : Json) : Bool :=
  value.asArr?.any fun sizes => decide (sizes.length = count) &&
    sizes.all fun item => item.asInt?.any fun size => decide (0 ≤ size ∧ size ≤ 1024 * 1024)

/-- The checks of one message, but for its id. -/
def checkMessage (row : Json) : Except String Unit := do
  checkMember row "role" ["user", "assistant"]
  checkMember row "status" STATUSES
  require "ask_history_limit"
    ((text? row "content").any (fun text => decide (text.utf8ByteSize ≤ 256 * 1024)) = true)
  checkTimestamp lib row "createdAt"
  whenever (row.get? "taskId" ≠ none) (discard (identity row "taskId"))
  checkAmount row "inputTokens"
  checkAmount row "outputTokens"
  checkAmount row "cost"
  require "ask_context_unavailable" (∀ ids, row.get? "contextIds" = some ids →
    isContextIds ids = true ∧ isContextBytes ((ids.asArr?.map List.length).getD 0)
      ((row.get? "contextBytes").getD (.arr [])) = true)
  require "ask_invalid_conversation" (∀ hash, row.get? "promptSha256" = some hash →
    hash.asStr?.any (fun text => decide (text.length = 64) && isHex text) = true)

/-- The loop over the messages; `seen` are the ids before. -/
def cleanMessages : List String → List Json → Except String (List Json)
  | _, [] => pure []
  | seen, message :: rest => do
      require "ask_invalid_conversation" (message.isObj = true)
      let id ← identity (message.restrict MESSAGE_FIELDS) "id"
      require "ask_invalid_conversation" (id ∉ seen)
      checkMessage lib (message.restrict MESSAGE_FIELDS)
      let rows ← cleanMessages (id :: seen) rest
      pure (message.restrict MESSAGE_FIELDS :: rows)

/-- The checks before the messages. -/
def checkHeader (result : Json) : Except String Unit := do
  let _ ← identity result "id"
  require "ask_invalid_conversation" (∀ f ∈ TEXT_FIELDS,
    (text? result f.1).any (isText lib f.2) = true)
  require "ask_service_binding_mismatch"
    (isBound ((text? result "serviceKey").getD "") ((text? result "providerPeerId").getD "") = true)
  checkTimestamp lib result "createdAt"
  checkTimestamp lib result "updatedAt"

/-- The checks after the messages. -/
def checkRest (result : Json) : Except String Unit := do
  require "ask_history_limit" (∀ draft, result.get? "draft" = some draft →
    draft.asStr?.any (fun text => decide (text.utf8ByteSize ≤ 64 * 1024)) = true)
  require "ask_context_unavailable" (∀ ids, result.get? "contextIds" = some ids →
    isContextIds ids = true ∧ (ids.asArr?.getD []).Nodup)

/-- `len(_json(result)) <= 1024 * 1024`; `_json` raises on a number that is not finite. -/
def checkSize (result : Json) : Except String Unit := do
  require "ValueError" (result.finite = true)
  require "ask_history_limit" (result.size ≤ 1024 * 1024)

/-- The messages of a conversation. -/
def messages (result : Json) : Option (List Json) := (result.get? "messages").bind asArr?

/-- `clean_conversation`. -/
def cleanConversation (value : Json) : Except String Json := do
  require "ask_invalid_conversation" (value.isObj = true)
  checkHeader lib (value.restrict CONVERSATION_FIELDS)
  let rows ← demand "ask_history_limit" (messages (value.restrict CONVERSATION_FIELDS))
  require "ask_history_limit" (rows.length ≤ 2000)
  let rows ← cleanMessages lib [] rows
  let result := (value.restrict CONVERSATION_FIELDS).assign "messages" (.arr rows)
  checkRest result
  checkSize result
  pure result

/-- The message has a final status. -/
def isFinal (row : Json) : Bool := (text? row "status").any (· ∈ FINAL)

/-- The tasks of the messages that are not final. -/
def unfinishedTasks (rows : List Json) : List Json :=
  rows.filterMap fun row =>
    if isFinal row then none else (row.get? "taskId").filter truthy

/-- The final messages that belong to no unfinished task. -/
def finishedMessages (rows : List Json) : List Json :=
  rows.filter fun row => isFinal row && (row.get? "taskId").all (· ∉ unfinishedTasks rows)

/-- The title that the first question left gives, or the fixed one. -/
def newTitle (rows : List Json) : String :=
  let first := ((rows.find? fun row => text? row "role" = some "user").bind
    (text? · "content")).getD "Conversation"
  let title := String.ofList ((first.toList.map fun c => if 32 ≤ c.toNat then c else ' ').take 512)
  if title = "" then "Conversation" else title

/-- The time of the last message left, or of the conversation. -/
def newTime (result : Json) (rows : List Json) : Json :=
  ((rows.getLast?).bind (·.get? "createdAt")).getD ((result.get? "createdAt").getD .null)

/-- A cleaned conversation without its draft, with the messages left. -/
def withMessages (result : Json) (rows : List Json) : Json :=
  (result.without "draft").assign "messages" (.arr rows)

/-- What `clean_value` makes of a cleaned conversation. -/
def shared (result : Json) : Json :=
  let rows := (messages result).getD []
  let kept := finishedMessages rows
  if kept.length = rows.length then withMessages result kept
  else ((withMessages result kept).assign "title" (.str (newTitle kept))).assign "updatedAt"
    (newTime result kept)

/-- The `except` of `clean_value`. -/
def conversationFailure (message : String) : String :=
  if message = "OverflowError" then message else "sync_conversation_invalid"

def cleanSharedConversation (identifier : String) (value : Json) : Except String Json := do
  let result ← (cleanConversation lib value).mapError conversationFailure
  require "sync_entity_invalid" (text? result "id" = some identifier)
  pure (shared result)

/-! ### Items -/

inductive ScopeName
  | bookmarks
  | reading
  | conversations
  deriving DecidableEq

def ITEM_FIELDS : List (String × Nat) :=
  [("title", 4000), ("source_title", 4000), ("source_id", 4000), ("content_kind", 32),
    ("link", 4096)]

/-- A text of at most so many characters and none below the space, or the empty one. -/
def itemText (message : String) (limit : Nat) (value : Option Json) : Except String String := do
  let text ← demand message ((value.getD (.str "")).asStr?)
  require message (text.length ≤ limit ∧ text.toList.all (fun c => 32 ≤ c.toNat) = true)
  pure text

/-- The metadata of an item, field by field. -/
def itemFields (item : Json) : List (String × Nat) → Except String (List (String × Json))
  | [] => pure []
  | (key, limit) :: rest => do
      let text ← itemText "sync_item_invalid" limit (item.get? key)
      let fields ← itemFields item rest
      pure ((key, .str text) :: fields)

/-- A link to a page without credentials, or to the node's own content. -/
def isItemLink (identifier link : String) : Bool :=
  match lib.urlsplit link with
  | none => false
  | some parts =>
      (decide (parts.scheme = "http" ∨ parts.scheme = "https") && parts.hostname.any (· ≠ "") &&
          parts.username.isNone && parts.password.isNone) ||
        decide (link = "rynmesh://content/" ++ lib.quote identifier)

/-- `round(x, 4)` of a float: the float nearest to its value with four decimal places. -/
def roundFloat (value : Rat) : Json :=
  let result := lib.nearest (Rounding.roundHalfEven (value * 10000) / 10000)
  .float (some result.1) result.2

/-- The progress of a reading position, rounded; an integer stays what it is. -/
def progress (value : Option Json) : Except String Json :=
  match value with
  | some (.int n) => do
      require "OverflowError" (n.natAbs < 2 ^ 1024 - 2 ^ 970)
      require "sync_value_invalid" (0 ≤ n ∧ n ≤ 1)
      pure (.int n)
  | some (.float (some x) _) => do
      require "sync_value_invalid" (0 ≤ x ∧ x ≤ 1)
      pure (roundFloat lib x)
  | _ => .error "sync_value_invalid"

/-- The metadata of the item, with its id first. -/
def cleanMetadata (identifier : String) (value : Json) : Except String Json := do
  let item ← demand "sync_item_invalid" (value.get? "item")
  require "sync_item_invalid" (item.isObj = true ∧ item.get? "item_id" = some (.str identifier))
  let fields ← itemFields item ITEM_FIELDS
  require "sync_item_link_invalid"
    (((Dict.lookup "link" fields).bind asStr?).any (isItemLink lib identifier) = true)
  pure (.obj (("item_id", .str identifier) :: fields))

def flag (value : Json) (key : String) : Except String Json := do
  let flag ← demand "sync_value_invalid" ((value.get? key).bind asBool?)
  pure (.bool flag)

def cleanBookmark (identifier : String) (value : Json) : Except String Json := do
  let metadata ← cleanMetadata lib identifier value
  let bookmarked ← flag value "bookmarked"
  pure (.obj [("item", metadata), ("bookmarked", bookmarked)])

def cleanReading (identifier : String) (value : Json) : Except String Json := do
  let metadata ← cleanMetadata lib identifier value
  let position ← progress lib (value.get? "progress")
  let completed ← flag value "completed"
  let version ← itemText "sync_value_invalid" 256 (value.get? "content_version")
  pure (.obj [("item", metadata), ("progress", position), ("completed", completed),
    ("content_version", .str version)])

/-! ### Scopes -/

/-- `clean_value` of a value that is not None. -/
def cleanValue (scope : ScopeName) (identifier : String) (value : Json) : Except String Json := do
  require "sync_entity_invalid" (Records.isEntityId identifier = true)
  require "sync_value_invalid" (value.isObj = true)
  match scope with
  | .conversations => cleanSharedConversation lib identifier value
  | .bookmarks => cleanBookmark lib identifier value
  | .reading => cleanReading lib identifier value

/-- The fields that all branches of a conversation share. -/
def binding (value : Json) : String × String × String × String :=
  let field (key : String) := (text? value key).getD ""
  (field "serviceKey", field "providerPeerId", field "networkId", field "createdAt")

/-- The bytes of a value in a record. -/
def valueSize (value : Option Json) : Nat := (value.map Json.size).getD 4

/-- A scope of the causal registers. -/
def syncScope (scope : ScopeName) : Records.Scope Json where
  isConversations := scope = .conversations
  clean := cleanValue lib scope
  binding := binding
  fingerprint := lib.fingerprint
  size := Records.Record.textSize valueSize

end SyncValues
