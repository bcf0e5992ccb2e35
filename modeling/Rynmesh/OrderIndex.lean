import Mathlib.Data.Finset.Basic
import Mathlib.Data.String.Basic
import Rynmesh.InsertionDict
import Rynmesh.JsonValue

/-!
# The index of open work orders

`registry.py`, `FilePeerRegistry`: a work order is one file, each result of it another,
and a marker in the provider's directory says that the order may be open.

* `Registry` holds the three directories;
* `Call` is a call of `submit_work_order`, `publish_work_result` or
  `list_work_orders(status="open")` with how far it has come;
* `Step` lets any call read or write one file; it tells which steps may fail to read, and
  which calls bring a time that cannot be converted.

Signatures, the parsing of times and the hash of a file name are fields of `Platform`.
A file that was opened for writing cannot be read until it is written.  The one-time
index of older registries and listings by other statuses are left out, apart from the
scan that the index is compared with.
-/

namespace Orders

/-- `JOB_STATUS_VALUES`. -/
def jobStatusValues : List String :=
  ["open", "accepted", "running", "completed", "failed", "cancelled"]

structure Order where
  workOrderId : String
  requesterPeerId : String
  providerPeerId : String
  capability : String
  networkId : String
  /-- None where the time of reading stands in. -/
  createdAt : Option String
  expiresAt : String

structure Result where
  workOrderId : String
  requesterPeerId : String
  providerPeerId : String
  networkId : String
  status : String
  createdAt : Option String

structure Platform where
  /-- `_peer_slug`. -/
  slug : String → String
  /-- The slug of the subject hash of a signed payload. -/
  subjectSlug : Json → String
  /-- `str.strip`. -/
  strip : String → String
  /-- `verify_work_order`, none where it raises. -/
  verifyOrder : Json → Option Order
  /-- `verify_work_result` before it looks at the status. -/
  readResult : Json → Option Result
  /-- `_parse_time`, where it returns. -/
  parseTime : String → Option Rat
  /-- `_parse_time` raises: `astimezone` leaves the dates that there are. -/
  overflows : String → Bool
  /-- `now_iso`, at a time. -/
  nowIso : Rat → String

variable (p : Platform)

/-- `verify_work_result`. -/
def verifyResult (signed : Json) : Option Result :=
  (p.readResult signed).filter fun result => result.status ∈ jobStatusValues

/-- `order_is_open`, at a time. -/
def orderIsOpen (now : Rat) (order : Order) : Bool :=
  order.expiresAt = "" ||
    match p.parseTime order.expiresAt with
    | some expires => now ≤ expires
    | none => true

/-- `record_within_age`, at a time. -/
def recordWithinAge (now : Rat) (createdAt : Option String) (maxAgeHours : Option Rat) : Bool :=
  match maxAgeHours, createdAt with
  | none, _ | some _, none => true
  | some hours, some text =>
      hours ≤ 0 ||
        match p.parseTime text with
        | some created => now - 3600 * hours ≤ created
        | none => false

/-- `order_is_open` raises. -/
def openRaises (order : Order) : Bool := order.expiresAt ≠ "" && p.overflows order.expiresAt

/-- `datetime.min`, in seconds. -/
def firstTime : Rat := -62135596800

/-- `record_within_age` raises, at a time: at the text, or where the limit is before every date. -/
def ageRaises (now : Rat) (createdAt : Option String) (maxAgeHours : Option Rat) : Bool :=
  match maxAgeHours with
  | none => false
  | some hours =>
      0 < hours && (createdAt.any p.overflows ||
        createdAt.all (fun text => (p.parseTime text).isSome) && now - 3600 * hours < firstTime)

/-- The times of an order can be converted. -/
def Timely (order : Order) : Prop :=
  openRaises p order = false ∧ order.createdAt.any p.overflows = false

/-- The arguments of a listing, stripped. -/
structure Filter where
  networkId : String
  providerPeerId : String
  requesterPeerId : String
  capability : String
  maxAgeHours : Option Rat

/-- The tests before that of the age. -/
def Filter.selects (filter : Filter) (order : Order) : Bool :=
  order.networkId = filter.networkId &&
  (filter.providerPeerId = "" || order.providerPeerId = filter.providerPeerId) &&
  (filter.requesterPeerId = "" || order.requesterPeerId = filter.requesterPeerId) &&
  (filter.capability = "" || order.capability = filter.capability)

def Filter.passes (filter : Filter) (now : Rat) (order : Order) : Bool :=
  filter.selects order && recordWithinAge p now order.createdAt filter.maxAgeHours

def Filter.raises (filter : Filter) (now : Rat) (order : Order) : Bool :=
  filter.selects order && ageRaises p now order.createdAt filter.maxAgeHours

/-- The age limit of a listing is a date. -/
def Filter.InRange (filter : Filter) (now : Rat) : Prop :=
  ∀ hours ∈ filter.maxAgeHours, firstTime ≤ now - 3600 * hours

/-- Whether `_latest_work_result_status` looks at a result of an order: the ids are
stripped first, and compared as they are afterwards. -/
def counts (order : Order) (result : Result) : Bool :=
  result.networkId = order.networkId &&
  (p.strip order.workOrderId = "" || result.workOrderId = p.strip order.workOrderId) &&
  (p.strip order.requesterPeerId = "" || result.requesterPeerId = p.strip order.requesterPeerId) &&
  (p.strip order.providerPeerId = "" || result.providerPeerId = p.strip order.providerPeerId) &&
  result.workOrderId = order.workOrderId && result.providerPeerId = order.providerPeerId &&
  result.requesterPeerId = order.requesterPeerId

/-- The status of the latest of some results, each with its time. -/
def latestStatus (found : List (String × Result)) : String :=
  (((found.insertionSort fun a b => a.1 ≤ b.1).getLast?).map fun item => item.2.status).getD ""

/-! ### Files -/

inductive OrderFile
  /-- Opened by a writer of this order; nothing can be read yet. -/
  | started (signed : Json)
  | full (signed : Json)
  deriving DecidableEq

/-- A marker: the slug of the provider and the name of the order file. -/
abbrev Marker := String × String

/-- A result: the directory of its order and its name. -/
abbrev ResultPath := String × String

structure Registry where
  orders : Dict String OrderFile
  results : Dict ResultPath Json
  markers : Finset Marker

def orderName (order : Order) : String := p.slug order.workOrderId

/-- `_open_order_marker_path`. -/
def markerOf (order : Order) : Marker := (p.slug order.providerPeerId, orderName p order)

/-- The result files that are listed for an order. -/
def resultPaths (registry : Registry) (order : Order) : List ResultPath :=
  (registry.results.keys.filter fun path =>
    p.strip order.workOrderId = "" || path.1 = p.slug (p.strip order.workOrderId)).insertionSort
      fun a b => a.1 < b.1 ∨ a.1 = b.1 ∧ a.2 ≤ b.2

/-- What one result file adds to the results of an order, read at a time. -/
def readResultFile (now : Rat) (order : Order) (content : Option Json) : List (String × Result) :=
  match content.bind (verifyResult p) with
  | some result =>
      if counts p order result then [(result.createdAt.getD (p.nowIso now), result)] else []
  | none => []

/-- `_latest_work_result_status` where no read fails. -/
def statusOf (registry : Registry) (now : Rat) (order : Order) : String :=
  latestStatus ((resultPaths p registry order).flatMap fun path =>
    readResultFile p now order (registry.results.get? path))

/-- What a file contributes to the scan of all work orders. -/
def scanned (registry : Registry) (filter : Filter) (now : Rat) (file : Option OrderFile) :
    Option Json :=
  match file with
  | some (.full signed) =>
      match p.verifyOrder signed with
      | some order =>
          if filter.passes p now order && orderIsOpen p now order &&
              statusOf p registry now order = ""
          then some signed
          else none
      | none => none
  | _ => none

/-- The scan of all work orders raises at a file. -/
def scanRaises (filter : Filter) (now : Rat) (file : Option OrderFile) : Bool :=
  match file with
  | some (.full signed) => (p.verifyOrder signed).any fun order =>
      filter.raises p now order || filter.passes p now order && openRaises p order
  | _ => false

/-- The scan of `list_work_orders`, with the test for open orders; none where it raises. -/
def scan (registry : Registry) (filter : Filter) (now : Rat) : Option (List Json) :=
  if registry.orders.keys.any fun name => scanRaises p filter now (registry.orders.get? name)
  then none
  else some ((registry.orders.keys.insertionSort fun a b => a ≤ b).filterMap fun name =>
    scanned p registry filter now (registry.orders.get? name))

/-! ### Calls -/

/-- What the calls did; a listing shows the history at its start, the times of its start
and end, and what it returned. -/
inductive Event
  | submitted (signed : Json)
  | recorded (name : String)
  | listed (filter : Filter) (start : List Event) (began ended : Rat) (records : List Json)
  /-- The `OverflowError` of a time ended a call. -/
  | raised

/-- The results of an order being read, file by file. -/
structure Reading where
  order : Order
  remaining : List ResultPath
  found : List (String × Result)

inductive Submit
  | create
  | write
  /-- The file exists: it must hold the same order. -/
  | check
  | glob
  | scan (reading : Reading)
  | mark
  | unmark

inductive Publish
  | read
  | write (order : Order)
  | unmark (order : Order)

inductive Listing
  | next
  | judge (marker : Marker) (signed : Json) (order : Order)
  | scan (marker : Marker) (signed : Json) (reading : Reading)
  | discard (marker : Marker)

/-- A call with what it holds in memory. -/
inductive Call
  | submit (signed : Json) (order : Order) (stage : Submit)
  | publish (signed : Json) (result : Result) (stage : Publish)
  | list (filter : Filter) (start : List Event) (began : Rat) (markers : List Marker)
      (records : List Json) (stage : Listing)

structure World where
  registry : Registry
  now : Rat
  calls : List Call
  history : List Event

namespace World

def initial : World := ⟨⟨.empty, .empty, ∅⟩, 0, [], []⟩

variable (w : World)

def setOrder (name : String) (file : OrderFile) : World :=
  { w with registry := { w.registry with orders := w.registry.orders.set name file } }

def setResult (path : ResultPath) (signed : Json) : World :=
  { w with registry := { w.registry with results := w.registry.results.set path signed } }

def addMarker (marker : Marker) : World :=
  { w with registry := { w.registry with markers := insert marker w.registry.markers } }

def dropMarker (marker : Marker) : World :=
  { w with registry := { w.registry with markers := w.registry.markers.erase marker } }

/-- The next call of a list of calls moves on. -/
def become (calls : List Call) : World := { w with calls }

def log (event : Event) : World := { w with history := event :: w.history }

end World

/-- The markers a listing starts from, sorted by name. -/
structure Globbed (registry : Registry) (filter : Filter) (markers : List Marker) : Prop where
  nodup : markers.Nodup
  sorted : markers.Pairwise fun a b => a.2 ≤ b.2
  mem : ∀ marker, marker ∈ markers ↔ marker ∈ registry.markers ∧
    (filter.providerPeerId = "" ∨ marker.1 = p.slug filter.providerPeerId)

/-- A result is recorded under the name of an order. -/
def Resolved (registry : Registry) (name : String) : Prop :=
  ∃ path signed, path.1 = name ∧ registry.results.get? path = some signed

/-- An order that no listing has to return any more. -/
def Shut (w : World) (order : Order) : Prop :=
  orderIsOpen p w.now order = false ∨ Resolved w.registry (orderName p order)

/-- What a step is: the clock, the start of a call, or one file of a call.  A step is
`plain` unless an order or an age limit comes with a time that cannot be converted, a listing
fails to read a file that it depends on, or a result is published for an order with an id that
is not stripped. -/
inductive Kind
  | clock
  | start (plain : Prop)
  | file (plain : Prop)

def Kind.Plain : Kind → Prop
  | .clock => True
  | .start plain => plain
  | .file plain => plain

/-- The ids of a result are as `str.strip` leaves them. -/
def Trimmed (result : Result) : Prop :=
  p.strip result.workOrderId = result.workOrderId ∧
  p.strip result.requesterPeerId = result.requesterPeerId ∧
  p.strip result.providerPeerId = result.providerPeerId

/-- The order file of this name need not be listed. -/
def Spent (w : World) (name : String) : Prop :=
  ∀ signed order, w.registry.orders.get? name = some (.full signed) →
    p.verifyOrder signed = some order → Shut p w order

/-- A listing does without the next result file: it has a result of the order, has others
to read, or began before any was recorded. -/
def Spare (start : List Event) (reading : Reading) (remaining : List ResultPath) : Prop :=
  reading.found ≠ [] ∨ .recorded (orderName p reading.order) ∉ start ∨
    ∃ path ∈ remaining, path.1 = orderName p reading.order

/-- What a listing makes of a marker once it has the order file, or failed to read it. -/
def examine (marker : Marker) (content : Option OrderFile) : Listing :=
  match content with
  | some (.full signed) =>
      match p.verifyOrder signed with
      | some order =>
          if markerOf p order = marker then .judge marker signed order else .discard marker
      | none => .discard marker
  | _ => .discard marker

inductive Step (w : World) : Kind → World → Prop
  | tick (now : Rat) (h : w.now ≤ now) : Step w .clock { w with now }
  | submit (signed : Json) {order : Order} (h : p.verifyOrder signed = some order) :
      Step w (.start (Timely p order)) (w.become (.submit signed order .create :: w.calls))
  | publish (signed : Json) {result : Result} (h : verifyResult p signed = some result) :
      Step w (.start True) (w.become (.publish signed result .read :: w.calls))
  | list (filter : Filter) {markers : List Marker}
      (h : Globbed p w.registry filter markers) :
      Step w (.start (filter.InRange w.now))
        (w.become (.list filter w.history w.now markers [] .next :: w.calls))
  /-- `path.open("x")`. -/
  | create {signed : Json} {order : Order} {rest : List Call}
      (hcall : w.calls.Perm (.submit signed order .create :: rest))
      (hnone : w.registry.orders.get? (orderName p order) = none) :
      Step w (.file True) ((w.setOrder (orderName p order) (.started signed)).become
        (.submit signed order .write :: rest))
  | exists {signed : Json} {order : Order} {rest : List Call}
      (hcall : w.calls.Perm (.submit signed order .create :: rest))
      (hsome : w.registry.orders.get? (orderName p order) ≠ none) :
      Step w (.file True) (w.become (.submit signed order .check :: rest))
  | write {signed : Json} {order : Order} {rest : List Call}
      (hcall : w.calls.Perm (.submit signed order .write :: rest)) :
      Step w (.file True) ((w.setOrder (orderName p order) (.full signed)).become
        (.submit signed order .glob :: rest))
  | check {signed : Json} {order : Order} {rest : List Call}
      (hcall : w.calls.Perm (.submit signed order .check :: rest))
      (hsame : w.registry.orders.get? (orderName p order) = some (.full signed)) :
      Step w (.file True) (w.become (.submit signed order .glob :: rest))
  /-- The file is not the order, or is not read: `work_order_id_conflict`. -/
  | conflict {signed : Json} {order : Order} {rest : List Call}
      (hcall : w.calls.Perm (.submit signed order .check :: rest)) :
      Step w (.file True) (w.become rest)
  | globSubmit {signed : Json} {order : Order} {rest : List Call}
      (hcall : w.calls.Perm (.submit signed order .glob :: rest)) :
      Step w (.file True) (w.become (.submit signed order
        (.scan ⟨order, resultPaths p w.registry order, []⟩) :: rest))
  /-- One result file is read, or not. -/
  | scanSubmit {signed : Json} {order : Order} {reading : Reading} {path : ResultPath}
      {remaining : List ResultPath} {rest : List Call}
      (hcall : w.calls.Perm (.submit signed order (.scan reading) :: rest))
      (hpath : reading.remaining = path :: remaining) (content : Option Json)
      (hcontent : content = none ∨ content = w.registry.results.get? path) :
      Step w (.file True) (w.become (.submit signed order (.scan ⟨reading.order, remaining,
        reading.found ++ readResultFile p w.now reading.order content⟩) :: rest))
  | decide {signed : Json} {order : Order} {reading : Reading} {rest : List Call}
      (hcall : w.calls.Perm (.submit signed order (.scan reading) :: rest))
      (hdone : reading.remaining = []) (hreturns : openRaises p order = false) :
      Step w (.file True) (w.become (.submit signed order
        (if orderIsOpen p w.now order && latestStatus reading.found = "" then .mark
          else .unmark) :: rest))
  | decideRaises {signed : Json} {order : Order} {reading : Reading} {rest : List Call}
      (hcall : w.calls.Perm (.submit signed order (.scan reading) :: rest))
      (hdone : reading.remaining = []) (hraises : openRaises p order = true) :
      Step w (.file True) ((w.become rest).log .raised)
  | mark {signed : Json} {order : Order} {rest : List Call}
      (hcall : w.calls.Perm (.submit signed order .mark :: rest)) :
      Step w (.file True)
        (((w.addMarker (markerOf p order)).become rest).log (.submitted signed))
  | unmark {signed : Json} {order : Order} {rest : List Call}
      (hcall : w.calls.Perm (.submit signed order .unmark :: rest)) :
      Step w (.file True)
        (((w.dropMarker (markerOf p order)).become rest).log (.submitted signed))
  | readOrder {signed : Json} {result : Result} {rest : List Call}
      (hcall : w.calls.Perm (.publish signed result .read :: rest)) {file : Json} {order : Order}
      (hfile : w.registry.orders.get? (p.slug result.workOrderId) = some (.full file))
      (horder : p.verifyOrder file = some order)
      (hsame : result.workOrderId = order.workOrderId ∧ result.networkId = order.networkId ∧
        result.providerPeerId = order.providerPeerId ∧
        result.requesterPeerId = order.requesterPeerId) :
      Step w (.file (Trimmed p result)) (w.become (.publish signed result (.write order) :: rest))
  /-- The order is not found, not read or another one. -/
  | refuse {signed : Json} {result : Result} {rest : List Call}
      (hcall : w.calls.Perm (.publish signed result .read :: rest)) :
      Step w (.file True) (w.become rest)
  | record {signed : Json} {result : Result} {order : Order} {rest : List Call}
      (hcall : w.calls.Perm (.publish signed result (.write order) :: rest)) :
      Step w (.file True)
        (((w.setResult (p.slug result.workOrderId, p.subjectSlug signed) signed).become
          (.publish signed result (.unmark order) :: rest)).log
            (.recorded (p.slug result.workOrderId)))
  | release {signed : Json} {result : Result} {order : Order} {rest : List Call}
      (hcall : w.calls.Perm (.publish signed result (.unmark order) :: rest)) :
      Step w (.file True)
        ((w.dropMarker (p.slug order.providerPeerId, p.slug result.workOrderId)).become rest)
  /-- The order file of a marker is read, or not. -/
  | next {filter : Filter} {start : List Event} {began : Rat} {marker : Marker}
      {markers : List Marker} {records : List Json} {rest : List Call}
      (hcall : w.calls.Perm (.list filter start began (marker :: markers) records .next :: rest))
      (success : Bool) :
      Step w (.file (success = true ∨ Spent p w marker.2)) (w.become (.list filter start began
        markers records (examine p marker
          (if success then w.registry.orders.get? marker.2 else none)) :: rest))
  | judge {filter : Filter} {start : List Event} {began : Rat} {markers : List Marker}
      {records : List Json} {marker : Marker} {signed : Json} {order : Order} {rest : List Call}
      (hcall : w.calls.Perm
        (.list filter start began markers records (.judge marker signed order) :: rest))
      (hreturns : openRaises p order = false) :
      Step w (.file True) (w.become (.list filter start began markers records
        (if orderIsOpen p w.now order then
          .scan marker signed ⟨order, resultPaths p w.registry order, []⟩
        else .discard marker) :: rest))
  | judgeRaises {filter : Filter} {start : List Event} {began : Rat} {markers : List Marker}
      {records : List Json} {marker : Marker} {signed : Json} {order : Order} {rest : List Call}
      (hcall : w.calls.Perm
        (.list filter start began markers records (.judge marker signed order) :: rest))
      (hraises : openRaises p order = true) :
      Step w (.file True) ((w.become rest).log .raised)
  | scanList {filter : Filter} {start : List Event} {began : Rat} {markers : List Marker}
      {records : List Json} {marker : Marker} {signed : Json} {reading : Reading}
      {path : ResultPath} {remaining : List ResultPath} {rest : List Call}
      (hcall : w.calls.Perm
        (.list filter start began markers records (.scan marker signed reading) :: rest))
      (hpath : reading.remaining = path :: remaining) (success : Bool) :
      Step w (.file (success = true ∨ Spare p start reading remaining)) (w.become (.list filter
        start began markers records (.scan marker signed ⟨reading.order, remaining,
          reading.found ++ readResultFile p w.now reading.order
            (if success then w.registry.results.get? path else none)⟩) :: rest))
  | keep {filter : Filter} {start : List Event} {began : Rat} {markers : List Marker}
      {records : List Json} {marker : Marker} {signed : Json} {reading : Reading}
      {rest : List Call}
      (hcall : w.calls.Perm
        (.list filter start began markers records (.scan marker signed reading) :: rest))
      (hdone : reading.remaining = []) (hstatus : latestStatus reading.found = "")
      (hreturns : filter.raises p w.now reading.order = false) :
      Step w (.file True) (w.become (.list filter start began markers
        (if filter.passes p w.now reading.order then records ++ [signed] else records)
          .next :: rest))
  | keepRaises {filter : Filter} {start : List Event} {began : Rat} {markers : List Marker}
      {records : List Json} {marker : Marker} {signed : Json} {reading : Reading}
      {rest : List Call}
      (hcall : w.calls.Perm
        (.list filter start began markers records (.scan marker signed reading) :: rest))
      (hdone : reading.remaining = []) (hstatus : latestStatus reading.found = "")
      (hraises : filter.raises p w.now reading.order = true) :
      Step w (.file True) ((w.become rest).log .raised)
  | closed {filter : Filter} {start : List Event} {began : Rat} {markers : List Marker}
      {records : List Json} {marker : Marker} {signed : Json} {reading : Reading}
      {rest : List Call}
      (hcall : w.calls.Perm
        (.list filter start began markers records (.scan marker signed reading) :: rest))
      (hdone : reading.remaining = []) (hstatus : latestStatus reading.found ≠ "") :
      Step w (.file True)
        (w.become (.list filter start began markers records (.discard marker) :: rest))
  | discard {filter : Filter} {start : List Event} {began : Rat} {markers : List Marker}
      {records : List Json} {marker : Marker} {rest : List Call}
      (hcall : w.calls.Perm
        (.list filter start began markers records (.discard marker) :: rest)) :
      Step w (.file True)
        ((w.dropMarker marker).become (.list filter start began markers records .next :: rest))
  | finish {filter : Filter} {start : List Event} {began : Rat} {records : List Json}
      {rest : List Call}
      (hcall : w.calls.Perm (.list filter start began [] records .next :: rest)) :
      Step w (.file True) ((w.become rest).log (.listed filter start began w.now records))

/-- A world that steps lead to, all of them plain. -/
inductive Plain : World → Prop
  | initial : Plain .initial
  | step {w w' : World} {kind : Kind} (h : Plain w) (hstep : Step p w kind w')
      (hkind : kind.Plain) : Plain w'

/-- A world that any steps lead to. -/
inductive Reachable : World → Prop
  | initial : Reachable .initial
  | step {w w' : World} {kind : Kind} (h : Reachable w) (hstep : Step p w kind w') : Reachable w'

end Orders
