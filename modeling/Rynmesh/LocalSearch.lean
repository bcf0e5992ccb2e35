import Rynmesh.CheckedComputation
import Rynmesh.JsonFields
import Mathlib.Data.Prod.Lex
import Mathlib.Data.List.Dedup
import Mathlib.Data.List.Infix

/-!
# The local search index

`local_search/index.py`: an index of a node's own documents, which are read again
at every query.

* `documents` is the check of what a source brings;
* `Index.activate` builds the postings of bigrams and trigrams, or none where
  they would grow too large;
* `Index.query` is the search, and a page of its results.

Case folding is given character by character, as Unicode has it.  Reading and
writing the encrypted file are left open in `Step`.
-/

namespace LocalSearch

open Checked

/-- A text as the source cuts it, by code points. -/
abbrev Text := List Char

structure Platform where
  /-- `str.casefold` of one character. -/
  foldChar : Char → Text
  /-- What `str.split` splits at. -/
  isSpace : Char → Bool
  /-- `_json`: the text of a value with its keys sorted. -/
  json : Json → String
  /-- The SHA-256 of a text, in hexadecimal. -/
  digest : String → String
  /-- The cursor with a signature and an offset. -/
  encodeCursor : String → Nat → String
  /-- `json.loads(base64.urlsafe_b64decode(cursor))`, or nothing where that raises. -/
  decodeCursor : String → Option Json

/-- `_hash`. -/
def Platform.hash (p : Platform) (value : Json) : String := p.digest (p.json value)

variable (p : Platform)

def maxPlaintext : Nat := 64 * 1024 * 1024

def maxDocuments : Nat := 100000

def maxPostings : Nat := 1000000

def maxGrams : Nat := 250000

/-- `KINDS`. -/
def searchKinds : List String := ["saved", "history", "share", "chat"]

/-- `SOURCE_SCOPES`. -/
def sourceScopes : List String := ["saved_documents", "offline_downloads"]

/-! ### Texts -/

def Platform.casefold (text : Text) : Text := text.flatMap p.foldChar

/-- `text.split()`. -/
def Platform.words (text : Text) : List Text :=
  (text.splitOnP p.isSpace).filter fun word => word ≠ []

/-- `_terms`. -/
def terms (query : String) : Except String (List Text) := do
  require "search_query_invalid" (query.utf8ByteSize ≤ 512)
  require "search_query_invalid" ((p.words (p.casefold query.toList)).eraseDups.length ≤ 16)
  return (p.words (p.casefold query.toList)).eraseDups

/-- `_grams`: the slices of a size. -/
def grams (text : Text) (size : Nat) : List Text :=
  (List.range (text.length + 1 - size)).map fun i => (text.drop i).take size

/-! ### Documents -/

def field (row : Json) (k : String) : Json := (row.get? k).getD .null

/-- A field that is a text in every valid row. -/
def textOf (row : Json) (k : String) : String := (field row k).asStr?.getD ""

def itemsOf (row : Json) (k : String) : List Json := (field row k).asArr?.getD []

def rowId (row : Json) : String := textOf row "id"

/-- `row["timestamp"]`. -/
def stampOf (row : Json) : Rat := (field row "timestamp").number?.getD 0

/-- A finite number that is not negative; `math.isfinite` raises on an integer without a float. -/
def checkStamp (code : String) : Json → Except String Unit
  | .int n =>
      if 2 ^ 1024 - 2 ^ 970 ≤ n.natAbs then .error "OverflowError" else require code (0 ≤ n)
  | .float value _ => require code (value.any (fun x => 0 ≤ x) = true)
  | _ => .error code

def isTextUpTo (limit : Nat) (row : Json) (k : String) : Bool :=
  (field row k).asStr?.any fun text => text.utf8ByteSize ≤ limit

/-- A kind that is a list or an object cannot be looked up in a set. -/
def checkKind (kind : Json) : Except String Unit :=
  match kind with
  | .arr _ | .obj _ => .error "TypeError"
  | .str name => require "search_source_invalid" (name ∈ searchKinds)
  | _ => .error "search_source_invalid"

/-- A route of the application. -/
def isTarget (target : Json) : Bool :=
  target.isObj && (field target "label").asStr?.any (fun label => label.length ≤ 128) &&
    (field target "href").asStr?.any fun href =>
      "/".toList.isPrefixOf href.toList && !"//".toList.isPrefixOf href.toList &&
        href.length ≤ 4096 && href.toList.all fun c => c ≠ '\\' && 32 ≤ c.toNat

/-- `_validate_document`. -/
def validateDocument (row : Json) : Except String Unit := do
  require "search_source_invalid" (isTextUpTo 512 row "id" = true ∧
    isTextUpTo 2048 row "title" = true ∧ isTextUpTo (8 * 1024 * 1024) row "text" = true ∧
    isTextUpTo 2048 row "source" = true)
  require "search_source_invalid" (rowId row ≠ "")
  require "search_source_invalid" ((field row "kinds").asArr?.any (fun kinds => kinds ≠ []) = true)
  forM (itemsOf row "kinds") checkKind
  require "search_source_invalid" (((row.get? "friend_ids").getD (.arr [])).asArr?.any
    (fun peers => peers.all fun peer => peer.asStr?.any fun name => name.length ≤ 256) = true)
  checkStamp "search_source_invalid" (field row "timestamp")
  require "search_source_invalid" ((field row "targets").asArr?.any
    (fun targets => 1 ≤ targets.length && targets.length ≤ 8 && targets.all isTarget) = true)

/-- The documents so far, their size and the rows that were skipped. -/
structure Collected where
  rows : Dict String Json
  total : Nat
  skipped : Nat

/-- One row of `_documents`; what is no `SearchError` is not caught. -/
def collect (current : Collected) (row : Json) : Except String Collected :=
  if row.isObj = false then .error "search_source_invalid"
  else
    match validateDocument row with
    | .error "search_source_invalid" => .ok { current with skipped := current.skipped + 1 }
    | .error code => .error code
    | .ok _ =>
        if (current.rows.get? (rowId row)).isSome then
          .ok { current with skipped := current.skipped + 1 }
        else do
          require "ValueError" (row.finite = true)
          require "search_index_limit"
            (current.total + (p.json row).utf8ByteSize ≤ maxPlaintext - 4096 ∧
            current.rows.entries.length < maxDocuments)
          return { current with
            rows := current.rows.set (rowId row) row
            total := current.total + (p.json row).utf8ByteSize }

/-- `_documents`. -/
def documents (rows : List Json) : Except String (Dict String Json × Nat) := do
  let collected ← rows.foldlM (collect p) ⟨.empty, 0, 0⟩
  return (collected.rows, collected.skipped)

/-! ### The index -/

/-- What a query searches in: title, source and text, case-folded. -/
def searchable (row : Json) : Text :=
  p.casefold ((textOf row "title").toList ++ '\n' :: (textOf row "source").toList ++
    '\n' :: (textOf row "text").toList)

/-- The rows that have a gram. -/
abbrev Postings := Dict Text (List String)

/-- One gram of a row, and the number of postings; none once they are too many. -/
def addGram (identifier : String) (state : Option (Postings × Nat)) (gram : Text) :
    Option (Postings × Nat) :=
  state.bind fun current =>
    let postings := current.1.set gram (((current.1.get? gram).getD []).insert identifier)
    if maxPostings < current.2 + 1 ∨ maxGrams < postings.entries.length then none
    else some (postings, current.2 + 1)

/-- The grams that a row is posted under, each once. -/
def rowGrams (row : Json) : List Text :=
  (grams (searchable p row) 3 ++ grams (searchable p row) 2).eraseDups

def addRow (state : Option (Postings × Nat)) (item : String × Json) : Option (Postings × Nat) :=
  (rowGrams p item.2).foldl (addGram item.1) state

inductive IndexState
  | needsRebuild
  | building
  | ready
  | unsupported
  deriving DecidableEq

structure Index where
  rows : Dict String Json
  fingerprints : Dict String String
  postings : Option Postings
  generation : String
  updatedAt : Option Rat
  state : IndexState
  error : String
  unavailableSources : List String
  skippedRows : Nat

namespace Index

def initial : Index := ⟨.empty, .empty, some .empty, "", none, .needsRebuild, "", [], 0⟩

/-- `_activate`. -/
def activate (index : Index) (rows : Dict String Json) (generation : String) (stamp : Rat) :
    Index :=
  { index with
    rows
    fingerprints := rows.mapValues p.hash
    postings := (rows.entries.foldl (addRow p) (some (.empty, 0))).map Prod.fst
    generation
    updatedAt := some stamp
    state := .ready
    error := "" }

end Index

/-- What a call or the start of a process does to the index; the files that a build reads and
writes, and what the source brings, are left open. -/
inductive Step (index : Index) : Index → Prop
  | activate (rows : List Json) (generation : String) (stamp : Rat)
      {found : Dict String Json × Nat} (h : documents p rows = .ok found) :
      Step index (index.activate p found.1 generation stamp)
  | noted (unavailableSources : List String) (skippedRows : Nat) :
      Step index { index with unavailableSources, skippedRows }
  | marked (state : IndexState) (error : String) : Step index { index with state, error }

/-- The states of an index. -/
inductive Reachable : Index → Prop
  | initial : Reachable .initial
  | step {index next : Index} (h : Reachable index) (hstep : Step p index next) : Reachable next

/-! ### Snippets -/

/-- `normalized.find(term)`. -/
def find (term text : Text) : Option Nat :=
  (List.range (text.length + 1)).find? fun i => term.isPrefixOf (text.drop i)

/-- The characters in which some offsets of the case-folded text lie. -/
def locate : List Nat → Text → Nat → Nat → List (Nat × Nat)
  | _, [], _, _ => []
  | pending, c :: rest, offset, index =>
      (pending.takeWhile fun point => point < offset + (p.foldChar c).length).map
          (fun point => (point, index)) ++
        locate (pending.dropWhile fun point => point < offset + (p.foldChar c).length) rest
          (offset + (p.foldChar c).length) (index + 1)

structure Snippet where
  text : Text
  ranges : List (Nat × Nat)
  prefixOmitted : Bool
  suffixOmitted : Bool

/-- Where the terms that occur start, and how long they are. -/
def hits (text : Text) (terms : List Text) : List (Nat × Nat) :=
  terms.filterMap fun term => (find term (p.casefold text)).map fun start => (start, term.length)

/-- The places of hits in the text before case folding. -/
def places (text : Text) (terms : List Text) : Except String (List (Nat × Nat)) :=
  if (p.casefold text).length = text.length then
    .ok ((hits p text terms).map fun hit => (hit.1, hit.1 + hit.2))
  else
    let pending := ((hits p text terms).flatMap fun hit => [hit.1, hit.1 + hit.2 - 1]).dedup
    let positions := locate p (pending.insertionSort (· ≤ ·)) text 0 0
    (hits p text terms).mapM fun hit => do
      let first ← demand "KeyError" (Dict.lookup hit.1 positions)
      let last ← demand "KeyError" (Dict.lookup (hit.1 + hit.2 - 1) positions)
      return (first, last + 1)

/-- `_snippet`. -/
def snippet (text : Text) (terms : List Text) : Except String Snippet := do
  let matched ← places p text terms
  let left := (matched.map Prod.fst).min?.getD 0 - 50
  let right := min text.length (left + 220)
  let ranges := ((matched.filter fun m => m.1 < right && left < m.2).map fun m =>
    toLex (max left m.1 - left, min right m.2 - left)).dedup
  return ⟨(text.take right).drop left, (ranges.insertionSort (· ≤ ·)).map ofLex, 0 < left,
    right < text.length⟩

/-! ### Queries -/

/-- The arguments of `query`. -/
structure Args where
  query : String
  kind : String
  source : String
  friendId : String
  after : Json
  before : Json
  sort : String
  limit : Int
  cursor : String

def checkArgs (args : Args) : Except String Unit := do
  require "search_filter_invalid" ((args.kind ≠ "" → args.kind ∈ searchKinds) ∧
    args.sort ∈ ["relevance", "recent"] ∧ 1 ≤ args.limit ∧ args.limit ≤ 100)
  checkStamp "search_filter_invalid" args.after
  whenever (args.before ≠ .null) (checkStamp "search_filter_invalid" args.before)
  require "search_filter_invalid" (∀ before ∈ args.before.number?,
    args.after.number?.getD 0 ≤ before)
  require "search_filter_invalid" (args.source.length ≤ 2048 ∧ args.friendId.length ≤ 2048 ∧
    args.cursor.length ≤ 2048)

/-- The filters, on a row of the current source. -/
def passes (args : Args) (row : Json) : Bool :=
  (args.kind = "" || .str args.kind ∈ itemsOf row "kinds") &&
    (args.source = "" || args.source = textOf row "source") &&
    (args.friendId = "" || .str args.friendId ∈ itemsOf row "friend_ids") &&
    args.after.number?.getD 0 ≤ stampOf row &&
    args.before.number?.all fun before => stampOf row ≤ before

/-- A row has every term. -/
def hasTerms (terms : List Text) (row : Json) : Bool :=
  terms.all fun term => decide (term <:+: searchable p row)

/-- Terms of the title count for four. -/
def score (terms : List Text) (row : Json) : Int :=
  (terms.map fun term =>
    if term <:+: p.casefold (textOf row "title").toList then (4 : Int) else 1).sum

/-- The key of the documented order: relevance where it is asked for, then newest first. -/
def rank (args : Args) (terms : List Text) (row : Json) : Int ×ₗ Rat ×ₗ String :=
  toLex (if args.sort = "relevance" then -score p terms row else 0,
    toLex (-stampOf row, rowId row))

/-- The grams of the terms that have some. -/
def termGrams (terms : List Text) : List Text :=
  terms.flatMap fun term => if 1 < term.length then grams term (min 3 term.length) else []

/-- Intersect with the postings of a gram. -/
def narrow (postings : Postings) (candidates : Option (List String)) (gram : Text) :
    Option (List String) :=
  let posting := (postings.get? gram).getD []
  match candidates with
  | none => some posting
  | some identifiers => some (identifiers.filter fun identifier => identifier ∈ posting)

namespace Index

variable (index : Index)

/-- The rows that are looked at. -/
def identifiers (terms : List Text) : List String :=
  match index.postings with
  | none => index.rows.keys
  | some postings => ((termGrams terms).foldl (narrow postings) none).getD index.rows.keys

/-- The rows that match, before they are sorted. -/
def found (current : Dict String Json) (args : Args) (terms : List Text) : List Json :=
  (index.identifiers terms).filterMap fun identifier =>
    (current.get? identifier).filter fun row =>
      index.fingerprints.get? identifier = some (p.hash row) && passes args row &&
        hasTerms p terms row

/-- The rows that match, in the documented order. -/
def matched (current : Dict String Json) (args : Args) (terms : List Text) : List Json :=
  (index.found p current args terms).insertionSort fun a b =>
    rank p args terms a ≤ rank p args terms b

end Index

structure Result where
  id : String
  title : String
  source : String
  timestamp : Json
  kinds : Json
  targets : Json
  bodyState : Json
  textTruncated : Bool
  snippet : Snippet
  titleMatch : Snippet

def result (terms : List Text) (row : Json) : Except String Result := do
  let snippet ← snippet p (textOf row "text").toList terms
  let titleMatch ← LocalSearch.snippet p (textOf row "title").toList terms
  return ⟨rowId row, textOf row "title", textOf row "source", field row "timestamp",
    field row "kinds", field row "targets", (row.get? "body_state").getD (.str "available"),
    (field row "text_truncated").truthy, snippet, titleMatch⟩

structure Page where
  results : List Result
  total : Nat
  nextCursor : String
  isPartial : Bool
  indexingPending : Bool
  unavailableSources : List String

/-- What the source brings: its rows, and the scopes that it could not read. -/
structure Source where
  rows : List Json
  unavailableSources : List String

/-- The parts of a signature. -/
def signature (index : Index) (args : Args) (terms : List Text) (matched : List Json) : String :=
  p.hash (.arr [.str index.generation, .arr (terms.map fun term => .str (String.ofList term)),
    .str args.kind, .str args.source, .str args.friendId, args.after, args.before, .str args.sort,
    .int args.limit, .arr (matched.map fun row => .str (p.hash row))])

/-- The offset of a cursor that was made for this signature. -/
def readCursor (signature : String) (total : Nat) (cursor : String) : Except String Nat :=
  if cursor = "" then .ok 0
  else do
    let value ← demand "search_cursor_invalid" (p.decodeCursor cursor)
    let own ← demand "search_cursor_invalid" (value.get? "signature")
    require "search_results_changed" (own = .str signature)
    let offset ← demand "search_cursor_invalid" ((value.get? "offset").bind Json.asInt?)
    require "search_cursor_invalid" (0 ≤ offset ∧ offset ≤ total)
    return offset.toNat

/-- `_source`: the documents of the source, and the scopes it could not read. -/
def readSource (source : Source) : Except String (Dict String Json × List String) := do
  require "search_source_invalid" (∀ scope ∈ source.unavailableSources, scope ∈ sourceScopes)
  let found ← documents p source.rows
  return (found.1, source.unavailableSources.dedup.insertionSort (· ≤ ·))

/-- What is current; every failure is the same to the caller. -/
def current (source : Option Source) : Except String (Dict String Json × List String) :=
  match (demand "search_source_unavailable" source).bind (readSource p) with
  | .ok found => .ok found
  | .error _ => .error "search_source_unavailable"

namespace Index

/-- `query`. -/
def query (index : Index) (source : Option Source) (args : Args) : Except String Page := do
  let terms ← terms p args.query
  checkArgs args
  if terms = [] then return ⟨[], 0, "", false, false, []⟩
  else do
    let found ← current p source
    let matched := index.matched p found.1 args terms
    let signature := signature p index args terms matched
    let offset ← readCursor p signature matched.length args.cursor
    let results ← ((matched.drop offset).take args.limit.toNat).mapM (result p terms)
    let pending := index.state ≠ .ready || (found.1.mapValues p.hash).entries.any (fun e =>
      index.fingerprints.get? e.1 ≠ some e.2) || index.fingerprints.keys.any fun k =>
        (found.1.get? k).isNone
    return ⟨results, matched.length,
      if offset + args.limit.toNat < matched.length then
        p.encodeCursor signature (offset + args.limit.toNat)
      else "",
      pending || !found.2.isEmpty, pending, found.2⟩

end Index

end LocalSearch
