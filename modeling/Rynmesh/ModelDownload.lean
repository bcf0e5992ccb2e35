import Mathlib.Data.List.Basic

/-!
# Resumable model downloads

`download` of `llm_package/model_download.py`, with its plan of a response.

* `responsePlan` reads the status, length, encoding and range of a response;
* `copy` is the loop that reads the body, and `verify` the check of the complete file;
* `download` is one attempt: the operations on the files, in their order, and its outcome.

A process that stops leaves the files as they are after some of the operations.  A body
is written byte by byte: the buffers of a file keep the order of its bytes.
-/

namespace ModelDownload

abbrev Bytes := List UInt8

structure Platform where
  sha256 : Bytes → String
  strip : String → String
  lower : String → String

/-! ### Files -/

/-- The files of one destination: its `.part`, the destination and its `.corrupt`. -/
structure Disk where
  part : Option Bytes
  destination : Option Bytes
  corrupt : Option Bytes

inductive Op
  | discardPart
  | openPart (append : Bool)
  | write (byte : UInt8)
  | discardCorrupt
  | quarantine
  | publish

def Disk.apply (disk : Disk) : Op → Disk
  | .discardPart => { disk with part := none }
  | .openPart append => { disk with part := some (if append then disk.part.getD [] else []) }
  | .write byte => { disk with part := disk.part.map fun content => content ++ [byte] }
  | .discardCorrupt => { disk with corrupt := none }
  | .quarantine => ⟨none, disk.destination, disk.part⟩
  | .publish => ⟨none, disk.part, disk.corrupt⟩

def Disk.applyAll (disk : Disk) (ops : List Op) : Disk := ops.foldl Disk.apply disk

/-! ### Responses -/

/-- What one `response.read` does, with the answer of the check for a cancel after it. -/
inductive Read
  | chunk (bytes : Bytes) (cancelled : Bool)
  | failed (exception : String)

/-- A response; after its last read the body is at its end. -/
structure Response where
  status : Int
  contentLength : Option String
  contentEncoding : Option String
  contentRange : Option String
  reads : List Read

/-- `int` of a text of digits, which have to be at least one and at most 4300. -/
def readNat (digits : List Char) : Option Nat :=
  if digits ≠ [] ∧ digits.all Char.isDigit = true ∧ digits.length ≤ 4300 then
    some (Nat.ofDigitChars 10 digits 0)
  else none

/-- The total of a content range: `*`, or a number. -/
def readTotal (text : List Char) : Option (Option Nat) :=
  if text = ['*'] then some none else (readNat text).map some

/-- A full match of `bytes (\d+)-(\d+)/(\d+|\*)`, without regard to case, as numbers. -/
def readRange (text : List Char) : Option (Nat × Nat × Option Nat) :=
  if (text.take 6).map Char.toLower = ['b', 'y', 't', 'e', 's', ' '] then
    match (text.drop 6).dropWhile Char.isDigit with
    | '-' :: rest =>
        match rest.dropWhile Char.isDigit with
        | '/' :: total => do
            let start ← readNat ((text.drop 6).takeWhile Char.isDigit)
            let last ← readNat (rest.takeWhile Char.isDigit)
            let total ← readTotal total
            some (start, last, total)
        | _ => none
    | _ => none
  else none

example : readRange "Bytes 3-9/10".toList = some (3, 9, some 10) := by decide
example : readRange "bytes 3-9/*".toList = some (3, 9, none) := by decide

/-- Where a body is written, the length it announces and the size of the whole file. -/
structure Plan where
  offset : Nat
  responseSize : Option Nat
  fullSize : Option Nat

variable (p : Platform)

def Response.statusCode (response : Response) : Int :=
  if response.status = 0 then 200 else response.status

/-- The announced length: none without the header, and a failure if it is no number. -/
def Response.length (response : Response) : Option (Option Nat) :=
  match response.contentLength with
  | none => some none
  | some text => (readNat text.toList).map some

def Response.encoded (response : Response) : Bool :=
  match response.contentEncoding with
  | none => false
  | some encoding => encoding != "" && p.lower (p.strip encoding) != "identity"

def Response.range (response : Response) : Option (Nat × Nat × Option Nat) :=
  readRange (p.strip (response.contentRange.getD "")).toList

/-- The checks of a range, given the announced length. -/
def rangePlan (resumeFrom : Nat) (sizeBytes length : Option Nat) :
    Nat × Nat × Option Nat → Option Plan
  | (start, last, total) =>
      if ¬ (start = 0 ∨ start = resumeFrom) ∨ last < start ∨ total.any (· ≤ last) = true then none
      else if sizeBytes.any (fun size => total.any (· ≠ size)) = true then none
      else if length.any (· ≠ last - start + 1) = true then none
      else some ⟨start, some (last - start + 1), sizeBytes.or total⟩

/-- `_response_plan`; nothing is a response that is refused. -/
def responsePlan (response : Response) (resumeFrom : Nat) (sizeBytes : Option Nat) :
    Option Plan := do
  let length ← response.length
  if response.encoded p = true then none
  else if response.statusCode = 200 then some ⟨0, length, sizeBytes.or length⟩
  else if response.statusCode ≠ 206 then none
  else do
    let range ← response.range p
    rangePlan resumeFrom sizeBytes length range

/-! ### One attempt -/

/-- How the request ends. -/
inductive Answer
  | httpError (code : Int)
  | failed (exception : String)
  | response (response : Response)

/-- What a call gets: its arguments, the answers of its checks for a cancel and the server. -/
structure Attempt where
  httpsUrl : Bool
  expectedSha256 : String
  sizeBytes : Option Nat
  cancelPreparing : Bool
  cancelResuming : Bool
  cancelVerifying : Bool
  cancelVerified : Bool
  answer : Answer

def cancelled : String := "setup cancelled"
def incomplete : String := "download incomplete; retry to resume"
def exceeded : String := "download exceeded the pinned size"

/-- Operations on the files in their order, and the digest or the text of the error. -/
structure Result where
  ops : List Op
  outcome : Except String String

/-- How the loop over the body ends. -/
inductive CopyEnd
  | finished
  | overflow
  | raised (error : String)

structure Copied where
  ops : List Op
  downloaded : Nat
  ending : CopyEnd

/-- The loop over the body, with the number of bytes up to here. -/
def copy (sizeBytes : Option Nat) : List Read → Nat → Copied
  | [], downloaded => ⟨[], downloaded, .finished⟩
  | .failed exception :: _, downloaded =>
      ⟨[], downloaded, .raised ("download failed: " ++ exception)⟩
  | .chunk bytes isCancelled :: rest, downloaded =>
      if bytes = [] then ⟨[], downloaded, .finished⟩
      else if isCancelled = true then ⟨[], downloaded, .raised cancelled⟩
      else if sizeBytes.any (· < downloaded + bytes.length) = true then
        ⟨[], downloaded + bytes.length, .overflow⟩
      else
        let copied := copy sizeBytes rest (downloaded + bytes.length)
        { copied with ops := bytes.map Op.write ++ copied.ops }

/-- The check of the complete file, whose content is what the disk has by now. -/
def verify (a : Attempt) (disk : Disk) : Result :=
  if a.cancelVerifying = true then ⟨[], .error cancelled⟩
  else
    match disk.part with
    | none => ⟨[], .error "FileNotFoundError"⟩
    | some content =>
        if a.cancelVerified = true then ⟨[], .error cancelled⟩
        else if p.sha256 content ≠ p.lower a.expectedSha256 then
          ⟨[.discardCorrupt, .quarantine], .error
            "model checksum mismatch; the download was quarantined and will restart"⟩
        else ⟨[.publish], .ok (p.sha256 content)⟩

/-- `verify` after some operations. -/
def verifyAfter (a : Attempt) (disk : Disk) (ops : List Op) : Result :=
  { verify p a (disk.applyAll ops) with ops := ops ++ (verify p a (disk.applyAll ops)).ops }

/-- A body that is not refused. -/
def receive (a : Attempt) (disk : Disk) (reads : List Read) (plan : Plan) : Result :=
  let copied := copy a.sizeBytes reads plan.offset
  let ops := .openPart (plan.offset ≠ 0) :: copied.ops
  match copied.ending with
  | .raised error => ⟨ops, .error error⟩
  | .overflow => ⟨ops ++ [.discardPart], .error exceeded⟩
  | .finished =>
      if plan.responseSize.any (· ≠ copied.downloaded - plan.offset) = true then
        ⟨ops, .error incomplete⟩
      else if plan.fullSize.any (copied.downloaded < ·) = true then ⟨ops, .error incomplete⟩
      else verifyAfter p a disk ops

/-- What happens once the request was sent. -/
def answered (a : Attempt) (disk : Disk) (resumeFrom : Nat) : Result :=
  match a.answer with
  | .httpError code =>
      if resumeFrom ≠ 0 ∧ code = 416 then
        if a.sizeBytes.any (resumeFrom < ·) = true then ⟨[], .error incomplete⟩
        else verifyAfter p a disk []
      else ⟨[], .error "download failed: HTTPError"⟩
  | .failed exception => ⟨[], .error ("download failed: " ++ exception)⟩
  | .response response =>
      match responsePlan p response resumeFrom a.sizeBytes with
      | none =>
          ⟨[], .error
            "download response has invalid byte range or encoding; retry to resume"⟩
      | some plan => receive p a disk response.reads plan

def Disk.resumeFrom (disk : Disk) : Nat := (disk.part.getD []).length

/-- `download`. -/
def download (a : Attempt) (disk : Disk) : Result :=
  if a.httpsUrl = false then ⟨[], .error "install downloads require an HTTPS URL"⟩
  else if a.cancelPreparing = true then ⟨[], .error cancelled⟩
  else if a.sizeBytes.any (· < disk.resumeFrom) = true then ⟨[.discardPart], .error exceeded⟩
  else if disk.resumeFrom ≠ 0 ∧ a.cancelResuming = true then ⟨[], .error cancelled⟩
  else answered p a disk disk.resumeFrom

/-- The files after an attempt, or where the process stopped after some operations. -/
def after (disk : Disk) (a : Attempt) (stop : Option Nat) : Disk :=
  match stop with
  | none => disk.applyAll (download p a disk).ops
  | some done => disk.applyAll ((download p a disk).ops.take done)

/-- A sequence of attempts for one destination. -/
def run (disk : Disk) (attempts : List (Attempt × Option Nat)) : Disk :=
  attempts.foldl (fun disk attempt => after p disk attempt.1 attempt.2) disk

end ModelDownload
