import Rynmesh.FileTransferIntegrity

/-!
# Sending a file in segments

* `resumePlan` cuts a file into segments, `segmentManifest` and `fileChunks` are
  what is sent of each, and `serve` is one whole session at the target;
* `Repeats` is the plan with each segment sent any number of times;
* `Fresh`, `Partway` and `Stored` say how far a transfer has come;
* `serve_first` and `serve_again` move it on and leave it where it is;
* `resume_stores` puts the segments of a plan together.
-/

namespace Transit

open Checked

/-! ### The source -/

/-- A segment of `_resume_plan`. -/
structure Segment where
  offset : Nat
  segmentSize : Nat
  endOffset : Nat
  segmentSha256 : String
  prefixSha256 : String
  final : Bool
  deriving DecidableEq

/-- The bytes of a segment. -/
def slice (content : Bytes) (offset length : Nat) : Bytes := (content.drop offset).take length

/-- The segment at an offset. -/
def segmentAt (p : Platform) (content : Bytes) (segmentBytes offset : Nat) : Segment :=
  let length := min segmentBytes (content.length - offset)
  { offset, segmentSize := length, endOffset := offset + length
    segmentSha256 := p.sha256 (slice content offset length)
    prefixSha256 := p.sha256 (content.take (offset + length))
    final := offset + length = content.length }

/-- The loop of `_resume_plan`. -/
def planFrom (p : Platform) (content : Bytes) (segmentBytes : Nat) (hpos : 0 < segmentBytes)
    (offset : Nat) : List Segment :=
  if offset < content.length then
    segmentAt p content segmentBytes offset ::
      planFrom p content segmentBytes hpos (segmentAt p content segmentBytes offset).endOffset
  else []
termination_by content.length - offset
decreasing_by
  simp only [segmentAt]
  omega

/-- The segment of an empty file. -/
def emptySegment (p : Platform) : Segment :=
  { offset := 0, segmentSize := 0, endOffset := 0, segmentSha256 := p.sha256 []
    prefixSha256 := p.sha256 [], final := true }

/-- `_resume_plan`. -/
def resumePlan (p : Platform) (content : Bytes) (segmentBytes : Nat) :
    Except Failure (String × List Segment) :=
  if hsafe : segmentBytes < defaultChunkBytes ∨ segmentBytes > defaultResumeSegmentBytes then
    .error (.transit "resume segment size is outside the safe range")
  else if segmentBytes % defaultChunkBytes ≠ 0 then
    .error (.transit "resume segment size must align to the transit chunk size")
  else
    have hpos : 0 < segmentBytes :=
      lt_of_lt_of_le (by decide : 0 < defaultChunkBytes) (not_lt.mp (not_or.mp hsafe).1)
    let segments := planFrom p content segmentBytes hpos 0
    .ok (p.sha256 content, if segments = [] then [emptySegment p] else segments)

/-- What is sent: a file under a name and a transfer ID. -/
structure Transfer where
  sourcePeerId : String
  transferId : String
  filename : String
  content : Bytes

/-- `_segment_manifest`. -/
def segmentManifest (p : Platform) (transfer : Transfer) (segment : Segment) : Json :=
  .object [("kind", .str "file"), ("filename", .str transfer.filename),
    ("size_bytes", .int transfer.content.length), ("sha256", .str (p.sha256 transfer.content)),
    ("transfer_id", .str transfer.transferId), ("offset_bytes", .int segment.offset),
    ("segment_size_bytes", .int segment.segmentSize),
    ("end_offset_bytes", .int segment.endOffset), ("segment_sha256", .str segment.segmentSha256),
    ("prefix_sha256", .str segment.prefixSha256), ("final", .bool segment.final)]

/-- The data chunks of `_file_chunks`. -/
def dataChunks (content : Bytes) (chunkBytes offset remaining : Nat) :
    Except Failure (List Bytes) :=
  if remaining = 0 then .ok []
  else
    let chunk := slice content offset (min chunkBytes remaining)
    if _h : chunk = [] then
      .error (.transit "transit source file ended before its declared segment")
    else do
      let rest ← dataChunks content chunkBytes (offset + chunk.length) (remaining - chunk.length)
      pure ((68 :: chunk) :: rest)
termination_by remaining
decreasing_by
  have hchunk : 0 < (slice content offset (min chunkBytes remaining)).length :=
    List.length_pos_iff.mpr _h
  omega

/-- `_file_chunks` of a segment. -/
def fileChunks (p : Platform) (transfer : Transfer) (segment : Segment) :
    Except Failure (List Bytes) := do
  let rest ← dataChunks transfer.content defaultChunkBytes segment.offset segment.segmentSize
  pure ((77 :: p.dumps (segmentManifest p transfer segment)) :: rest)

/-! ### A whole session -/

/-- The chunks of a session, up to the first that raises. -/
def writeAll (p : Platform) (inbox : Inbox) (sink : Sink) :
    List Bytes → Except Failure Unit × Inbox × Sink
  | [] => (.ok (), inbox, sink)
  | chunk :: rest =>
      match write p inbox sink chunk with
      | (.error e, inbox, sink) => (.error e, inbox, sink)
      | (.ok (), inbox, sink) => writeAll p inbox sink rest

/-- A session of `_serve_target`: it is aborted when it raises, and when its
receipt is lost. -/
def serve (p : Platform) (inbox : Inbox) (sink : Sink) (chunks : List Bytes) (acked : Bool) :
    Except Failure Receipt × Inbox :=
  match writeAll p inbox sink chunks with
  | (.error e, inbox, sink) => (.error e, (abort inbox sink).1)
  | (.ok (), inbox, sink) =>
      match finish p inbox sink with
      | (.error e, inbox, sink) => (.error e, (abort inbox sink).1)
      | (.ok receipt, inbox, sink) =>
          (.ok receipt,
            if acked then (acknowledgeReceipt inbox sink).1 else (abort inbox sink).1)

/-- Segments sent one after the other, with or without their receipts. -/
def sendAll (p : Platform) (transfer : Transfer) (inbox : Inbox) :
    List (Segment × Bool) → Except Failure Inbox
  | [] => .ok inbox
  | (segment, acked) :: rest => do
      let chunks ← fileChunks p transfer segment
      match serve p inbox (.new "" transfer.sourcePeerId) chunks acked with
      | (.ok _, inbox) => sendAll p transfer inbox rest
      | (.error e, _) => .error e

/-- The segments of a plan in order, each sent any number of times. -/
inductive Repeats : List Segment → List (Segment × Bool) → Prop
  | nil : Repeats [] []
  | once {segment : Segment} {plan : List Segment} {sends : List (Segment × Bool)} (acked : Bool)
      (rest : Repeats plan sends) : Repeats (segment :: plan) ((segment, acked) :: sends)
  | again {segment : Segment} {plan : List Segment} {sends : List (Segment × Bool)} (acked : Bool)
      (rest : Repeats (segment :: plan) sends) :
      Repeats (segment :: plan) ((segment, acked) :: sends)

/-! ### What is sent -/

variable {p : Platform} {transfer : Transfer} {inbox : Inbox} {segment : Segment}

/-- A segment that a plan may have. -/
structure SegmentOf (p : Platform) (content : Bytes) (segment : Segment) : Prop where
  endOffset : segment.endOffset = segment.offset + segment.segmentSize
  bound : segment.endOffset ≤ content.length
  aligned : segment.offset % defaultChunkBytes = 0
  small : segment.segmentSize ≤ defaultResumeSegmentBytes
  segmentSha256 : segment.segmentSha256 =
    p.sha256 (slice content segment.offset segment.segmentSize)
  prefixSha256 : segment.prefixSha256 = p.sha256 (content.take segment.endOffset)
  final : segment.final = true ↔ segment.endOffset = content.length
  moves : segment.final = false → segment.offset < segment.endOffset

/-- What the target and the conversions must accept of a transfer. -/
structure Accepted (p : Platform) (transfer : Transfer) (plan : List Segment) : Prop where
  loads : ∀ segment ∈ plan, p.loads (p.dumps (segmentManifest p transfer segment)) =
    some (segmentManifest p transfer segment)
  str : ∀ s, p.str (.str s) = s
  int : ∀ n, p.int (.int n) = some n
  sha256 : ∀ content, validSha256 p (p.sha256 content) = true
  filename : validFilename transfer.filename = true
  transferId : validTransferId transfer.transferId = true
  size : (transfer.content.length : Int) ≤ p.maxFileBytes

/-- A manifest that was read from a segment. -/
structure Carries (p : Platform) (transfer : Transfer) (segment : Segment) (m : Manifest) :
    Prop where
  filename : m.filename = transfer.filename
  transferId : m.transferId = transfer.transferId
  size : m.size = transfer.content.length
  offset : m.offset = segment.offset
  segmentSize : m.segmentSize = segment.segmentSize
  final : m.final = segment.final
  sha256 : m.sha256 = p.sha256 transfer.content
  segmentSha256 : m.segmentSha256 = segment.segmentSha256
  prefixSha256 : m.prefixSha256 = segment.prefixSha256

theorem text_of_str (hstr : ∀ s, p.str (.str s) = s) {value : Json} {key s : String}
    (h : value.get? key = some (.str s)) : text p value key = s := by
  unfold text
  rw [h]
  simp only [truthy, hstr]
  by_cases hs : s = "" <;> simp [hs]

theorem integer_of_int (hint : ∀ n, p.int (.int n) = some n) {value : Json} {key : String}
    {n : Int} (h : value.get? key = some (.int n)) : integer p value key = .ok n := by
  simp [integer, h, hint]

/-- **The manifest of a segment is read back.** -/
theorem readManifest_segment {plan : List Segment} (h : Accepted p transfer plan)
    (hmem : segment ∈ plan) (hsegment : SegmentOf p transfer.content segment) :
    ∃ m, readManifest p (p.dumps (segmentManifest p transfer segment)) = .ok m ∧
      Carries p transfer segment m := by
  have hfilename : text p (segmentManifest p transfer segment) "filename" = transfer.filename :=
    text_of_str h.str (by simp [segmentManifest])
  have htransferId : text p (segmentManifest p transfer segment) "transfer_id" =
      transfer.transferId :=
    text_of_str h.str (by simp [segmentManifest])
  have hsha : text p (segmentManifest p transfer segment) "sha256" = p.sha256 transfer.content :=
    text_of_str h.str (by simp [segmentManifest])
  have hsegmentSha : text p (segmentManifest p transfer segment) "segment_sha256" =
      segment.segmentSha256 :=
    text_of_str h.str (by simp [segmentManifest])
  have hprefixSha : text p (segmentManifest p transfer segment) "prefix_sha256" =
      segment.prefixSha256 :=
    text_of_str h.str (by simp [segmentManifest])
  have hsize : integer p (segmentManifest p transfer segment) "size_bytes" =
      .ok transfer.content.length :=
    integer_of_int h.int (by simp [segmentManifest])
  have hoffset : integer p (segmentManifest p transfer segment) "offset_bytes" =
      .ok segment.offset :=
    integer_of_int h.int (by simp [segmentManifest])
  have hsegmentSize : integer p (segmentManifest p transfer segment) "segment_size_bytes" =
      .ok segment.segmentSize :=
    integer_of_int h.int (by simp [segmentManifest])
  have hkind : (segmentManifest p transfer segment).isObj ∧
      (segmentManifest p transfer segment).get? "kind" = some (.str "file") := by
    simp [segmentManifest]
  have hfinal : (segmentManifest p transfer segment).get? "final" = some (.bool segment.final) := by
    simp [segmentManifest]
  have hend := hsegment.endOffset
  have hbound := hsegment.bound
  have haligned := hsegment.aligned
  have hsmall := hsegment.small
  have hwhole : segment.final =
      decide ((segment.offset : Int) + segment.segmentSize = transfer.content.length) := by
    rw [Bool.eq_iff_iff, hsegment.final, decide_eq_true_eq]
    omega
  have hbounded : Bounded transfer.content.length segment.offset segment.segmentSize
      (some (.bool segment.final)) := by
    rw [hwhole]
    simp only [Bounded, not_or, not_true_eq_false, ne_eq, not_false_eq_true, and_true]
    omega
  have hfinal_iff : segment.final = true ↔
      segment.offset + segment.segmentSize = transfer.content.length := by
    rw [hsegment.final, hend]
  have hfits : segment.offset + segment.segmentSize ≤ transfer.content.length := hend ▸ hbound
  refine ⟨⟨transfer.filename, transfer.transferId, transfer.content.length, segment.offset,
    segment.segmentSize, segment.final, p.sha256 transfer.content, segment.segmentSha256,
    segment.prefixSha256, hfits, hfinal_iff⟩, ?_, ⟨rfl, rfl, rfl, rfl, rfl, rfl, rfl, rfl, rfl⟩⟩
  unfold readManifest
  rw [h.loads segment hmem]
  have hsegmentValid : validSha256 p segment.segmentSha256 := by
    rw [hsegment.segmentSha256]
    exact h.sha256 _
  have hprefixValid : validSha256 p segment.prefixSha256 := by
    rw [hsegment.prefixSha256]
    exact h.sha256 _
  have hpolicy : (0 : Int) ≤ transfer.content.length ∧
      (transfer.content.length : Int) ≤ p.maxFileBytes := ⟨Int.natCast_nonneg _, h.size⟩
  simp only [Checked.demand, ok_bind, require, Checked.require, hkind, hfilename,
    htransferId, hsize, hoffset, hsegmentSize, hsha, hsegmentSha, hprefixSha, h.filename,
    h.transferId, h.sha256, hsegmentValid, hprefixValid, hpolicy, and_self, if_true]
  rw [dif_pos (by rw [hfinal]; exact hbounded)]
  simp [pure, Except.pure, hwhole]

theorem slice_append (content : Bytes) (offset a b : Nat) :
    slice content offset a ++ slice content (offset + a) b = slice content offset (a + b) := by
  unfold slice
  rw [List.take_add, List.drop_drop]

theorem take_slice (content : Bytes) (offset length : Nat) :
    content.take offset ++ slice content offset length = content.take (offset + length) := by
  unfold slice
  rw [List.take_add]

theorem length_slice {content : Bytes} {offset length : Nat}
    (h : offset + length ≤ content.length) : (slice content offset length).length = length := by
  simp [slice]
  omega

/-- **The data chunks of a segment are its bytes.** -/
theorem dataChunks_ok {content : Bytes} {chunkBytes : Nat} (hpos : 0 < chunkBytes)
    (offset remaining : Nat) (h : offset + remaining ≤ content.length) :
    ∃ bodies : List Bytes, dataChunks content chunkBytes offset remaining =
      .ok (bodies.map (68 :: ·)) ∧ bodies.flatten = slice content offset remaining := by
  induction remaining using Nat.strong_induction_on generalizing offset with
  | _ remaining ih =>
    unfold dataChunks
    by_cases hzero : remaining = 0
    · subst hzero
      exact ⟨[], rfl, by simp [slice]⟩
    rw [if_neg hzero]
    have hlength : (slice content offset (min chunkBytes remaining)).length =
        min chunkBytes remaining := length_slice (by omega)
    have hne : slice content offset (min chunkBytes remaining) ≠ [] := by
      intro hnil
      rw [hnil, List.length_nil] at hlength
      omega
    obtain ⟨bodies, hrest, hflat⟩ := ih (remaining - min chunkBytes remaining) (by omega)
      (offset + min chunkBytes remaining) (by omega)
    refine ⟨slice content offset (min chunkBytes remaining) :: bodies, ?_, ?_⟩
    · simp only [hne, dite_false, hlength, hrest]
      rfl
    · rw [List.flatten_cons, hflat, slice_append]
      congr 1
      omega

/-! ### The data of a session -/

/-- What a session's data leaves of the inbox. -/
structure Extends (inbox inbox' : Inbox) (slug : String) (part : Option Bytes) : Prop where
  part : inbox'.parts slug = part
  checkpoints : inbox'.checkpoints = inbox.checkpoints
  files : inbox'.files = inbox.files
  active : inbox'.active = inbox.active

/-- The sink after data. -/
def Sink.after (sink : Sink) (loaded : Loaded) (data : Bytes) : Sink :=
  { sink with
    loaded := some { loaded with handle := loaded.handle.map (· + data.length) }
    segmentReceived := sink.segmentReceived + data.length
    segmentDigest := sink.segmentDigest ++ data }

theorem Sink.after_nil {sink : Sink} {loaded : Loaded} (hloaded : sink.loaded = some loaded) :
    sink.after loaded [] = sink := by
  obtain ⟨sessionId, sourcePeerId, claimed, _, received, digest, finished⟩ := sink
  obtain rfl : _ = some loaded := hloaded
  obtain ⟨m, slug, state, verified, duplicate, handle⟩ := loaded
  cases handle <;> simp [Sink.after]

theorem Sink.after_after (sink : Sink) (loaded : Loaded) (data more : Bytes) :
    (sink.after loaded data).after
      { loaded with handle := loaded.handle.map (· + data.length) } more =
      sink.after loaded (data ++ more) := by
  cases hhandle : loaded.handle <;> simp [Sink.after, hhandle, Nat.add_assoc]

/-- What data leaves of a partial file. -/
def appended (loaded : Loaded) (part : Option Bytes) (data : Bytes) : Option Bytes :=
  if loaded.handle.isSome then part.map (· ++ data) else part

/-- The handle stands at the end of the partial file. -/
def AtEnd (loaded : Loaded) (part : Option Bytes) : Prop :=
  ∀ position, loaded.handle = some position →
    ∃ content, part = some content ∧ position = content.length

/-- One chunk of data is appended to an open partial file, and only counted for a
duplicate. -/
theorem write_data {sink : Sink} {loaded : Loaded} (body : Bytes)
    (hloaded : sink.loaded = some loaded) (hend : AtEnd loaded (inbox.parts loaded.slug))
    (hfits : sink.segmentReceived + body.length ≤ loaded.manifest.segmentSize) :
    ∃ inbox', write p inbox sink (68 :: body) = (.ok (), inbox', sink.after loaded body) ∧
      Extends inbox inbox' loaded.slug (appended loaded (inbox.parts loaded.slug) body) := by
  have hwithin : ¬ sink.segmentReceived + body.length > loaded.manifest.segmentSize :=
    Nat.not_lt.mpr hfits
  cases hhandle : loaded.handle with
  | none =>
    refine ⟨inbox, ?_, ⟨?_, rfl, rfl, rfl⟩⟩
    · simp only [write, hloaded, if_true, writeData, hwithin, if_false, hhandle, Sink.after,
        Option.map_none]
      obtain ⟨m, slug, state, verified, duplicate, handle⟩ := loaded
      obtain rfl : handle = none := hhandle
      rw [← hloaded]
    · simp [appended, hhandle]
  | some position =>
    obtain ⟨content, hcontent, rfl⟩ := hend position hhandle
    refine ⟨inbox.setPart loaded.slug (some (content ++ body)), ?_, ⟨?_, rfl, rfl, rfl⟩⟩
    · simp only [write, hloaded, if_true, writeData, hwithin, if_false, hhandle, Sink.after,
        Option.map_some, hcontent, Option.getD_some, writeAt_end]
    · rw [appended, hhandle, hcontent]
      exact Function.update_self ..

/-- **All the data of a segment is appended.** -/
theorem writeAll_data (bodies : List Bytes) {sink : Sink} {loaded : Loaded}
    (hloaded : sink.loaded = some loaded) (hend : AtEnd loaded (inbox.parts loaded.slug))
    (hfits : sink.segmentReceived + bodies.flatten.length ≤ loaded.manifest.segmentSize) :
    ∃ inbox', writeAll p inbox sink (bodies.map (68 :: ·)) =
        (.ok (), inbox', sink.after loaded bodies.flatten) ∧
      Extends inbox inbox' loaded.slug
        (appended loaded (inbox.parts loaded.slug) bodies.flatten) := by
  induction bodies generalizing inbox sink loaded with
  | nil =>
    refine ⟨inbox, ?_, ⟨?_, rfl, rfl, rfl⟩⟩
    · rw [List.flatten_nil, Sink.after_nil hloaded]
      rfl
    · unfold appended
      cases inbox.parts loaded.slug <;> simp
  | cons body rest ih =>
    rw [List.flatten_cons, List.length_append] at hfits
    obtain ⟨inbox', hwrite, hextends⟩ := write_data (p := p) body hloaded hend (by omega)
    have hend' : AtEnd { loaded with handle := loaded.handle.map (· + body.length) }
        (inbox'.parts loaded.slug) := by
      intro position hposition
      obtain ⟨old, hold, rfl⟩ := Option.map_eq_some_iff.mp hposition
      obtain ⟨content, hcontent, rfl⟩ := hend old hold
      refine ⟨content ++ body, ?_, by simp⟩
      rw [hextends.part, appended, hold, hcontent]
      rfl
    have hrestFits : (sink.after loaded body).segmentReceived + rest.flatten.length ≤
        loaded.manifest.segmentSize := by
      simp only [Sink.after]
      omega
    obtain ⟨inbox'', hrest, hmore⟩ := @ih inbox' (sink.after loaded body)
      { loaded with handle := loaded.handle.map (· + body.length) } rfl hend' hrestFits
    refine ⟨inbox'', ?_, ⟨?_, ?_, ?_, ?_⟩⟩
    · rw [List.map_cons, writeAll, hwrite, List.flatten_cons, ← Sink.after_after]
      exact hrest
    · rw [hmore.part, hextends.part]
      cases hhandle : loaded.handle <;>
        cases hpart : inbox.parts loaded.slug <;> simp [appended, hhandle]
    · exact hmore.checkpoints.trans hextends.checkpoints
    · exact hmore.files.trans hextends.files
    · exact hmore.active.trans hextends.active

/-! ### How far a transfer has come -/

def Transfer.slug (p : Platform) (transfer : Transfer) : String :=
  p.resumeSlug transfer.sourcePeerId transfer.transferId

def Transfer.destination (p : Platform) (transfer : Transfer) : String :=
  destinationOf (transfer.slug p) transfer.filename

/-- The checkpoint is the transfer's. -/
structure Checkpoint.Of (p : Platform) (transfer : Transfer) (c : Checkpoint) : Prop where
  sourcePeerId : c.sourcePeerId = transfer.sourcePeerId
  transferId : c.transferId = transfer.transferId
  filename : c.filename = transfer.filename
  size : c.size = transfer.content.length
  sha256 : c.sha256 = p.sha256 transfer.content

/-- Nothing of the transfer was confirmed. -/
structure Fresh (p : Platform) (transfer : Transfer) (inbox : Inbox) : Prop where
  free : inbox.active (transfer.slug p) = false
  checkpoint : inbox.checkpoints (transfer.slug p) = none
  file : inbox.files (transfer.destination p) = none

/-- The transfer is confirmed up to the end of a segment. -/
structure Partway (p : Platform) (transfer : Transfer) (segment : Segment) (inbox : Inbox) :
    Prop where
  free : inbox.active (transfer.slug p) = false
  file : inbox.files (transfer.destination p) = none
  part : inbox.parts (transfer.slug p) = some (transfer.content.take segment.endOffset)
  checkpoint : ∃ c, inbox.checkpoints (transfer.slug p) = some c ∧ c.Of p transfer ∧
    c.status = .incomplete ∧ c.verifiedOffset = segment.endOffset ∧
    ∃ r ∈ c.segments, r.offset = segment.offset ∧ r.endOffset = segment.endOffset ∧
      r.segmentSha256 = segment.segmentSha256 ∧ r.prefixSha256 = segment.prefixSha256

/-- The file is stored. -/
structure Stored (p : Platform) (transfer : Transfer) (inbox : Inbox) : Prop where
  free : inbox.active (transfer.slug p) = false
  file : inbox.files (transfer.destination p) = some transfer.content
  checkpoint : ∀ c, inbox.checkpoints (transfer.slug p) = some c →
    c.Of p transfer ∧ c.status = .complete ∧ c.verifiedOffset = transfer.content.length

/-- A segment was delivered. -/
def Delivered (p : Platform) (transfer : Transfer) (segment : Segment) (inbox : Inbox) : Prop :=
  if segment.final then Stored p transfer inbox else Partway p transfer segment inbox

/-- The transfer stands at an offset. -/
def StandsAt (p : Platform) (transfer : Transfer) (offset : Nat) (inbox : Inbox) : Prop :=
  (offset = 0 ∧ Fresh p transfer inbox) ∨
    ∃ segment, segment.endOffset = offset ∧ Partway p transfer segment inbox

theorem close_finished {sink : Sink} {loaded : Loaded} (hclaimed : sink.claimed = some loaded.slug)
    (hloaded : sink.loaded = some loaded) (hfinished : sink.finished = true) (acked : Bool)
    {inbox' : Inbox}
    (h : inbox' = if acked then (acknowledgeReceipt inbox sink).1 else (abort inbox sink).1) :
    inbox'.parts = inbox.parts ∧ inbox'.files = inbox.files ∧
      inbox'.active loaded.slug = false ∧
      inbox'.checkpoints loaded.slug =
        if acked = true ∧ loaded.manifest.final = true then none
        else inbox.checkpoints loaded.slug := by
  subst h
  cases acked with
  | false =>
    simp only [Bool.false_eq_true, if_false, abort, hloaded, hfinished, true_or, if_true,
      releaseClaim, hclaimed, false_and]
    exact ⟨rfl, rfl, Function.update_self .., rfl⟩
  | true =>
    by_cases hfinal : loaded.manifest.final = true
    · simp only [if_true, acknowledgeReceipt, hloaded, hfinished, hfinal, and_self,
        releaseClaim, hclaimed]
      exact ⟨rfl, rfl, Function.update_self .., Function.update_self ..⟩
    · simp only [if_true, acknowledgeReceipt, hloaded, hfinished, hfinal, and_false, if_false,
        releaseClaim, hclaimed, Bool.false_eq_true]
      exact ⟨rfl, rfl, Function.update_self .., rfl⟩

theorem resumeState_of {m : Manifest} (hm : Carries p transfer segment m) {c : Checkpoint}
    (hc : inbox.checkpoints (transfer.slug p) = some c) (hof : c.Of p transfer) :
    resumeState p inbox transfer.sourcePeerId (transfer.slug p) m = .ok c := by
  have hidentity : c.sourcePeerId = transfer.sourcePeerId ∧ c.transferId = m.transferId ∧
      c.filename = m.filename ∧ c.size = m.size ∧ c.sha256 = m.sha256 :=
    ⟨hof.sourcePeerId, hof.transferId.trans hm.transferId.symm,
      hof.filename.trans hm.filename.symm, hof.size.trans hm.size.symm,
      hof.sha256.trans hm.sha256.symm⟩
  simp only [resumeState, hc, require, Checked.require, hidentity, and_self, if_true]
  rfl

theorem isDuplicate_complete {state : Checkpoint} {m : Manifest}
    (hstatus : state.status = .complete) (hverified : state.verifiedOffset ≤ m.size)
    (hfinal : m.final = true) : isDuplicate state m = .ok true := by
  simp only [isDuplicate, require, Checked.require, hverified, if_true, hstatus, hfinal,
    and_self, or_true]
  by_cases hoffset : m.offset = state.verifiedOffset <;> simp [hoffset]

theorem resumeState_standsAt {m : Manifest} (hm : Carries p transfer segment m)
    (hbound : segment.offset ≤ transfer.content.length)
    (hstands : StandsAt p transfer segment.offset inbox) :
    ∃ state, resumeState p inbox transfer.sourcePeerId (transfer.slug p) m = .ok state ∧
      state.Of p transfer ∧ state.status = .incomplete ∧
      state.verifiedOffset = segment.offset ∧
      openPart inbox (transfer.slug p) segment.offset =
        .ok (transfer.content.take segment.offset) := by
  rcases hstands with ⟨hzero, hfresh⟩ | ⟨last, hlast, hpartway⟩
  · refine ⟨.new p transfer.sourcePeerId m, ?_, ?_, rfl, hzero.symm, ?_⟩
    · simp only [resumeState, hfresh.checkpoint, hm.filename]
      rw [show inbox.files (destinationOf (transfer.slug p) transfer.filename) = none
        from hfresh.file]
      rfl
    · exact ⟨rfl, hm.transferId, hm.filename, hm.size, hm.sha256⟩
    · rw [hzero]
      unfold openPart
      cases inbox.parts (transfer.slug p) <;> simp [require, Checked.require]
  · obtain ⟨c, hc, hof, hstatus, hverified, -⟩ := hpartway.checkpoint
    refine ⟨c, resumeState_of hm hc hof, hof, hstatus, hverified.trans hlast, ?_⟩
    · have hlength : segment.offset ≤ (transfer.content.take segment.offset).length :=
        (List.length_take_of_le hbound).ge
      simp only [openPart, hpartway.part, hlast, require, Checked.require, hlength, if_true]
      rw [ok_bind, List.take_take, min_self]
      rfl

/-- The sink of a session that loaded its manifest. -/
def loadedSink (p : Platform) (transfer : Transfer) (loaded : Loaded) : Sink :=
  { Sink.new "" transfer.sourcePeerId with
    claimed := some (transfer.slug p)
    loaded := some loaded }

/-- What a session holds that opened the partial file. -/
def nextLoaded (p : Platform) (transfer : Transfer) (segment : Segment) (m : Manifest)
    (state : Checkpoint) : Loaded :=
  { manifest := m, slug := transfer.slug p, state, verifiedOffset := segment.offset
    duplicate := false, handle := some segment.offset }

/-- The inbox when the partial file is open. -/
def openedInbox (p : Platform) (transfer : Transfer) (segment : Segment) (inbox : Inbox) : Inbox :=
  (inbox.claim (transfer.slug p)).setPart (transfer.slug p)
    (some (transfer.content.take segment.offset))

/-- What a session holds that found a duplicate. -/
def againLoaded (p : Platform) (transfer : Transfer) (m : Manifest) (state : Checkpoint) :
    Loaded :=
  { manifest := m, slug := transfer.slug p, state, verifiedOffset := state.verifiedOffset
    duplicate := true, handle := none }

theorem loadManifest_next (sessionId : String) {m : Manifest} {body : Bytes}
    (hread : readManifest p body = .ok m)
    (hm : Carries p transfer segment m) (hbound : segment.offset ≤ transfer.content.length)
    (hfree : inbox.active (transfer.slug p) = false)
    (hstands : StandsAt p transfer segment.offset inbox) :
    ∃ state : Checkpoint, state.Of p transfer ∧
      loadManifest p inbox (.new sessionId transfer.sourcePeerId) body =
        (.ok (), openedInbox p transfer segment inbox,
          { loadedSink p transfer (nextLoaded p transfer segment m state) with sessionId }) := by
  obtain ⟨state, hstate, hof, hstatus, hverified, hopen⟩ :=
    resumeState_standsAt hm hbound hstands
  have hsize : segment.offset ≤ m.size := hm.size ▸ hbound
  have hdup : isDuplicate state m = .ok false := by
    simp only [isDuplicate, require, Checked.require, hverified, hsize, if_true, hm.offset,
      ne_eq, not_true_eq_false, if_false, hstatus]
    rfl
  have hresume : resume p (inbox.claim (transfer.slug p)) transfer.sourcePeerId
      (transfer.slug p) m = .ok (nextLoaded p transfer segment m state,
        some (transfer.content.take segment.offset)) := by
    have hstate' : resumeState p (inbox.claim (transfer.slug p)) transfer.sourcePeerId
        (transfer.slug p) m = .ok state := hstate
    have hopen' : openPart (inbox.claim (transfer.slug p)) (transfer.slug p) segment.offset =
        .ok (transfer.content.take segment.offset) := hopen
    simp only [resume, hstate', ok_bind, hdup, Bool.false_eq_true, if_false, hverified,
      hopen']
    rfl
  refine ⟨state, hof, ?_⟩
  have hslug : p.resumeSlug transfer.sourcePeerId m.transferId = transfer.slug p := by
    rw [hm.transferId]
    rfl
  simp only [loadManifest, hread, Sink.new, hslug, hfree, Bool.false_eq_true, if_false, hresume]
  rfl

theorem loadManifest_again (sessionId : String) {m : Manifest} {body : Bytes}
    (hread : readManifest p body = .ok m)
    (hm : Carries p transfer segment m) (hsegment : SegmentOf p transfer.content segment)
    (hdelivered : Delivered p transfer segment inbox) :
    ∃ state : Checkpoint,
      loadManifest p inbox (.new sessionId transfer.sourcePeerId) body =
        (.ok (), inbox.claim (transfer.slug p),
          { loadedSink p transfer (againLoaded p transfer m state) with sessionId }) := by
  have hslug : p.resumeSlug transfer.sourcePeerId m.transferId = transfer.slug p := by
    rw [hm.transferId]
    rfl
  have hsegmentBound := hsegment.bound
  have hsegmentEnd := hsegment.endOffset
  obtain ⟨hfree, state, hstate, hdup⟩ : inbox.active (transfer.slug p) = false ∧
      ∃ state, resumeState p (inbox.claim (transfer.slug p)) transfer.sourcePeerId
          (transfer.slug p) m = .ok state ∧ isDuplicate state m = .ok true := by
    unfold Delivered at hdelivered
    split at hdelivered
    · next hfinal =>
      have hfinal' : m.final = true := hm.final.trans hfinal
      refine ⟨hdelivered.free, ?_⟩
      cases hc : inbox.checkpoints (transfer.slug p) with
      | none =>
        refine ⟨.stored transfer.sourcePeerId m, ?_, ?_⟩
        · have hwhole : transfer.content.length = m.size ∧
              p.sha256 transfer.content = m.sha256 := ⟨hm.size.symm, hm.sha256.symm⟩
          have hfile : inbox.files (destinationOf (transfer.slug p) transfer.filename) =
            some transfer.content := hdelivered.file
          simp only [resumeState, Inbox.claim, hc, hm.filename, hfile, require,
            Checked.require, hfinal', hwhole, and_self, if_true]
          rfl
        · exact isDuplicate_complete rfl (le_refl _) hfinal'
      | some c =>
        obtain ⟨hof, hstatus, hverified⟩ := hdelivered.checkpoint c hc
        refine ⟨c, resumeState_of hm hc hof, ?_⟩
        exact isDuplicate_complete hstatus (hverified.trans hm.size.symm).le hfinal'
    · next hfinal =>
      obtain ⟨c, hc, hof, hstatus, hverified, r, hr, hrecord⟩ := hdelivered.checkpoint
      refine ⟨hdelivered.free, c, resumeState_of hm hc hof, ?_⟩
      have hmoves := hsegment.moves (Bool.eq_false_iff.mpr hfinal)
      have hoffset : m.offset ≠ c.verifiedOffset := by
        rw [hm.offset, hverified]
        exact Nat.ne_of_lt hmoves
      have hverified' : c.verifiedOffset ≤ m.size := by
        rw [hverified, hm.size]
        exact hsegmentBound
      have hconfirms : c.confirms m = true := by
        refine List.any_eq_true.mpr ⟨r, hr, ?_⟩
        simp only [Manifest.endOffset, hrecord, hm.offset, hm.segmentSize, hm.segmentSha256,
          hm.prefixSha256, hsegmentEnd, decide_true, Bool.and_self]
      simp only [isDuplicate, require, Checked.require, hverified', if_true, hoffset, ne_eq,
        not_false_eq_true, hconfirms, true_or]
      rfl
  refine ⟨state, ?_⟩
  simp only [loadManifest, hread, Sink.new, hslug, hfree, Bool.false_eq_true, if_false, resume,
    hstate, ok_bind, hdup, if_true]
  rfl

/-- A session that finished, and is still to be closed. -/
structure Finished (slug : String) (m : Manifest) (sink : Sink) : Prop where
  claimed : sink.claimed = some slug
  loaded : ∃ loaded, sink.loaded = some loaded ∧ loaded.slug = slug ∧ loaded.manifest = m
  finished : sink.finished = true

theorem finish_next {m : Manifest} (hm : Carries p transfer segment m)
    (hsegment : SegmentOf p transfer.content segment) {sink : Sink} {loaded : Loaded}
    {state : Checkpoint} (hclaimed : sink.claimed = some (transfer.slug p))
    (hloaded : sink.loaded = some loaded) (hmanifest : loaded.manifest = m)
    (hslug : loaded.slug = transfer.slug p) (hstate : loaded.state = state)
    (hdup : loaded.duplicate = false)
    (hreceived : sink.segmentReceived = segment.segmentSize)
    (hdigest : sink.segmentDigest = slice transfer.content segment.offset segment.segmentSize)
    (hpart : inbox.parts (transfer.slug p) = some (transfer.content.take segment.endOffset))
    (hfile : inbox.files (transfer.destination p) = none) :
    ∃ receipt sink', finish p inbox sink = (.ok receipt,
        (if segment.final then
            (inbox.store (transfer.destination p) transfer.content).setPart (transfer.slug p) none
          else inbox).setCheckpoint (transfer.slug p)
            (some (state.advance m segment.segmentSha256 segment.prefixSha256)), sink') ∧
      Finished (transfer.slug p) m sink' ∧ receipt.duplicate = false := by
  subst hmanifest hstate
  have hend : loaded.manifest.endOffset = segment.endOffset := by
    rw [Manifest.endOffset, hm.offset, hm.segmentSize, hsegment.endOffset]
  have hlength : (transfer.content.take segment.endOffset).length = segment.endOffset :=
    List.length_take_of_le hsegment.bound
  have hsha := hsegment.segmentSha256
  have hfront := hsegment.prefixSha256
  have hdestination : destinationOf (transfer.slug p) transfer.filename =
    transfer.destination p := rfl
  unfold finish
  simp only [hloaded, hreceived, hm.segmentSize, ne_eq, not_true_eq_false, if_false, hdigest,
    ← hsha, hm.segmentSha256, hdup, Bool.false_eq_true]
  simp only [commit, hslug, hpart, Option.getD_some, hlength, hend, ne_eq, not_true_eq_false,
    if_false, ← hfront, hm.prefixSha256, hm.final]
  cases hfinal : segment.final with
  | false =>
    exact ⟨_, _, rfl, ⟨hclaimed, ⟨_, rfl, rfl, rfl⟩, rfl⟩, hdup⟩
  | true =>
    have hwhole : transfer.content.take segment.endOffset = transfer.content := by
      rw [hsegment.final.mp hfinal, List.take_length]
    have hsame : segment.prefixSha256 = loaded.manifest.sha256 := by
      rw [hfront, hwhole, hm.sha256]
    simp only [if_true, hsame, not_true_eq_false, if_false, Loaded.destination, hm.filename,
      hdestination, hfile, Option.isSome_none, Bool.false_eq_true, hwhole]
    exact ⟨_, _, rfl, ⟨hclaimed, ⟨_, rfl, rfl, rfl⟩, rfl⟩, hdup⟩

theorem StandsAt.file {offset : Nat} (h : StandsAt p transfer offset inbox) :
    inbox.files (transfer.destination p) = none := by
  rcases h with ⟨-, hfresh⟩ | ⟨_, -, hpartway⟩
  · exact hfresh.file
  · exact hpartway.file

theorem Finished.close {slug : String} {m : Manifest} {sink : Sink} (h : Finished slug m sink)
    (inbox : Inbox) (acked : Bool) :
    ∃ inbox', (if acked then (acknowledgeReceipt inbox sink).1 else (abort inbox sink).1) =
        inbox' ∧ inbox'.parts = inbox.parts ∧ inbox'.files = inbox.files ∧
      inbox'.active slug = false ∧
      inbox'.checkpoints slug =
        if acked = true ∧ m.final = true then none else inbox.checkpoints slug := by
  obtain ⟨loaded, hloaded, rfl, rfl⟩ := h.loaded
  exact ⟨_, rfl, close_finished h.claimed hloaded h.finished acked rfl⟩

theorem fileChunks_ok (hsegment : SegmentOf p transfer.content segment) :
    ∃ bodies : List Bytes, fileChunks p transfer segment =
        .ok ((77 :: p.dumps (segmentManifest p transfer segment)) :: bodies.map (68 :: ·)) ∧
      bodies.flatten = slice transfer.content segment.offset segment.segmentSize := by
  obtain ⟨bodies, hchunks, hflat⟩ := dataChunks_ok (by decide : 0 < defaultChunkBytes)
    segment.offset segment.segmentSize (hsegment.endOffset ▸ hsegment.bound)
  refine ⟨bodies, ?_, hflat⟩
  simp only [fileChunks, hchunks, ok_bind]
  rfl

theorem serve_ok {sessionId sourcePeerId : String} {body : Bytes} {rest : List Bytes} {acked : Bool}
    {inbox₁ inbox₂ inbox₃ : Inbox} {sink₁ sink₂ sink₃ : Sink} {receipt : Receipt}
    (hload : loadManifest p inbox (.new sessionId sourcePeerId) body = (.ok (), inbox₁, sink₁))
    (hdata : writeAll p inbox₁ sink₁ rest = (.ok (), inbox₂, sink₂))
    (hfinish : finish p inbox₂ sink₂ = (.ok receipt, inbox₃, sink₃)) :
    serve p inbox (.new sessionId sourcePeerId) ((77 :: body) :: rest) acked =
      (.ok receipt,
        if acked then (acknowledgeReceipt inbox₃ sink₃).1 else (abort inbox₃ sink₃).1) := by
  have hwrite : write p inbox (.new sessionId sourcePeerId) (77 :: body) =
      (.ok (), inbox₁, sink₁) :=
    hload
  simp only [serve, writeAll, hwrite, hdata, hfinish]

/-- **The next segment is confirmed.** -/
theorem serve_first (sessionId : String) {plan : List Segment}
    (h : Accepted p transfer plan) (hmem : segment ∈ plan)
    (hsegment : SegmentOf p transfer.content segment)
    (hfree : inbox.active (transfer.slug p) = false)
    (hstands : StandsAt p transfer segment.offset inbox) (acked : Bool) :
    ∃ chunks receipt inbox', fileChunks p transfer segment = .ok chunks ∧
      serve p inbox (.new sessionId transfer.sourcePeerId) chunks acked = (.ok receipt, inbox') ∧
      receipt.duplicate = false ∧ Delivered p transfer segment inbox' := by
  obtain ⟨bodies, hchunks, hflat⟩ := fileChunks_ok (p := p) hsegment
  obtain ⟨m, hread, hm⟩ := readManifest_segment h hmem hsegment
  have hbound : segment.offset ≤ transfer.content.length :=
    le_trans (hsegment.endOffset ▸ Nat.le_add_right ..) hsegment.bound
  obtain ⟨state, hof, hload⟩ := loadManifest_next sessionId hread hm hbound hfree hstands
  have hlength : bodies.flatten.length = segment.segmentSize := by
    rw [hflat, length_slice (hsegment.endOffset ▸ hsegment.bound)]
  have hopened : (openedInbox p transfer segment inbox).parts (transfer.slug p) =
      some (transfer.content.take segment.offset) := Function.update_self ..
  have hatEnd : AtEnd (nextLoaded p transfer segment m state)
      ((openedInbox p transfer segment inbox).parts (transfer.slug p)) := by
    rintro position ⟨⟩
    exact ⟨_, hopened, (List.length_take_of_le hbound).symm⟩
  have hfits :
    { loadedSink p transfer (nextLoaded p transfer segment m state)
      with sessionId }.segmentReceived + bodies.flatten.length ≤ m.segmentSize := by
    show 0 + bodies.flatten.length ≤ m.segmentSize
    rw [hlength, hm.segmentSize, Nat.zero_add]
  obtain ⟨inbox₂, hdata, hextends⟩ := @writeAll_data p _ bodies
    { loadedSink p transfer (nextLoaded p transfer segment m state) with sessionId } _ rfl hatEnd
      hfits
  have hpart : inbox₂.parts (transfer.slug p) =
      some (transfer.content.take segment.endOffset) := by
    refine hextends.part.trans ?_
    rw [show (nextLoaded p transfer segment m state).slug = transfer.slug p from rfl, hopened,
      hsegment.endOffset, ← take_slice, ← hflat]
    rfl
  have hfile : inbox₂.files (transfer.destination p) = none := by
    rw [hextends.files]
    exact hstands.file
  have hreceived : 0 + bodies.flatten.length = segment.segmentSize := by
    rw [Nat.zero_add, hlength]
  obtain ⟨receipt, sink', hfinish, hfinished, hdup⟩ := @finish_next p transfer inbox₂ segment m hm
    hsegment ({ loadedSink p transfer (nextLoaded p transfer segment m state) with sessionId }.after
      (nextLoaded p transfer segment m state) bodies.flatten) _ state rfl rfl rfl rfl rfl rfl
    hreceived hflat hpart hfile
  obtain ⟨inbox', hclose, hparts, hfiles, hreleased, hcheckpoint⟩ := hfinished.close _ acked
  refine ⟨_, receipt, inbox', hchunks, (serve_ok hload hdata hfinish).trans (by rw [hclose]), hdup,
    ?_⟩
  have hstored : ∀ inbox : Inbox, (inbox.setCheckpoint (transfer.slug p)
      (some (state.advance m segment.segmentSha256 segment.prefixSha256))).checkpoints
        (transfer.slug p) =
      some (state.advance m segment.segmentSha256 segment.prefixSha256) :=
    fun inbox => Function.update_self ..
  rw [hstored, hm.final] at hcheckpoint
  have hof' : (state.advance m segment.segmentSha256 segment.prefixSha256).Of p transfer :=
    ⟨hof.sourcePeerId, hof.transferId, hof.filename, hof.size, hof.sha256⟩
  have hend : m.endOffset = segment.endOffset := by
    rw [Manifest.endOffset, hm.offset, hm.segmentSize, hsegment.endOffset]
  unfold Delivered
  cases hfinal : segment.final with
  | true =>
    rw [hfinal] at hfiles hcheckpoint
    refine ⟨hreleased, ?_, fun c hc => ?_⟩
    · rw [hfiles]
      exact Function.update_self ..
    · rw [hcheckpoint] at hc
      split at hc
      · cases hc
      · obtain rfl := Option.some.inj hc
        refine ⟨hof', ?_, ?_⟩
        · simp [Checkpoint.advance, hm.final, hfinal]
        · exact hend.trans (hsegment.final.mp hfinal)
  | false =>
    rw [hfinal] at hfiles hcheckpoint hparts
    refine ⟨hreleased, ?_, ?_, _, hcheckpoint.trans (by simp), hof', ?_, hend, ?_⟩
    · rw [hfiles]
      exact hfile
    · rw [hparts]
      exact hpart
    · simp [Checkpoint.advance, hm.final, hfinal]
    · exact ⟨_, List.mem_append_right _ (List.mem_singleton_self _), hm.offset, hend, rfl, rfl⟩

/-- **A delivered segment changes nothing** when it is sent again. -/
theorem serve_again (sessionId : String) {plan : List Segment}
    (h : Accepted p transfer plan) (hmem : segment ∈ plan)
    (hsegment : SegmentOf p transfer.content segment)
    (hdelivered : Delivered p transfer segment inbox) (acked : Bool) :
    ∃ chunks receipt inbox', fileChunks p transfer segment = .ok chunks ∧
      serve p inbox (.new sessionId transfer.sourcePeerId) chunks acked = (.ok receipt, inbox') ∧
      receipt.duplicate = true ∧ Delivered p transfer segment inbox' := by
  obtain ⟨bodies, hchunks, hflat⟩ := fileChunks_ok (p := p) hsegment
  obtain ⟨m, hread, hm⟩ := readManifest_segment h hmem hsegment
  obtain ⟨state, hload⟩ := loadManifest_again sessionId hread hm hsegment hdelivered
  have hlength : bodies.flatten.length = segment.segmentSize := by
    rw [hflat, length_slice (hsegment.endOffset ▸ hsegment.bound)]
  have hatEnd : AtEnd (againLoaded p transfer m state)
      ((inbox.claim (transfer.slug p)).parts (transfer.slug p)) := by
    rintro position ⟨⟩
  have hfits :
    { loadedSink p transfer (againLoaded p transfer m state) with sessionId }.segmentReceived +
      bodies.flatten.length ≤ m.segmentSize := by
    show 0 + bodies.flatten.length ≤ m.segmentSize
    rw [hlength, hm.segmentSize, Nat.zero_add]
  obtain ⟨inbox₂, hdata, hextends⟩ := @writeAll_data p _ bodies
    { loadedSink p transfer (againLoaded p transfer m state) with sessionId } _ rfl hatEnd hfits
  have hreceived : 0 + bodies.flatten.length = m.segmentSize := by
    rw [Nat.zero_add, hlength, hm.segmentSize]
  have hsha : p.sha256 bodies.flatten = m.segmentSha256 := by
    rw [hflat, hm.segmentSha256, hsegment.segmentSha256]
  have hfinish : ∃ receipt sink', finish p inbox₂
      ({ loadedSink p transfer (againLoaded p transfer m state) with sessionId }.after
        (againLoaded p transfer m state) bodies.flatten) = (.ok receipt, inbox₂, sink') ∧
      Finished (transfer.slug p) m sink' ∧ receipt.duplicate = true := by
    simp only [finish, Sink.after, loadedSink, Sink.new, List.nil_append, againLoaded, hreceived,
      hsha, ne_eq, not_true_eq_false, if_false, if_true]
    exact ⟨_, _, rfl, ⟨rfl, ⟨_, rfl, rfl, rfl⟩, rfl⟩, rfl⟩
  obtain ⟨receipt, sink', hfinish, hfinished, hdup⟩ := hfinish
  obtain ⟨inbox', hclose, hparts, hfiles, hreleased, hcheckpoint⟩ :=
    hfinished.close inbox₂ acked
  refine ⟨_, receipt, inbox', hchunks, (serve_ok hload hdata hfinish).trans (by rw [hclose]), hdup,
    ?_⟩
  have hsame : inbox₂.parts (transfer.slug p) = inbox.parts (transfer.slug p) := hextends.part
  rw [hextends.files] at hfiles
  rw [hextends.checkpoints, hm.final] at hcheckpoint
  unfold Delivered at hdelivered ⊢
  cases hfinal : segment.final with
  | true =>
    rw [hfinal] at hdelivered hcheckpoint
    refine ⟨hreleased, hfiles ▸ hdelivered.file, fun c hc => ?_⟩
    rw [hcheckpoint] at hc
    split at hc
    · cases hc
    · exact hdelivered.checkpoint c hc
  | false =>
    rw [hfinal] at hdelivered hcheckpoint
    obtain ⟨c, hc, hrest⟩ := hdelivered.checkpoint
    refine ⟨hreleased, hfiles ▸ hdelivered.file, ?_, c, ?_, hrest⟩
    · rw [hparts, hsame]
      exact hdelivered.part
    · rw [hcheckpoint, if_neg (by simp)]
      exact hc

/-! ### Plans -/

/-- Segments that cover a file from an offset to its end. -/
inductive Covers (p : Platform) (content : Bytes) : Nat → List Segment → Prop
  | last {segment : Segment} (valid : SegmentOf p content segment) (final : segment.final = true) :
      Covers p content segment.offset [segment]
  | cons {segment : Segment} {rest : List Segment} (valid : SegmentOf p content segment)
      (more : segment.final = false) (covers : Covers p content segment.endOffset rest) :
      Covers p content segment.offset (segment :: rest)

theorem Covers.ne_nil {content : Bytes} {offset : Nat} {plan : List Segment}
    (h : Covers p content offset plan) : plan ≠ [] := by
  cases h with
  | last | cons => simp

theorem segmentAt_valid {content : Bytes} {segmentBytes offset : Nat} (hpos : 0 < segmentBytes)
    (hsmall : segmentBytes ≤ defaultResumeSegmentBytes)
    (haligned : offset % defaultChunkBytes = 0) (hoffset : offset < content.length) :
    SegmentOf p content (segmentAt p content segmentBytes offset) := by
  refine ⟨rfl, ?_, haligned, ?_, rfl, rfl, ?_, fun _ => ?_⟩
  · show offset + min segmentBytes (content.length - offset) ≤ content.length
    omega
  · exact le_trans (min_le_left ..) hsmall
  · simp [segmentAt]
  · show offset < offset + min segmentBytes (content.length - offset)
    omega

/-- **The loop of the plan covers the rest of the file.** -/
theorem planFrom_covers {content : Bytes} {segmentBytes : Nat} (hpos : 0 < segmentBytes)
    (hsmall : segmentBytes ≤ defaultResumeSegmentBytes)
    (haligned : segmentBytes % defaultChunkBytes = 0) (offset : Nat)
    (hoffset : offset < content.length) (hstart : offset % defaultChunkBytes = 0) :
    Covers p content offset (planFrom p content segmentBytes hpos offset) := by
  induction hleft : content.length - offset using Nat.strong_induction_on generalizing offset with
  | _ left ih =>
    have hvalid := segmentAt_valid (p := p) hpos hsmall hstart hoffset
    have hend : (segmentAt p content segmentBytes offset).endOffset =
      offset + min segmentBytes (content.length - offset) := rfl
    unfold planFrom
    rw [if_pos hoffset]
    by_cases hmore : (segmentAt p content segmentBytes offset).endOffset < content.length
    · have hfull : (segmentAt p content segmentBytes offset).endOffset = offset + segmentBytes := by
        omega
      refine .cons hvalid ?_ (ih (content.length - (offset + segmentBytes)) (by omega) _ hmore ?_
        (by omega))
      · rw [← Bool.not_eq_true, hvalid.final]
        omega
      · rw [hfull, Nat.add_mod, hstart, haligned]
        rfl
    · have hwhole : (segmentAt p content segmentBytes offset).endOffset = content.length :=
        le_antisymm hvalid.bound (Nat.not_lt.mp hmore)
      have hrest : planFrom p content segmentBytes hpos
          (segmentAt p content segmentBytes offset).endOffset = [] := by
        unfold planFrom
        rw [if_neg (by omega)]
      rw [hrest]
      exact .last hvalid (hvalid.final.mpr hwhole)

theorem emptySegment_valid (p : Platform) : SegmentOf p [] (emptySegment p) := by
  refine ⟨rfl, Nat.le_refl _, rfl, Nat.zero_le _, rfl, rfl, ⟨fun _ => rfl, fun _ => rfl⟩, ?_⟩
  rintro ⟨⟩

/-- **A plan covers its file.** -/
theorem resumePlan_covers {content : Bytes} {segmentBytes : Nat} {digest : String}
    {plan : List Segment} (h : resumePlan p content segmentBytes = .ok (digest, plan)) :
    Covers p content 0 plan := by
  unfold resumePlan at h
  split at h
  · cases h
  · next hsafe =>
    rw [not_or, not_lt, not_lt] at hsafe
    split at h
    · cases h
    · next haligned =>
      have haligned := not_not.mp haligned
      obtain ⟨-, rfl⟩ := Prod.mk.inj (Except.ok.inj h)
      by_cases hempty : content = []
      · subst hempty
        have hnil : ∀ hpos, planFrom p [] segmentBytes hpos 0 = [] := by
          intro hpos
          unfold planFrom
          rfl
        rw [if_pos (hnil _)]
        exact .last (emptySegment_valid p) rfl
      · have hlength := List.length_pos_iff.mpr hempty
        have hcovers := planFrom_covers (p := p) (lt_of_lt_of_le (by decide) hsafe.1) hsafe.2
          haligned 0 hlength rfl
        rw [if_neg ?_]
        · exact hcovers
        · exact hcovers.ne_nil

theorem StandsAt.free {offset : Nat} (h : StandsAt p transfer offset inbox) :
    inbox.active (transfer.slug p) = false := by
  rcases h with ⟨-, hfresh⟩ | ⟨_, -, hpartway⟩
  · exact hfresh.free
  · exact hpartway.free

theorem sendAll_cons {chunks : List Bytes} {receipt : Receipt} {inbox' : Inbox} {acked : Bool}
    {rest : List (Segment × Bool)} (hchunks : fileChunks p transfer segment = .ok chunks)
    (hserve : serve p inbox (.new "" transfer.sourcePeerId) chunks acked = (.ok receipt, inbox')) :
    sendAll p transfer inbox ((segment, acked) :: rest) = sendAll p transfer inbox' rest := by
  simp only [sendAll, hchunks, ok_bind, hserve]

/-- **The segments of a plan, sent in order and any number of times, store the
file.** -/
theorem resume_stores {plan : List Segment} {sends : List (Segment × Bool)}
    (hrepeats : Repeats plan sends) {offset : Nat}
    (hcovers : Covers p transfer.content offset plan) (haccepted : Accepted p transfer plan)
    (hinbox : StandsAt p transfer offset inbox ∨
      ∃ segment rest, plan = segment :: rest ∧ Delivered p transfer segment inbox) :
    ∃ inbox', sendAll p transfer inbox sends = .ok inbox' ∧ Stored p transfer inbox' := by
  have hserves : ∀ {segment : Segment} {plan : List Segment} {offset : Nat} {inbox : Inbox}
      (acked : Bool), Covers p transfer.content offset (segment :: plan) →
      Accepted p transfer (segment :: plan) →
      (StandsAt p transfer offset inbox ∨ ∃ s rest, segment :: plan = s :: rest ∧
        Delivered p transfer s inbox) →
      ∃ chunks receipt inbox', fileChunks p transfer segment = .ok chunks ∧
        serve p inbox (.new "" transfer.sourcePeerId) chunks acked = (.ok receipt, inbox') ∧
        Delivered p transfer segment inbox' := by
    intro segment plan offset inbox acked hcovers haccepted hinbox
    obtain ⟨hvalid, hoffset⟩ : SegmentOf p transfer.content segment ∧ segment.offset = offset := by
      cases hcovers with
      | last valid | cons valid => exact ⟨valid, rfl⟩
    rcases hinbox with hstands | ⟨s, rest, heq, hdelivered⟩
    · obtain ⟨chunks, receipt, inbox', hchunks, hserve, -, hdelivered⟩ :=
        serve_first "" haccepted (by simp) hvalid hstands.free (hoffset ▸ hstands) acked
      exact ⟨chunks, receipt, inbox', hchunks, hserve, hdelivered⟩
    · obtain ⟨rfl, -⟩ := List.cons.inj heq
      obtain ⟨chunks, receipt, inbox', hchunks, hserve, -, hdelivered⟩ :=
        serve_again "" haccepted (by simp) hvalid hdelivered acked
      exact ⟨chunks, receipt, inbox', hchunks, hserve, hdelivered⟩
  induction hrepeats generalizing offset inbox with
  | nil => exact absurd rfl hcovers.ne_nil
  | @once segment plan sends acked rest ih =>
    obtain ⟨chunks, receipt, inbox', hchunks, hserve, hdelivered⟩ :=
      hserves acked hcovers haccepted hinbox
    rw [sendAll_cons hchunks hserve]
    cases hcovers with
    | last valid final =>
      cases rest
      rw [Delivered, if_pos final] at hdelivered
      exact ⟨inbox', rfl, hdelivered⟩
    | cons valid more covers =>
      rw [Delivered, if_neg (by simp [more])] at hdelivered
      refine ih covers ⟨fun s hs => haccepted.loads s (.tail _ hs),
        haccepted.str, haccepted.int, haccepted.sha256, haccepted.filename,
        haccepted.transferId, haccepted.size⟩ (.inl (.inr ⟨segment, rfl, hdelivered⟩))
  | @again segment plan sends acked rest ih =>
    obtain ⟨chunks, receipt, inbox', hchunks, hserve, hdelivered⟩ :=
      hserves acked hcovers haccepted hinbox
    rw [sendAll_cons hchunks hserve]
    exact ih hcovers haccepted (.inr ⟨segment, plan, rfl, hdelivered⟩)

/-- **Integrity of resumable file transfer.**  In every state that sessions of
any sources lead to:

* a call stores at most one file, which has the size and the hash of its
  manifest, under a name that was free, and a stored file never changes;
* a checkpoint describes the first bytes of its partial file, and all of it, at
  its destination, once the transfer is complete;
* after an abort the partial file is exactly the verified bytes;
* a segment that was confirmed before is refused or a duplicate, and a duplicate
  never touches a partial file;
* a finish that raises changes no checkpoint and no stored file;
* the segments of a plan, sent in order and any number of times, with or without
  their receipts, store exactly the source file. -/
theorem transfer_integrity {server : Server} (h : Reachable p server) :
    (∀ server', Step p server server' →
      server'.inbox.files = server.inbox.files ∨
        ∃ id sink loaded content, server.sessions id = some ⟨sink, .receiving⟩ ∧
          sink.loaded = some loaded ∧
          Stores p server.inbox server'.inbox loaded.manifest loaded.destination content) ∧
    (∀ server' name content, Relation.ReflTransGen (Step p) server server' →
      server.inbox.files name = some content → server'.inbox.files name = some content) ∧
    (∀ slug c, server.inbox.checkpoints slug = some c → Described p server.inbox slug c) ∧
    (∀ id sink phase slug, server.sessions id = some ⟨sink, phase⟩ → phase ≠ .closed →
      sink.claimed = some slug → Exact p (abort server.inbox sink).1 slug) ∧
    (∀ id sink body m, server.sessions id = some ⟨sink, .receiving⟩ → sink.loaded = none →
      readManifest p body = .ok m →
      Confirmed server.inbox (p.resumeSlug sink.sourcePeerId m.transferId) m →
      (loadManifest p server.inbox sink body).2.1.parts = server.inbox.parts ∧
        ∀ loaded, (loadManifest p server.inbox sink body).2.2.loaded = some loaded →
          loaded.duplicate = true) ∧
    (∀ id session loaded, server.sessions id = some session →
      session.sink.loaded = some loaded → loaded.duplicate = true →
      Untouched p server.inbox session.sink) ∧
    (∀ id sink e, server.sessions id = some ⟨sink, .receiving⟩ →
      (finish p server.inbox sink).1 = .error e →
      (finish p server.inbox sink).2.1.checkpoints = server.inbox.checkpoints ∧
        (finish p server.inbox sink).2.1.files = server.inbox.files) ∧
    (∀ transfer segmentBytes digest plan sends,
      resumePlan p transfer.content segmentBytes = .ok (digest, plan) →
      Accepted p transfer plan → Fresh p transfer server.inbox → Repeats plan sends →
      ∃ inbox', sendAll p transfer server.inbox sends = .ok inbox' ∧
        inbox'.files (transfer.destination p) = some transfer.content) := by
  have hsound := h.sound
  refine ⟨fun server' hstep => hstep.files, fun server' name content hruns hstored =>
    runs_files hruns hstored, hsound.described, ?_, ?_, ?_, ?_, ?_⟩
  · intro id sink phase slug hfound hopen hclaimed
    exact hsound.abort_exact hfound hopen hclaimed
  · intro id sink body m hfound hunloaded hread hconfirmed
    exact hsound.load_confirmed hunloaded hread hconfirmed
  · intro id session loaded hfound hloaded hdup
    exact (hsound.sessions id session hfound).untouched hloaded hdup
  · intro id sink e hfound herror
    exact finish_error herror
  · intro transfer segmentBytes digest plan sends hplan haccepted hfresh hrepeats
    obtain ⟨inbox', hsend, hstored⟩ := resume_stores hrepeats (resumePlan_covers hplan) haccepted
      (.inl (.inl ⟨rfl, hfresh⟩))
    exact ⟨inbox', hsend, hstored.file⟩

/-- A session that wrote a chunk goes on. -/
theorem Reachable.written {server : Server} (h : Reachable p server) {id : Nat} {inbox : Inbox}
    {sink : Sink} {written : Inbox × Sink} (chunk : Bytes) (hinbox : server.inbox = inbox)
    (hfound : server.sessions id = some ⟨sink, .receiving⟩)
    (hok : phaseAfter (write p inbox sink chunk).1 .receiving = .receiving)
    (hwrite : (write p inbox sink chunk).2 = written) :
    ∃ next, Reachable p next ∧ next.inbox = written.1 ∧
      next.sessions id = some ⟨written.2, .receiving⟩ := by
  subst hinbox hwrite
  refine ⟨_, .step h (.write chunk hfound), rfl, ?_⟩
  rw [hok]
  exact Function.update_self ..

/-- The hashes of no bytes and of three. -/
def sampleSha256 (content : Bytes) : String :=
  if content = [] then "sha256:e3b0c44298fc1c149afbf4c8996fb92427ae41e4649b934ca495991b7852b855"
  else "sha256:039058c6f2c0cb492c533b0a4d14ef77cc0f78abccced5287d84a1a2011cfb81"

def sampleTransfer : Transfer :=
  { sourcePeerId := "source", transferId := "0123456789abcdef0123456789abcdef"
    filename := "data", content := [1, 2, 3] }

/-- The JSON of the only manifest. -/
def sampleText : Bytes :=
  ("\x7b\"end_offset_bytes\":3,\"filename\":\"data\",\"final\":true,\"kind\":\"file\"," ++
    "\"offset_bytes\":0,\"prefix_sha256\":\"" ++ sampleSha256 [1, 2, 3] ++
    "\",\"segment_sha256\":\"" ++ sampleSha256 [1, 2, 3] ++
    "\",\"segment_size_bytes\":3,\"sha256\":\"" ++ sampleSha256 [1, 2, 3] ++
    "\",\"size_bytes\":3,\"transfer_id\":\"0123456789abcdef0123456789abcdef\"\x7d"
  ).toUTF8.data.toList

def sampleManifest : Json :=
  .object [("kind", .str "file"), ("filename", .str "data"), ("size_bytes", .int 3),
    ("sha256", .str (sampleSha256 [1, 2, 3])),
    ("transfer_id", .str "0123456789abcdef0123456789abcdef"), ("offset_bytes", .int 0),
    ("segment_size_bytes", .int 3), ("end_offset_bytes", .int 3),
    ("segment_sha256", .str (sampleSha256 [1, 2, 3])),
    ("prefix_sha256", .str (sampleSha256 [1, 2, 3])), ("final", .bool true)]

def sampleSlug : String := "62453fa521ca78b52a61fa65fc45d755"

/-- A platform that knows this manifest. -/
def samplePlatform : Platform :=
  { loads := fun body => if body = sampleText then some sampleManifest else none
    dumps := fun _ => sampleText
    str := fun value => value.asStr?.getD ""
    int := Json.asInt?
    isHex := fun text => text.toList.all fun c => ('0' ≤ c && c ≤ '9') || ('a' ≤ c && c ≤ 'f')
    sha256 := sampleSha256
    resumeSlug := fun _ _ => sampleSlug
    maxFileBytes := 2 * 1024 * 1024 * 1024 }

def samplePlan : List Segment :=
  [{ offset := 0, segmentSize := 3, endOffset := 3, segmentSha256 := sampleSha256 [1, 2, 3]
     prefixSha256 := sampleSha256 [1, 2, 3], final := true }]

theorem sample_accepted : Accepted samplePlatform sampleTransfer samplePlan := by
  refine ⟨?_, fun _ => rfl, fun _ => rfl, ?_, by decide +kernel, by decide +kernel,
    by decide +kernel⟩
  · intro segment hsegment
    obtain rfl := List.mem_singleton.mp hsegment
    simp only [samplePlatform, if_true]
    rfl
  · intro content
    simp only [samplePlatform, sampleSha256, validSha256]
    split <;> decide +kernel

theorem sample_segment : SegmentOf samplePlatform sampleTransfer.content
    { offset := 0, segmentSize := 3, endOffset := 3, segmentSha256 := sampleSha256 [1, 2, 3]
      prefixSha256 := sampleSha256 [1, 2, 3], final := true } :=
  ⟨rfl, by decide, rfl, by decide, rfl, rfl, by decide, by decide⟩

def sampleOpened : Inbox × Sink :=
  (write samplePlatform Server.empty.inbox (.new "" "source") (77 :: sampleText)).2

/-- A session wrote the manifest and two of the three bytes. -/
def sampleBegun : Inbox × Sink := (write samplePlatform sampleOpened.1 sampleOpened.2 [68, 1, 2]).2

/-- The session goes on, and an abort leaves the inbox ready for the transfer. -/
theorem sample_begun : ∃ server sink, Reachable samplePlatform server ∧
    server.sessions 0 = some ⟨sink, .receiving⟩ ∧ sink.claimed = some sampleSlug ∧
    server.inbox.parts sampleSlug = some [1, 2] ∧
    Fresh samplePlatform sampleTransfer (abort server.inbox sink).1 := by
  have hfacts : phaseAfter (write samplePlatform Server.empty.inbox (.new "" "source")
        (77 :: sampleText)).1 .receiving = .receiving ∧
      phaseAfter (write samplePlatform sampleOpened.1 sampleOpened.2 [68, 1, 2]).1 .receiving =
        .receiving ∧
      sampleBegun.2.claimed = some sampleSlug ∧ sampleBegun.1.parts sampleSlug = some [1, 2] ∧
      (abort sampleBegun.1 sampleBegun.2).1.active sampleSlug = false ∧
      ((abort sampleBegun.1 sampleBegun.2).1.checkpoints sampleSlug).isNone = true ∧
      (abort sampleBegun.1 sampleBegun.2).1.files (sampleSlug ++ "-data") = none := by
    decide +kernel
  obtain ⟨hwrites, hcontinues, hclaimed, hparts, hactive, hcheckpoint, hfile⟩ := hfacts
  have hstarted : Reachable samplePlatform _ := .step .empty (.start 0 "" "source" rfl)
  obtain ⟨opened, hopened, hinbox, hfound⟩ := hstarted.written (77 :: sampleText)
    (rfl : _ = Server.empty.inbox) (Function.update_self ..) hwrites (rfl : _ = sampleOpened)
  obtain ⟨begun, hbegun, hinbox, hfound⟩ := hopened.written [68, 1, 2] hinbox hfound hcontinues
    (rfl : _ = sampleBegun)
  generalize sampleBegun = opened at *
  refine ⟨begun, opened.2, hbegun, hfound, hclaimed, hinbox ▸ hparts, ?_⟩
  rw [hinbox]
  exact ⟨hactive, Option.isNone_iff_eq_none.mp hcheckpoint, hfile⟩

theorem transfer_integrity_sample : ∃ server sink, Reachable samplePlatform server ∧
    server.sessions 0 = some ⟨sink, .receiving⟩ ∧ server.inbox.parts sampleSlug = some [1, 2] ∧
    Exact samplePlatform (abort server.inbox sink).1 sampleSlug ∧
    ∃ inbox', sendAll samplePlatform sampleTransfer (abort server.inbox sink).1
        (samplePlan.flatMap fun segment => [(segment, false), (segment, true)]) = .ok inbox' ∧
      inbox'.files (sampleSlug ++ "-data") = some [1, 2, 3] := by
  have hplan : resumePlan samplePlatform sampleTransfer.content defaultChunkBytes =
      .ok (sampleSha256 [1, 2, 3], samplePlan) := by
    have hsegments : ∀ hpos, planFrom samplePlatform [1, 2, 3] defaultChunkBytes hpos 0 =
        samplePlan := by
      intro hpos
      rw [planFrom, if_pos (by decide), planFrom, if_neg (by decide)]
      rfl
    unfold resumePlan
    simp only [show sampleTransfer.content = [1, 2, 3] from rfl, hsegments]
    rfl
  obtain ⟨server, sink, hserver, hfound, hclaimed, hparts, hfresh⟩ := sample_begun
  obtain ⟨-, -, -, habort, -⟩ := transfer_integrity hserver
  obtain ⟨-, -, -, -, -, -, -, hsends⟩ :=
    transfer_integrity (.step hserver (.abort hfound (by decide)))
  exact ⟨server, sink, hserver, hfound, hparts, habort _ _ _ _ hfound (by decide) hclaimed,
    hsends sampleTransfer defaultChunkBytes _ samplePlan _ hplan sample_accepted hfresh
      (.again false (.once true .nil))⟩

end Transit
