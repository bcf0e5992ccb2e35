import Rynmesh.ModelDownload

/-!
# A model download resumes

* `Always` is what holds after each prefix of some operations, so wherever a process stops;
* `download_ops` says what the operations of an attempt can be;
* `destination_always`, `refused_part` and `prefix_always` are what an attempt keeps;
* `honest_attempt` and `honest_fresh` say that honest and complete answers publish the file.
-/

namespace ModelDownload

variable {p : Platform}

/-! ### Operations -/

/-- A property of the files after every prefix of some operations. -/
def Always (P : Disk → Prop) (disk : Disk) (ops : List Op) : Prop :=
  ∀ done, P (disk.applyAll (ops.take done))

theorem applyAll_append (disk : Disk) (xs ys : List Op) :
    disk.applyAll (xs ++ ys) = (disk.applyAll xs).applyAll ys := List.foldl_append

section Always

variable {P : Disk → Prop} {disk : Disk}

theorem Always.nil (h : P disk) : Always P disk [] := fun done => by
  rw [List.take_nil]
  exact h

theorem Always.cons {op : Op} {ops : List Op} (h : P disk) (hrest : Always P (disk.apply op) ops) :
    Always P disk (op :: ops) := fun done => by
  cases done with
  | zero => exact h
  | succ done => exact hrest done

theorem Always.append {xs ys : List Op} (hxs : Always P disk xs)
    (hys : Always P (disk.applyAll xs) ys) : Always P disk (xs ++ ys) := fun done => by
  rw [List.take_append, applyAll_append]
  rcases Nat.lt_or_ge done xs.length with hlt | hge
  · rw [Nat.sub_eq_zero_of_le (Nat.le_of_lt hlt)]
    exact hxs done
  · rw [List.take_of_length_le hge]
    exact hys _

theorem Always.last {ops : List Op} (h : Always P disk ops) : P (disk.applyAll ops) := by
  have hall := h ops.length
  rwa [List.take_length] at hall

end Always

theorem applyAll_write (disk : Disk) (bytes : Bytes) :
    disk.applyAll (bytes.map Op.write) =
      { disk with part := disk.part.map fun content => content ++ bytes } := by
  induction bytes generalizing disk with
  | nil => simp [Disk.applyAll]
  | cons byte bytes ih =>
    have hstep : disk.applyAll ((byte :: bytes).map Op.write) =
        (disk.apply (.write byte)).applyAll (bytes.map Op.write) := rfl
    rw [hstep, ih]
    simp [Disk.apply, Function.comp_def]

/-! ### What an attempt can do -/

/-- The bytes of a body, up to its end or a failure. -/
def bodyOf : List Read → Bytes
  | [] => []
  | .failed _ :: _ => []
  | .chunk bytes _ :: rest => if bytes = [] then [] else bytes ++ bodyOf rest

theorem copy_ops (sizeBytes : Option Nat) (reads : List Read) (downloaded : Nat) :
    ∃ bytes, bytes <+: bodyOf reads ∧ (copy sizeBytes reads downloaded).ops = bytes.map .write := by
  induction reads generalizing downloaded with
  | nil => exact ⟨[], List.nil_prefix, rfl⟩
  | cons read rest ih =>
    cases read with
    | failed exception => exact ⟨[], List.nil_prefix, rfl⟩
    | chunk bytes isCancelled =>
      unfold copy bodyOf
      by_cases hempty : bytes = []
      · rw [if_pos hempty, if_pos hempty]
        exact ⟨[], List.nil_prefix, rfl⟩
      rw [if_neg hempty, if_neg hempty]
      by_cases hcancel : isCancelled = true
      · rw [if_pos hcancel]
        exact ⟨[], List.nil_prefix, rfl⟩
      rw [if_neg hcancel]
      by_cases hover : sizeBytes.any (· < downloaded + bytes.length) = true
      · rw [if_pos hover]
        exact ⟨[], List.nil_prefix, rfl⟩
      · rw [if_neg hover]
        obtain ⟨more, hmore, heq⟩ := ih (downloaded + bytes.length)
        refine ⟨bytes ++ more, (List.prefix_append_right_inj bytes).mpr hmore, ?_⟩
        dsimp only
        rw [heq, List.map_append]

/-- What follows once a body was written, if one was. -/
inductive Tail (p : Platform) (a : Attempt) (disk : Disk) : List Op → Prop
  | nothing : Tail p a disk []
  | discarded : Tail p a disk [.discardPart]
  | quarantined : Tail p a disk [.discardCorrupt, .quarantine]
  | published {content : Bytes} (hpart : disk.part = some content)
      (hdigest : p.sha256 content = p.lower a.expectedSha256) : Tail p a disk [.publish]

theorem verify_tail (a : Attempt) (disk : Disk) : Tail p a disk (verify p a disk).ops := by
  unfold verify
  by_cases hverifying : a.cancelVerifying = true
  · rw [if_pos hverifying]
    exact .nothing
  rw [if_neg hverifying]
  cases hpart : disk.part with
  | none => exact .nothing
  | some content =>
    dsimp only
    by_cases hverified : a.cancelVerified = true
    · rw [if_pos hverified]
      exact .nothing
    rw [if_neg hverified]
    by_cases hdigest : p.sha256 content = p.lower a.expectedSha256
    · rw [if_neg (not_not.mpr hdigest)]
      exact .published hpart hdigest
    · rw [if_pos hdigest]
      exact .quarantined

/-- **The operations of an attempt**: no body is written, or a part of one that was accepted. -/
theorem download_ops (a : Attempt) (disk : Disk) :
    Tail p a disk (download p a disk).ops ∨
    ∃ response plan bytes tail, a.answer = .response response ∧
      responsePlan p response disk.resumeFrom a.sizeBytes = some plan ∧
      bytes <+: bodyOf response.reads ∧
      (download p a disk).ops = .openPart (plan.offset ≠ 0) :: bytes.map .write ++ tail ∧
      Tail p a (disk.applyAll (.openPart (plan.offset ≠ 0) :: bytes.map .write)) tail := by
  unfold download
  by_cases hurl : a.httpsUrl = false
  · rw [if_pos hurl]
    exact .inl .nothing
  rw [if_neg hurl]
  by_cases hpreparing : a.cancelPreparing = true
  · rw [if_pos hpreparing]
    exact .inl .nothing
  rw [if_neg hpreparing]
  by_cases hlong : a.sizeBytes.any (· < disk.resumeFrom) = true
  · rw [if_pos hlong]
    exact .inl .discarded
  rw [if_neg hlong]
  by_cases hresuming : disk.resumeFrom ≠ 0 ∧ a.cancelResuming = true
  · rw [if_pos hresuming]
    exact .inl .nothing
  rw [if_neg hresuming]
  unfold answered
  cases hanswer : a.answer with
  | failed exception => exact .inl .nothing
  | httpError code =>
    dsimp only
    by_cases hrange : disk.resumeFrom ≠ 0 ∧ code = 416
    · rw [if_pos hrange]
      by_cases hshort : a.sizeBytes.any (disk.resumeFrom < ·) = true
      · rw [if_pos hshort]
        exact .inl .nothing
      · rw [if_neg hshort]
        exact .inl (verify_tail a disk)
    · rw [if_neg hrange]
      exact .inl .nothing
  | response response =>
    dsimp only
    cases hplan : responsePlan p response disk.resumeFrom a.sizeBytes with
    | none => exact .inl .nothing
    | some plan =>
      refine .inr ⟨response, plan, ?_⟩
      obtain ⟨bytes, hbytes, hops⟩ := copy_ops a.sizeBytes response.reads plan.offset
      refine ⟨bytes, ?_⟩
      dsimp only [receive]
      rw [hops]
      cases (copy a.sizeBytes response.reads plan.offset).ending with
      | raised error => exact ⟨[], rfl, hplan, hbytes, by simp, .nothing⟩
      | overflow => exact ⟨_, rfl, hplan, hbytes, rfl, .discarded⟩
      | finished =>
        by_cases hsize : plan.responseSize.any
            (· ≠ (copy a.sizeBytes response.reads plan.offset).downloaded - plan.offset) =
              true
        · rw [if_pos hsize]
          exact ⟨[], rfl, hplan, hbytes, by simp, .nothing⟩
        · rw [if_neg hsize]
          by_cases hfull : plan.fullSize.any
              ((copy a.sizeBytes response.reads plan.offset).downloaded < ·) = true
          · rw [if_pos hfull]
            exact ⟨[], rfl, hplan, hbytes, by simp, .nothing⟩
          · rw [if_neg hfull]
            exact ⟨_, rfl, hplan, hbytes, rfl, verify_tail a _⟩

/-! ### What an attempt keeps -/

/-- The destination is as before, or has the expected digest. -/
def Replaced (p : Platform) (expected : String) (before disk : Disk) : Prop :=
  disk.destination = before.destination ∨
    ∃ content, disk.destination = some content ∧ p.sha256 content = p.lower expected

variable {disk : Disk} {a : Attempt}

theorem tail_replaced {before : Disk} {tail : List Op} (h : disk.destination = before.destination)
    (htail : Tail p a disk tail) : Always (Replaced p a.expectedSha256 before) disk tail := by
  cases htail with
  | nothing => exact .nil (.inl h)
  | discarded => exact .cons (.inl h) (.nil (.inl h))
  | quarantined => exact .cons (.inl h) (.cons (.inl h) (.nil (.inl h)))
  | published hpart hdigest => exact .cons (.inl h) (.nil (.inr ⟨_, hpart, hdigest⟩))

/-- **The destination** is only replaced by a file of the expected digest. -/
theorem destination_always (a : Attempt) (disk : Disk) :
    Always (Replaced p a.expectedSha256 disk) disk (download p a disk).ops := by
  rcases download_ops (p := p) a disk with htail | hbody
  · exact tail_replaced rfl htail
  · obtain ⟨response, plan, bytes, tail, _, _, _, hops, htail⟩ := hbody
    rw [hops]
    have hsame : ∀ xs : Bytes, (disk.applyAll
        (.openPart (plan.offset ≠ 0) :: xs.map .write)).destination = disk.destination :=
          fun xs => by
      rw [Disk.applyAll, List.foldl_cons, ← Disk.applyAll, applyAll_write]
      rfl
    refine .append ?_ (tail_replaced (hsame bytes) htail)
    refine .cons (.inl rfl) fun done => .inl ?_
    rw [← List.map_take]
    exact hsame (bytes.take done)

/-- The request of an attempt is sent. -/
structure Requests (a : Attempt) (disk : Disk) : Prop where
  httpsUrl : a.httpsUrl = true
  preparing : a.cancelPreparing = false
  sized : a.sizeBytes.any (· < disk.resumeFrom) = false
  resuming : disk.resumeFrom ≠ 0 → a.cancelResuming = false

theorem download_answered (h : Requests a disk) :
    download p a disk = answered p a disk disk.resumeFrom := by
  unfold download
  rw [if_neg (by simp [h.httpsUrl]), if_neg (by simp [h.preparing]), if_neg (by simp [h.sized]),
    if_neg fun hresuming => by simp [h.resuming hresuming.1] at hresuming]

/-- The answer is refused: an error other than that of a range after the `.part`, or a response
without a plan. -/
def Refused (p : Platform) (a : Attempt) (disk : Disk) : Prop :=
  match a.answer with
  | .httpError code => ¬ (disk.resumeFrom ≠ 0 ∧ code = 416)
  | .failed _ => True
  | .response response => responsePlan p response disk.resumeFrom a.sizeBytes = none

/-- **A refused response** leaves the files as they were. -/
theorem refused_ops (h : Requests a disk) (hrefused : Refused p a disk) :
    (download p a disk).ops = [] := by
  rw [download_answered h]
  unfold answered
  unfold Refused at hrefused
  cases hanswer : a.answer with
  | failed exception => rfl
  | httpError code =>
    rw [hanswer] at hrefused
    dsimp only at hrefused ⊢
    rw [if_neg hrefused]
  | response response =>
    rw [hanswer] at hrefused
    dsimp only at hrefused ⊢
    rw [hrefused]

/-- There is no `.part`, or it begins the file. -/
def PartOf (file : Bytes) (disk : Disk) : Prop := ∀ content, disk.part = some content →
  content <+: file

/-- An accepted body holds the bytes of the file at its offset. -/
def Faithful (p : Platform) (file : Bytes) (disk : Disk) (a : Attempt) : Prop :=
  ∀ response plan, a.answer = .response response →
    responsePlan p response disk.resumeFrom a.sizeBytes = some plan →
    bodyOf response.reads <+: file.drop plan.offset

theorem tail_partOf {file : Bytes} {tail : List Op} (h : PartOf file disk)
    (htail : Tail p a disk tail) : Always (PartOf file) disk tail := by
  have hnone : ∀ destination corrupt, PartOf file ⟨none, destination, corrupt⟩ :=
    fun _ _ _ hcontent => absurd hcontent (Option.some_ne_none _).symm
  cases htail with
  | nothing => exact .nil h
  | discarded => exact .cons h (.nil (hnone _ _))
  | quarantined => exact .cons h (.cons h (.nil (hnone _ _)))
  | published => exact .cons h (.nil (hnone _ _))

/-- A plan has an offset of zero or of the length of the `.part`. -/
theorem plan_offset {response : Response} {resumeFrom : Nat} {sizeBytes : Option Nat} {plan : Plan}
    (h : responsePlan p response resumeFrom sizeBytes = some plan) :
    plan.offset = 0 ∨ plan.offset = resumeFrom := by
  obtain ⟨length, _, h⟩ := Option.bind_eq_some_iff.mp h
  by_cases hencoded : response.encoded p = true
  · rw [if_pos hencoded] at h
    cases h
  rw [if_neg hencoded] at h
  by_cases hwhole : response.statusCode = 200
  · rw [if_pos hwhole] at h
    cases h
    exact .inl rfl
  rw [if_neg hwhole] at h
  by_cases hpartial : response.statusCode ≠ 206
  · rw [if_pos hpartial] at h
    cases h
  rw [if_neg hpartial] at h
  obtain ⟨range, _, h⟩ := Option.bind_eq_some_iff.mp h
  obtain ⟨start, last, total⟩ := range
  unfold rangePlan at h
  dsimp only at h
  by_cases hrange : ¬ (start = 0 ∨ start = resumeFrom) ∨ last < start ∨
      total.any (· ≤ last) = true
  · rw [if_pos hrange] at h
    cases h
  rw [if_neg hrange] at h
  by_cases hsize : sizeBytes.any (fun size => total.any (· ≠ size)) = true
  · rw [if_pos hsize] at h
    cases h
  rw [if_neg hsize] at h
  by_cases hlength : length.any (· ≠ last - start + 1) = true
  · rw [if_pos hlength] at h
    cases h
  rw [if_neg hlength] at h
  cases h
  exact not_not.mp (not_or.mp hrange).1

/-- What the `.part` is once it is open. -/
theorem open_part (disk : Disk) {offset : Nat} (h : offset = 0 ∨ offset = disk.resumeFrom) :
    ∃ content, (disk.apply (.openPart (offset ≠ 0))).part = some content ∧
      content.length = offset ∧ (content = [] ∨ disk.part = some content) := by
  by_cases hzero : offset = 0
  · exact ⟨[], by simp [Disk.apply, hzero], by simp [hzero], .inl rfl⟩
  have hlength := h.resolve_left hzero
  cases hpart : disk.part with
  | none => simp [Disk.resumeFrom, hpart] at hlength; omega
  | some content =>
    refine ⟨content, by simp [Disk.apply, hzero, hpart], ?_, .inr rfl⟩
    simpa [Disk.resumeFrom, hpart] using hlength.symm

theorem prefix_append {file content bytes : Bytes} (hcontent : content <+: file)
    (hbytes : bytes <+: file.drop content.length) : content ++ bytes <+: file := by
  obtain ⟨rest, rfl⟩ := hcontent
  rw [List.drop_left] at hbytes
  exact (List.prefix_append_right_inj content).mpr hbytes

/-- **The `.part` begins the file** while accepted bodies hold its bytes. -/
theorem prefix_always {file : Bytes} (h : PartOf file disk) (hfaithful : Faithful p file disk a) :
    Always (PartOf file) disk (download p a disk).ops := by
  rcases download_ops (p := p) a disk with htail | hbody
  · exact tail_partOf h htail
  · obtain ⟨response, plan, bytes, tail, hanswer, hplan, hbytes, hops, htail⟩ := hbody
    rw [hops]
    obtain ⟨content, hopen, hlength, hold⟩ := open_part disk (plan_offset hplan)
    have hstart : content <+: file := by
      rcases hold with rfl | hold
      · exact List.nil_prefix
      · exact h content hold
    -- wherever the loop stops, it has appended the bytes that the file has there
    have hwritten : ∀ xs : Bytes, xs <+: bytes → PartOf file
        ((disk.apply (.openPart (plan.offset ≠ 0))).applyAll (xs.map .write)) := fun xs hxs => by
      intro found hfound
      rw [applyAll_write] at hfound
      rw [hopen, Option.map_some, Option.some.injEq] at hfound
      subst hfound
      refine prefix_append hstart ?_
      rw [hlength]
      exact (hxs.trans hbytes).trans (hfaithful response plan hanswer hplan)
    refine .append (.cons h fun done => ?_) (tail_partOf (hwritten bytes List.prefix_rfl) htail)
    rw [← List.map_take]
    exact hwritten _ (List.take_prefix _ _)

/-! ### Honest and complete answers -/

/-- Reads that give a body in non-empty chunks to its end, without a cancel. -/
structure Whole (reads : List Read) (body : Bytes) : Prop where
  chunks : ∀ read ∈ reads, ∃ bytes, bytes ≠ [] ∧ read = .chunk bytes false
  content : bodyOf reads = body

theorem copy_whole {sizeBytes : Option Nat} {reads : List Read} {body : Bytes} {downloaded : Nat}
    (h : Whole reads body) (hfit : sizeBytes.any (· < downloaded + body.length) = false) :
    copy sizeBytes reads downloaded =
      ⟨body.map .write, downloaded + body.length, .finished⟩ := by
  obtain ⟨hchunks, rfl⟩ := h
  induction reads generalizing downloaded with
  | nil => rfl
  | cons read rest ih =>
    obtain ⟨bytes, hbytes, rfl⟩ := hchunks read (.head _)
    have hbody : bodyOf (.chunk bytes false :: rest) = bytes ++ bodyOf rest := by
      rw [bodyOf, if_neg hbytes]
    rw [hbody, List.length_append, ← Nat.add_assoc] at hfit
    have hrest := ih (fun other hother => hchunks other (.tail _ hother)) hfit
    have hover : ¬ sizeBytes.any (· < downloaded + bytes.length) = true := by
      cases sizeBytes with
      | none => exact Bool.false_ne_true
      | some size =>
        simp only [Option.any_some, decide_eq_false_iff_not, decide_eq_true_eq] at hfit ⊢
        omega
    rw [copy, if_neg hbytes, if_neg Bool.false_ne_true, if_neg hover]
    rw [hrest, hbody, List.map_append, List.length_append, Nat.add_assoc]

/-- An answer to a request from `resumeFrom` that is honest and complete: the whole file, the
rest of it from the requested offset, or that nothing is left. -/
def Serves (p : Platform) (file : Bytes) (resumeFrom : Nat) : Answer → Prop
  | .httpError code => code = 416 ∧ resumeFrom ≠ 0 ∧ file.length ≤ resumeFrom
  | .failed _ => False
  | .response response => response.encoded p = false ∧
      (response.statusCode = 200 ∧ Whole response.reads file ∧
        (response.length = some none ∨ response.length = some (some file.length)) ∨
      response.statusCode = 206 ∧ resumeFrom < file.length ∧
        Whole response.reads (file.drop resumeFrom) ∧
        (response.length = some none ∨
          response.length = some (some (file.length - resumeFrom))) ∧
        (response.range p = some (resumeFrom, file.length - 1, none) ∨
          response.range p = some (resumeFrom, file.length - 1, some file.length)))

/-- An attempt that is not cancelled and is answered honestly and completely. -/
structure Honest (p : Platform) (file : Bytes) (disk : Disk) (a : Attempt) : Prop where
  httpsUrl : a.httpsUrl = true
  preparing : a.cancelPreparing = false
  resuming : a.cancelResuming = false
  verifying : a.cancelVerifying = false
  verified : a.cancelVerified = false
  pinned : a.sizeBytes = none ∨ a.sizeBytes = some file.length
  digest : p.sha256 file = p.lower a.expectedSha256
  serves : Serves p file disk.resumeFrom a.answer

/-- An attempt publishes a file with the expected digest, and so the one that has it. -/
def Publishes (p : Platform) (file : Bytes) (disk : Disk) (a : Attempt) : Prop :=
  ∃ content, (download p a disk).outcome = .ok (p.lower a.expectedSha256) ∧
    (after p disk a none).destination = some content ∧
    p.sha256 content = p.lower a.expectedSha256 ∧
    ((∀ other, p.sha256 other = p.sha256 file → other = file) → content = file)

section Honest

variable {file : Bytes} {disk : Disk} {a : Attempt}

/-- The check of a complete file publishes it or takes the `.part` away. -/
theorem verifyAfter_ends (h : Honest p file disk a) {ops : List Op} {content : Bytes}
    (hpart : (disk.applyAll ops).part = some content) :
    (p.sha256 content = p.lower a.expectedSha256 ∧
      (verifyAfter p a disk ops).outcome = .ok (p.sha256 content) ∧
      (disk.applyAll (verifyAfter p a disk ops).ops).destination = some content) ∨
    (p.sha256 content ≠ p.lower a.expectedSha256 ∧
      (disk.applyAll (verifyAfter p a disk ops).ops).part = none) := by
  unfold verifyAfter verify
  rw [if_neg (by simp [h.verifying]), hpart]
  dsimp only
  rw [if_neg (by simp [h.verified]), applyAll_append]
  by_cases hdigest : p.sha256 content = p.lower a.expectedSha256
  · rw [if_neg (not_not.mpr hdigest)]
    exact .inl ⟨hdigest, rfl, hpart⟩
  · rw [if_pos hdigest]
    exact .inr ⟨hdigest, rfl⟩

theorem receive_whole {reads : List Read} {plan : Plan} {body : Bytes} (hwhole : Whole reads body)
    (hfit : a.sizeBytes.any (· < plan.offset + body.length) = false)
    (hsize : plan.responseSize.any (· ≠ body.length) = false)
    (hfull : plan.fullSize.any (plan.offset + body.length < ·) = false) :
    receive p a disk reads plan =
      verifyAfter p a disk (.openPart (plan.offset ≠ 0) :: body.map .write) := by
  unfold receive
  rw [copy_whole hwhole hfit]
  dsimp only
  rw [Nat.add_sub_cancel_left, if_neg (by rw [hsize]; exact Bool.false_ne_true),
    if_neg (by rw [hfull]; exact Bool.false_ne_true)]

/-- A whole file is fetched into an empty `.part`, the rest of one behind the `.part`. -/
theorem answered_response (h : Honest p file disk a) {response : Response}
    (hanswer : a.answer = .response response) :
    ∃ ops content, answered p a disk disk.resumeFrom = verifyAfter p a disk ops ∧
      (disk.applyAll ops).part = some content ∧
      (content = file ∨ ∃ start, disk.part = some start ∧ start ≠ []) := by
  have hserves := h.serves
  rw [hanswer] at hserves
  obtain ⟨hencoded, hserves⟩ := hserves
  have hfile : ∀ n, n = file.length → a.sizeBytes.any (· < n) = false := fun n hn => by
    rcases h.pinned with hpin | hpin <;> simp [hpin, hn]
  rcases hserves with hwhole | hpartial
  · obtain ⟨hstatus, hwhole, hlength⟩ := hwhole
    obtain ⟨length, hlength, hfits⟩ : ∃ length, response.length = some length ∧
        length.any (· ≠ file.length) = false := by
      rcases hlength with hlength | hlength
      · exact ⟨_, hlength, rfl⟩
      · exact ⟨_, hlength, by simp⟩
    have hplan : responsePlan p response disk.resumeFrom a.sizeBytes =
        some ⟨0, length, a.sizeBytes.or length⟩ := by
      unfold responsePlan
      simp [hlength, hencoded, hstatus]
    refine ⟨.openPart false :: file.map .write, file, ?_, ?_, .inl rfl⟩
    · unfold answered
      rw [hanswer]
      dsimp only
      rw [hplan]
      dsimp only
      rw [receive_whole hwhole (hfile _ (Nat.zero_add _)) hfits]
      · rfl
      · rcases h.pinned with hpin | hpin
        · rw [hpin, Option.none_or]
          cases length with
          | none => rfl
          | some size =>
            simp only [ne_eq, decide_not, Option.any_some, Bool.not_eq_eq_eq_not, Bool.not_false,
              decide_eq_true_eq] at hfits
            simp [hfits]
        · simp [hpin]
    · rw [Disk.applyAll, List.foldl_cons, ← Disk.applyAll, applyAll_write]
      rfl
  · obtain ⟨hstatus, hless, hwhole, hlength, hrange⟩ := hpartial
    have hrest : (file.drop disk.resumeFrom).length = file.length - disk.resumeFrom :=
      List.length_drop
    have hcount : file.length - 1 - disk.resumeFrom + 1 = file.length - disk.resumeFrom := by omega
    obtain ⟨length, hlength, hfits⟩ : ∃ length, response.length = some length ∧
        length.any (· ≠ file.length - disk.resumeFrom) = false := by
      rcases hlength with hlength | hlength
      · exact ⟨_, hlength, rfl⟩
      · exact ⟨_, hlength, by simp⟩
    obtain ⟨total, hrange, htotal⟩ : ∃ total : Option Nat,
        response.range p = some (disk.resumeFrom, file.length - 1, total) ∧
          (total = none ∨ total = some file.length) := by
      rcases hrange with hrange | hrange
      · exact ⟨_, hrange, .inl rfl⟩
      · exact ⟨_, hrange, .inr rfl⟩
    have hplan : responsePlan p response disk.resumeFrom a.sizeBytes =
        some ⟨disk.resumeFrom, some (file.length - disk.resumeFrom),
          a.sizeBytes.or total⟩ := by
      unfold responsePlan rangePlan
      simp only [hlength, hencoded, hstatus, hrange, Option.bind_eq_bind, Option.bind_some]
      rw [if_neg Bool.false_ne_true, if_neg (by decide), if_neg (by simp), if_neg, if_neg, if_neg,
        hcount]
      · rw [hcount, hfits]
        exact Bool.false_ne_true
      · rcases h.pinned with hpin | hpin <;> rcases htotal with htotal | htotal <;>
          simp [hpin, htotal]
      · rcases htotal with htotal | htotal
        · simp [htotal]
          omega
        · simp [htotal]
          omega
    obtain ⟨content, hopen, hlen, hold⟩ := open_part disk (.inr (Eq.refl disk.resumeFrom))
    refine ⟨.openPart (disk.resumeFrom ≠ 0) :: (file.drop disk.resumeFrom).map .write,
      content ++ file.drop disk.resumeFrom, ?_, ?_, ?_⟩
    · unfold answered
      rw [hanswer]
      dsimp only
      rw [hplan]
      have hend : disk.resumeFrom + (file.drop disk.resumeFrom).length = file.length := by omega
      refine receive_whole hwhole (hfile _ hend) (by simp) ?_
      rw [hend]
      rcases h.pinned with hpin | hpin <;> rcases htotal with htotal | htotal <;>
        simp [hpin, htotal]
    · rw [Disk.applyAll, List.foldl_cons, ← Disk.applyAll, applyAll_write]
      rw [hopen]
      rfl
    · rcases hold with rfl | hold
      · refine .inl ?_
        rw [← hlen]
        rfl
      · by_cases hempty : content = []
        · subst hempty
          refine .inl ?_
          rw [← hlen]
          rfl
        · exact .inr ⟨content, hold, hempty⟩

theorem Honest.requests (h : Honest p file disk a)
    (hshort : a.sizeBytes.any (· < disk.resumeFrom) = false) : Requests a disk :=
  ⟨h.httpsUrl, h.preparing, hshort, fun _ => h.resuming⟩

theorem publishes_of_ends (h : Honest p file disk a) {ops : List Op} {content : Bytes}
    (hdownload : download p a disk = verifyAfter p a disk ops)
    (hpart : (disk.applyAll ops).part = some content) :
    Publishes p file disk a ∨
      (p.sha256 content ≠ p.lower a.expectedSha256 ∧ (after p disk a none).part = none) := by
  unfold Publishes after
  rw [hdownload]
  rcases verifyAfter_ends h hpart with hdone | hgone
  · obtain ⟨hdigest, houtcome, hdestination⟩ := hdone
    refine .inl ⟨content, ?_, hdestination, hdigest, fun hsole => hsole content ?_⟩
    · rw [houtcome, hdigest]
    · rw [hdigest, h.digest]
  · exact .inr hgone

/-- **An honest attempt** publishes the file, or leaves no `.part`. -/
theorem honest_attempt (h : Honest p file disk a) :
    Publishes p file disk a ∨ (after p disk a none).part = none := by
  by_cases hlong : a.sizeBytes.any (· < disk.resumeFrom) = true
  · refine .inr ?_
    unfold after download
    rw [if_neg (by simp [h.httpsUrl]), if_neg (by simp [h.preparing]), if_pos hlong]
    rfl
  have hdownload := download_answered (p := p) (h.requests (Bool.not_eq_true _ ▸ hlong))
  have hserves := h.serves
  cases hanswer : a.answer with
  | failed exception =>
    rw [hanswer] at hserves
    exact hserves.elim
  | httpError code =>
    rw [hanswer] at hserves
    obtain ⟨rfl, hresume, hrest⟩ := hserves
    have hshort : ¬ a.sizeBytes.any (disk.resumeFrom < ·) = true := by
      rcases h.pinned with hpin | hpin <;> simp [hpin, hrest]
    cases hpart : disk.part with
    | none => simp [Disk.resumeFrom, hpart] at hresume
    | some content =>
      have hends : download p a disk = verifyAfter p a disk [] := by
        rw [hdownload]
        unfold answered
        rw [hanswer]
        dsimp only
        rw [if_pos ⟨hresume, rfl⟩, if_neg hshort]
      exact (publishes_of_ends h hends hpart).imp_right And.right
  | response response =>
    obtain ⟨ops, content, hanswered, hpart, _⟩ := answered_response h hanswer
    exact (publishes_of_ends h (hdownload.trans hanswered) hpart).imp_right And.right

/-- **Without a `.part`** an honest attempt publishes the file. -/
theorem honest_fresh (h : Honest p file disk a) (hpart : disk.part = none) :
    Publishes p file disk a := by
  have hresume : disk.resumeFrom = 0 := by simp [Disk.resumeFrom, hpart]
  have hdownload := download_answered (p := p) (h.requests (by
    rw [hresume]
    rcases h.pinned with hpin | hpin <;> simp [hpin]))
  have hserves := h.serves
  cases hanswer : a.answer with
  | failed exception =>
    rw [hanswer] at hserves
    exact hserves.elim
  | httpError code =>
    rw [hanswer] at hserves
    exact absurd hresume hserves.2.1
  | response response =>
    obtain ⟨ops, content, hanswered, hwritten, hfile⟩ := answered_response h hanswer
    rcases publishes_of_ends h (hdownload.trans hanswered) hwritten with hdone | hgone
    · exact hdone
    · rcases hfile with rfl | hstart
      · exact absurd h.digest hgone.1
      · obtain ⟨start, hstart, _⟩ := hstart
        rw [hpart] at hstart
        cases hstart

end Honest

/-! ### Runs -/

/-- Along a run every accepted body holds the bytes of the file at its offset. -/
def FaithfulRun (p : Platform) (file : Bytes) : Disk → List (Attempt × Option Nat) → Prop
  | _, [] => True
  | disk, (a, stop) :: rest =>
      Faithful p file disk a ∧ FaithfulRun p file (after p disk a stop) rest

theorem Always.after {P : Disk → Prop} (h : Always P disk (download p a disk).ops)
    (stop : Option Nat) : P (after p disk a stop) := by
  cases stop with
  | none => exact h.last
  | some done => exact h done

theorem run_partOf {file : Bytes} (attempts : List (Attempt × Option Nat)) (h : PartOf file disk)
    (hfaithful : FaithfulRun p file disk attempts) : PartOf file (run p disk attempts) := by
  induction attempts generalizing disk with
  | nil => exact h
  | cons attempt rest ih =>
    obtain ⟨a, stop⟩ := attempt
    exact ih ((prefix_always h hfaithful.1).after stop) hfaithful.2

/-- **A model download resumes correctly** along every run of attempts, wherever they stop. -/
theorem download_resumes (p : Platform) (start : Disk) (attempts : List (Attempt × Option Nat)) :
    (∀ a stop, Replaced p a.expectedSha256 (run p start attempts)
      (after p (run p start attempts) a stop)) ∧
    (∀ a stop, Requests a (run p start attempts) → Refused p a (run p start attempts) →
      after p (run p start attempts) a stop = run p start attempts) ∧
    (∀ file, PartOf file start → FaithfulRun p file start attempts →
      PartOf file (run p start attempts)) ∧
    ∀ file a b, Honest p file (run p start attempts) a →
      Honest p file (after p (run p start attempts) a none) b →
        Publishes p file (run p start attempts) a ∨
          Publishes p file (after p (run p start attempts) a none) b := by
  refine ⟨fun a stop => (destination_always a _).after stop, fun a stop hsent hrefused => ?_,
    fun file => run_partOf attempts, fun file a b ha hb => ?_⟩
  · unfold after
    rw [refused_ops hsent hrefused]
    cases stop with
    | none => rfl
    | some done =>
      dsimp only
      rw [List.take_nil]
      rfl
  · exact (honest_attempt ha).imp_right (honest_fresh hb)

/-! ### Samples -/

/-- A platform that tells one file of two bytes from the others. -/
def sample : Platform where
  sha256 bytes := if bytes = [1, 2] then "digest" else "other"
  strip := id
  lower := id

/-- The rest of the file after its first byte, for a pinned download. -/
def sampleAttempt : Attempt where
  httpsUrl := true
  expectedSha256 := "digest"
  sizeBytes := some 2
  cancelPreparing := false
  cancelResuming := false
  cancelVerifying := false
  cancelVerified := false
  answer := .response ⟨206, some "1", none, some "bytes 1-1/2", [.chunk [2] false]⟩

/-- Two attempts from a foreign `.part`, both answered honestly: the one of them that publishes
is the second.  An answer that is refused before them leaves the files as they were. -/
theorem download_resumes_sample : ∃ refused fresh : Attempt,
    after sample ⟨some [9], none, none⟩ refused none = ⟨some [9], none, none⟩ ∧
    (Publishes sample [1, 2] ⟨some [9], none, none⟩ sampleAttempt ∨
      Publishes sample [1, 2] (after sample ⟨some [9], none, none⟩ sampleAttempt none) fresh) ∧
    ¬ Publishes sample [1, 2] ⟨some [9], none, none⟩ sampleAttempt := by
  obtain ⟨-, hrefused, -, hhonest⟩ := download_resumes sample ⟨some [9], none, none⟩ []
  refine ⟨{ sampleAttempt with answer := .httpError 500 }, { sampleAttempt with
    answer := .response ⟨200, some "2", none, none, [.chunk [1, 2] false]⟩ },
    hrefused _ none ⟨rfl, rfl, by decide, fun _ => rfl⟩ (by simp [Refused]),
    hhonest _ _ _ ?_ ?_, ?_⟩
  · refine ⟨rfl, rfl, rfl, rfl, rfl, .inr rfl, rfl, by decide, .inr ⟨rfl, by decide, ?_⟩⟩
    refine ⟨⟨?_, rfl⟩, .inr (by decide +kernel), .inr (by decide +kernel)⟩
    simp
  · refine ⟨rfl, rfl, rfl, rfl, rfl, .inr rfl, rfl, by decide, .inl ⟨rfl, ⟨?_, rfl⟩, .inr ?_⟩⟩
    · simp
    · decide +kernel
  · rintro ⟨_, hdone, -⟩
    have hfails :
        (download sample sampleAttempt ⟨some [9], none, none⟩).outcome.toOption = none := by
      decide +kernel
    rw [hdone] at hfails
    cases hfails

/-- **A foreign `.part`** stays at the front of what an accepted body is appended to. -/
theorem foreign_part_kept :
    FaithfulRun sample [1, 2] ⟨some [9], none, none⟩ [(sampleAttempt, some 2)] ∧
    (run sample ⟨some [9], none, none⟩ [(sampleAttempt, some 2)]).part = some [9, 2] ∧
    ¬ PartOf [1, 2] (run sample ⟨some [9], none, none⟩ [(sampleAttempt, some 2)]) := by
  have hpart : (run sample ⟨some [9], none, none⟩ [(sampleAttempt, some 2)]).part =
      some [9, 2] := by decide +kernel
  refine ⟨⟨fun response plan hanswer hplan => ?_, trivial⟩, hpart, fun h => ?_⟩
  · cases hanswer
    have hall : ((responsePlan sample ⟨206, some "1", none, some "bytes 1-1/2",
        [.chunk [2] false]⟩ 1 (some 2)).all fun plan => decide (plan.offset = 1)) = true := by
      decide +kernel
    have hsome : responsePlan sample ⟨206, some "1", none, some "bytes 1-1/2",
        [.chunk [2] false]⟩ 1 (some 2) = some plan := hplan
    rw [hsome] at hall
    rw [of_decide_eq_true (show decide (plan.offset = 1) = true from hall)]
    decide
  · exact absurd (h _ hpart) (by decide)

end ModelDownload
