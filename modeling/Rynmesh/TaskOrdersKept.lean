import Rynmesh.JsonFields
import Rynmesh.TaskOrders

/-!
# What task orders keep

Whatever a run of calls on a `TaskOrderStore` does, a record stays, its bindings
stay, and its state moves as the transition table says (`call_lives`).

The response of a success is another matter.  A purge spares it for seven days
because it finds the success in the history of the record; but the history is
cut to its first item and its newest sixty-three.  `Holds` says how long the
success is found there, and `Timely` is the condition under which no purge takes
a response before its time.
-/

namespace TaskOrders

open Checked

/-! ### Events -/

variable {metadata : Dict String Json}

theorem get?_overlay (event : Json) {k : String} (hk : k ∉ metadata.keys) :
    (overlay event metadata).get? k = event.get? k := by
  have hfold : ∀ (fields : List (String × Json)) (v : Json), k ∉ fields.map Prod.fst →
      (fields.foldl (fun e f => e.withField f.1 f.2) v).get? k = v.get? k := by
    intro fields
    induction fields with
    | nil => intro v _; rfl
    | cons f rest ih =>
      intro v hnot
      rw [List.map_cons, List.mem_cons, not_or] at hnot
      rw [List.foldl_cons, ih _ hnot.2, Json.get?_withField_ne v f.2 hnot.1]
  exact hfold _ _ hk

/-- An event that fewer than 63 follow survives the cut of a history. -/
theorem trimmed_near (pre : List Json) (e : Json) {post : List Json} (h : post.length ≤ 62) :
    ∃ pre', trimmed (pre ++ e :: post) = pre' ++ e :: post := by
  cases pre with
  | nil =>
    refine ⟨[], ?_⟩
    have hlen : ¬ 64 < (e :: post).length := by
      rw [List.length_cons]
      omega
    simp only [List.nil_append, trimmed, if_neg hlen]
  | cons first pre =>
    by_cases hlen : 64 < (first :: (pre ++ e :: post)).length
    · refine ⟨first :: (first :: pre).drop ((first :: (pre ++ e :: post)).length - 63), ?_⟩
      have hle : (first :: (pre ++ e :: post)).length - 63 ≤ (first :: pre).length := by
        simp only [List.length_cons, List.length_append]
        omega
      have hdrop : (first :: (pre ++ e :: post)).drop
            ((first :: (pre ++ e :: post)).length - 63) =
          (first :: pre).drop ((first :: (pre ++ e :: post)).length - 63) ++ e :: post := by
        exact List.drop_append_of_le_length hle
      simp only [List.cons_append, trimmed, if_pos hlen, hdrop]
    · refine ⟨first :: pre, ?_⟩
      simp only [List.cons_append, trimmed, if_neg hlen]

/-! ### What a call does to a record -/

/-- The record as it is written. -/
def filed (record : TaskRecord) : TaskRecord :=
  { record with history := trimmed record.history }

variable {record : TaskRecord} {taskId : String} {response : Option Json}

variable {c : Call} {returned : TaskRecord} {bindings : Dict String String}

variable {done : Bool}

section

variable {p : Platform} {env : Env p} {store store' : Store}

/-- A record is found under an id that is valid. -/
theorem get_ok {found : Option TaskRecord} :
    get store taskId = .ok found ↔ validId taskId = true ∧ store.get? taskId = found := by
  simp [get]

theorem write_ok (h : write env store record = .ok store') :
    store' = store.set record.taskId (filed record) := by
  simp only [write, bind_ok] at h
  obtain ⟨_, _, _, _, h⟩ := h
  cases hrefuses : env.refuses record.taskId with
  | some failure => simp [hrefuses] at h
  | none =>
    rw [hrefuses, pure_ok] at h
    exact h.symm

/-- A record that is small enough is stored. -/
theorem write_of (hid : validId record.taskId = true)
    (hsize : dumpsSize 0 (filed record).json ≤ maxRecordBytes)
    (hrefuses : env.refuses record.taskId = none) :
    write env store record = .ok (store.set record.taskId (filed record)) := by
  rw [filed] at hsize
  simp only [write, hid, require_of, ok_bind, hsize, hrefuses]
  rfl

/-- Each file holds the record of its task. -/
def Named (store : Store) : Prop :=
  ∀ taskId record, store.get? taskId = some record → record.taskId = taskId ∧ validId taskId

/-- What one call may do to the record of a task. -/
inductive Touched (env : Env p) (taskId : String) :
    Call → Option TaskRecord → Option TaskRecord → Prop
  | kept (c : Call) (found : Option TaskRecord) : Touched env taskId c found found
  | claimed (bindings : Dict String String) (hvalid : validId taskId = true) :
      Touched env taskId (.claim taskId bindings) none (some (filed (claimed env taskId bindings)))
  | started (state : String) (metadata : Dict String Json) (response : Option Json)
      (allowRecovery : Bool) (hvalid : validId taskId = true) :
      Touched env taskId (.transition taskId state metadata response allowRecovery) none
        (some (filed (started env taskId metadata)))
  | moved (record : TaskRecord) (text : String) (state : TaskState)
      (metadata : Dict String Json) (response : Option Json) (allowRecovery : Bool)
      (hmoves : recovers record state allowRecovery = true ∨ state ∈ record.state.allowed) :
      Touched env taskId (.transition taskId text metadata response allowRecovery) (some record)
        (some (filed (moved env record state
          (transitionEvent env state metadata (recovers record state allowRecovery)) response)))
  | checked (record : TaskRecord) (metadata : Dict String Json) (response : Option Json) :
      Touched env taskId (.checkpoint taskId metadata response) (some record)
        (some (filed (checked env record (checkpointEvent env record metadata) response)))
  | acknowledged (record : TaskRecord) :
      Touched env taskId (.markAcknowledged taskId) (some record)
        (some (filed { record with acknowledgedAt := some env.now.iso }))
  | purged (record : TaskRecord) (hresponse : record.encryptedResponse.isSome = true)
      (hawaiting : awaitingArchive p record env.now.time = false)
      (hdue : due p record env.now.time = true) :
      Touched env taskId .purgeExpiredResponses (some record) (some (filed (purged env record)))

/-- A claim changes nothing, or stores a new record. -/
theorem claim_ok {c : TaskRecord × Bool} (h : claim env store taskId bindings = .ok (c, store')) :
    (store' = store ∧ c.2 = false ∧ store.get? taskId = some c.1 ∧
        SameBindings (c.1.bindings.getD .empty) bindings) ∨
      (validId taskId = true ∧ store.get? taskId = none ∧
        c = (claimed env taskId bindings, true) ∧
        store' = store.set taskId (filed (claimed env taskId bindings))) := by
  simp only [claim, bind_ok, get_ok] at h
  obtain ⟨_, _, _, _, existing, ⟨hvalid, hfound⟩, h⟩ := h
  cases existing with
  | some record =>
    simp only [claimRecord, bind_ok, require_ok, pure_ok,
      Prod.mk.injEq] at h
    obtain ⟨_, hsame, hc, hstore⟩ := h
    rw [← hc]
    exact .inl ⟨hstore.symm, rfl, hfound, hsame⟩
  | none =>
    simp only [claimRecord, bind_ok, pure_ok, Prod.mk.injEq] at h
    obtain ⟨_, _, after, hwrite, hc, hstore⟩ := h
    subst hc hstore
    exact .inr ⟨hvalid, hfound, rfl, write_ok hwrite⟩

/-- A transition changes nothing, starts a record, or stores the moved one. -/
theorem transition_ok {text : String} {allowRecovery : Bool}
    (h : transition env store taskId text metadata response allowRecovery =
      .ok (returned, store')) :
    store' = store ∨
      (validId taskId = true ∧ store.get? taskId = none ∧
        store' = store.set taskId (filed (started env taskId metadata))) ∨
      ∃ record state, store.get? taskId = some record ∧ TaskState.ofText text = some state ∧
        state ≠ record.state ∧
        (recovers record state allowRecovery = true ∨ state ∈ record.state.allowed) ∧
        store' = store.set record.taskId (filed (moved env record state
          (transitionEvent env state metadata (recovers record state allowRecovery))
            response)) := by
  simp only [transition, bind_ok, demand_ok, get_ok] at h
  obtain ⟨state, hstate, found, ⟨hvalid, hfound⟩, h⟩ := h
  cases found with
  | none =>
    simp only [transitionRecord, bind_ok, pure_ok, Prod.mk.injEq] at h
    obtain ⟨_, _, after, hwrite, _, hstore⟩ := h
    subst hstore
    exact .inr (.inl ⟨hvalid, hfound, write_ok hwrite⟩)
  | some record =>
    simp only [transitionRecord] at h
    split at h
    · simp only [pure_ok, Prod.mk.injEq] at h
      exact .inl h.2.symm
    · split at h
      · simp only [pure_ok, Prod.mk.injEq] at h
        exact .inl h.2.symm
      · rename_i hne
        simp only [bind_ok, require_ok, pure_ok, Prod.mk.injEq] at h
        obtain ⟨_, hmoves, _, _, after, hwrite, _, hstore⟩ := h
        subst hstore
        exact .inr (.inr ⟨record, state, hfound, hstate, hne, hmoves, write_ok hwrite⟩)

/-- A checkpoint stores the record with one more event. -/
theorem checkpoint_ok (h : checkpoint env store taskId metadata response = .ok (returned, store')) :
    ∃ record, store.get? taskId = some record ∧
      store' = store.set record.taskId
        (filed (checked env record (checkpointEvent env record metadata) response)) := by
  simp only [checkpoint, bind_ok, demand_ok, pure_ok, get_ok,
    Prod.mk.injEq] at h
  obtain ⟨found, ⟨_, hfound⟩, record, hrecord, _, _, after, hwrite, _, hstore⟩ := h
  subst hstore
  exact ⟨record, by rw [hfound, hrecord], write_ok hwrite⟩

theorem map_write_ok (h : (write env store record).map (fun s => (true, s)) = .ok (done, store')) :
    store' = store.set record.taskId (filed record) := by
  cases hwrite : write env store record with
  | error failure => simp [hwrite, Except.map] at h
  | ok after =>
    simp only [hwrite, Except.map, Except.ok.injEq, Prod.mk.injEq] at h
    rw [← h.2]
    exact write_ok hwrite

theorem markAcknowledged_ok (h : markAcknowledged env store taskId = .ok (done, store')) :
    (store' = store ∧ store.get? taskId = none) ∨
      ∃ record, store.get? taskId = some record ∧
        store' = store.set record.taskId
          (filed { record with acknowledgedAt := some env.now.iso }) := by
  simp only [markAcknowledged, bind_ok, get_ok] at h
  obtain ⟨found, ⟨_, hfound⟩, h⟩ := h
  cases found with
  | none =>
    simp only [pure_ok, Prod.mk.injEq] at h
    exact .inl ⟨h.2.symm, hfound⟩
  | some record => exact .inr ⟨record, hfound, map_write_ok h⟩

/-- One file of a purge. -/
theorem purgeOne_touches (hnamed : Named store) (h : purgeOne env store taskId = .ok (done, store'))
    (key : String) : Touched env key .purgeExpiredResponses (store.get? key) (store'.get? key) := by
  have hkept : store' = store →
      Touched env key .purgeExpiredResponses (store.get? key) (store'.get? key) := by
    intro heq
    rw [heq]
    exact .kept _ _
  simp only [purgeOne, bind_ok, get_ok] at h
  obtain ⟨found, ⟨_, hfound⟩, h⟩ := h
  cases found with
  | none =>
    simp only [pure_ok, Prod.mk.injEq] at h
    exact hkept h.2.symm
  | some record =>
    by_cases hawaiting : awaitingArchive p record env.now.time = true
    · simp only [if_pos hawaiting, bind_ok, pure_ok, Prod.mk.injEq] at h
      obtain ⟨_, _, _, hstore⟩ := h
      exact hkept hstore.symm
    simp only [if_neg hawaiting, bind_ok] at h
    obtain ⟨_, _, _, _, h⟩ := h
    split at h
    · rename_i hdue
      have hid : record.taskId = taskId := (hnamed taskId record hfound).1
      simp only [purgeEncryptedResponse, bind_ok, get_ok, hid, hfound] at h
      obtain ⟨_, ⟨_, heq⟩, h⟩ := h
      rw [← heq] at h
      dsimp only at h
      split at h
      · simp only [pure_ok, Prod.mk.injEq] at h
        exact hkept h.2.symm
      · rename_i hresponse
        have hstore := map_write_ok h
        rw [show (purged env record).taskId = taskId from hid] at hstore
        by_cases hkey : key = taskId
        · rw [hstore, hkey, Dict.get?_set_self, hfound]
          exact .purged record (by simpa [Option.isSome_iff_ne_none] using hresponse)
            (Bool.eq_false_iff.mpr hawaiting) hdue
        · rw [hstore, Dict.get?_set_ne _ _ hkey]
          exact .kept _ _
    · simp only [pure_ok, Prod.mk.injEq] at h
      exact hkept h.2.symm

theorem Touched.purge_trans {a b c : Option TaskRecord}
    (hab : Touched env taskId .purgeExpiredResponses a b)
    (hbc : Touched env taskId .purgeExpiredResponses b c) :
    Touched env taskId .purgeExpiredResponses a c := by
  cases hab with
  | kept _ => exact hbc
  | purged record hresponse hawaiting hdue =>
    cases hbc with
    | kept _ => exact .purged record hresponse hawaiting hdue
    | purged _ hgone => cases hgone

theorem Touched.named {before : Option TaskRecord} {after : TaskRecord}
    (h : Touched env taskId c before (some after))
    (hbefore : ∀ record, before = some record → record.taskId = taskId ∧ validId taskId) :
    after.taskId = taskId ∧ validId taskId := by
  cases h with
  | kept _ _ => exact hbefore after rfl
  | claimed _ hvalid | started _ _ _ _ hvalid => exact ⟨rfl, hvalid⟩
  | moved record | checked record | acknowledged record | purged record => exact hbefore record rfl

theorem Named.touched (hnamed : Named store)
    (h : ∀ key, Touched env key c (store.get? key) (store'.get? key)) : Named store' := by
  intro taskId record hrecord
  have htouched := h taskId
  rw [hrecord] at htouched
  exact htouched.named fun before hbefore => hnamed taskId before hbefore

/-- A whole purge, by induction on its files. -/
theorem purgeFrom_touches (files : List String) (count : Nat) (hnamed : Named store)
    (key : String) :
    Touched env key .purgeExpiredResponses (store.get? key)
      ((purgeFrom env files count store).2.get? key) := by
  induction files generalizing count store with
  | nil => exact .kept _ _
  | cons taskId rest ih =>
    cases hone : purgeOne env store taskId with
    | error failure =>
      simp only [purgeFrom, hone]
      exact .kept _ _
    | ok out =>
      have htouch := fun key => purgeOne_touches hnamed hone key
      simp only [purgeFrom, hone]
      exact (htouch key).purge_trans (ih _ (hnamed.touched htouch))

theorem touched_set (h : Touched env taskId c (store.get? taskId) (some record)) (key : String) :
    Touched env key c (store.get? key) ((store.set taskId record).get? key) := by
  by_cases hkey : key = taskId
  · rw [hkey, Dict.get?_set_self]
    exact h
  · rw [Dict.get?_set_ne _ _ hkey]
    exact .kept _ _

theorem commit_snd {α : Type} {value : α → Outcome} {x : Except String (α × Store)} {key : String}
    (h : ∀ a after, x = .ok (a, after) →
      Touched env key c (store.get? key) (after.get? key)) :
    Touched env key c (store.get? key) ((commit store value x).2.get? key) := by
  cases x with
  | error failure => exact .kept _ _
  | ok out =>
    obtain ⟨a, after⟩ := out
    exact h a after rfl

/-- **One call**, and what it may do to each record. -/
theorem call_touches (env : Env p) (hnamed : Named store) (c : Call) (key : String) :
    Touched env key c (store.get? key) ((call env store c).2.get? key) := by
  cases c with
  | claim taskId bindings =>
    refine commit_snd fun claim after h => ?_
    rcases claim_ok h with ⟨heq, _⟩ | ⟨hvalid, hnone, _, heq⟩
    · rw [heq]
      exact .kept _ _
    · rw [heq]
      exact touched_set (by rw [hnone]; exact .claimed bindings hvalid) key
  | transition taskId text metadata response allowRecovery =>
    refine commit_snd fun returned after h => ?_
    rcases transition_ok h with heq | ⟨hvalid, hnone, heq⟩ |
      ⟨record, state, hfound, hstate, hne, hmoves, heq⟩
    · rw [heq]
      exact .kept _ _
    · rw [heq]
      exact touched_set (by rw [hnone]; exact .started _ _ _ _ hvalid) key
    · rw [heq, (hnamed taskId record hfound).1]
      exact touched_set (by rw [hfound]; exact .moved record text state _ _ _ hmoves) key
  | checkpoint taskId metadata response =>
    refine commit_snd fun returned after h => ?_
    obtain ⟨record, hfound, heq⟩ := checkpoint_ok h
    rw [heq, (hnamed taskId record hfound).1]
    exact touched_set (by rw [hfound]; exact .checked record metadata response) key
  | markAcknowledged taskId =>
    refine commit_snd fun done after h => ?_
    rcases markAcknowledged_ok h with ⟨heq, _⟩ | ⟨record, hfound, heq⟩
    · rw [heq]
      exact .kept _ _
    · have hid : record.taskId = taskId := (hnamed taskId record hfound).1
      subst hid
      rw [heq]
      exact touched_set (by rw [hfound]; exact .acknowledged record) key
  | purgeExpiredResponses => exact purgeFrom_touches _ _ hnamed key
  | get taskId =>
    refine commit_snd fun found after h => ?_
    simp only [Except.map] at h
    split at h
    · cases h
    · simp only [Except.ok.injEq, Prod.mk.injEq] at h
      rw [← h.2]
      exact .kept _ _

/-! ### Lives -/

/-- The call may bring a failed or timed-out task back. -/
def Call.allowsRecovery : Call → Prop
  | .transition _ _ _ _ allowRecovery => allowRecovery = true
  | _ => False

/-- A step of a life: the record stays, and its state moves as the table says. -/
structure Lives (c : Call) (record record' : TaskRecord) : Prop where
  bindings : record'.bindings = record.bindings
  createdAt : record'.createdAt = record.createdAt
  state : record'.state = record.state ∨ record'.state ∈ record.state.allowed ∨
    (c.allowsRecovery ∧ record.state ∈ [TaskState.failed, .timedOut] ∧
      record'.state = .succeeded)

/-- A record is never removed. -/
theorem Touched.lives {after : Option TaskRecord} (h : Touched env taskId c (some record) after) :
    ∃ record', after = some record' ∧ Lives c record record' := by
  cases h with
  | kept _ _ => exact ⟨record, rfl, rfl, rfl, .inl rfl⟩
  | moved _ text state metadata response allowRecovery hmoves =>
    refine ⟨_, rfl, rfl, rfl, .inr ?_⟩
    rcases hmoves with hrecovers | hallowed
    · simp only [recovers, Bool.and_eq_true, decide_eq_true_eq, List.contains_iff_mem]
        at hrecovers
      exact .inr ⟨hrecovers.1.1, hrecovers.1.2, hrecovers.2⟩
    · exact .inl hallowed
  | checked _ metadata response | acknowledged _ => exact ⟨_, rfl, rfl, rfl, .inl rfl⟩
  | purged _ _ _ _ => exact ⟨_, rfl, rfl, rfl, .inl rfl⟩

/-- The states in which a task rests for good. -/
def settled : List TaskState := [.succeeded, .cancelled, .rejected]

/-- What is settled keeps its state. -/
theorem Lives.settled {record' : TaskRecord} (h : Lives c record record')
    (hsettled : record.state ∈ settled) : record'.state = record.state := by
  rcases h.state with heq | hallowed | ⟨_, hfailed, _⟩
  · exact heq
  · cases hstate : record.state <;>
      simp [hstate, TaskOrders.settled, TaskState.allowed] at hsettled hallowed
  · cases hstate : record.state <;> simp [hstate, TaskOrders.settled] at hsettled hfailed

end

/-! ### Answers -/

/-- The response of a success, as a reader would note it. -/
structure Answer where
  response : Json
  /-- When the success was written. -/
  time : Int
  /-- The checkpoints since then. -/
  checkpoints : Nat
  /-- The record had been acknowledged before. -/
  marked : Bool
  /-- No metadata set a field by which the success is told. -/
  plain : Bool

structure World where
  store : Store
  answers : Dict String Answer
  clock : Int

/-- No task yet. -/
def World.start (clock : Int) : World := ⟨.empty, .empty, clock⟩

/-- The answer of a record that has just succeeded. -/
def answered (time : Int) (before : Option TaskRecord) (metadata : Dict String Json)
    (response : Json) : Answer :=
  { response, time, checkpoints := 0
    marked := (before.bind (·.acknowledgedAt)).isSome
    plain := ["state", "at", "checkpoint"].all fun key => !metadata.keys.contains key }

/-- The answer after a checkpoint. -/
def Answer.checked (a : Answer) (metadata : Dict String Json) (response : Option Json) : Answer :=
  { a with
    response := response.getD a.response, checkpoints := a.checkpoints + 1
    plain := a.plain && !metadata.keys.contains "checkpoint" }

/-- The task has come to success. -/
def succeeds (before : Option TaskRecord) (after : TaskRecord) : Bool :=
  after.state = .succeeded && before.map (·.state) ≠ some .succeeded

/-- What a call that returned changes in the notes. -/
def note (time : Int) (answers : Dict String Answer) (before after : Store) :
    Call → Dict String Answer
  | .transition taskId _ metadata _ _ =>
      match after.get? taskId with
      | none => answers
      | some record =>
          if succeeds (before.get? taskId) record then
            match record.encryptedResponse with
            | none => answers.erase taskId
            | some response =>
                answers.set taskId (answered time (before.get? taskId) metadata response)
          else answers
  | .checkpoint taskId metadata response =>
      match answers.get? taskId with
      | none => answers
      | some a => answers.set taskId (a.checked metadata response)
  | .markAcknowledged taskId => answers.erase taskId
  | _ => answers

variable {p : Platform}

/-- One call, at a time of the clock. -/
def World.step (w : World) (env : Env p) (c : Call) : World :=
  { store := (call env w.store c).2
    answers :=
      match (call env w.store c).1 with
      | .ok _ => note env.now.time w.answers w.store (call env w.store c).2 c
      | .error _ => w.answers
    clock := env.now.time }

/-- Calls one after the other while the clock does not go back. -/
inductive Run (allowed : World → Env p → Call → Prop) (start : World) : World → Prop
  | refl : Run allowed start start
  | step {w : World} (h : Run allowed start w) (env : Env p) (c : Call)
      (hclock : w.clock ≤ env.now.time) (hallowed : allowed w env c) :
      Run allowed start (w.step env c)

/-- A purge finds the success of every answer that it could take too early. -/
def Timely (w : World) (env : Env p) : Call → Prop
  | .purgeExpiredResponses =>
      ∀ taskId a record, w.answers.get? taskId = some a → w.store.get? taskId = some record →
        env.now.time < a.time + grace → due p record env.now.time = true →
        a.checkpoints ≤ 62 ∧ a.marked = false ∧ a.plain = true ∧ a.response.truthy = true
  | _ => True

/-! ### How long an answer is held -/

/-- An item that tells of a success at a time. -/
structure TellsSuccess (p : Platform) (item : Json) (time : Int) : Prop where
  state : item.get? "state" = some (.str "succeeded")
  time : ∃ iso, item.get? "at" = some (.str iso) ∧ p.parseTime iso = some time
  checkpoint : tells item "checkpoint" = false

/-- The success is among the newest items, and only checkpoints follow. -/
def Recalls (p : Platform) (record : TaskRecord) (a : Answer) : Prop :=
  ∃ pre item post, record.history = pre ++ item :: post ∧ post.length = a.checkpoints ∧
    TellsSuccess p item a.time ∧ ∀ later ∈ post, tells later "checkpoint" = true

/-- The record holds the answer, and recalls its success for a while. -/
structure Holds (p : Platform) (record : TaskRecord) (a : Answer) : Prop where
  state : record.state = .succeeded
  response : record.encryptedResponse = some a.response
  acknowledged : a.marked = false → record.acknowledgedAt = none
  recalls : a.plain = true → a.checkpoints ≤ 62 → Recalls p record a

theorem TellsSuccess.tells {item : Json} {time : Int} (h : TellsSuccess p item time) :
    tells item "at" = true := by
  obtain ⟨iso, hat, hparse⟩ := h.time
  have hne : iso ≠ "" := by
    intro hempty
    rw [hempty, p.parseTime_empty] at hparse
    cases hparse
  simp [TaskOrders.tells, hat, Json.truthy, hne]

variable {a : Answer}

/-- The time of success is read from the history. -/
theorem Recalls.completedAt (h : Recalls p record a) :
    ∃ iso, completedAt record = some (.str iso) ∧ p.parseTime iso = some a.time := by
  obtain ⟨pre, item, post, hhistory, _, hsuccess, hlater⟩ := h
  obtain ⟨iso, hat, hparse⟩ := hsuccess.time
  refine ⟨iso, ?_, hparse⟩
  have hpost : post.reverse.find? (fun item =>
      item.get? "state" = some (.str "succeeded") && tells item "at" &&
        !tells item "checkpoint") = none := by
    rw [List.find?_eq_none]
    intro later hmem
    simp [hlater later (List.mem_reverse.mp hmem)]
  have hitem : (item.get? "state" = some (.str "succeeded") && tells item "at" &&
      !tells item "checkpoint") = true := by
    simp [hsuccess.state, hsuccess.tells, hsuccess.checkpoint]
  simp only [TaskOrders.completedAt, hhistory, List.reverse_append, List.reverse_cons,
    List.append_assoc, List.find?_append, hpost, Option.none_or, List.singleton_append,
    List.find?_cons, hitem, Option.bind_some, hat]

/-- **A recalled success is protected** for seven days. -/
theorem Holds.awaiting {now : Int} (h : Holds p record a) (hcheckpoints : a.checkpoints ≤ 62)
    (hmarked : a.marked = false) (hplain : a.plain = true) (htruthy : a.response.truthy = true)
    (hnow : now < a.time + grace) : awaitingArchive p record now = true := by
  obtain ⟨iso, hcompleted, hparse⟩ := (h.recalls hplain hcheckpoints).completedAt
  have hgrace : now - a.time < grace := by omega
  simp [awaitingArchive, h.state, h.acknowledged hmarked, h.response, htruthy, hcompleted,
    p.str_str, hparse, hgrace]

/-- The success event is not cut while few checkpoints follow it. -/
theorem Recalls.filed (h : Recalls p record a) (hcheckpoints : a.checkpoints ≤ 62) :
    Recalls p (filed record) a := by
  obtain ⟨pre, item, post, hhistory, hlen, hsuccess, hlater⟩ := h
  obtain ⟨pre', htrimmed⟩ := trimmed_near pre item (hlen ▸ hcheckpoints)
  refine ⟨pre', item, post, ?_, hlen, hsuccess, hlater⟩
  rw [TaskOrders.filed, hhistory, htrimmed]

theorem Holds.filed (h : Holds p record a) : Holds p (filed record) a where
  state := h.state
  response := h.response
  acknowledged := h.acknowledged
  recalls := fun hplain hcheckpoints => (h.recalls hplain hcheckpoints).filed hcheckpoints

variable {env : Env p}

theorem checkpointEvent_tells (h : "checkpoint" ∉ metadata.keys) :
    tells (checkpointEvent env record metadata) "checkpoint" = true := by
  rw [tells, checkpointEvent, get?_overlay _ h]
  simp [Json.truthy]

theorem transitionEvent_tells {recovery : Bool}
    (h : ["state", "at", "checkpoint"].all (fun key => !metadata.keys.contains key) = true) :
    TellsSuccess p (transitionEvent env .succeeded metadata recovery) env.now.time := by
  have hget : ∀ key ∈ ["state", "at", "checkpoint"],
      (transitionEvent env .succeeded metadata recovery).get? key =
        (Json.object [("state", .str "succeeded"), ("at", .str env.now.iso)]).get? key := by
    intro key hkey
    have hnot : key ∉ metadata.keys := by
      simpa using List.all_eq_true.mp h key hkey
    have hrecovered : key ≠ "recovered_after_reconnect" := by
      intro heq
      rw [heq] at hkey
      simp at hkey
    cases recovery with
    | false => exact get?_overlay _ hnot
    | true =>
      simp only [transitionEvent, if_true]
      rw [Json.get?_withField_ne _ _ hrecovered]
      exact get?_overlay _ hnot
  refine ⟨?_, ⟨env.now.iso, ?_, env.now.parses⟩, ?_⟩
  · rw [hget "state" (by simp)]
    simp
  · rw [hget "at" (by simp)]
    simp
  · rw [tells, hget "checkpoint" (by simp)]
    simp [Json.truthy]

/-- A checkpoint leaves the answer, or brings its own. -/
theorem Holds.checked (h : Holds p record a) (metadata : Dict String Json)
    (response : Option Json) :
    Holds p (checked env record (checkpointEvent env record metadata) response)
      (a.checked metadata response) where
  state := h.state
  response := by
    cases response with
    | none => simp [TaskOrders.checked, Answer.checked, h.response]
    | some r => simp [TaskOrders.checked, Answer.checked]
  acknowledged := h.acknowledged
  recalls := by
    intro hplain hcheckpoints
    simp only [Answer.checked, Bool.and_eq_true, Bool.not_eq_true', List.contains_eq_mem,
      decide_eq_false_iff_not] at hplain hcheckpoints
    obtain ⟨pre, item, post, hhistory, hlen, hsuccess, hlater⟩ :=
      h.recalls hplain.1 (by omega)
    refine ⟨pre, item, post ++ [checkpointEvent env record metadata], ?_, ?_, hsuccess, ?_⟩
    · simp [TaskOrders.checked, hhistory]
    · simp [Answer.checked, hlen]
    · intro later hmem
      rcases List.mem_append.mp hmem with hold | hnew
      · exact hlater later hold
      · rw [List.mem_singleton.mp hnew]
        exact checkpointEvent_tells hplain.2

/-- Success with an answer begins its week. -/
theorem holds_moved {r : Json} {recovery : Bool}
    (hresponse : response.or record.encryptedResponse = some r) :
    Holds p (moved env record .succeeded (transitionEvent env .succeeded metadata recovery)
        response) (answered env.now.time (some record) metadata r) where
  state := rfl
  response := hresponse
  acknowledged := by
    intro hmarked
    simpa [answered, moved] using hmarked
  recalls := by
    intro hplain _
    exact ⟨record.history, _, [], rfl, rfl, transitionEvent_tells hplain, by simp⟩

/-! ### Runs -/

/-- Every answer of the last seven days is held by the record of its task. -/
def Held (p : Platform) (store : Store) (answers : Dict String Answer) (now : Int) : Prop :=
  ∀ taskId a, answers.get? taskId = some a → now < a.time + grace →
    ∃ record, store.get? taskId = some record ∧ Holds p record a

section

variable {env : Env p} {store store' : Store} {answers : Dict String Answer} {now : Int}

theorem Held.later {now' : Int} (h : Held p store answers now) (hle : now ≤ now') :
    Held p store answers now' := by
  intro taskId a ha hnow
  exact h taskId a ha (by omega)

theorem Held.set (h : Held p store answers now) (hholds : Holds p record a) :
    Held p (store.set taskId record) (answers.set taskId a) now := by
  intro key b hb hnow
  by_cases hkey : key = taskId
  · rw [hkey, Dict.get?_set_self] at hb
    rw [hkey, Dict.get?_set_self, ← Option.some.inj hb]
    exact ⟨record, rfl, hholds⟩
  · rw [Dict.get?_set_ne _ _ hkey] at hb ⊢
    exact h key b hb hnow

theorem Held.set_record (h : Held p store answers now)
    (hnone : ∀ a, answers.get? taskId = some a → now < a.time + grace → False) :
    Held p (store.set taskId record) answers now := by
  intro key b hb hnow
  by_cases hkey : key = taskId
  · rw [hkey] at hb
    exact (hnone b hb hnow).elim
  · rw [Dict.get?_set_ne _ _ hkey]
    exact h key b hb hnow

theorem Held.erase (h : Held p store answers now) (taskId : String) :
    Held p store (answers.erase taskId) now := by
  exact fun key b hb hnow => h key b (Dict.of_get?_erase hb).2 hnow

/-- A transition keeps every answer that is due. -/
theorem Held.transition (hnamed : Named store) (h : Held p store answers now) {text : String}
    {allowRecovery : Bool}
    (hok : transition env store taskId text metadata response allowRecovery =
      .ok (returned, store')) :
    Held p store' (note env.now.time answers store store'
      (.transition taskId text metadata response allowRecovery)) now := by
  rcases transition_ok hok with heq | ⟨_, hnone, heq⟩ |
    ⟨record, state, hfound, hstate, hne, hmoves, heq⟩
  · -- a record that stays as it is has not just succeeded
    have hnote : note env.now.time answers store store'
        (.transition taskId text metadata response allowRecovery) = answers := by
      rw [heq]
      cases hrecord : store.get? taskId with
      | none => simp [note, hrecord]
      | some record => simp [note, hrecord, succeeds]
    rw [hnote, heq]
    exact h
  · have hnote : note env.now.time answers store store'
        (.transition taskId text metadata response allowRecovery) = answers := by
      simp [note, heq, succeeds, filed, started]
    rw [hnote, heq]
    refine h.set_record fun a ha hnow => ?_
    obtain ⟨before, hbefore, _⟩ := h taskId a ha hnow
    rw [hnone] at hbefore
    cases hbefore
  · rw [(hnamed taskId record hfound).1] at heq
    by_cases hsucceeded : state = .succeeded
    · subst hsucceeded
      have hsucceeds : succeeds (some record) (filed (moved env record .succeeded
          (transitionEvent env .succeeded metadata (recovers record .succeeded allowRecovery))
          response)) = true := by
        simp [succeeds, filed, moved, Ne.symm hne]
      cases hresponse : response.or record.encryptedResponse with
      | none =>
        have hnote : note env.now.time answers store store'
            (.transition taskId text metadata response allowRecovery) =
              answers.erase taskId := by
          simp only [note, heq, Dict.get?_set_self, hfound, hsucceeds, if_true]
          simp only [filed, moved, hresponse]
        rw [hnote, heq]
        refine (h.erase taskId).set_record fun a ha _ => ?_
        rw [Dict.get?_erase, if_pos rfl] at ha
        cases ha
      | some r =>
        have hnote : note env.now.time answers store store'
            (.transition taskId text metadata response allowRecovery) =
              answers.set taskId (answered env.now.time (some record) metadata r) := by
          simp only [note, heq, Dict.get?_set_self, hfound, hsucceeds, if_true]
          simp only [filed, moved, hresponse]
        rw [hnote, heq]
        exact h.set (holds_moved hresponse).filed
    · have hnote : note env.now.time answers store store'
          (.transition taskId text metadata response allowRecovery) = answers := by
        simp [note, heq, succeeds, filed, moved, hsucceeded]
      rw [hnote, heq]
      refine h.set_record fun a ha hnow => ?_
      obtain ⟨before, hbefore, hholds⟩ := h taskId a ha hnow
      rw [hfound, Option.some.injEq] at hbefore
      have hrests : record.state = .succeeded := by rw [hbefore, hholds.state]
      simp [recovers, hrests, TaskState.allowed] at hmoves

/-- A checkpoint keeps every answer that is due. -/
theorem Held.checkpoint (hnamed : Named store) (h : Held p store answers now)
    (hok : checkpoint env store taskId metadata response = .ok (returned, store')) :
    Held p store' (note env.now.time answers store store' (.checkpoint taskId metadata response))
      now := by
  obtain ⟨record, hfound, heq⟩ := checkpoint_ok hok
  rw [(hnamed taskId record hfound).1] at heq
  rw [heq]
  cases hanswer : answers.get? taskId with
  | none =>
    simp only [note, hanswer]
    refine h.set_record fun a ha _ => ?_
    rw [hanswer] at ha
    cases ha
  | some a =>
    simp only [note, hanswer]
    by_cases hnow : now < a.time + grace
    · obtain ⟨before, hbefore, hholds⟩ := h taskId a hanswer hnow
      rw [hfound, Option.some.injEq] at hbefore
      rw [hbefore]
      exact h.set (hholds.checked metadata response).filed
    intro key b hb hbefore
    by_cases hkey : key = taskId
    · rw [hkey, Dict.get?_set_self, Option.some.injEq] at hb
      rw [← hb] at hbefore
      exact absurd hbefore hnow
    · rw [Dict.get?_set_ne _ _ hkey] at hb ⊢
      exact h key b hb hbefore

theorem Held.markAcknowledged (hnamed : Named store) (h : Held p store answers now)
    (hok : markAcknowledged env store taskId = .ok (done, store')) :
    Held p store' (answers.erase taskId) now := by
  rcases markAcknowledged_ok hok with ⟨heq, _⟩ | ⟨record, hfound, heq⟩
  · rw [heq]
    exact h.erase taskId
  · rw [(hnamed taskId record hfound).1] at heq
    rw [heq]
    refine (h.erase taskId).set_record fun a ha _ => ?_
    rw [Dict.get?_erase, if_pos rfl] at ha
    cases ha

/-- A purge takes no answer before its time. -/
theorem Held.purge (now : Int) (hnamed : Named store) (h : Held p store answers env.now.time)
    (htimely : Timely ⟨store, answers, now⟩ env .purgeExpiredResponses) :
    Held p (purgeExpiredResponses env store).2 answers env.now.time := by
  intro taskId a ha hnow
  obtain ⟨record, hrecord, hholds⟩ := h taskId a ha hnow
  have htouched : Touched env taskId .purgeExpiredResponses (store.get? taskId)
      ((purgeExpiredResponses env store).2.get? taskId) := purgeFrom_touches _ _ hnamed taskId
  rw [hrecord] at htouched
  cases hafter : (purgeExpiredResponses env store).2.get? taskId with
  | none =>
    rw [hafter] at htouched
    cases htouched
  | some record' =>
    rw [hafter] at htouched
    refine ⟨record', rfl, ?_⟩
    cases htouched with
    | kept _ _ => exact hholds
    | purged _ _ hawaiting hdue =>
      obtain ⟨hcheckpoints, hmarked, hplain, htruthy⟩ :=
        htimely taskId a record ha hrecord hnow hdue
      rw [hholds.awaiting hcheckpoints hmarked hplain htruthy hnow] at hawaiting
      cases hawaiting

end

/-- What holds of a store between two calls. -/
structure Sound (p : Platform) (w : World) : Prop where
  named : Named w.store
  held : Held p w.store w.answers w.clock

variable {w : World}

theorem step_named (h : Named w.store) (env : Env p) (c : Call) : Named (w.step env c).store :=
  h.touched (call_touches env h c)

/-- One call keeps the invariant; the cases are the calls. -/
theorem Sound.step (h : Sound p w) (hclock : w.clock ≤ env.now.time) (htimely : Timely w env c) :
    Sound p (w.step env c) := by
  refine ⟨step_named h.named env c, ?_⟩
  have hheld : Held p w.store w.answers env.now.time := h.held.later hclock
  cases c with
  | claim taskId bindings =>
    have hkept : Held p (call env w.store (.claim taskId bindings)).2 w.answers
        env.now.time := by
      intro key a ha hnow
      obtain ⟨record, hrecord, hholds⟩ := hheld key a ha hnow
      have htouched := call_touches env h.named (.claim taskId bindings) key
      rw [hrecord] at htouched
      cases hafter : (call env w.store (.claim taskId bindings)).2.get? key with
      | none =>
        rw [hafter] at htouched
        cases htouched
      | some record' =>
        rw [hafter] at htouched
        cases htouched with
        | kept _ _ => exact ⟨record, rfl, hholds⟩
    simp only [World.step, note]
    split <;> exact hkept
  | transition taskId text metadata response allowRecovery =>
    cases hok : transition env w.store taskId text metadata response allowRecovery with
    | error failure => simpa only [World.step, call, hok, commit] using hheld
    | ok out =>
      simpa only [World.step, call, hok, commit] using hheld.transition h.named hok
  | checkpoint taskId metadata response =>
    cases hok : checkpoint env w.store taskId metadata response with
    | error failure => simpa only [World.step, call, hok, commit] using hheld
    | ok out =>
      simpa only [World.step, call, hok, commit] using hheld.checkpoint h.named hok
  | markAcknowledged taskId =>
    cases hok : markAcknowledged env w.store taskId with
    | error failure => simpa only [World.step, call, hok, commit] using hheld
    | ok out =>
      simpa only [World.step, call, hok, commit, note] using
        hheld.markAcknowledged h.named hok
  | purgeExpiredResponses =>
    have hkept := hheld.purge w.clock h.named htimely
    simp only [World.step, call, note]
    split <;> exact hkept
  | get taskId =>
    cases hok : get w.store taskId with
    | error failure => simpa only [World.step, call, hok, Except.map, commit] using hheld
    | ok found => simpa only [World.step, call, hok, Except.map, commit, note] using hheld

/-- The invariant holds in every run. -/
theorem Run.sound {start : Int} (h : Run (p := p) Timely (.start start) w) : Sound p w := by
  induction h with
  | refl =>
    refine ⟨?_, ?_⟩
    · intro taskId record hrecord
      cases hrecord
    · intro taskId a ha
      cases ha
  | step _ env c hclock htimely ih => exact ih.step hclock htimely

section

variable {allowed : World → Env p → Call → Prop} {w w' : World}

theorem Run.named (h : Run allowed w w') (hnamed : Named w.store) : Named w'.store := by
  induction h with
  | refl => exact hnamed
  | step _ env c _ _ ih => exact step_named ih env c

theorem start_named (start : Int) : Named (World.start start).store := by
  intro taskId record hrecord
  cases hrecord

/-- What stays of a record over a whole run. -/
structure Outlives (record record' : TaskRecord) : Prop where
  bindings : record'.bindings = record.bindings
  createdAt : record'.createdAt = record.createdAt
  settled : record.state ∈ settled → record'.state = record.state

theorem Lives.outlives {before after : TaskRecord} (h : Outlives record before)
    (hstep : Lives c before after) : Outlives record after where
  bindings := hstep.bindings.trans h.bindings
  createdAt := hstep.createdAt.trans h.createdAt
  settled := by
    intro hsettled
    have hbefore := h.settled hsettled
    rw [hstep.settled (by rw [hbefore]; exact hsettled), hbefore]

/-- **A record outlives every run.** -/
theorem Run.outlives (h : Run allowed w w') (hnamed : Named w.store)
    (hrecord : w.store.get? taskId = some record) :
    ∃ record', w'.store.get? taskId = some record' ∧ Outlives record record' := by
  induction h with
  | refl => exact ⟨record, hrecord, rfl, rfl, fun _ => rfl⟩
  | step hrun env c _ _ ih =>
    obtain ⟨before, hbefore, houtlives⟩ := ih
    have htouched := call_touches env (hrun.named hnamed) c taskId
    rw [hbefore] at htouched
    obtain ⟨after, hafter, hlives⟩ := htouched.lives
    exact ⟨after, hafter, hlives.outlives houtlives⟩

end

theorem sameBindings_iff {a b : Dict String String} :
    SameBindings a b ↔ ∀ k, a.get? k = b.get? k := by
  constructor
  · intro h k
    by_cases ha : k ∈ a.keys
    · exact h.1 k ha
    · by_cases hb : k ∈ b.keys
      · exact h.2 k hb
      · rw [Dict.get?_eq_none_iff.mpr ha, Dict.get?_eq_none_iff.mpr hb]
  · intro h
    exact ⟨fun k _ => h k, fun k _ => h k⟩

/-- The record of a claim has its bindings. -/
theorem claim_binds {store store' : Store} {c : TaskRecord × Bool}
    (h : claim env store taskId bindings = .ok (c, store')) :
    ∃ record, store'.get? taskId = some record ∧
      SameBindings (record.bindings.getD .empty) bindings := by
  rcases claim_ok h with ⟨heq, _, hfound, hsame⟩ | ⟨_, _, _, heq⟩
  · exact ⟨c.1, by rw [heq, hfound], hsame⟩
  · refine ⟨filed (claimed env taskId bindings), by rw [heq, Dict.get?_set_self], ?_⟩
    exact sameBindings_iff.mpr fun _ => rfl

theorem claim_existing {store : Store} {outcome : Outcome}
    (hrecord : store.get? taskId = some record)
    (h : (call env store (.claim taskId bindings)).1 = .ok outcome) :
    SameBindings (record.bindings.getD .empty) bindings ∧ outcome = .claimed record false ∧
      (call env store (.claim taskId bindings)).2 = store := by
  cases hok : claim env store taskId bindings with
  | error failure =>
    simp only [call, hok, commit] at h
    cases h
  | ok out =>
    rcases claim_ok hok with ⟨heq, hfresh, hfound, hsame⟩ | ⟨_, hnone, _, _⟩
    · rw [hrecord, Option.some.injEq] at hfound
      simp only [call, hok, commit, Except.ok.injEq] at h ⊢
      rw [← h, hfresh, hfound]
      exact ⟨hsame, rfl, heq⟩
    · rw [hrecord] at hnone
      cases hnone

/-- The calls of a run are any. -/
def Always (_ : World) (_ : Env p) (_ : Call) : Prop := True

/-- **Order records keep their lifecycle and their paid answer**: a state moves
as the table says, a claim never resets a record, and a timely purge leaves the
response of a success for seven days. -/
theorem orders_keep_answers (start : Int) :
    (∀ (w : World) (env : Env p) (c : Call), Run (p := p) Always (.start start) w →
      w.clock ≤ env.now.time →
      ∀ taskId record, w.store.get? taskId = some record →
        ∃ record', (w.step env c).store.get? taskId = some record' ∧ Lives c record record') ∧
    (∀ w w' : World, Run (p := p) Always (.start start) w → Run (p := p) Always w w' →
      ∀ taskId record, w.store.get? taskId = some record →
        ∃ record', w'.store.get? taskId = some record' ∧ Outlives record record') ∧
    (∀ (w w' : World) (env env' : Env p) (taskId : String) (bindings bindings' : Dict String String)
        (first second : Outcome), Run (p := p) Always (.start start) w →
      w.clock ≤ env.now.time → (call env w.store (.claim taskId bindings)).1 = .ok first →
      Run (p := p) Always (w.step env (.claim taskId bindings)) w' → w'.clock ≤ env'.now.time →
      (call env' w'.store (.claim taskId bindings')).1 = .ok second →
        (∀ k, bindings.get? k = bindings'.get? k) ∧
        (call env' w'.store (.claim taskId bindings')).2 = w'.store ∧
        ∃ record, w'.store.get? taskId = some record ∧ second = .claimed record false) ∧
    (∀ (w : World) (env : Env p), Run (p := p) Timely (.start start) w →
      w.clock ≤ env.now.time →
      ∀ taskId a, w.answers.get? taskId = some a → env.now.time < a.time + grace →
        ∃ record, call env w.store (.get taskId) = (.ok (.found (some record)), w.store) ∧
          record.encryptedResponse = some a.response) := by
  refine ⟨?_, ?_, ?_, ?_⟩
  · intro w env c hrun _ taskId record hrecord
    have htouched := call_touches env (hrun.named (start_named start)) c taskId
    rw [hrecord] at htouched
    exact htouched.lives
  · intro w w' hrun hlater taskId record hrecord
    exact hlater.outlives (hrun.named (start_named start)) hrecord
  · intro w w' env env' taskId bindings bindings' first second hrun _ hfirst hlater _ hsecond
    have hnamed := hrun.named (start_named start)
    cases hok : claim env w.store taskId bindings with
    | error failure =>
      simp only [call, hok, commit] at hfirst
      cases hfirst
    | ok out =>
      obtain ⟨record, hrecord, hsame⟩ := claim_binds hok
      have hstep : (w.step env (.claim taskId bindings)).store.get? taskId = some record := by
        simpa only [World.step, call, hok, commit] using hrecord
      obtain ⟨record', hrecord', houtlives⟩ :=
        hlater.outlives (step_named hnamed env _) hstep
      obtain ⟨hsame', hreturned, hstore⟩ := claim_existing hrecord' hsecond
      rw [houtlives.bindings] at hsame'
      refine ⟨fun k => ?_, hstore, record', hrecord', hreturned⟩
      rw [← sameBindings_iff.mp hsame k, sameBindings_iff.mp hsame' k]
  · intro w env hrun hclock taskId a ha hnow
    obtain ⟨record, hrecord, hholds⟩ := hrun.sound.held.later hclock taskId a ha hnow
    have hvalid := (hrun.sound.named taskId record hrecord).2
    have hget : get w.store taskId = .ok (some record) := get_ok.mpr ⟨hvalid, hrecord⟩
    exact ⟨record, by rw [call, hget]; rfl, hholds.response⟩

/-! ### A success that its record forgets -/

theorem fieldsSize_setField (indent : Nat) (k : String) (v : Json) (l : List (String × Json)) :
    fieldsSize indent (Json.setField k v l) ≤
      2 + indent + fieldSize indent (k, v) + fieldsSize indent l := by
  induction l with
  | nil => simp [Json.setField, fieldsSize]
  | cons f rest ih =>
    obtain ⟨k', v'⟩ := f
    unfold Json.setField
    split
    · simp [fieldsSize]
    · split
      · simp [fieldsSize]
      · simp only [fieldsSize]
        omega

theorem dumpsSize_object_le (indent : Nat) (fields : List (String × Json)) :
    dumpsSize indent (.object fields) ≤ fieldsSize (indent + 2) fields + indent + 2 := by
  have hfold : fieldsSize (indent + 2)
      (fields.foldr (fun f acc => Json.setField f.1 f.2 acc) []) ≤
        fieldsSize (indent + 2) fields := by
    induction fields with
    | nil => simp
    | cons f rest ih =>
      obtain ⟨k, v⟩ := f
      have hset := fieldsSize_setField (indent + 2) k v
        (rest.foldr (fun f acc => Json.setField f.1 f.2 acc) [])
      simp only [List.foldr_cons, fieldsSize]
      omega
  unfold Json.object
  cases hsorted : fields.foldr (fun f acc => Json.setField f.1 f.2 acc) [] with
  | nil =>
    simp only [dumpsSize]
    omega
  | cons first rest =>
    rw [hsorted] at hfold
    simp only [dumpsSize]
    omega

theorem itemsSize_le {indent bound : Nat} {items : List Json}
    (h : ∀ item ∈ items, dumpsSize indent item ≤ bound) :
    itemsSize indent items ≤ items.length * (2 + indent + bound) := by
  induction items with
  | nil => simp [itemsSize]
  | cons item rest ih =>
    have hitem := h item (.head _)
    have hrest := ih fun other hmem => h other (.tail _ hmem)
    simp only [itemsSize, List.length_cons, Nat.succ_mul]
    omega

theorem json_size_le (record : TaskRecord) :
    dumpsSize 0 record.json ≤
      fieldsSize 2 { record with history := [] }.fields + itemsSize 4 record.history + 6 := by
  have hobject : dumpsSize 0 (.object record.fields) ≤ fieldsSize 2 record.fields + 0 + 2 :=
    dumpsSize_object_le 0 record.fields
  have hfields : fieldsSize 2 record.fields ≤
      fieldsSize 2 { record with history := [] }.fields + itemsSize 4 record.history + 4 := by
    simp only [TaskRecord.fields, List.cons_append, List.nil_append, fieldsSize, fieldSize]
    cases record.history with
    | nil => omega
    | cons first rest =>
      simp only [dumpsSize, Nat.reduceAdd]
      omega
  rw [TaskRecord.json]
  omega

/-- One event more pushes out what is between the first and the newest 63. -/
theorem trimmed_pushes (first item : Json) {middle : List Json} {n : Nat}
    (hlen : middle.length + n ≤ 63) (hn : n < 63) :
    ∃ middle', middle'.length + (n + 1) ≤ 63 ∧ (∀ m ∈ middle', m ∈ middle) ∧
      trimmed (first :: (middle ++ List.replicate n item) ++ [item]) =
        first :: (middle' ++ List.replicate (n + 1) item) := by
  have hpush : first :: (middle ++ List.replicate n item) ++ [item] =
      first :: (middle ++ List.replicate (n + 1) item) := by
    rw [List.replicate_succ']
    simp
  have hlength : (first :: (middle ++ List.replicate (n + 1) item)).length =
      middle.length + n + 2 := by
    simp only [List.length_cons, List.length_append, List.length_replicate]
    omega
  rw [hpush]
  by_cases hfull : middle.length + n = 63
  · refine ⟨middle.drop 1, ?_, fun m hm => List.mem_of_mem_drop hm, ?_⟩
    · rw [List.length_drop]
      omega
    · have hdrop : (first :: (middle ++ List.replicate (n + 1) item)).drop 2 =
          middle.drop 1 ++ List.replicate (n + 1) item := by
        rw [List.drop_succ_cons, List.drop_append_of_le_length (by omega)]
      have hlong : 64 < (first :: (middle ++ List.replicate (n + 1) item)).length := by omega
      have htwo : (first :: (middle ++ List.replicate (n + 1) item)).length - 63 = 2 := by omega
      simp only [trimmed, if_pos hlong, htwo, hdrop]
  · refine ⟨middle, by omega, fun m hm => hm, ?_⟩
    have hshort : ¬ 64 < (first :: (middle ++ List.replicate (n + 1) item)).length := by omega
    simp only [trimmed, if_neg hshort]

/-- The times that are read and written below. -/
def sampleTimes : List (String × Int) :=
  [("2026-01-01T00:00:00+00:00", 1767225600000000),
    ("2026-01-01T00:01:00+00:00", 1767225660000000)]

def samplePlatform : Platform where
  parseTime text := (sampleTimes.find? (·.1 = text)).map (·.2)
  overflows _ := false
  str value := value.asStr?.getD ""
  parseTime_empty := by decide
  str_str _ := rfl

def sampleEnv : Env samplePlatform where
  now := ⟨1767225600000000, "2026-01-01T00:00:00+00:00", by decide⟩
  refuses _ := none

def minuteLater : Env samplePlatform where
  now := ⟨1767225660000000, "2026-01-01T00:01:00+00:00", by decide⟩
  refuses _ := none

/-- A task that succeeds with a response. -/
def sampleCalls : List Call :=
  [.claim "task" (Dict.empty.set "service_id" "service"),
    .transition "task" "accepted" .empty none false,
    .transition "task" "running" .empty none false,
    .transition "task" "succeeded" .empty
      (some (.object [("ciphertext", .str "c2VhbGVk")])) false]

/-- A checkpoint that tells when the response expires. -/
def expiryMetadata : Dict String Json :=
  Dict.empty.set "response_expires_at" (.str "2026-01-01T00:01:00+00:00")

/-- What a checkpoint adds to the record of a success. -/
def expiryEvent : Json :=
  overlay
    (.object [("state", .str "succeeded"), ("at", .str sampleEnv.now.iso),
      ("checkpoint", .bool true)]) expiryMetadata

theorem expiryEvent_facts :
    dumpsSize 4 expiryEvent ≤ 1000 ∧ (∀ key ∈ expiryEvent.keys, key ∉ forbidden) ∧
      tells expiryEvent "checkpoint" = true ∧
      expiryEvent.get? "response_expires_at" = some (.str minuteLater.now.iso) := by
  decide +kernel

theorem single_store {store : Store} (hkeys : store.entries.map Prod.fst = [taskId])
    (hrecord : store.get? taskId = some record) : store = Dict.empty.set taskId record := by
  obtain ⟨entries, hnodup⟩ := store
  match entries with
  | [] => simp at hkeys
  | [(key, value)] =>
    simp only [List.map_cons, List.map_nil, List.cons.injEq, and_true] at hkeys
    have hvalue : value = record := by
      simpa [Dict.get?, Dict.lookup, hkeys] using hrecord
    subst hkeys hvalue
    rfl
  | _ :: _ :: _ => simp at hkeys

theorem single_set (taskId : String) (record record' : TaskRecord) :
    ((Dict.empty : Store).set taskId record).set taskId record' =
      Dict.empty.set taskId record' := by
  refine single_store ?_ (Dict.get?_set_self _ _ _)
  simp [Dict.set, Dict.assign, Dict.empty]

theorem Run.foldl {allowed : World → Env p → Call → Prop} {start : World} {calls : List Call}
    (h : Run allowed start w) (hclock : w.clock ≤ env.now.time)
    (hallowed : ∀ w, ∀ c ∈ calls, allowed w env c) :
    Run allowed start (calls.foldl (fun w c => w.step env c) w) := by
  induction calls generalizing w with
  | nil => exact h
  | cons c rest ih =>
    exact ih (.step h env c hclock (hallowed w c (.head _))) (le_refl _)
      fun w c hc => hallowed w c (.tail _ hc)

theorem small_size (hlen : record.history.length ≤ 64)
    (hitems : ∀ item ∈ record.history, dumpsSize 4 item ≤ 1000)
    (hrest : fieldsSize 2 { record with history := [] }.fields ≤ 1000) :
    dumpsSize 0 record.json ≤ maxRecordBytes := by
  have hsize := json_size_le record
  have hhistory : itemsSize 4 record.history ≤ record.history.length * (2 + 4 + 1000) :=
    itemsSize_le hitems
  unfold maxRecordBytes
  omega

/-- The record with another history. -/
def TaskRecord.holding (record : TaskRecord) (history : List Json) : TaskRecord :=
  { record with updatedAt := sampleEnv.now.iso, history }

/-- A short record of a success, with the first item of its history. -/
structure Brief (record : TaskRecord) (first : Json) : Prop where
  taskId : record.taskId = "task"
  state : record.state = .succeeded
  response : record.encryptedResponse.isSome = true
  created : first.get? "state" = some (.str "created")
  first : dumpsSize 4 first ≤ 1000
  rest : fieldsSize 2 (record.holding []).fields ≤ 1000
  purged : fieldsSize 2 (purged minuteLater (record.holding [])).fields ≤ 1000

section

variable {record : TaskRecord} {first : Json}

theorem task_valid : validId "task" = true := by decide +kernel

theorem Brief.checkpoint (h : Brief record first) (history : List Json)
    (hlen : (trimmed (history ++ [expiryEvent])).length ≤ 64)
    (hitems : ∀ item ∈ trimmed (history ++ [expiryEvent]), dumpsSize 4 item ≤ 1000) :
    checkpoint sampleEnv (Dict.empty.set "task" (record.holding history)) "task" expiryMetadata
        none =
      .ok (record.holding (history ++ [expiryEvent]),
        Dict.empty.set "task" (record.holding (trimmed (history ++ [expiryEvent])))) := by
  have hget : get (Dict.empty.set "task" (record.holding history)) "task" =
      .ok (some (record.holding history)) := get_ok.mpr ⟨task_valid, Dict.get?_set_self _ _ _⟩
  have htask : (record.holding (history ++ [expiryEvent])).taskId = "task" := h.taskId
  have hwrite : write sampleEnv (Dict.empty.set "task" (record.holding history))
      (record.holding (history ++ [expiryEvent])) =
        .ok (Dict.empty.set "task" (record.holding (trimmed (history ++ [expiryEvent])))) := by
    have hsize : dumpsSize 0 (filed (record.holding (history ++ [expiryEvent]))).json ≤
        maxRecordBytes := small_size hlen hitems h.rest
    have hvalid : validId (record.holding (history ++ [expiryEvent])).taskId = true := by
      rw [htask]
      exact task_valid
    rw [write_of hvalid hsize rfl, htask]
    exact congrArg Except.ok (single_set _ _ _)
  have hevent : checkpointEvent sampleEnv (record.holding history) expiryMetadata =
      expiryEvent := by
    have hstate : (record.holding history).state = .succeeded := h.state
    rw [checkpointEvent, hstate]
    rfl
  have hchecked : checked sampleEnv (record.holding history) expiryEvent none =
      record.holding (history ++ [expiryEvent]) := rfl
  simp only [TaskOrders.checkpoint, hget, ok_bind, demand_some, hevent]
  simp only [ok_bind, hchecked, hwrite]
  rfl

/-- The sample after so many checkpoints. -/
structure Pushed (record : TaskRecord) (first : Json) (n : Nat) (w : World) : Prop where
  run : Run (p := samplePlatform) Always (.start 0) w
  clock : w.clock = sampleEnv.now.time
  store : ∃ middle, middle.length + n ≤ 63 ∧ (∀ item ∈ middle, dumpsSize 4 item ≤ 1000) ∧
    w.store = Dict.empty.set "task"
      (record.holding (first :: (middle ++ List.replicate n expiryEvent)))
  answer : ∃ a, w.answers.get? "task" = some a ∧ a.time = sampleEnv.now.time

/-- One more checkpoint. -/
theorem Pushed.next (hbrief : Brief record first) {n : Nat} (h : Pushed record first n w)
    (hn : n < 63) :
    Pushed record first (n + 1) (w.step sampleEnv (.checkpoint "task" expiryMetadata none)) := by
  obtain ⟨middle, hlen, hitems, hstore⟩ := h.store
  obtain ⟨middle', hlen', hmem, htrimmed⟩ := trimmed_pushes first expiryEvent hlen hn
  have hsmall : ∀ item ∈ first :: (middle' ++ List.replicate (n + 1) expiryEvent),
      dumpsSize 4 item ≤ 1000 := by
    intro item hitem
    rcases List.mem_cons.mp hitem with heq | hrest
    · rw [heq]
      exact hbrief.first
    · rcases List.mem_append.mp hrest with hmiddle | hevent
      · exact hitems item (hmem item hmiddle)
      · rw [(List.mem_replicate.mp hevent).2]
        exact expiryEvent_facts.1
  have hok := hbrief.checkpoint (first :: (middle ++ List.replicate n expiryEvent))
    (by
      rw [htrimmed]
      simp only [List.length_cons, List.length_append, List.length_replicate]
      omega)
    (by rw [htrimmed]; exact hsmall)
  rw [← hstore, htrimmed] at hok
  obtain ⟨a, ha, htime⟩ := h.answer
  refine ⟨.step h.run sampleEnv _ (le_of_eq h.clock) trivial, rfl, ⟨middle', hlen', ?_, ?_⟩, ?_⟩
  · exact fun item hitem => hitems item (hmem item hitem)
  · simp only [World.step, call, hok, commit]
  · refine ⟨a.checked expiryMetadata none, ?_, htime⟩
    simp only [World.step, call, hok, commit, note, ha, Dict.get?_set_self]

theorem Pushed.more (hbrief : Brief record first) (h : Pushed record first 0 w) (n : Nat)
    (hn : n ≤ 63) : ∃ w', Pushed record first n w' := by
  induction n with
  | zero => exact ⟨w, h⟩
  | succ n ih =>
    obtain ⟨w', hw'⟩ := ih (by omega)
    exact ⟨_, hw'.next hbrief (by omega)⟩

/-- Sixty-three checkpoints leave nothing else but the first item. -/
theorem Pushed.full (h : Pushed record first 63 w) :
    w.store = Dict.empty.set "task"
      (record.holding (first :: List.replicate 63 expiryEvent)) := by
  obtain ⟨middle, hlen, _, hstore⟩ := h.store
  have hempty : middle = [] := List.eq_nil_of_length_eq_zero (by omega)
  rw [hstore, hempty, List.nil_append]

/-- The success is not found any more. -/
theorem Brief.forgets (h : Brief record first) (time : Int) :
    awaitingArchive samplePlatform
      (record.holding (first :: List.replicate 63 expiryEvent)) time = false := by
  have hcompleted :
      completedAt (record.holding (first :: List.replicate 63 expiryEvent)) = none := by
    rw [completedAt, List.find?_eq_none.mpr, Option.bind_none]
    intro item hitem
    rcases List.mem_cons.mp (List.mem_reverse.mp hitem) with heq | hevent
    · rw [heq]
      intro hsuccess
      simp only [Bool.and_eq_true, decide_eq_true_eq, h.created] at hsuccess
      simp at hsuccess
    · simp [(List.mem_replicate.mp hevent).2, expiryEvent_facts.2.2.1]
  simp only [awaitingArchive, hcompleted]
  split_ifs <;> rfl

theorem holding_due :
    due samplePlatform (record.holding (first :: List.replicate 63 expiryEvent))
      minuteLater.now.time = true := by
  have htells : tells expiryEvent "response_expires_at" = true := by
    simp [tells, expiryEvent_facts.2.2.2, Json.truthy, minuteLater]
  have hreverse : (first :: List.replicate 63 expiryEvent).reverse =
      expiryEvent :: (List.replicate 62 expiryEvent ++ [first]) := by
    rw [List.reverse_cons, List.reverse_replicate, List.replicate_succ, List.cons_append]
  have hexpires : responseExpiresAt
      (record.holding (first :: List.replicate 63 expiryEvent)) =
        some (.str minuteLater.now.iso) := by
    simp only [responseExpiresAt, TaskRecord.holding, hreverse, List.find?_cons, htells,
      Option.bind_some, expiryEvent_facts.2.2.2]
  simp only [due, hexpires]
  decide

theorem Brief.purge (h : Brief record first) :
    (purgeExpiredResponses minuteLater (Dict.empty.set "task"
      (record.holding (first :: List.replicate 63 expiryEvent)))).2.get? "task" =
        some (filed (TaskOrders.purged minuteLater
          (record.holding (first :: List.replicate 63 expiryEvent)))) := by
  have hawaiting := h.forgets minuteLater.now.time
  have hdue : due samplePlatform (record.holding (first :: List.replicate 63 expiryEvent))
      minuteLater.now.time = true := holding_due
  generalize hhistory : first :: List.replicate 63 expiryEvent = history at *
  have hlength : history.length = 64 := by
    rw [← hhistory, List.length_cons, List.length_replicate]
  have hitems : ∀ item ∈ history, dumpsSize 4 item ≤ 1000 := by
    intro item hitem
    rw [← hhistory] at hitem
    rcases List.mem_cons.mp hitem with heq | hevent
    · rw [heq]
      exact h.first
    · rw [(List.mem_replicate.mp hevent).2]
      exact expiryEvent_facts.1
  have htrimmed : trimmed history = history := by
    rw [← hhistory] at hlength ⊢
    rw [trimmed, if_neg (by omega)]
  have hget : get (Dict.empty.set "task" (record.holding history)) "task" =
      .ok (some (record.holding history)) := get_ok.mpr ⟨task_valid, Dict.get?_set_self _ _ _⟩
  have hsize : dumpsSize 0 (filed (TaskOrders.purged minuteLater
      (record.holding history))).json ≤ maxRecordBytes := by
    refine small_size ?_ ?_ h.purged
    · exact le_of_eq ((congrArg List.length htrimmed).trans hlength)
    · intro item hitem
      exact hitems item (htrimmed ▸ hitem)
  have hname : (record.holding history).taskId = "task" := h.taskId
  have hpurged : (TaskOrders.purged minuteLater (record.holding history)).taskId = "task" :=
    h.taskId
  have hvalid :
      validId (TaskOrders.purged minuteLater (record.holding history)).taskId = true := by
    rw [hpurged]
    exact task_valid
  have hwrite : write minuteLater (Dict.empty.set "task" (record.holding history))
      (TaskOrders.purged minuteLater (record.holding history)) =
        .ok ((Dict.empty.set "task" (record.holding history)).set "task"
          (filed (TaskOrders.purged minuteLater (record.holding history)))) := by
    rw [write_of hvalid hsize rfl, hpurged]
  have hsome : (record.holding history).encryptedResponse.isNone = false := by
    rw [← Option.not_isSome, Bool.not_eq_false']
    exact h.response
  have hone : purgeOne minuteLater (Dict.empty.set "task" (record.holding history)) "task" =
      .ok (true, (Dict.empty.set "task" (record.holding history)).set "task"
        (filed (TaskOrders.purged minuteLater (record.holding history)))) := by
    have hin : ∀ value : Option Json,
        (value.any fun v => samplePlatform.overflows (samplePlatform.str v)) = false :=
      fun value => by cases value <;> rfl
    simp only [purgeOne, hget, ok_bind, archiveRaises, expiryRaises, hin, Bool.and_false,
      require_of trivial, hawaiting, hdue, if_true, if_false, hname, purgeEncryptedResponse, hsome,
      hwrite, Except.map, Bool.false_eq_true]
  have hfiles : files (Dict.empty.set "task" (record.holding history)) = ["task"] := rfl
  simp only [purgeExpiredResponses, hfiles, purgeFrom, hone, Dict.get?_set_self]

end

/-- The task after its success. -/
def sampleWorld : World := sampleCalls.foldl (fun w c => w.step sampleEnv c) (.start 0)

def sampleRecord : TaskRecord :=
  (sampleWorld.store.get? "task").getD (claimed sampleEnv "task" .empty)

theorem sample_facts :
    Brief sampleRecord (sampleRecord.history.headD .null) ∧
      sampleRecord.updatedAt = sampleEnv.now.iso ∧ sampleRecord.history.length = 4 ∧
      (∀ item ∈ sampleRecord.history, dumpsSize 4 item ≤ 1000) ∧
      sampleWorld.store.entries.map Prod.fst = ["task"] ∧
      (sampleWorld.answers.get? "task").map (·.time) = some sampleEnv.now.time ∧
      sampleWorld.clock = sampleEnv.now.time := by
  have hfacts : (sampleRecord.taskId = "task" ∧ sampleRecord.state = .succeeded ∧
      sampleRecord.encryptedResponse.isSome = true ∧
      (sampleRecord.history.headD .null).get? "state" = some (.str "created") ∧
      dumpsSize 4 (sampleRecord.history.headD .null) ≤ 1000 ∧
      fieldsSize 2 (sampleRecord.holding []).fields ≤ 1000 ∧
      fieldsSize 2 (purged minuteLater (sampleRecord.holding [])).fields ≤ 1000) ∧
      sampleRecord.updatedAt = sampleEnv.now.iso ∧ sampleRecord.history.length = 4 ∧
      (∀ item ∈ sampleRecord.history, dumpsSize 4 item ≤ 1000) ∧
      sampleWorld.store.entries.map Prod.fst = ["task"] ∧
      (sampleWorld.answers.get? "task").map (·.time) = some sampleEnv.now.time ∧
      sampleWorld.clock = sampleEnv.now.time := by
    decide +kernel
  obtain ⟨⟨htask, hstate, hresponse, hcreated, hfirst, hrest, hpurged⟩, hothers⟩ := hfacts
  exact ⟨⟨htask, hstate, hresponse, hcreated, hfirst, hrest, hpurged⟩, hothers⟩

theorem sample_pushed :
    Pushed sampleRecord (sampleRecord.history.headD .null) 0 sampleWorld := by
  obtain ⟨_, hupdated, hlength, hitems, hkeys, hanswer, hclock⟩ := sample_facts
  have hrun : Run (p := samplePlatform) Always (.start 0) sampleWorld :=
    Run.foldl .refl (by decide) fun _ _ _ => trivial
  have hsome : sampleWorld.store.get? "task" = some sampleRecord := by
    cases hget : sampleWorld.store.get? "task" with
    | some record => simp [sampleRecord, hget]
    | none =>
      have hnot := Dict.get?_eq_none_iff.mp hget
      rw [Dict.keys, hkeys] at hnot
      simp at hnot
  have hstore := single_store hkeys hsome
  generalize sampleRecord = record at *
  refine ⟨hrun, hclock, ?_, Option.map_eq_some_iff.mp hanswer⟩
  obtain ⟨taskId, state, bindings, createdAt, updatedAt, history, response, acknowledged,
    purgedAt⟩ := record
  subst hupdated
  cases history with
  | nil => cases hlength
  | cons first middle =>
    refine ⟨middle, ?_, fun item hitem => hitems item (.tail _ hitem), ?_⟩
    · rw [List.length_cons] at hlength
      omega
    · rw [List.replicate_zero, List.append_nil, hstore]
      rfl

theorem orders_keep_answers_sample :
    ∃ a, sampleWorld.answers.get? "task" = some a ∧
      (∀ taskId record, sampleWorld.store.get? taskId = some record →
        ∃ record', (sampleWorld.step minuteLater .purgeExpiredResponses).store.get? taskId =
          some record' ∧ Lives .purgeExpiredResponses record record') ∧
      ∃ record, call minuteLater sampleWorld.store (.get "task") =
          (.ok (.found (some record)), sampleWorld.store) ∧
        record.encryptedResponse = some a.response := by
  obtain ⟨a, ha, htime⟩ := sample_pushed.answer
  have hclock : sampleWorld.clock ≤ minuteLater.now.time := by
    decide
  have htimely : Run (p := samplePlatform) Timely (.start 0) sampleWorld := by
    refine Run.foldl .refl (by decide) fun w c hc => ?_
    simp only [sampleCalls, List.mem_cons, List.not_mem_nil, or_false] at hc
    rcases hc with heq | heq | heq | heq <;> simp [heq, Timely]
  exact ⟨a, ha,
    (orders_keep_answers 0).1 sampleWorld minuteLater .purgeExpiredResponses sample_pushed.run
      hclock,
    (orders_keep_answers 0).2.2.2 sampleWorld minuteLater htimely hclock "task" a ha
      (by rw [htime]; decide)⟩

/-- **Checkpoints can cost a paid answer**: the history forgets the success, and
the purge takes the response a minute after it was stored. -/
theorem checkpoints_lose_answer :
    ¬ ∀ (w : World) (env : Env samplePlatform), Run (p := samplePlatform) Always (.start 0) w →
      w.clock ≤ env.now.time →
      ∀ taskId a, w.answers.get? taskId = some a → env.now.time < a.time + grace →
        ∃ record, call env w.store (.get taskId) = (.ok (.found (some record)), w.store) ∧
          record.encryptedResponse = some a.response := by
  intro hkept
  have hbrief := sample_facts.1
  obtain ⟨w, hw⟩ := sample_pushed.more hbrief 63 (le_refl _)
  generalize sampleRecord.history.headD .null = first at hbrief hw
  generalize sampleRecord = record at hbrief hw
  obtain ⟨a, ha, htime⟩ := hw.answer
  have hclock : w.clock ≤ minuteLater.now.time := by
    rw [hw.clock]
    decide
  have hrun := Run.step hw.run minuteLater .purgeExpiredResponses hclock trivial
  have hanswer : (w.step minuteLater .purgeExpiredResponses).answers.get? "task" = some a := by
    simp only [World.step, note]
    split <;> exact ha
  obtain ⟨found, hget, hresponse⟩ := hkept _ minuteLater hrun (le_refl _) "task" a hanswer
    (by rw [htime]; decide)
  have hfound : (w.step minuteLater .purgeExpiredResponses).store.get? "task" =
      some (filed (purged minuteLater
        (record.holding (first :: List.replicate 63 expiryEvent)))) := by
    simp only [World.step, call, hw.full]
    exact hbrief.purge
  rw [call, get_ok.mpr ⟨task_valid, hfound⟩] at hget
  simp only [Except.map, commit, Prod.mk.injEq, Except.ok.injEq, Outcome.found.injEq,
    Option.some.injEq, and_true] at hget
  rw [← hget] at hresponse
  cases hresponse

end TaskOrders
