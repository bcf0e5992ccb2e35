import Rynmesh.AskRuns
import Rynmesh.EventHistory

/-!
# A question is submitted once and archived before it is released

A write keeps the runs and the tombstones, and drops only conversations without a
pending run (`write_ok`).  `Moves` says what one transaction makes of the file;
`Inv` adds what the worker holds in memory, and `asks_safe` reads it off in every
world and across every run.
-/

namespace Ask

open Checked

variable {p : Platform}

/-! ### Pending runs -/

/-- A run of a conversation that has not ended. -/
def Pending (runs : Dict String RunRecord) (taskId identifier : String) : Prop :=
  ∃ run, runs.get? taskId = some run ∧ run.conversationId = identifier ∧
    run.state.terminal = false

variable {identifier : String}

/-- A conversation is active while one of its runs is pending. -/
theorem active_iff {runs : Dict String RunRecord} :
    active runs identifier = true ↔ ∃ taskId, Pending runs taskId identifier := by
  unfold active
  rw [List.any_eq_true]
  constructor
  · rintro ⟨run, hmem, hrun⟩
    rw [Bool.and_eq_true, decide_eq_true_eq, Bool.not_eq_true'] at hrun
    obtain ⟨taskId, hget⟩ := Dict.mem_values_iff.mp hmem
    exact ⟨taskId, run, hget, hrun.1, hrun.2⟩
  · rintro ⟨taskId, run, hget, hconversation, hpending⟩
    refine ⟨run, Dict.mem_values_iff.mpr ⟨taskId, hget⟩, ?_⟩
    rw [hconversation, hpending]
    simp

/-! ### What a write keeps -/

/-- The conversations left, when those without a pending run may go. -/
structure Keeps (data data' : History) : Prop where
  runs : data'.runs = data.runs
  tombstones : data'.tombstones = data.tombstones
  conversations : ∀ identifier, data'.conversations.get? identifier =
      data.conversations.get? identifier ∨
    (data'.conversations.get? identifier = none ∧ active data.runs identifier = false)

theorem Keeps.refl (data : History) : Keeps data data := ⟨rfl, rfl, fun _ => .inl rfl⟩

/-- Capturing one conversation leaves the others as they are. -/
theorem captureOne_ok {runs : Dict String RunRecord} {seed : Bool}
    {current result : SyncState × Dict String Conversation} {item : String × Conversation}
    (h : SyncState.captureOne p runs seed current item = .ok result) (identifier : String) :
    result.2.get? identifier = current.2.get? identifier ∨
      (result.2.get? identifier = none ∧ active runs identifier = false) := by
  unfold SyncState.captureOne at h
  split at h
  · cases h
    exact .inl rfl
  · simp only [bind_ok] at h
    obtain ⟨_, _, _, _, _, _, shown, _, h⟩ := h
    split at h
    · cases h
      exact .inl rfl
    · rename_i hactive
      split at h
      · cases h
        by_cases hsame : identifier = item.1
        · rw [Bool.not_eq_true] at hactive
          rw [hsame]
          exact .inr ⟨by simp [Dict.get?_erase], hactive⟩
        · left
          simp [Dict.get?_erase, hsame]
      · cases h
        exact .inl rfl

variable {data data' : History}

variable {state : SyncState}

/-- A capture keeps the runs and the tombstones. -/
theorem capture_ok {seed : Bool} (h : data.capture p seed state = .ok data') :
    Keeps data data' := by
  unfold History.capture at h
  simp only [bind_ok, pure_ok] at h
  obtain ⟨captured, hcaptured, _, _, heq⟩ := h
  rw [← heq]
  refine ⟨rfl, rfl, ?_⟩
  -- every conversation of the loop is kept, or dropped as it has no pending run
  exact foldlM_ok_induction (fun _ current => ∀ identifier,
      current.2.get? identifier = data.conversations.get? identifier ∨
        (current.2.get? identifier = none ∧ active data.runs identifier = false))
    (by
      intro _ current item next hcurrent hnext identifier
      rcases captureOne_ok hnext identifier with hsame | hdropped
      · rw [hsame]
        exact hcurrent identifier
      · exact .inr hdropped)
    data.conversations.entries [] (state, data.conversations) captured
    (fun _ => .inl rfl) hcaptured

variable {captureSync : Bool}

/-- So does writing the history. -/
theorem write_ok (h : data.write p captureSync = .ok data') : Keeps data data' := by
  unfold History.write at h
  simp only [bind_ok, require_ok, pure_ok] at h
  obtain ⟨captured, hcaptured, _, _, heq⟩ := h
  rw [← heq]
  unfold History.recorded at hcaptured
  cases hsync : data.sync with
  | none =>
    rw [hsync] at hcaptured
    cases hcaptured
    exact Keeps.refl data
  | some state =>
    rw [hsync] at hcaptured
    cases captureSync with
    | true => exact capture_ok hcaptured
    | false =>
      cases hcaptured
      exact Keeps.refl data

/-! ### What the file holds -/

def messageIds (conversation : Conversation) : List String :=
  conversation.messages.map Message.id

/-- A run and its request are about one task. -/
def RunRecord.Named (run : RunRecord) (taskId : String) : Prop :=
  run.taskId = taskId ∧ ∀ body, run.body = some body → body.taskId = taskId

variable {taskId : String}

theorem RunRecord.Named.erase {run run' : RunRecord} (h : run.Named taskId)
    (hname : run'.taskId = run.taskId) (hbody : run'.body = none) : run'.Named taskId := by
  refine ⟨hname.trans h.1, ?_⟩
  intro body hsome
  rw [hbody] at hsome
  cases hsome

/-- The invariant of the file. -/
structure Sound (data : History) : Prop where
  named : ∀ taskId run, data.runs.get? taskId = some run → run.Named taskId
  bodies : ∀ taskId run, data.runs.get? taskId = some run → run.state.terminal = true →
    run.body = none
  single : ∀ identifier first second, Pending data.runs first identifier →
    Pending data.runs second identifier → first = second
  distinct : ∀ identifier conversation, data.conversations.get? identifier = some conversation →
    (messageIds conversation).Nodup
  shown : ∀ taskId identifier conversation, Pending data.runs taskId identifier →
    data.conversations.get? identifier = some conversation →
    questionId taskId ∈ messageIds conversation ∧ answerId taskId ∈ messageIds conversation
  placed : ∀ taskId identifier, Pending data.runs taskId identifier →
    data.conversations.get? identifier ≠ none ∨ data.tombstones.get? identifier ≠ none

/-- What no transaction takes back. -/
structure Lasts (data data' : History) : Prop where
  runs : ∀ taskId run, data.runs.get? taskId = some run →
    ∃ run', data'.runs.get? taskId = some run' ∧
      (run.state.terminal = true → run'.state = run.state) ∧
      (run.state ≠ .queued → run'.state ≠ .queued)
  tombstones : ∀ identifier, data.tombstones.get? identifier ≠ none →
    data'.tombstones.get? identifier ≠ none
  deleted : ∀ identifier, data.tombstones.get? identifier ≠ none →
    data.conversations.get? identifier = none → data'.conversations.get? identifier = none

theorem Lasts.refl (data : History) : Lasts data data where
  runs := fun _ run hget => ⟨run, hget, fun _ => rfl, fun hne => hne⟩
  tombstones := fun _ h => h
  deleted := fun _ _ h => h

/-- What lasts over two changes lasts over both. -/
theorem Lasts.trans {a b c : History} (hab : Lasts a b) (hbc : Lasts b c) : Lasts a c where
  runs := by
    intro taskId run hget
    obtain ⟨middle, hmiddle, hterminal, hqueued⟩ := hab.runs taskId run hget
    obtain ⟨last, hlast, hterminal', hqueued'⟩ := hbc.runs taskId middle hmiddle
    refine ⟨last, hlast, ?_, fun hne => hqueued' (hqueued hne)⟩
    intro hended
    rw [← hterminal hended]
    exact hterminal' (by rw [hterminal hended]; exact hended)
  tombstones := fun identifier h => hbc.tombstones identifier (hab.tombstones identifier h)
  deleted := fun identifier h hnone =>
    hbc.deleted identifier (hab.tombstones identifier h) (hab.deleted identifier h hnone)

/-- What is kept lasts. -/
theorem Keeps.lasts (h : Keeps data data') : Lasts data data' where
  runs := by
    intro taskId run hget
    exact ⟨run, by rw [h.runs]; exact hget, fun _ => rfl, fun hne => hne⟩
  tombstones := by
    intro identifier hdeleted
    rw [h.tombstones]
    exact hdeleted
  deleted := by
    intro identifier _ hnone
    rcases h.conversations identifier with hsame | ⟨hgone, _⟩
    · rw [hsame]
      exact hnone
    · exact hgone

/-- A history that is kept stays sound. -/
theorem Sound.keeps (h : Sound data) (hkeeps : Keeps data data') : Sound data' := by
  have hpending : ∀ taskId identifier, Pending data'.runs taskId identifier →
      Pending data.runs taskId identifier := by
    intro taskId identifier hrun
    rw [hkeeps.runs] at hrun
    exact hrun
  have hold : ∀ identifier conversation,
      data'.conversations.get? identifier = some conversation →
      data.conversations.get? identifier = some conversation := by
    intro identifier conversation hget
    rcases hkeeps.conversations identifier with hsame | ⟨hgone, _⟩
    · rw [← hsame]
      exact hget
    · rw [hgone] at hget
      cases hget
  refine ⟨?_, ?_, ?_, ?_, ?_, ?_⟩
  · intro taskId run hget
    rw [hkeeps.runs] at hget
    exact h.named taskId run hget
  · intro taskId run hget
    rw [hkeeps.runs] at hget
    exact h.bodies taskId run hget
  · intro identifier first second hfirst hsecond
    exact h.single identifier first second (hpending _ _ hfirst) (hpending _ _ hsecond)
  · intro identifier conversation hget
    exact h.distinct identifier conversation (hold _ _ hget)
  · intro taskId identifier conversation hrun hget
    exact h.shown taskId identifier conversation (hpending _ _ hrun) (hold _ _ hget)
  · intro taskId identifier hrun
    have hrun := hpending _ _ hrun
    rcases hkeeps.conversations identifier with hsame | ⟨_, hinactive⟩
    · rw [hsame, hkeeps.tombstones]
      exact h.placed taskId identifier hrun
    · rw [active_iff.mpr ⟨taskId, hrun⟩] at hinactive
      cases hinactive

/-- What one transaction makes of the file. -/
def Moves (data data' : History) : Prop :=
  Sound data → Sound data' ∧ Lasts data data'

theorem Moves.refl (data : History) : Moves data data := fun h => ⟨h, Lasts.refl data⟩

/-- Sound changes compose. -/
theorem Moves.trans {a b c : History} (hab : Moves a b) (hbc : Moves b c) : Moves a c := by
  intro ha
  obtain ⟨hb, hlasts⟩ := hab ha
  obtain ⟨hc, hlasts'⟩ := hbc hb
  exact ⟨hc, hlasts.trans hlasts'⟩

theorem Moves.write {a b c : History} (hab : Moves a b) (h : b.write p captureSync = .ok c) :
    Moves a c :=
  hab.trans fun hb => ⟨hb.keeps (write_ok h), (write_ok h).lasts⟩

/-! ### Fewer pending runs and the same messages -/

/-- Fewer runs, conversations and pending tasks leave a history sound. -/
theorem Sound.fewer (h : Sound data)
    (hruns : ∀ taskId run, data'.runs.get? taskId = some run →
      run.Named taskId ∧ (run.state.terminal = true → run.body = none))
    (hpending : ∀ taskId identifier, Pending data'.runs taskId identifier →
      Pending data.runs taskId identifier)
    (hconversations : ∀ identifier conversation,
      data'.conversations.get? identifier = some conversation →
      ∃ prior, data.conversations.get? identifier = some prior ∧
        messageIds conversation = messageIds prior)
    (hplaced : ∀ taskId identifier, Pending data'.runs taskId identifier →
      data'.conversations.get? identifier ≠ none ∨ data'.tombstones.get? identifier ≠ none) :
    Sound data' where
  named := fun taskId run hget => (hruns taskId run hget).1
  bodies := fun taskId run hget => (hruns taskId run hget).2
  single := fun identifier first second hfirst hsecond =>
    h.single identifier first second (hpending _ _ hfirst) (hpending _ _ hsecond)
  distinct := by
    intro identifier conversation hget
    obtain ⟨prior, hprior, hids⟩ := hconversations identifier conversation hget
    rw [hids]
    exact h.distinct identifier prior hprior
  shown := by
    intro taskId identifier conversation hrun hget
    obtain ⟨prior, hprior, hids⟩ := hconversations identifier conversation hget
    rw [hids]
    exact h.shown taskId identifier prior (hpending _ _ hrun) hprior
  placed := hplaced

/-- A pending run moves on, or ends without its body. -/
theorem Moves.putRun {run run' : RunRecord} (hrun : data.runs.get? taskId = some run)
    (hopen : run.state.terminal = false) (hname : ∀ name, run.Named name → run'.Named name)
    (hconversation : run'.conversationId = run.conversationId)
    (hbody : run'.state.terminal = true → run'.body = none)
    (hqueued : run.state ≠ .queued → run'.state ≠ .queued) :
    Moves data (data.putRun taskId run') := by
  intro h
  have hget : ∀ other, (data.putRun taskId run').runs.get? other =
      if other = taskId then some run' else data.runs.get? other := by
    intro other
    exact Dict.get?_set _ _ _ _
  have hpending : ∀ other identifier, Pending (data.putRun taskId run').runs other identifier →
      Pending data.runs other identifier := by
    rintro other identifier ⟨found, hfound, hplace, hstate⟩
    rw [hget] at hfound
    by_cases hother : other = taskId
    · rw [if_pos hother] at hfound
      rw [← Option.some.inj hfound, hconversation] at hplace
      exact ⟨run, hother ▸ hrun, hplace, hopen⟩
    · rw [if_neg hother] at hfound
      exact ⟨found, hfound, hplace, hstate⟩
  refine ⟨h.fewer ?_ hpending (fun _ conversation hsome => ⟨conversation, hsome, rfl⟩)
    (fun other identifier hother => h.placed other identifier (hpending _ _ hother)),
    ⟨?_, fun _ hdeleted => hdeleted, fun _ _ hnone => hnone⟩⟩
  · exact Dict.forall_get?_set ⟨hname taskId (h.named taskId run hrun), hbody⟩
      fun other found hfound => ⟨h.named other found hfound, h.bodies other found hfound⟩
  · intro other found hfound
    by_cases hother : other = taskId
    · rw [hother, hrun] at hfound
      rw [← Option.some.inj hfound]
      refine ⟨run', by rw [hget, if_pos hother], ?_, hqueued⟩
      intro hended
      rw [hopen] at hended
      cases hended
    · exact ⟨found, by rw [hget, if_neg hother]; exact hfound, fun _ => rfl, fun hne => hne⟩

/-- A conversation is replaced by one with the same messages. -/
theorem Moves.put {prior conversation : Conversation}
    (hprior : data.conversations.get? identifier = some prior)
    (hids : messageIds conversation = messageIds prior) :
    Moves data (data.put identifier conversation) := by
  intro h
  have hget : ∀ other, (data.put identifier conversation).conversations.get? other =
      if other = identifier then some conversation else data.conversations.get? other := by
    intro other
    exact Dict.get?_set _ _ _ _
  refine ⟨h.fewer (fun taskId run hrun => ⟨h.named taskId run hrun, h.bodies taskId run hrun⟩)
    (fun _ _ hrun => hrun) ?_ ?_, ⟨(Lasts.refl data).runs, fun _ hdeleted => hdeleted, ?_⟩⟩
  · exact Dict.forall_get?_set ⟨prior, hprior, hids⟩ fun other found hfound => ⟨found, hfound, rfl⟩
  · intro taskId other hrun
    rcases h.placed taskId other hrun with hthere | hdeleted
    · left
      rw [hget]
      split
      · intro hnone
        cases hnone
      · exact hthere
    · exact .inr hdeleted
  · intro other _ hnone
    rw [hget]
    split
    · rename_i hother
      rw [hother, hprior] at hnone
      cases hnone
    · exact hnone

/-- Showing a result in a message renames no message. -/
theorem showFirst_ids {f : Message → Message} (hf : ∀ m, (f m).id = m.id)
    (messages : List Message) :
    (showFirst taskId f messages).map Message.id = messages.map Message.id := by
  induction messages with
  | nil => rfl
  | cons message rest ih =>
    unfold showFirst
    split
    · rw [List.map_cons, List.map_cons, hf]
    · rw [List.map_cons, List.map_cons, ih]

variable {now : String}

variable {status : MessageStatus} {content : String} {result : Option Outcome}
  {shown : Bool × History}

/-- A result is shown in the conversation. -/
theorem message_ok {run : RunRecord}
    (h : data.message p run status content result now = .ok shown) :
    Moves data shown.2 := by
  unfold History.message at h
  split at h
  · cases h
    exact Moves.refl data
  · rename_i row hrow
    split at h
    · cases h
      exact Moves.refl data
    · split at h
      · cases h
        exact Moves.refl data
      · simp only [bind_ok, pure_ok] at h
        obtain ⟨_, _, heq⟩ := h
        rw [← heq]
        refine Moves.put hrow ?_
        have hkeep : ∀ m : Message, (m.shown status content result).id = m.id := fun _ => rfl
        exact showFirst_ids hkeep row.messages

/-- Showing a result leaves the runs alone. -/
theorem message_runs {run : RunRecord}
    (h : data.message p run status content result now = .ok shown) : shown.2.runs = data.runs := by
  unfold History.message at h
  split at h
  · cases h
    rfl
  · split at h
    · cases h
      rfl
    · split at h
      · cases h
        rfl
      · simp only [bind_ok, pure_ok] at h
        obtain ⟨_, _, heq⟩ := h
        rw [← heq]
        rfl

/-! ### The transactions of the run service -/

/-- A cancellation is a sound change. -/
theorem cancel_ok (h : data.cancel p taskId now = .ok data') : Moves data data' := by
  unfold History.cancel at h
  simp only [bind_ok, demand_ok] at h
  obtain ⟨run, hrun, h⟩ := h
  split at h
  · cases h
    exact Moves.refl data
  · rename_i hopen
    rw [Bool.not_eq_true] at hopen
    simp only [bind_ok] at h
    obtain ⟨shown, hshown, hwrite⟩ := h
    refine Moves.write (Moves.trans ?_ (message_ok hshown)) hwrite
    refine Moves.putRun hrun hopen (fun _ hname => hname) rfl ?_ (fun hne => hne)
    intro hended
    rw [show run.state.terminal = true from hended] at hopen
    cases hopen

/-- A note on a run is one too. -/
theorem mark_ok {f : RunRecord → RunRecord}
    (hf : ∀ run, (∀ name, run.Named name → (f run).Named name) ∧
      (f run).conversationId = run.conversationId ∧ (f run).state = run.state)
    (h : data.mark p taskId f = .ok data') : Moves data data' := by
  unfold History.mark at h
  split at h
  · cases h
    exact Moves.refl data
  · rename_i run hrun
    split at h
    · cases h
      exact Moves.refl data
    · rename_i hopen
      rw [Bool.not_eq_true] at hopen
      refine Moves.write (Moves.putRun hrun hopen (hf run).1 (hf run).2.1 ?_ ?_) h
      · intro hended
        rw [(hf run).2.2, hopen] at hended
        cases hended
      · rw [(hf run).2.2]
        exact fun hne => hne

/-- A terminal result is filed as a terminal outcome. -/
theorem final_terminal {result : Outcome} (h : result.state.any RunState.terminal = true) :
    result.final.terminal = true := by
  unfold Outcome.final
  cases hstate : result.state with
  | none =>
    rw [hstate] at h
    cases h
  | some state =>
    rw [hstate] at h
    cases state with
    | succeeded =>
      simp only [Option.getD_some]
      split
      · rfl
      · rfl
    | _ => exact h

/-- `_finish` leaves an ended run. -/
theorem finish_ok {result : Outcome} (hresult : result.state.any RunState.terminal = true)
    (h : data.finish p taskId result now = .ok data') : Moves data data' ∧
      ∃ run, data'.runs.get? taskId = some run ∧ run.state.terminal = true := by
  unfold History.finish at h
  simp only [bind_ok, demand_ok] at h
  obtain ⟨run, hrun, h⟩ := h
  split at h
  · rename_i hended
    cases h
    exact ⟨Moves.refl data, run, hrun, hended⟩
  · rename_i hopen
    rw [Bool.not_eq_true] at hopen
    simp only [bind_ok] at h
    obtain ⟨shown, hshown, hwrite⟩ := h
    have hmoves : Moves data (data.putRun taskId (run.ended result)) := by
      refine Moves.putRun hrun hopen (fun _ hname => hname.erase rfl rfl) rfl (fun _ => rfl) ?_
      intro _ hqueued
      have hended := final_terminal hresult
      rw [show result.final = .queued from hqueued] at hended
      cases hended
    refine ⟨Moves.write (hmoves.trans (message_ok hshown)) hwrite, run.ended result, ?_,
      final_terminal hresult⟩
    rw [(write_ok hwrite).runs, message_runs hshown]
    exact Dict.get?_set_self _ _ _

/-- What the file shows of an outcome that was stored: the run has ended with it, and so has the
answer, where the conversation is still there; or an earlier end stands. -/
def Archived (taskId : String) (result : Outcome) (before after : History) : Prop :=
  ∃ run, before.runs.get? taskId = some run ∧
    (run.state.terminal = true ∧ after = before ∨
    run.state.terminal = false ∧ result.final.terminal = true ∧
      (∃ run', after.runs.get? taskId = some run' ∧ run'.state = result.final ∧
        run'.body = none) ∧
      ∀ row row', before.conversations.get? run.conversationId = some row →
        answerId taskId ∈ messageIds row →
        after.conversations.get? run.conversationId = some row' →
        ∃ answer ∈ row'.messages, answer.id = answerId taskId ∧
          answer.status = result.final.shownAs ∧ answer.content = result.content ∧
          (∀ text, text ≠ "" → result.state = some .succeeded → result.output = some text →
            answer.content = text) ∧
          (∀ n, result.inputTokens = some n → answer.inputTokens = some n) ∧
          (∀ n, result.outputTokens = some n → answer.outputTokens = some n) ∧
          ∀ n, result.amount = some n → answer.cost = some n)

theorem showFirst_mem {f : Message → Message} {message : Message} {messages : List Message}
    (h : messages.find? (fun message => message.id = answerId taskId) = some message) :
    f message ∈ showFirst taskId f messages := by
  induction messages with
  | nil => cases h
  | cons first rest ih =>
    unfold showFirst
    rw [List.find?_cons] at h
    split
    · rename_i hfirst
      rw [decide_eq_true hfirst] at h
      rw [Option.some.inj h]
      exact (.head _)
    · rename_i hfirst
      rw [decide_eq_false hfirst] at h
      exact .tail _ (ih h)

/-- `_message` shows what it is given, where the answer is still there. -/
theorem message_shows {run : RunRecord} {row : Conversation} {message : Message}
    (h : data.message p run status content result now = .ok shown)
    (hrow : data.conversations.get? run.conversationId = some row)
    (hmessage : row.messages.find? (fun message => message.id = answerId run.taskId) =
      some message) :
    ∃ row', shown.2.conversations.get? run.conversationId = some row' ∧
      message.shown status content result ∈ row'.messages := by
  unfold History.message at h
  rw [hrow] at h
  simp only [hmessage] at h
  split at h
  · rename_i hsame
    cases h
    refine ⟨row, hrow, ?_⟩
    rw [hsame]
    exact List.mem_of_find?_eq_some hmessage
  · simp only [bind_ok, pure_ok] at h
    obtain ⟨_, _, heq⟩ := h
    rw [← heq]
    exact ⟨_, Dict.get?_set_self _ _ _, showFirst_mem hmessage⟩

/-- **`_finish` stores the outcome**, in the run and in its answer. -/
theorem finish_archives {result : Outcome} (hnamed : ∀ run,
      data.runs.get? taskId = some run → run.Named taskId)
    (hresult : result.state.any RunState.terminal = true)
    (h : data.finish p taskId result now = .ok data') : Archived taskId result data data' := by
  unfold History.finish at h
  simp only [bind_ok, demand_ok] at h
  obtain ⟨run, hrun, h⟩ := h
  refine ⟨run, hrun, ?_⟩
  split at h
  · rename_i hended
    cases h
    exact .inl ⟨hended, rfl⟩
  · rename_i hopen
    rw [Bool.not_eq_true] at hopen
    simp only [bind_ok] at h
    obtain ⟨shown, hshown, hwrite⟩ := h
    refine .inr ⟨hopen, final_terminal hresult, ⟨run.ended result, ?_, rfl, rfl⟩, ?_⟩
    · rw [(write_ok hwrite).runs, message_runs hshown]
      exact Dict.get?_set_self _ _ _
    · intro row row' hrow hid hafter
      obtain ⟨message, hmessage⟩ : ∃ message,
          row.messages.find? (fun message => message.id = answerId run.taskId) =
            some message := by
        rw [← Option.isSome_iff_exists, List.find?_isSome]
        obtain ⟨message, hmem, heq⟩ := List.mem_map.mp hid
        exact ⟨message, hmem, decide_eq_true (by rw [heq, (hnamed run hrun).1])⟩
      obtain ⟨shownRow, hget, hmem⟩ := message_shows hshown hrow hmessage
      have hsame : shownRow = row' := by
        rcases (write_ok hwrite).conversations run.conversationId with hkept | ⟨hgone, -⟩
        · rw [hkept, hget] at hafter
          exact Option.some.inj hafter
        · rw [hgone] at hafter
          cases hafter
      refine ⟨_, hsame ▸ hmem, ?_, rfl, rfl, ?_, ?_, ?_, ?_⟩
      · have hanswer : message.id = answerId run.taskId := by
          simpa using List.find?_some hmessage
        rw [(hnamed run hrun).1] at hanswer
        exact hanswer
      · intro text htext hstate houtput
        simp [Message.shown, Outcome.content, hstate, houtput, htext]
      all_goals
        intro n hn
        simp [Message.shown, hn]

theorem only_terminal {state : RunState} (h : state.terminal = true) :
    (Outcome.only state).state.any RunState.terminal = true := h

/-- A queued run that is claimed is dispatching. -/
theorem claim_ok {run : RunRecord} (hrun : data.runs.get? taskId = some run)
    (hopen : run.state.terminal = false) (h : data.claim p taskId run = .ok data') :
    Moves data data' ∧
      (run.state = .queued → ∃ run', data'.runs.get? taskId = some run' ∧
        run'.state = .dispatching) := by
  unfold History.claim at h
  split at h
  · have hmoves : Moves data (data.putRun taskId (data.claimed run)) := by
      refine Moves.putRun hrun hopen (fun _ hname => hname) rfl ?_ ?_
      · unfold History.claimed
        intro hended
        split at hended
        · cases hended
        · rw [hopen] at hended
          cases hended
      · unfold History.claimed
        intro hne
        rw [if_neg hne]
        exact hne
    refine ⟨Moves.write hmoves h, ?_⟩
    intro hqueued
    refine ⟨data.claimed run, ?_, ?_⟩
    · rw [(write_ok h).runs]
      exact Dict.get?_set_self _ _ _
    · unfold History.claimed
      rw [if_pos hqueued]
  · rename_i hnot
    cases h
    refine ⟨Moves.refl data, ?_⟩
    intro hqueued
    exact absurd (.inl hqueued) hnot

/-- Waiting for the provider is a sound change. -/
theorem wait_ok (h : data.wait p taskId now = .ok data') : Moves data data' := by
  unfold History.wait at h
  simp only [bind_ok, demand_ok] at h
  obtain ⟨run, hrun, h⟩ := h
  split at h
  · cases h
    exact Moves.refl data
  · rename_i hopen
    rw [Bool.not_eq_true] at hopen
    simp only [bind_ok] at h
    obtain ⟨shown, hshown, h⟩ := h
    split at h
    · cases h
      exact Moves.refl data
    · refine Moves.write (Moves.trans ?_ (message_ok hshown)) h
      refine Moves.putRun hrun hopen (fun _ hname => hname) rfl ?_ ?_
      · nofun
      · nofun

/-! ### Questions -/

/-- Clean messages have different ids. -/
theorem cleanMessages_nodup {messages : List Message} : ∀ {seen : List String},
    cleanMessages p seen messages = .ok () →
    (messages.map Message.id).Nodup ∧ ∀ id ∈ messages.map Message.id, id ∉ seen := by
  induction messages with
  | nil =>
    intro seen _
    refine ⟨List.nodup_nil, ?_⟩
    nofun
  | cons message rest ih =>
    intro seen h
    unfold cleanMessages at h
    simp only [bind_ok, require_ok] at h
    obtain ⟨_, ⟨_, hnew⟩, _, _, hrest⟩ := h
    obtain ⟨hnodup, hseen⟩ := ih hrest
    refine ⟨List.nodup_cons.mpr ⟨?_, hnodup⟩, ?_⟩
    · intro hmem
      exact hseen message.id hmem (.head _)
    · intro id hmem
      rcases List.mem_cons.mp hmem with heq | hmem
      · rw [heq]
        exact hnew
      · exact fun hold => hseen id hmem (.tail _ hold)

variable {value : Conversation}

theorem clean_nodup (h : value.clean p = .ok ()) : (messageIds value).Nodup := by
  unfold Conversation.clean at h
  simp only [bind_ok, require_ok] at h
  obtain ⟨_, _, _, _, _, _, _, _, _, _, _, _, _, hmessages, _⟩ := h
  exact (cleanMessages_nodup hmessages).1

variable {intent : Intent} {preview : Preview}

/-- A new task leaves a run. -/
theorem beginNew_ok (hnew : data.runs.get? taskId = none)
    (h : data.beginNew p taskId intent preview now = .ok data') : Moves data data' ∧
      ∃ run, data'.runs.get? taskId = some run := by
  unfold History.beginNew at h
  simp only [bind_ok, demand_ok, require_ok] at h
  obtain ⟨row, hrow, _, hlive, _, hcheck, _, hclean, hwrite⟩ := h
  unfold History.checkBegin at hcheck
  simp only [bind_ok, require_ok] at hcheck
  obtain ⟨_, _, _, hidle, _⟩ := hcheck
  -- the middle of the transaction: the question, its answer and the run
  generalize hasked : ({ row.asked p taskId intent preview now with
    revision := row.revision + 1 } : Conversation) = asked at hwrite
  generalize hrun : RunRecord.begun taskId intent preview row.networkId (intent.fingerprint p) =
    run at hwrite
  have hstate : run.state = .queued := by rw [← hrun]; rfl
  have hplace : run.conversationId = intent.conversationId := by rw [← hrun]; rfl
  have hname : run.Named taskId := by
    rw [← hrun]
    refine ⟨rfl, ?_⟩
    intro body hbody
    rw [← Option.some.inj hbody]
  have hids : messageIds asked = messageIds (row.asked p taskId intent preview now) := by
    rw [← hasked]
    rfl
  have hruns : ∀ other,
      ((data.put intent.conversationId asked).putRun taskId run).runs.get? other =
        if other = taskId then some run else data.runs.get? other := by
    intro other
    exact Dict.get?_set _ _ _ _
  have hconversations : ∀ other,
      ((data.put intent.conversationId asked).putRun taskId run).conversations.get? other =
        if other = intent.conversationId then some asked else data.conversations.get? other := by
    intro other
    exact Dict.get?_set _ _ _ _
  have hpending : ∀ other identifier,
      Pending ((data.put intent.conversationId asked).putRun taskId run).runs other identifier →
      (other = taskId ∧ identifier = intent.conversationId) ∨
        (identifier ≠ intent.conversationId ∧ Pending data.runs other identifier) := by
    rintro other identifier ⟨found, hfound, hat, hopen⟩
    rw [hruns] at hfound
    by_cases hother : other = taskId
    · rw [if_pos hother] at hfound
      rw [← Option.some.inj hfound, hplace] at hat
      exact .inl ⟨hother, hat.symm⟩
    rw [if_neg hother] at hfound
    refine .inr ⟨?_, found, hfound, hat, hopen⟩
    intro hsame
    have hbusy := active_iff.mpr ⟨other, found, hfound, hat, hopen⟩
    rw [hsame, hidle] at hbusy
    cases hbusy
  have hmoves : Moves data ((data.put intent.conversationId asked).putRun taskId run) := by
    intro hsound
    refine ⟨⟨?_, ?_, ?_, ?_, ?_, ?_⟩, ⟨?_, fun _ hdeleted => hdeleted, ?_⟩⟩
    · exact Dict.forall_get?_set hname hsound.named
    · refine Dict.forall_get?_set (fun hended => ?_) hsound.bodies
      rw [hstate] at hended
      cases hended
    · intro identifier first second hfirst hsecond
      rcases hpending _ _ hfirst with ⟨hone, hat⟩ | ⟨hnot, hone⟩
      · rcases hpending _ _ hsecond with ⟨htwo, _⟩ | ⟨hnot, _⟩
        · rw [hone, htwo]
        · exact absurd hat hnot
      · rcases hpending _ _ hsecond with ⟨_, hat⟩ | ⟨_, htwo⟩
        · exact absurd hat hnot
        · exact hsound.single identifier first second hone htwo
    · intro identifier conversation hget
      rw [hconversations] at hget
      split at hget
      · rw [← Option.some.inj hget, hids]
        exact clean_nodup hclean
      · exact hsound.distinct identifier conversation hget
    · intro other identifier conversation hother hget
      rw [hconversations] at hget
      rcases hpending _ _ hother with ⟨htask, hat⟩ | ⟨hnot, hold⟩
      · rw [if_pos hat] at hget
        rw [← Option.some.inj hget, hids, htask]
        simp [messageIds, Conversation.asked, question, answer]
      · rw [if_neg hnot] at hget
        exact hsound.shown other identifier conversation hold hget
    · intro other identifier hother
      rcases hpending _ _ hother with ⟨_, hat⟩ | ⟨hnot, hold⟩
      · left
        rw [hconversations, if_pos hat]
        intro hnone
        cases hnone
      · rw [hconversations, if_neg hnot]
        exact hsound.placed other identifier hold
    · intro other found hfound
      have hother : other ≠ taskId := by
        intro heq
        rw [heq, hnew] at hfound
        cases hfound
      exact ⟨found, by rw [hruns, if_neg hother]; exact hfound, fun _ => rfl, fun hne => hne⟩
    · intro identifier hdeleted hnone
      have hother : identifier ≠ intent.conversationId := by
        intro heq
        rw [heq] at hdeleted
        exact hdeleted hlive
      rw [hconversations, if_neg hother]
      exact hnone
  refine ⟨Moves.write hmoves hwrite, run, ?_⟩
  rw [(write_ok hwrite).runs, hruns, if_pos rfl]

/-- A task that is begun again changes nothing. -/
theorem begin_ok (h : data.begin p taskId intent preview now = .ok data') :
    Moves data data' ∧ (∃ run, data'.runs.get? taskId = some run) ∧
      (data.runs.get? taskId ≠ none → data' = data) := by
  unfold History.begin at h
  simp only [bind_ok, require_ok] at h
  obtain ⟨_, _, h⟩ := h
  split at h
  · rename_i run hrun
    simp only [bind_ok, require_ok, pure_ok] at h
    obtain ⟨_, _, heq⟩ := h
    rw [← heq]
    exact ⟨Moves.refl data, ⟨run, hrun⟩, fun _ => rfl⟩
  · rename_i hnew
    obtain ⟨hmoves, hrun⟩ := beginNew_ok hnew h
    exact ⟨hmoves, hrun, fun hknown => absurd hnew hknown⟩

/-! ### Saves and deletions -/

/-- Merging stored messages renames none. -/
theorem overMessages_ids (old rows : List Message) :
    (overMessages old rows).map Message.id = rows.map Message.id := by
  unfold overMessages
  rw [List.map_map]
  refine List.map_congr_left ?_
  intro row _
  simp only [Function.comp_apply]
  split
  · rfl
  · rfl

theorem saved_ids (value : Conversation) (prior : Option Conversation) (revision : Nat) :
    messageIds (value.saved prior revision) = messageIds value := by
  exact overMessages_ids _ _

/-- A conversation is stored that is neither deleted nor busy. -/
theorem Moves.store {conversation : Conversation} (hlive : data.tombstones.get? identifier = none)
    (hnodup : (messageIds conversation).Nodup)
    (hbusy : active data.runs identifier = true → ∀ prior,
      data.conversations.get? identifier = some prior →
      messageIds conversation = messageIds prior) :
    Moves data (data.put identifier conversation) := by
  intro h
  have hget : ∀ other, (data.put identifier conversation).conversations.get? other =
      if other = identifier then some conversation else data.conversations.get? other := by
    intro other
    exact Dict.get?_set _ _ _ _
  refine ⟨⟨h.named, h.bodies, h.single, ?_, ?_, ?_⟩,
    ⟨(Lasts.refl data).runs, fun _ hdeleted => hdeleted, ?_⟩⟩
  · exact Dict.forall_get?_set hnodup h.distinct
  · intro taskId other found hpending hfound
    rw [hget] at hfound
    by_cases hother : other = identifier
    · rw [if_pos hother] at hfound
      rw [hother] at hpending
      rcases h.placed taskId identifier hpending with hthere | hdeleted
      · obtain ⟨prior, hprior⟩ := Option.ne_none_iff_exists'.mp hthere
        rw [← Option.some.inj hfound, hbusy (active_iff.mpr ⟨taskId, hpending⟩) prior hprior]
        exact h.shown taskId identifier prior hpending hprior
      · exact absurd hlive hdeleted
    · rw [if_neg hother] at hfound
      exact h.shown taskId other found hpending hfound
  · intro taskId other hpending
    rw [hget]
    split
    · left
      intro hnone
      cases hnone
    · exact h.placed taskId other hpending
  · intro other hdeleted hnone
    rw [hget]
    split
    · rename_i hother
      rw [hother] at hdeleted
      exact absurd hlive hdeleted
    · exact hnone

/-- Saving a conversation is a sound change. -/
theorem save_ok {expectedRevision : Nat} (h : data.save p value expectedRevision = .ok data') :
    Moves data data' := by
  unfold History.save at h
  simp only [bind_ok, require_ok] at h
  obtain ⟨_, hclean, _, hlive, _, _, h⟩ := h
  split at h
  · cases h
    exact Moves.refl data
  · simp only [bind_ok] at h
    obtain ⟨_, hcheck, hwrite⟩ := h
    unfold History.checkSave at hcheck
    simp only [bind_ok, require_ok] at hcheck
    obtain ⟨_, _, _, hbusy, _⟩ := hcheck
    refine Moves.write (Moves.store hlive ?_ ?_) hwrite
    · rw [saved_ids]
      exact clean_nodup hclean
    · intro hactive prior hprior
      rw [saved_ids]
      unfold messageIds
      rw [hbusy prior hprior hactive]

/-- A change of the runs of a conversation that starts and revives none. -/
structure Closes (f : RunRecord → RunRecord) : Prop where
  named : ∀ run name, run.Named name → (f run).Named name
  place : ∀ run, (f run).conversationId = run.conversationId
  ended : ∀ run, run.state.terminal = true → (f run).state = run.state
  queued : ∀ run, run.state ≠ .queued → (f run).state ≠ .queued
  body : ∀ run, (run.state.terminal = true → run.body = none) →
    (f run).state.terminal = true → (f run).body = none

theorem cancelFor_closes (identifier : String) : Closes (RunRecord.cancelFor identifier) where
  named := by
    intro run name h
    unfold RunRecord.cancelFor
    split
    · exact h.erase rfl rfl
    · exact h
  place := by
    intro run
    unfold RunRecord.cancelFor
    split <;> rfl
  ended := by
    intro run _
    unfold RunRecord.cancelFor
    split <;> rfl
  queued := by
    intro run hne
    unfold RunRecord.cancelFor
    split <;> exact hne
  body := by
    intro run hbody hended
    unfold RunRecord.cancelFor at hended ⊢
    split
    · rfl
    · rename_i hother
      rw [if_neg hother] at hended
      exact hbody hended

theorem removeFor_closes (identifier : String) : Closes (RunRecord.removeFor identifier) where
  named := by
    intro run name h
    unfold RunRecord.removeFor
    split
    · exact h.erase rfl rfl
    · exact h
  place := by
    intro run
    unfold RunRecord.removeFor
    split <;> rfl
  ended := by
    intro run hended
    unfold RunRecord.removeFor
    split
    · refine if_neg ?_
      intro hqueued
      rw [hqueued] at hended
      cases hended
    · rfl
  queued := by
    intro run hne
    unfold RunRecord.removeFor
    split
    · exact hne
    · exact hne
  body := by
    intro run hbody hended
    unfold RunRecord.removeFor at hended ⊢
    split
    · rfl
    · rename_i hother
      rw [if_neg hother] at hended
      exact hbody hended

/-- All runs of a conversation are closed, and it goes. -/
theorem Moves.close {f : RunRecord → RunRecord} (hf : Closes f)
    (hruns : data'.runs = data.runs.mapValues f)
    (hconversations : ∀ identifier conversation,
      data'.conversations.get? identifier = some conversation →
      data.conversations.get? identifier = some conversation)
    (htombstones : ∀ identifier, data.tombstones.get? identifier ≠ none →
      data'.tombstones.get? identifier ≠ none)
    (hgone : ∀ identifier, data.conversations.get? identifier ≠ none →
      data'.conversations.get? identifier = none → data'.tombstones.get? identifier ≠ none) :
    Moves data data' := by
  intro h
  have hfrom : ∀ taskId run', data'.runs.get? taskId = some run' →
      ∃ run, data.runs.get? taskId = some run ∧ f run = run' := by
    intro taskId run' hget
    rw [hruns, Dict.get?_mapValues] at hget
    exact Option.map_eq_some_iff.mp hget
  have hpending : ∀ taskId identifier, Pending data'.runs taskId identifier →
      Pending data.runs taskId identifier := by
    rintro taskId identifier ⟨run', hget, hplace, hopen⟩
    obtain ⟨run, hrun, heq⟩ := hfrom taskId run' hget
    refine ⟨run, hrun, ?_, ?_⟩
    · rw [← hf.place run, heq]
      exact hplace
    · by_contra hended
      rw [Bool.not_eq_false] at hended
      rw [← heq, hf.ended run hended, hended] at hopen
      cases hopen
  refine ⟨h.fewer ?_ hpending ?_ ?_, ⟨?_, htombstones, ?_⟩⟩
  · intro taskId run' hget
    obtain ⟨run, hrun, heq⟩ := hfrom taskId run' hget
    rw [← heq]
    exact ⟨hf.named run taskId (h.named taskId run hrun),
      hf.body run (h.bodies taskId run hrun)⟩
  · intro identifier conversation hget
    exact ⟨conversation, hconversations identifier conversation hget, rfl⟩
  · intro taskId identifier hrun
    rcases h.placed taskId identifier (hpending _ _ hrun) with hthere | hdeleted
    · by_cases hnone : data'.conversations.get? identifier = none
      · exact .inr (hgone identifier hthere hnone)
      · exact .inl hnone
    · exact .inr (htombstones identifier hdeleted)
  · intro taskId run hget
    refine ⟨f run, ?_, hf.ended run, hf.queued run⟩
    rw [hruns, Dict.get?_mapValues, hget]
    rfl
  · intro identifier _ hnone
    by_contra hthere
    obtain ⟨conversation, hget⟩ := Option.ne_none_iff_exists'.mp hthere
    rw [hconversations identifier conversation hget] at hnone
    cases hnone

/-- So is deleting one. -/
theorem remove_ok {expectedRevision : Nat}
    (h : data.remove p identifier expectedRevision = .ok data') : Moves data data' := by
  unfold History.remove at h
  simp only [bind_ok, require_ok] at h
  obtain ⟨_, _, _, _, h⟩ := h
  split at h
  · simp only [bind_ok, require_ok, pure_ok] at h
    obtain ⟨_, _, heq⟩ := h
    rw [← heq]
    exact Moves.refl data
  · simp only [bind_ok, require_ok] at h
    obtain ⟨_, _, _, _, hwrite⟩ := h
    refine Moves.write (Moves.close (removeFor_closes identifier) rfl ?_ ?_ ?_) hwrite
    · exact fun other conversation hget => (Dict.of_get?_erase hget).2
    · intro other hdeleted
      unfold History.removed
      rw [Dict.get?_set]
      split
      · intro hnone
        cases hnone
      · exact hdeleted
    · intro other hthere hnone
      unfold History.removed at hnone ⊢
      rw [Dict.get?_erase] at hnone
      rw [Dict.get?_set]
      split
      · intro hnone
        cases hnone
      · rename_i hother
        rw [if_neg hother] at hnone
        exact absurd hnone hthere

/-! ### Synced devices -/

theorem Moves.sync (state : Option SyncState) (h : Moves data data') :
    Moves data { data' with sync := state } :=
  h.trans fun hsound => ⟨⟨hsound.named, hsound.bodies, hsound.single, hsound.distinct,
    hsound.shown, hsound.placed⟩, ⟨(Lasts.refl data').runs, fun _ hdeleted => hdeleted,
    fun _ _ hnone => hnone⟩⟩

/-- Switching the exchange on changes no run. -/
theorem enableSync_ok {actor : String} (h : data.enableSync p actor = .ok data') :
    Moves data data' := by
  unfold History.enableSync at h
  split at h
  · cases h
    exact Moves.refl data
  · simp only [bind_ok] at h
    obtain ⟨captured, hcaptured, hwrite⟩ := h
    have hkeeps := capture_ok hcaptured
    have hmoves : Moves data captured := fun hsound => ⟨hsound.keeps hkeeps, hkeeps.lasts⟩
    exact hmoves.write hwrite

theorem deletedElsewhere_tombstone (data : History) (identifier : String) :
    (data.deletedElsewhere identifier).tombstones.get? identifier ≠ none := by
  unfold History.deletedElsewhere
  cases hold : data.tombstones.get? identifier with
  | some tombstone =>
    simp only [hold]
    exact Option.some_ne_none tombstone
  | none =>
    simp only [Dict.get?_set_self]
    exact Option.some_ne_none _

theorem deletedElsewhere_lasts (data : History) (identifier : String) {other : String}
    (hdeleted : data.tombstones.get? other ≠ none) :
    (data.deletedElsewhere identifier).tombstones.get? other ≠ none := by
  unfold History.deletedElsewhere
  cases hold : data.tombstones.get? identifier with
  | some tombstone => exact hdeleted
  | none =>
    simp only [Dict.get?_set]
    split
    · exact Option.some_ne_none _
    · exact hdeleted

/-- A deletion that arrives is a sound change. -/
theorem deletedElsewhere_ok (data : History) (identifier : String) :
    Moves data (data.deletedElsewhere identifier) := by
  refine Moves.close (cancelFor_closes identifier) rfl (fun _ _ hget => hget)
    (fun _ => deletedElsewhere_lasts data identifier) ?_
  intro other hthere hnone
  exact absurd hnone hthere

/-- A deleted conversation is dropped. -/
theorem drop_ok (data : History) (hdeleted : data.tombstones.get? identifier ≠ none) :
    Moves data (data.drop identifier) := by
  have hget : ∀ other, (data.drop identifier).conversations.get? other =
      if other = identifier then none else data.conversations.get? other := by
    intro other
    exact Dict.get?_erase _ _ _
  intro h
  refine ⟨h.fewer (fun taskId run hrun => ⟨h.named taskId run hrun, h.bodies taskId run hrun⟩)
    (fun _ _ hrun => hrun) ?_ ?_, ⟨(Lasts.refl data).runs, fun _ hold => hold, ?_⟩⟩
  · intro other conversation hsome
    rw [hget] at hsome
    split at hsome
    · cases hsome
    · exact ⟨conversation, hsome, rfl⟩
  · intro taskId other hrun
    rw [hget]
    split
    · rename_i hother
      rw [hother]
      exact .inr hdeleted
    · exact h.placed taskId other hrun
  · intro other _ hnone
    rw [hget]
    split
    · rfl
    · exact hnone

theorem bump_ok (data : History) (identifier : String) : Moves data (data.bump identifier) := by
  unfold History.bump
  split
  · rename_i prior hprior
    exact Moves.put hprior rfl
  · exact Moves.refl data

/-- A deleted record is shown as deleted. -/
theorem projectDeleted_ok {entity : Entity} {erased : Bool} {result : SyncState × History}
    (h : data.projectDeleted p state identifier entity erased = .ok result) :
    Moves data result.2 := by
  unfold History.projectDeleted at h
  simp only [bind_ok] at h
  obtain ⟨_, _, h⟩ := h
  split at h
  · cases h
    exact (deletedElsewhere_ok data identifier).trans (bump_ok _ identifier)
  · cases h
    exact (deletedElsewhere_ok data identifier).trans
      (drop_ok _ (deletedElsewhere_tombstone data identifier))

theorem received_ids (data : History) (identifier : String) (value : Conversation) :
    messageIds (data.received identifier value) =
      messageIds (data.incoming identifier value) := by
  unfold History.received History.incoming
  rw [saved_ids]
  exact (overMessages_ids _ _).symm

theorem cleanValue_nodup {visible : Option Conversation}
    (h : Records.cleanValue (scope p) identifier (some value) = .ok visible) :
    (messageIds value).Nodup := by
  unfold Records.cleanValue scope at h
  simp only at h
  cases hclean : value.clean p with
  | ok _ => exact clean_nodup hclean
  | error e =>
    rw [hclean] at h
    cases h

/-- What other devices wrote is shown. -/
theorem project_ok {result : SyncState × History}
    (h : data.project p state identifier = .ok result) :
    Moves data result.2 := by
  unfold History.project at h
  simp only [bind_ok] at h
  obtain ⟨entity, _, shown, _, h⟩ := h
  split at h
  · exact projectDeleted_ok h
  · split at h
    · cases h
      exact bump_ok data identifier
    · rename_i hidle
      rw [Bool.or_eq_true, not_or] at hidle
      split at h
      · cases h
        exact Moves.refl data
      · rename_i value _ _
        simp only [bind_ok, require_ok] at h
        obtain ⟨_, hlive, _, _, visible, hvisible, h⟩ := h
        cases h
        refine Moves.store hlive ?_ (fun hactive => absurd hactive hidle.2)
        rw [received_ids]
        exact cleanValue_nodup hvisible

/-- A row that arrives is merged. -/
theorem mergeRow_ok {current result : SyncState × History}
    {row : String × Records.Record Conversation}
    (h : History.mergeRow p current row = .ok result) : Moves current.2 result.2 := by
  unfold History.mergeRow at h
  simp only [bind_ok, require_ok] at h
  obtain ⟨_, _, _, _, _, _, h⟩ := h
  split at h
  · cases h
    exact Moves.refl current.2
  · exact project_ok h

/-- So is a batch of rows. -/
theorem syncReceive_ok {rows : List (String × Records.Record Conversation)}
    (h : data.syncReceive p rows = .ok data') : Moves data data' := by
  unfold History.syncReceive at h
  split at h
  · cases h
  · simp only [bind_ok, require_ok] at h
    obtain ⟨_, _, merged, hmerged, _, _, hwrite⟩ := h
    have hmoves : Moves data merged.2 :=
      foldlM_ok_induction (fun _ current => Moves data current.2)
        (fun _ _ _ _ hcurrent hrow => hcurrent.trans (mergeRow_ok hrow))
        rows [] _ merged (Moves.refl data) hmerged
    exact (hmoves.sync _).write hwrite

/-! ### Answers that come late -/

theorem message_absent {run : RunRecord}
    (h : data.message p run status content result now = .ok shown)
    (hnone : data.conversations.get? identifier = none) :
    shown.2.conversations.get? identifier = none := by
  unfold History.message at h
  split at h
  · cases h
    exact hnone
  · rename_i row hrow
    split at h
    · cases h
      exact hnone
    · split at h
      · cases h
        exact hnone
      · simp only [bind_ok, pure_ok] at h
        obtain ⟨_, _, heq⟩ := h
        rw [← heq]
        unfold History.put
        rw [Dict.get?_set]
        split
        · rename_i hsame
          rw [hsame, hrow] at hnone
          cases hnone
        · exact hnone

/-- Writing brings no conversation back. -/
theorem write_absent (h : data.write p captureSync = .ok data')
    (hnone : data.conversations.get? identifier = none) :
    data'.conversations.get? identifier = none := by
  rcases (write_ok h).conversations identifier with hsame | ⟨hgone, _⟩
  · rw [hsame]
    exact hnone
  · exact hgone

/-- Neither does a result that comes late. -/
theorem finish_absent {result : Outcome} (h : data.finish p taskId result now = .ok data')
    (hnone : data.conversations.get? identifier = none) :
    data'.conversations.get? identifier = none := by
  unfold History.finish at h
  simp only [bind_ok, demand_ok] at h
  obtain ⟨run, _, h⟩ := h
  split at h
  · cases h
    exact hnone
  · simp only [bind_ok] at h
    obtain ⟨shown, hshown, hwrite⟩ := h
    exact write_absent hwrite (message_absent hshown hnone)

theorem wait_absent (h : data.wait p taskId now = .ok data')
    (hnone : data.conversations.get? identifier = none) :
    data'.conversations.get? identifier = none := by
  unfold History.wait at h
  simp only [bind_ok, demand_ok] at h
  obtain ⟨run, _, h⟩ := h
  split at h
  · cases h
    exact hnone
  · simp only [bind_ok] at h
    obtain ⟨shown, hshown, h⟩ := h
    split at h
    · cases h
      exact hnone
    · exact write_absent h (message_absent hshown hnone)

/-- The question and an empty answer are appended. -/
theorem begin_messages (hnew : data.runs.get? taskId = none)
    (h : data.begin p taskId intent preview now = .ok data') :
    ∃ row row', data.conversations.get? intent.conversationId = some row ∧
      data'.conversations.get? intent.conversationId = some row' ∧
      row'.messages = row.messages ++
        [question taskId intent.question now, answer taskId preview now] := by
  unfold History.begin at h
  simp only [bind_ok, require_ok] at h
  obtain ⟨_, _, h⟩ := h
  rw [hnew] at h
  unfold History.beginNew at h
  simp only [bind_ok, demand_ok, require_ok] at h
  obtain ⟨row, hrow, _, _, _, _, _, _, hwrite⟩ := h
  refine ⟨row, { row.asked p taskId intent preview now with revision := row.revision + 1 },
    hrow, ?_, rfl⟩
  rcases (write_ok hwrite).conversations intent.conversationId with hsame | ⟨_, hidle⟩
  · rw [hsame]
    exact Dict.get?_set_self _ _ _
  · -- the new run keeps its conversation in the file
    have hbusy := active_iff.mpr ⟨taskId, RunRecord.begun taskId intent preview row.networkId
      (intent.fingerprint p), Dict.get?_set_self data.runs _ _, rfl, rfl⟩
    exact absurd (hbusy.symm.trans hidle) (by decide)

/-! ### The worker -/

/-- What the worker relies on at each of its stages. -/
def Held (data : History) (history : List Event) : Stage → Prop
  | .submitting run => run.Named run.taskId ∧ .dispatching run.taskId ∈ history ∧
      ∀ body, .submitted run.taskId body ∉ history
  | .archiving _ result => result.state.any RunState.terminal = true
  | .acknowledging taskId =>
      (∃ run, data.runs.get? taskId = some run ∧ run.state.terminal = true) ∧
        ∃ result before after, .archived taskId result before after ∈ history
  | .closing _ state => state.terminal = true
  | _ => True

/-- What comes before an event. -/
def Accounted : Event → List Event → Prop
  | .began taskId _, past => ∀ identifier, .began taskId identifier ∉ past
  | .submitted taskId body, past => body.taskId = taskId ∧ .dispatching taskId ∈ past ∧
      ∀ other, .submitted taskId other ∉ past
  | .archived taskId result before after, _ => Archived taskId result before after
  | .acknowledged taskId, past =>
      ∃ result before after, .archived taskId result before after ∈ past
  | _, _ => True

structure Inv (w : World) : Prop where
  sound : Sound w.disk
  justified : Justified Accounted w.history
  began : ∀ taskId identifier, .began taskId identifier ∈ w.history →
    w.disk.runs.get? taskId ≠ none
  dispatched : ∀ taskId, .dispatching taskId ∈ w.history →
    ∃ run, w.disk.runs.get? taskId = some run ∧ run.state ≠ .queued
  acknowledged : ∀ taskId, .acknowledged taskId ∈ w.history →
    ∃ run, w.disk.runs.get? taskId = some run ∧ run.state.terminal = true
  held : Held w.disk w.history w.worker

/-- A run that has ended stays ended. -/
theorem Lasts.terminal (h : Lasts data data')
    (hended : ∃ run, data.runs.get? taskId = some run ∧ run.state.terminal = true) :
    ∃ run, data'.runs.get? taskId = some run ∧ run.state.terminal = true := by
  obtain ⟨run, hget, hterminal⟩ := hended
  obtain ⟨run', hget', hsame, _⟩ := h.runs taskId run hget
  exact ⟨run', hget', by rw [hsame hterminal]; exact hterminal⟩

/-- What the worker holds outlasts every change. -/
theorem Held.lasts {history : List Event} {stage : Stage} (h : Held data history stage)
    (hlasts : Lasts data data') : Held data' history stage := by
  cases stage with
  | acknowledging taskId => exact ⟨hlasts.terminal h.1, h.2⟩
  | _ => exact h

/-- An event that is no submission leaves what the worker relies on. -/
theorem Held.cons {history : List Event} {stage : Stage} (h : Held data history stage)
    {event : Event} (hevent : ∀ taskId body, event ≠ .submitted taskId body) :
    Held data (event :: history) stage := by
  cases stage with
  | submitting run =>
    obtain ⟨hname, hdispatching, hnone⟩ := h
    refine ⟨hname, .tail _ hdispatching, fun body hmem => ?_⟩
    rcases List.mem_cons.mp hmem with heq | hmem
    · exact hevent _ _ heq.symm
    · exact hnone body hmem
  | acknowledging taskId =>
    obtain ⟨hended, result, before, after, hmem⟩ := h
    exact ⟨hended, result, before, after, .tail _ hmem⟩
  | _ => exact h

namespace Inv

variable {w : World}

/-- The empty history is sound. -/
theorem initial : Inv .initial where
  sound := by
    refine ⟨?_, ?_, ?_, ?_, ?_, ?_⟩
    · intro _ _ h
      cases h
    · intro _ _ h
      cases h
    · rintro _ _ _ ⟨_, h, _⟩
      cases h
    · intro _ _ h
      cases h
    · intro _ _ _ _ h
      cases h
    · rintro _ _ ⟨_, h, _⟩
      cases h
  justified := trivial
  began := nofun
  dispatched := nofun
  acknowledged := nofun
  held := trivial

/-- A transaction leaves what the worker relies on. -/
theorem store (h : Inv w) {disk : History} (hmoves : Moves w.disk disk) : Inv (w.store disk) := by
  obtain ⟨hsound, hlasts⟩ := hmoves h.sound
  refine ⟨hsound, h.justified, ?_, ?_, ?_, h.held.lasts hlasts⟩
  · intro taskId identifier hmem
    obtain ⟨run, hrun⟩ := Option.ne_none_iff_exists'.mp (h.began taskId identifier hmem)
    obtain ⟨run', hrun', _⟩ := hlasts.runs taskId run hrun
    change disk.runs.get? taskId ≠ none
    rw [hrun']
    exact Option.some_ne_none run'
  · intro taskId hmem
    obtain ⟨run, hrun, hstate⟩ := h.dispatched taskId hmem
    obtain ⟨run', hrun', _, hstate'⟩ := hlasts.runs taskId run hrun
    exact ⟨run', hrun', hstate' hstate⟩
  · intro taskId hmem
    exact hlasts.terminal (h.acknowledged taskId hmem)

/-- The worker goes on with what it holds. -/
theorem work (h : Inv w) {stage : Stage} (hheld : Held w.disk w.history stage) :
    Inv (w.work stage) :=
  ⟨h.sound, h.justified, h.began, h.dispatched, h.acknowledged, hheld⟩

/-- Every submitted task was dispatched before. -/
theorem submitted (h : Inv w) {body : Body} (hmem : .submitted taskId body ∈ w.history) :
    .dispatching taskId ∈ w.history := by
  obtain ⟨past, ⟨_, hdispatched, _⟩, hsub⟩ := h.justified.of_mem hmem
  exact hsub _ hdispatched

/-- An event that is accounted for is noted. -/
theorem log (h : Inv w) {event : Event} (haccounted : Accounted event w.history)
    (hbegan : ∀ taskId identifier, event = .began taskId identifier →
      w.disk.runs.get? taskId ≠ none)
    (hdispatched : ∀ taskId, event = .dispatching taskId →
      ∃ run, w.disk.runs.get? taskId = some run ∧ run.state ≠ .queued)
    (hacknowledged : ∀ taskId, event = .acknowledged taskId →
      ∃ run, w.disk.runs.get? taskId = some run ∧ run.state.terminal = true)
    (hheld : Held w.disk (event :: w.history) w.worker) : Inv (w.log event) := by
  refine ⟨h.sound, h.justified.cons haccounted, ?_, ?_, ?_, hheld⟩
  · intro taskId identifier hmem
    rcases List.mem_cons.mp hmem with heq | hmem
    · exact hbegan taskId identifier heq.symm
    · exact h.began taskId identifier hmem
  · intro taskId hmem
    rcases List.mem_cons.mp hmem with heq | hmem
    · exact hdispatched taskId heq.symm
    · exact h.dispatched taskId hmem
  · intro taskId hmem
    rcases List.mem_cons.mp hmem with heq | hmem
    · exact hacknowledged taskId heq.symm
    · exact h.acknowledged taskId hmem

/-- A task begins. -/
theorem begin_step (h : Inv w) {disk : History}
    (hbegin : w.disk.begin p taskId intent preview now = .ok disk)
    (hnew : w.disk.runs.get? taskId = none) :
    Inv ((w.store disk).log (.began taskId intent.conversationId)) := by
  obtain ⟨hmoves, ⟨run, hrun⟩, _⟩ := begin_ok hbegin
  have hstored : Inv (w.store disk) := h.store hmoves
  refine hstored.log ?_ ?_ ?_ ?_ ?_
  · intro identifier hmem
    exact h.began taskId identifier hmem hnew
  · intro other identifier heq
    cases heq
    change disk.runs.get? taskId ≠ none
    rw [hrun]
    exact Option.some_ne_none run
  · nofun
  · nofun
  · exact hstored.held.cons fun _ _ heq => by cases heq

/-- The worker claims a task. -/
theorem claim_step (h : Inv w) {run : RunRecord} {disk : History}
    (hrun : w.disk.runs.get? taskId = some run) (hpending : run.state.terminal = false)
    (hclaim : w.disk.claim p taskId run = .ok disk) :
    Inv (((w.store disk).work (Stage.claimed (w.disk.claimed run) (run.state = .queued))).logs
      (if run.state = .queued then [.dispatching taskId] else [])) := by
  obtain ⟨hmoves, hstate⟩ := claim_ok hrun hpending hclaim
  have hstored : Inv (w.store disk) := h.store hmoves
  by_cases hqueued : run.state = .queued
  · rw [if_pos hqueued]
    -- a queued run was never dispatched, so it was never submitted
    have hfresh : ∀ body, .submitted taskId body ∉ w.history := by
      intro body hmem
      obtain ⟨stored, hget, hnot⟩ := h.dispatched taskId (h.submitted hmem)
      rw [hrun] at hget
      rw [← Option.some.inj hget] at hnot
      exact hnot hqueued
    have hidle : Inv ((w.store disk).work .idle) := hstored.work trivial
    have hlogged : Inv (((w.store disk).work .idle).log (.dispatching taskId)) := by
      refine hidle.log trivial ?_ ?_ ?_ trivial
      · nofun
      · intro other heq
        cases heq
        obtain ⟨run', hget, hdispatching⟩ := hstate hqueued
        refine ⟨run', hget, ?_⟩
        rw [hdispatching]
        nofun
      · nofun
    have hname : (w.disk.claimed run).Named taskId := h.sound.named taskId run hrun
    have hheld : Held disk (.dispatching taskId :: w.history)
        (Stage.claimed (w.disk.claimed run) (run.state = .queued)) := by
      unfold Stage.claimed
      rw [decide_eq_true hqueued]
      split
      · rfl
      refine ⟨hname.1.symm ▸ hname, ?_, ?_⟩
      · rw [hname.1]
        exact (.head _)
      · intro body hmem
        rw [hname.1] at hmem
        rcases List.mem_cons.mp hmem with heq | hmem
        · cases heq
        · exact hfresh body hmem
    exact hlogged.work hheld
  · rw [if_neg hqueued]
    refine hstored.work ?_
    rw [decide_eq_false hqueued]
    trivial

/-- The worker submits a body. -/
theorem submit_step (h : Inv w) {run : RunRecord} {body : Body}
    (hworker : w.worker = .submitting run) (hbody : run.body = some body) {next : Stage}
    (hnext : next = .cancelling run ∨ next = .closing run.taskId .interrupted ∨ next = .idle) :
    Inv ((w.work next).log (.submitted run.taskId body)) := by
  have hheld := h.held
  rw [hworker] at hheld
  obtain ⟨hname, hdispatching, hnone⟩ := hheld
  have hstage : ∀ history, Held w.disk history next := by
    intro history
    rcases hnext with heq | heq | heq
    · rw [heq]
      trivial
    · rw [heq]
      rfl
    · rw [heq]
      trivial
  refine (h.work (hstage w.history)).log ⟨hname.2 body hbody, hdispatching, hnone⟩ ?_ ?_ ?_
    (hstage _)
  · nofun
  · nofun
  · nofun

/-- The worker acknowledges an archived result. -/
theorem acknowledge_step (h : Inv w) (hworker : w.worker = .acknowledging taskId) :
    Inv ((w.work .idle).log (.acknowledged taskId)) := by
  have hheld := h.held
  rw [hworker] at hheld
  have hidle : Inv (w.work .idle) := h.work trivial
  refine hidle.log hheld.2 ?_ ?_ ?_ trivial
  · nofun
  · nofun
  · intro other heq
    cases heq
    exact hheld.1

/-- The outcome of a task is in the file before the task is acknowledged. -/
theorem archive_step (h : Inv w) {result : Outcome} {disk : History}
    (hworker : w.worker = .archiving taskId result)
    (hfinish : w.disk.finish p taskId result now = .ok disk) :
    Inv (((w.store disk).work (.acknowledging taskId)).log
      (.archived taskId result w.disk disk)) := by
  have hheld := h.held
  rw [hworker] at hheld
  obtain ⟨hmoves, hended⟩ := finish_ok hheld hfinish
  have hidle : Inv ((w.store disk).work .idle) := (h.store hmoves).work trivial
  have hlogged : Inv (((w.store disk).work .idle).log (.archived taskId result w.disk disk)) := by
    refine hidle.log (finish_archives (h.sound.named taskId) hheld hfinish) ?_ ?_ ?_ trivial
    all_goals
      intros
      rename_i heq
      cases heq
  exact hlogged.work ⟨hended, result, w.disk, disk, (.head _)⟩

theorem judged (taskId : String) (result : Outcome) (data : History) (history : List Event) :
    Held data history (Stage.judged taskId result) := by
  unfold Stage.judged
  split
  · rename_i hended
    rw [Bool.and_eq_true] at hended
    exact hended.1
  · trivial

variable {w' : World}

/-- **The step lemma.** -/
theorem step (h : Inv w) (hstep : Step p w w') : Inv w' := by
  cases hstep with
  | begin taskId intent preview now hbegin hnew => exact h.begin_step hbegin hnew
  | again taskId intent preview now hbegin hknown => exact h.store (begin_ok hbegin).1
  | cancel taskId now hcancel => exact h.store (cancel_ok hcancel)
  | save value expectedRevision hsave => exact h.store (save_ok hsave)
  | remove identifier expectedRevision hremove => exact h.store (remove_ok hremove)
  | enableSync actor henable => exact h.store (enableSync_ok henable)
  | syncReceive rows hreceive => exact h.store (syncReceive_ok hreceive)
  | stop => exact h.work trivial
  | claim taskId hworker hrun hpending hclaim => exact h.claim_step hrun hpending hclaim
  | submit hworker hbody next hnext => exact h.submit_step hworker hbody hnext
  | cancelOrder hworker hcancel next hnext =>
    refine h.work ?_
    rcases hnext with heq | ⟨detail, heq⟩
    · rw [heq]
      trivial
    · rw [heq]
      trivial
  | noCancel hworker hcancel => exact h.work trivial
  | deliver hworker hmark =>
    refine (h.store (mark_ok ?_ hmark)).work trivial
    intro run
    exact ⟨fun _ hname => hname, rfl, rfl⟩
  | check hworker result =>
    refine h.work ?_
    split
    · trivial
    · exact judged _ _ _ _
  | unknown hworker => exact h.work rfl
  | note hworker hmark =>
    refine (h.store (mark_ok ?_ hmark)).work (judged _ _ _ _)
    intro run
    exact ⟨fun _ hname => hname, rfl, rfl⟩
  | archive now hworker hfinish => exact h.archive_step hworker hfinish
  | acknowledge hworker => exact h.acknowledge_step hworker
  | close now hworker hfinish =>
    have hheld := h.held
    rw [hworker] at hheld
    exact (h.store (finish_ok (only_terminal hheld) hfinish).1).work trivial
  | wait now hworker hwait => exact (h.store (wait_ok hwait)).work trivial

/-- **The run lemma.** -/
theorem run (h : Inv w) (hrun : Run p w w') : Inv w' := by
  induction hrun with
  | refl => exact h
  | step _ hstep ih => exact ih.step hstep

/-- Every step is a sound change of the stored history. -/
theorem moves (h : Inv w) (hstep : Step p w w') : Moves w.disk w'.disk := by
  cases hstep with
  | begin taskId intent preview now hbegin hnew => exact (begin_ok hbegin).1
  | again taskId intent preview now hbegin hknown => exact (begin_ok hbegin).1
  | cancel taskId now hcancel => exact cancel_ok hcancel
  | save value expectedRevision hsave => exact save_ok hsave
  | remove identifier expectedRevision hremove => exact remove_ok hremove
  | enableSync actor henable => exact enableSync_ok henable
  | syncReceive rows hreceive => exact syncReceive_ok hreceive
  | claim taskId hworker hrun hpending hclaim =>
    have hmoves := (claim_ok hrun hpending hclaim).1
    split
    · exact hmoves
    · exact hmoves
  | deliver hworker hmark | note hworker hmark =>
    refine mark_ok ?_ hmark
    intro run
    exact ⟨fun _ hname => hname, rfl, rfl⟩
  | archive now hworker hfinish =>
    have hheld := h.held
    rw [hworker] at hheld
    exact (finish_ok hheld hfinish).1
  | close now hworker hfinish =>
    have hheld := h.held
    rw [hworker] at hheld
    exact (finish_ok (only_terminal hheld) hfinish).1
  | wait now hworker hwait => exact wait_ok hwait
  | _ => exact Moves.refl w.disk

theorem lasts (h : Inv w) (hrun : Run p w w') : Lasts w.disk w'.disk := by
  induction hrun with
  | refl => exact Lasts.refl w.disk
  | step hrun hstep ih =>
    have hmiddle := h.run hrun
    exact ih.trans (hmiddle.moves hstep hmiddle.sound).2

end Inv

/-- What holds of every world: requests, outcomes, and the conversations they belong to. -/
theorem asks_safe {w : World} (h : Run p .initial w) :
    (∀ later past taskId body, w.history = later ++ .submitted taskId body :: past →
      body.taskId = taskId ∧ .dispatching taskId ∈ past ∧
        ∀ other, .submitted taskId other ∉ past) ∧
    (∀ taskId, .dispatching taskId ∈ w.history →
      ∃ run, w.disk.runs.get? taskId = some run ∧ run.state ≠ .queued) ∧
    (∀ taskId run, w.disk.runs.get? taskId = some run → run.state.terminal = true →
      run.body = none ∧ ∀ w', Run p w w' → ∃ run', w'.disk.runs.get? taskId = some run' ∧
        run'.state = run.state ∧ run'.body = none) ∧
    (∀ taskId, .acknowledged taskId ∈ w.history →
      ∃ run, w.disk.runs.get? taskId = some run ∧ run.state.terminal = true) ∧
    (∀ later past taskId, w.history = later ++ .acknowledged taskId :: past →
      ∃ result before after, .archived taskId result before after ∈ past ∧
        Archived taskId result before after) ∧
    (∀ identifier first second, Pending w.disk.runs first identifier →
      Pending w.disk.runs second identifier → first = second) ∧
    (∀ taskId intent preview now disk, w.disk.begin p taskId intent preview now = .ok disk →
      (w.disk.runs.get? taskId ≠ none → disk = w.disk) ∧
      (w.disk.runs.get? taskId = none → ∃ row row',
        w.disk.conversations.get? intent.conversationId = some row ∧
        disk.conversations.get? intent.conversationId = some row' ∧
        row'.messages = row.messages ++
          [question taskId intent.question now, answer taskId preview now])) ∧
    (∀ later past taskId identifier, w.history = later ++ .began taskId identifier :: past →
      ∀ other, .began taskId other ∉ past) ∧
    (∀ identifier conversation, w.disk.conversations.get? identifier = some conversation →
      (messageIds conversation).Nodup ∧ ∀ taskId, Pending w.disk.runs taskId identifier →
        questionId taskId ∈ messageIds conversation ∧
          answerId taskId ∈ messageIds conversation) ∧
    (∀ identifier, w.disk.conversations.get? identifier = none →
      (∀ taskId result now disk, w.disk.finish p taskId result now = .ok disk →
        disk.conversations.get? identifier = none) ∧
      (∀ taskId now disk, w.disk.wait p taskId now = .ok disk →
        disk.conversations.get? identifier = none)) ∧
    (∀ identifier, w.disk.tombstones.get? identifier ≠ none →
      w.disk.conversations.get? identifier = none →
      ∀ w', Run p w w' → w'.disk.conversations.get? identifier = none) := by
  have hinv : Inv w := Inv.initial.run h
  have hjustified := Justified.justified_iff.mp hinv.justified
  refine ⟨?_, hinv.dispatched, ?_, hinv.acknowledged, ?_, hinv.sound.single, ?_, ?_, ?_, ?_, ?_⟩
  · intro later past taskId body hsplit
    exact hjustified later _ past hsplit
  · intro taskId run hget hended
    refine ⟨hinv.sound.bodies taskId run hget hended, ?_⟩
    intro w' hrun
    obtain ⟨run', hget', hsame, _⟩ := (hinv.lasts hrun).runs taskId run hget
    refine ⟨run', hget', hsame hended, (hinv.run hrun).sound.bodies taskId run' hget' ?_⟩
    rw [hsame hended]
    exact hended
  · intro later past taskId hsplit
    obtain ⟨result, before, after, hmem⟩ := hjustified later _ past hsplit
    have hpast : .archived taskId result before after ∈ w.history := by simp [hsplit, hmem]
    obtain ⟨_, harchived, -⟩ := hinv.justified.of_mem hpast
    exact ⟨result, before, after, hmem, harchived⟩
  · intro taskId intent preview now disk hbegin
    exact ⟨(begin_ok hbegin).2.2, fun hnew => begin_messages hnew hbegin⟩
  · intro later past taskId identifier hsplit
    exact hjustified later _ past hsplit
  · intro identifier conversation hget
    refine ⟨hinv.sound.distinct identifier conversation hget, ?_⟩
    intro taskId hpending
    exact hinv.sound.shown taskId identifier conversation hpending hget
  · intro identifier hnone
    exact ⟨fun _ _ _ _ hfinish => finish_absent hfinish hnone,
      fun _ _ _ hwait => wait_absent hwait hnone⟩
  · intro identifier hdeleted hnone w' hrun
    exact (hinv.lasts hrun).deleted identifier hdeleted hnone

/-! ### A run with one request -/

def samplePlatform : Platform where
  isTimestamp := fun _ => true
  strip := id
  fingerprint := fun parts => String.join (parts.map fun part => part.getD "")
  valueFingerprint := fun value => (value.map Conversation.title).getD ""
  recordFingerprint := fun _ => ""
  size := fun value => value.messages.length
  recordSize := fun record => record.heads.length
  historySize := fun data => data.conversations.entries.length

def sampleConversation : Conversation :=
  ⟨"c", "Title", "p::s", "Service", "p", "net", "0", "0", [], 0, none, none⟩

def sampleTask : String := "task_00000000000000000000000000000000"

def sampleHash : String := String.ofList (List.replicate 64 '0')

def sampleIntent : Intent := ⟨"c", 1, "Why?", sampleHash, none⟩

def samplePreview : Preview := ⟨sampleHash, none, [], "p", "s", "Why?", "text", 10⟩

def sampleRun : RunRecord :=
  .begun sampleTask sampleIntent samplePreview "net" (sampleIntent.fingerprint samplePlatform)

/-- The history of a call that went through. -/
def stored : Except String History → History
  | .ok data => data
  | .error _ => .empty

theorem stored_of_isOk {result : Except String History} (h : result.isOk = true) :
    result = .ok (stored result) := by
  cases result with
  | ok _ => rfl
  | error _ => cases h

def sampleSaved : History := stored (History.empty.save samplePlatform sampleConversation 0)

def sampleBegun : History :=
  stored (sampleSaved.begin samplePlatform sampleTask sampleIntent samplePreview "1")

def sampleClaimed : History := stored (sampleBegun.claim samplePlatform sampleTask sampleRun)

def sampleBody : Body := ⟨sampleTask, "p", "s", "net", "Why?", "text", none, 10⟩

/-- The events of the run up to the call that submits it. -/
def sampleSubmitted : List Event :=
  [.submitted sampleTask sampleBody, .dispatching sampleTask, .began sampleTask "c"]

def sampleOutcome : Outcome :=
  ⟨some .succeeded, false, some "Because.", none, some 3, some 4, some (1 / 2)⟩

def sampleFinished : History :=
  stored (sampleClaimed.finish samplePlatform sampleTask sampleOutcome "2")

/-- The events of the run up to the call that acknowledges it. -/
def sampleArchived : List Event :=
  .archived sampleTask sampleOutcome sampleClaimed sampleFinished :: sampleSubmitted

def sampleWorld : World :=
  ⟨sampleFinished, .idle, .acknowledged sampleTask :: sampleArchived⟩

theorem sample_evaluates :
    ((History.empty.save samplePlatform sampleConversation 0).isOk = true ∧
      (sampleSaved.begin samplePlatform sampleTask sampleIntent samplePreview "1").isOk = true ∧
      sampleSaved.runs.get? sampleTask = none) ∧
    sampleBegun.runs.get? sampleTask = some sampleRun ∧
    (sampleBegun.claim samplePlatform sampleTask sampleRun).isOk = true ∧
    (sampleClaimed.finish samplePlatform sampleTask sampleOutcome "2").isOk = true := by
  decide +kernel

theorem sampleWorld_run : Run samplePlatform .initial sampleWorld := by
  obtain ⟨⟨hsave, hbegin, hnew⟩, hrun, hclaim, hfinish⟩ := sample_evaluates
  have hsaved : Run samplePlatform .initial ⟨sampleSaved, .idle, []⟩ :=
    Run.step .refl (.save sampleConversation 0 (stored_of_isOk hsave))
  have hbegun : Run samplePlatform .initial ⟨sampleBegun, .idle, [.began sampleTask "c"]⟩ :=
    Run.step hsaved (.begin sampleTask sampleIntent samplePreview "1"
      (stored_of_isOk hbegin) hnew)
  have hclaimed := Run.step hbegun (Step.claim sampleTask rfl hrun rfl (stored_of_isOk hclaim))
  have hsubmitted := Run.step hclaimed (Step.submit rfl rfl (.cancelling _) (.inl rfl))
  have hchecking := Run.step hsubmitted (Step.noCancel rfl (fun h => nomatch h.1))
  have harchiving := Run.step hchecking (Step.check rfl sampleOutcome)
  have harchived := Run.step harchiving (Step.archive "2" rfl
    (stored_of_isOk hfinish))
  exact Run.step harchived (Step.acknowledge rfl)

theorem asks_safe_sample :
    (∀ other, Event.submitted sampleTask other ∉ [.dispatching sampleTask, .began sampleTask "c"]) ∧
      (∃ result before after, Event.archived sampleTask result before after ∈ sampleArchived ∧
        Archived sampleTask result before after) ∧
      ∃ answer ∈ ((sampleFinished.conversations.get? "c").map (·.messages)).getD [],
        answer.content = "Because." ∧ answer.status = .complete := by
  have h := asks_safe sampleWorld_run
  exact ⟨(h.1 [.acknowledged sampleTask, .archived sampleTask sampleOutcome sampleClaimed
      sampleFinished] _ sampleTask sampleBody rfl).2.2,
    h.2.2.2.2.1 [] sampleArchived sampleTask rfl, by decide +kernel⟩

end Ask
