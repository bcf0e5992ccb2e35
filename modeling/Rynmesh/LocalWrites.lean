import Rynmesh.AskSyncWrites
import Rynmesh.ReadingWrites

/-!
# Local writes keep what the owner has not seen

`local_writes_keep_unseen` says it of the reading history and of conversations
alike, in every state that their calls lead to. Its sample needs fingerprints
that tell all values apart: texts of documents.
-/

namespace Reading

open SyncValues Records

/-- Projections are below their records, and ordinary writes keep what these had not observed
and use counters of their own. -/
structure KeepsUnseen (lib : Library) (state : ReadingState) (used : List Used) : Prop where
  below : ∀ key entity, state.entities.get? key = some entity →
    ∃ merged, merge (lib.scope entity.scope) entity.id entity.record entity.projected =
      .ok merged ∧ merged.canonical = entity.record.canonical
  writes : ∀ scope identifier value next,
    state.write lib scope identifier value none = .ok next →
    ∃ cleaned, cleanValue (lib.scope scope) identifier value = .ok cleaned ∧
      LocalWrite (lib.scope scope) identifier state.actor
        (state.entity lib scope identifier).record (state.entity lib scope identifier).projected
        (next.entity lib scope identifier).record cleaned ∧
      ∀ counter, (scope, identifier, counter) ∈ used →
        counter < (next.entity lib scope identifier).record.clockAt state.actor

theorem Sound.keepsUnseen {lib : Library} {state : ReadingState} {used : List Used}
    (h : Sound lib state used) (hlib : lib.Collisionless) : KeepsUnseen lib state used where
  below := fun key entity hget => (h.entities key entity hget).2.absorbs (lib.canonical _)
  writes := fun _ _ _ _ hwrite => h.localWrite hlib hwrite

end Reading

namespace Ask.Sync

open Records

/-- Projections are below their records, and ordinary writes keep what these had not observed
and use counters of their own. -/
structure KeepsUnseen (p : Platform) (state : SyncState) (used : List Used) : Prop where
  below : ∀ identifier entity, state.entities.get? identifier = some entity →
    ∃ merged, merge (scope p) identifier entity.record entity.projected = .ok merged ∧
      merged.canonical = entity.record.canonical
  writes : ∀ identifier value next, state.write p identifier value false = .ok next →
    ∃ cleaned, cleanValue (scope p) identifier value = .ok cleaned ∧
      LocalWrite (scope p) identifier state.actor (state.shown identifier).record
        (state.shown identifier).projected (next.shown identifier).record cleaned ∧
      ∀ counter, (identifier, counter) ∈ used →
        counter < (next.shown identifier).record.clockAt state.actor

theorem Sound.keepsUnseen {p : Platform} {state : SyncState} {used : List Used}
    (h : Sound p state used) (hp : p.Faithful) : KeepsUnseen p state used where
  below := fun identifier entity hget => (h.entities identifier entity hget).absorbs hp.sizes
  writes := fun _ _ _ hwrite => h.localWrite hp hwrite

end Ask.Sync

namespace Records

/-- **Local writes keep what the owner has not seen**, whatever calls came before, in the
reading history and in the conversations. -/
theorem local_writes_keep_unseen (lib : Reading.Library) (hlib : lib.Collisionless)
    (p : Ask.Platform) (hp : p.Faithful) :
    (∀ state used, Reading.Reached lib state used → Reading.KeepsUnseen lib state used ∧
      ∀ call next, state.call lib call = .ok next → Reading.Goes lib used next) ∧
    (∀ state used, Ask.Sync.Reached p state used → Ask.Sync.KeepsUnseen p state used ∧
      ∀ call next, state.call p call = .ok next → Ask.Sync.Goes p used next) :=
  ⟨fun _ _ h => ⟨(h.sound hlib).keepsUnseen hlib, fun _ _ hcall => h.call hcall⟩,
    fun _ _ h => ⟨(h.sound hp).keepsUnseen hp, fun _ _ hcall => h.call hcall⟩⟩

end Records

/-! ### Fingerprints that tell values apart -/

namespace Json

/-- A value that may be missing. -/
def optional {α : Type} (document : α → Json) : Option α → Json
  | none => .null
  | some a => .arr [document a]

theorem optional_injective {α : Type} {document : α → Json}
    (h : Function.Injective document) : Function.Injective (optional document) := by
  intro a b heq
  cases a with
  | none =>
    cases b with
    | none => rfl
    | some b => simp [optional] at heq
  | some a =>
    cases b with
    | none => simp [optional] at heq
    | some b =>
      simp only [optional, Json.arr.injEq, List.cons.injEq, and_true] at heq
      rw [h heq]

def items {α : Type} (document : α → Json) (values : List α) : Json := .arr (values.map document)

theorem items_injective {α : Type} {document : α → Json} (h : Function.Injective document) :
    Function.Injective (items document) := by
  intro a b heq
  simp only [items, Json.arr.injEq] at heq
  exact List.map_injective_iff.mpr h heq

def natural (n : Nat) : Json := .int n

theorem natural_injective : Function.Injective natural := by
  intro a b heq
  simpa [natural] using heq

def amount (value : Rat) : Json := .float (some value) ""

theorem amount_injective : Function.Injective amount := by
  intro a b heq
  simpa [amount] using heq

theorem str_injective : Function.Injective Json.str := by
  intro a b heq
  simpa using heq

end Json

namespace Ask

open Json

def Role.document : Role → Json
  | .user => .str "user"
  | .assistant => .str "assistant"

theorem Role.document_injective : Function.Injective Role.document := by
  intro a b heq
  cases a <;> cases b <;> simp [Role.document] at heq ⊢

def MessageStatus.document : MessageStatus → Json
  | .complete => .str "complete"
  | .failed => .str "failed"
  | .cancelled => .str "cancelled"
  | .queued => .str "queued"
  | .running => .str "running"
  | .cancelRequested => .str "cancel_requested"
  | .interrupted => .str "interrupted"

theorem MessageStatus.document_injective : Function.Injective MessageStatus.document := by
  intro a b heq
  cases a <;> cases b <;> simp [MessageStatus.document] at heq ⊢

def Message.document (message : Message) : Json :=
  .arr [.str message.id, message.role.document, .str message.content, .str message.createdAt,
    message.status.document, optional .str message.taskId, optional amount message.inputTokens,
    optional amount message.outputTokens, optional amount message.cost,
    optional (items .str) message.contextIds, optional (items natural) message.contextBytes,
    optional .str message.promptSha256]

theorem Message.document_injective : Function.Injective Message.document := by
  intro a b heq
  simp only [Message.document, Json.arr.injEq, List.cons.injEq, Json.str.injEq, and_true] at heq
  obtain ⟨hid, hrole, hcontent, hcreated, hstatus, htask, hinput, houtput, hcost, hcontexts,
    hbytes, hprompt⟩ := heq
  have hrole := Role.document_injective hrole
  have hstatus := MessageStatus.document_injective hstatus
  have htask := optional_injective str_injective htask
  have hinput := optional_injective amount_injective hinput
  have houtput := optional_injective amount_injective houtput
  have hcost := optional_injective amount_injective hcost
  have hcontexts := optional_injective (items_injective str_injective) hcontexts
  have hbytes := optional_injective (items_injective natural_injective) hbytes
  have hprompt := optional_injective str_injective hprompt
  cases a
  cases b
  simp_all

def Conversation.document (value : Conversation) : Json :=
  .arr [.str value.id, .str value.title, .str value.serviceKey, .str value.serviceName,
    .str value.providerPeerId, .str value.networkId, .str value.createdAt, .str value.updatedAt,
    items Message.document value.messages, natural value.revision, optional .str value.draft,
    optional (items .str) value.contextIds]

theorem Conversation.document_injective : Function.Injective Conversation.document := by
  intro a b heq
  simp only [Conversation.document, Json.arr.injEq, List.cons.injEq, Json.str.injEq, and_true]
    at heq
  obtain ⟨hid, htitle, hkey, hname, hpeer, hnetwork, hcreated, hupdated, hmessages, hrevision,
    hdraft, hcontexts⟩ := heq
  have hmessages := items_injective Message.document_injective hmessages
  have hrevision := natural_injective hrevision
  have hdraft := optional_injective str_injective hdraft
  have hcontexts := optional_injective (items_injective str_injective) hcontexts
  cases a
  cases b
  simp_all

/-- The counters, the heads and the mark of a canonical record. -/
def canonicalDocument
    (text : List (String × Nat) × List (Records.Head Conversation) × Bool) : Json :=
  .arr [items (fun entry => .arr [.str entry.1, natural entry.2]) text.1,
    items (fun head => .arr [.str head.actor, natural head.counter,
      optional Conversation.document head.value]) text.2.1, .bool text.2.2]

theorem canonicalDocument_injective : Function.Injective canonicalDocument := by
  intro a b heq
  simp only [canonicalDocument, Json.arr.injEq, List.cons.injEq, Json.bool.injEq, and_true] at heq
  obtain ⟨hclock, hheads, herased⟩ := heq
  have hclock : a.1 = b.1 := by
    refine items_injective ?_ hclock
    intro x y hxy
    simp only [Json.arr.injEq, List.cons.injEq, Json.str.injEq, and_true] at hxy
    exact Prod.ext hxy.1 (natural_injective hxy.2)
  have hheads : a.2.1 = b.2.1 := by
    refine items_injective ?_ hheads
    intro x y hxy
    simp only [Json.arr.injEq, List.cons.injEq, Json.str.injEq, and_true] at hxy
    have hcounter := natural_injective hxy.2.1
    have hvalue := optional_injective Conversation.document_injective hxy.2.2
    cases x
    cases y
    simp_all
  exact Prod.ext hclock (Prod.ext hheads herased)

/-- A platform whose fingerprints are whole texts. -/
def textPlatform : Platform where
  isTimestamp := fun _ => true
  strip := id
  fingerprint := fun parts => String.join (parts.map fun part => part.getD "")
  valueFingerprint := fun value => String.ofList (optional Conversation.document value).encode
  recordFingerprint := fun record => String.ofList (canonicalDocument record.canonical).encode
  size := fun value => value.document.size
  recordSize := Records.Record.textSize fun value => (optional Conversation.document value).size
  historySize := fun data => data.conversations.entries.length

theorem textPlatform_faithful : textPlatform.Faithful where
  values := fun _ _ heq =>
    optional_injective Conversation.document_injective (Json.encode_injective heq)
  records := fun _ _ heq => canonicalDocument_injective (Json.encode_injective heq)
  sizes := ⟨_, fun _ => rfl⟩

end Ask

namespace Reading

open SyncValues

/-- A library whose fingerprints and keys are whole texts. -/
def textLibrary : Library where
  values :=
    { strip := id
      isTimestamp := fun _ => true
      urlsplit := fun _ => some ⟨"rynmesh", some "content", none, none⟩
      quote := id
      nearest := fun q => (q, "")
      fingerprint := fun value => String.ofList (Json.optional id value).encode }
  str := fun value => String.ofList value.encode
  splitLink := fun _ => none
  urlunsplit := SplitLink.path
  fingerprint := fun record => String.join (record.heads.map Records.Head.actor)
  entityKey := fun scope identifier => String.ofList ((match scope with
    | .bookmarks => 'b'
    | .reading => 'r'
    | .conversations => 'c') :: identifier.toList)

theorem textLibrary_collisionless : textLibrary.Collisionless where
  entityKey := by
    intro a b c d heq
    simp only [textLibrary, String.ofList_inj, List.cons.injEq, String.toList_inj] at heq
    refine ⟨?_, heq.2⟩
    have hscope := heq.1
    cases a <;> cases c <;> simp at hscope ⊢
  values := fun _ _ _ _ _ _ heq =>
    Json.optional_injective Function.injective_id (Json.encode_injective heq)

def sampleState : ReadingState := ⟨String.ofList (List.replicate 64 'a'), [], .empty, .empty⟩

def sampleBookmark : Json :=
  .obj [("item", .obj [("item_id", .str "item"), ("link", .str "rynmesh://content/item")]),
    ("bookmarked", .bool true)]

end Reading

/-- A paired device removed the bookmark, which this owner has not seen. -/
def Reading.sampleUnseen : Records.Head Json := ⟨String.ofList (List.replicate 64 'b'), 1, none⟩

def Reading.sampleReceived : Row :=
  ⟨.bookmarks, "item", ⟨Dict.empty.set sampleUnseen.actor 1, [sampleUnseen], false⟩⟩

theorem Records.local_writes_keep_unseen_sample :
    (∃ state used next cleaned, Reading.Reached Reading.textLibrary state used ∧
      state.write Reading.textLibrary .bookmarks "item" (some Reading.sampleBookmark) none =
        .ok next ∧
      LocalWrite (Reading.textLibrary.scope .bookmarks) "item" state.actor
        (state.entity Reading.textLibrary .bookmarks "item").record
        (state.entity Reading.textLibrary .bookmarks "item").projected
        (next.entity Reading.textLibrary .bookmarks "item").record cleaned ∧
      Reading.sampleUnseen ∈ (next.entity Reading.textLibrary .bookmarks "item").record.heads) ∧
    Ask.Sync.KeepsUnseen Ask.textPlatform ⟨Reading.sampleState.actor, .empty, .empty⟩ [] := by
  have hall := local_writes_keep_unseen Reading.textLibrary Reading.textLibrary_collisionless
    Ask.textPlatform Ask.textPlatform_faithful
  have hcreate : Reading.create Reading.sampleState.actor = .ok Reading.sampleState := by
    rfl
  have hsome : (Reading.sampleState.write Reading.textLibrary .bookmarks "item"
      (some Reading.sampleBookmark) none).toOption.any (fun first =>
        (first.mergeRow Reading.textLibrary Reading.sampleReceived).toOption.any fun state =>
          (state.write Reading.textLibrary .bookmarks "item" (some Reading.sampleBookmark)
            none).toOption.any fun next => decide (Reading.sampleUnseen ∈
              (next.entity Reading.textLibrary .bookmarks "item").record.heads)) = true := by
    decide +kernel
  obtain ⟨first, hfirst, hsome⟩ := Checked.toOption_any hsome
  obtain ⟨state, hmerge, hsome⟩ := Checked.toOption_any hsome
  obtain ⟨next, hwrite, hunseen⟩ := Checked.toOption_any hsome
  have hreached := ((Reading.Reached.created hcreate).wrote hfirst).merged (by decide) hmerge
  obtain ⟨cleaned, _, hlocal, _⟩ := (hall.1 _ _ hreached).1.writes _ _ _ _ hwrite
  exact ⟨⟨state, _, next, cleaned, hreached, hwrite, hlocal, of_decide_eq_true hunseen⟩,
    (hall.2 _ _ (.created .empty)).1⟩
