import Rynmesh.SyncValuesStable
import Mathlib.Tactic.Linarith

/-!
# Cleaning is idempotent

* `cleanMetadata_again`, `progress_again`: bookmarks and reading positions are
  cleaned to themselves;
* `write_accepts`: a write refuses no value that is cleaned to itself;
* `clean_value_idempotent_iff` concludes for every scope: cleaning twice is
  cleaning once, and the cleaned value can be written, exactly when no message
  is dropped or the new title is not blank and the whole fits;
* `blank_question` is a conversation that cannot be captured.
-/

namespace SyncValues

open Checked Json Rounding

variable {lib : Library} {value item : Json} {identifier : String}

/-! ### Items -/

theorem itemText_ok {message text : String} {limit : Nat} {given : Option Json} :
    itemText message limit given = .ok text ↔ (given.getD (.str "")).asStr? = some text ∧
      text.length ≤ limit ∧ text.toList.all (fun c => 32 ≤ c.toNat) = true := by
  simp only [itemText, bind_ok, demand_ok, require_ok, pure_ok]
  constructor
  · rintro ⟨found, hfound, _, hgood, heq⟩
    rw [← heq]
    exact ⟨hfound, hgood⟩
  · intro h
    exact ⟨text, h.1, (), h.2, rfl⟩

theorem itemText_again {message text : String} {limit : Nat} {given : Option Json}
    (h : itemText message limit given = .ok text) :
    itemText message limit (some (.str text)) = .ok text := by
  rw [itemText_ok] at h ⊢
  exact ⟨rfl, h.2⟩

theorem itemFields_again {limits : List (String × Nat)} {fields : List (String × Json)}
    (hnodup : (limits.map Prod.fst).Nodup) (h : itemFields item limits = .ok fields)
    {copy : Json} (hcopy : ∀ f ∈ limits, copy.get? f.1 = Dict.lookup f.1 fields) :
    itemFields copy limits = .ok fields := by
  induction limits generalizing fields with
  | nil => exact h
  | cons limit limits ih =>
    obtain ⟨key, limit⟩ := limit
    simp only [itemFields, bind_ok, pure_ok] at h
    obtain ⟨text, htext, fields', hrest, heq⟩ := h
    rw [List.map_cons, List.nodup_cons] at hnodup
    have hread : copy.get? key = some (.str text) := by
      rw [hcopy (key, limit) (.head _), ← heq]
      simp [Dict.lookup]
    have hrest' : itemFields copy limits = .ok fields' := by
      apply ih hnodup.2 hrest
      intro f hf
      have hne : ¬ key = f.1 := by
        intro hkey
        exact hnodup.1 (List.mem_map.mpr ⟨f, hf, hkey.symm⟩)
      rw [hcopy f (.tail _ hf), ← heq]
      simp [Dict.lookup, hne]
    simp only [itemFields, hread, itemText_again htext, hrest', ok_bind, heq]
    rfl

/-- **Metadata** is copied as it is. -/
theorem cleanMetadata_again {metadata copy : Json}
    (h : cleanMetadata lib identifier value = .ok metadata)
    (hcopy : copy.get? "item" = some metadata) :
    cleanMetadata lib identifier copy = .ok metadata := by
  simp only [cleanMetadata, bind_ok, demand_ok, require_ok, pure_ok] at h
  obtain ⟨item, _, _, _, fields, hfields, _, hlink, heq⟩ := h
  have hfields' : itemFields metadata ITEM_FIELDS = .ok fields := by
    apply itemFields_again (by decide) hfields
    intro f hf
    have hne : ¬ "item_id" = f.1 := by
      have hall : ∀ f ∈ ITEM_FIELDS, ¬ "item_id" = f.1 := by decide
      exact hall f hf
    rw [← heq]
    simp [get?, Dict.lookup, hne]
  have hobj : metadata.isObj = true ∧
      metadata.get? "item_id" = some (.str identifier) := by
    rw [← heq]
    exact ⟨rfl, by simp [get?, Dict.lookup]⟩
  simp only [cleanMetadata, hcopy, demand_some, require_of hobj, hfields', require_of hlink,
    ok_bind, heq]
  rfl

theorem flag_again {key : String} {found copy : Json} (h : flag value key = .ok found)
    (hcopy : copy.get? key = some found) : flag copy key = .ok found := by
  simp only [flag, bind_ok, demand_ok, pure_ok] at h
  obtain ⟨b, _, heq⟩ := h
  rw [← heq] at hcopy ⊢
  simp only [flag, hcopy, Option.bind_some, asBool?, demand_some, ok_bind]
  rfl

/-- The float nearest to a number with four decimal places from 0 to 1 lies from 0 to 1,
and much nearer to that number than to any other of them. -/
def Library.Near (lib : Library) : Prop :=
  ∀ places : Int, 0 ≤ places → places ≤ 10000 →
    |(lib.nearest (places / 10000)).1 - places / 10000| < 1 / 20000 ∧
      0 ≤ (lib.nearest (places / 10000)).1 ∧ (lib.nearest (places / 10000)).1 ≤ 1

theorem roundHalfEven_between {q : Rat} (hlow : 0 ≤ q) (hhigh : q ≤ 10000) :
    0 ≤ roundHalfEven q ∧ roundHalfEven q ≤ 10000 := by
  have hfloor : 0 ≤ ⌊q⌋ := Int.floor_nonneg.mpr hlow
  have hle : ⌊q⌋ ≤ 10000 := by
    have h := Int.floor_le_floor hhigh
    exact h
  -- at the upper end nothing is left to round
  have hlast : ⌊q⌋ = 10000 → q - ⌊q⌋ < 1 / 2 := by
    intro heq
    rw [heq]
    linarith
  unfold roundHalfEven
  split
  · exact ⟨hfloor, hle⟩
  rename_i hup
  have hne : ⌊q⌋ ≠ 10000 := fun heq => hup (hlast heq)
  split
  · exact ⟨by omega, by omega⟩
  · split
    · exact ⟨hfloor, hle⟩
    · exact ⟨by omega, by omega⟩

/-- **A rounded position** is rounded to itself. -/
theorem progress_again (hnear : lib.Near) {given : Option Json} {position : Json}
    (h : progress lib given = .ok position) : progress lib (some position) = .ok position := by
  unfold progress at h
  split at h
  · simp only [bind_ok, pure_ok] at h
    obtain ⟨_, hsmall, _, hrange, heq⟩ := h
    rw [require_ok] at hsmall hrange
    rw [← heq]
    simp only [progress, require_of hsmall, require_of hrange, ok_bind]
    rfl
  · next x _ =>
    simp only [bind_ok, require_ok, pure_ok] at h
    obtain ⟨_, hrange, heq⟩ := h
    obtain ⟨hlow, hhigh⟩ := roundHalfEven_between (q := x * 10000) (by linarith [hrange.1])
      (by linarith [hrange.2])
    obtain ⟨herror, hnonneg, hone⟩ := hnear (roundHalfEven (x * 10000)) hlow hhigh
    have hagain : roundHalfEven
        ((lib.nearest (roundHalfEven (x * 10000) / 10000)).1 * 10000) =
        roundHalfEven (x * 10000) := by
      apply roundHalfEven_near
      rw [abs_lt] at herror ⊢
      constructor <;> linarith [herror.1, herror.2]
    rw [← heq]
    simp only [roundFloat, progress, require_of (And.intro hnonneg hone), ok_bind, hagain]
    rfl
  · cases h

theorem cleanBookmark_again {cleaned : Json}
    (h : cleanBookmark lib identifier value = .ok cleaned) :
    cleanBookmark lib identifier cleaned = .ok cleaned := by
  simp only [cleanBookmark, bind_ok, pure_ok] at h
  obtain ⟨metadata, hmetadata, bookmarked, hbookmarked, heq⟩ := h
  have hitem : cleaned.get? "item" = some metadata := by
    rw [← heq]
    rfl
  have hflag : cleaned.get? "bookmarked" = some bookmarked := by
    rw [← heq]
    rfl
  simp only [cleanBookmark, cleanMetadata_again hmetadata hitem, flag_again hbookmarked hflag,
    ok_bind, heq]
  rfl

theorem cleanReading_again (hnear : lib.Near) {cleaned : Json}
    (h : cleanReading lib identifier value = .ok cleaned) :
    cleanReading lib identifier cleaned = .ok cleaned := by
  simp only [cleanReading, bind_ok, pure_ok] at h
  obtain ⟨metadata, hmetadata, position, hposition, completed, hcompleted, version, hversion,
    heq⟩ := h
  have hitem : cleaned.get? "item" = some metadata := by
    rw [← heq]
    rfl
  have hprogress : cleaned.get? "progress" = some position := by
    rw [← heq]
    rfl
  have hflag : cleaned.get? "completed" = some completed := by
    rw [← heq]
    rfl
  have htext : cleaned.get? "content_version" = some (.str version) := by
    rw [← heq]
    rfl
  simp only [cleanReading, cleanMetadata_again hmetadata hitem, hprogress,
    progress_again hnear hposition, flag_again hcompleted hflag, htext, itemText_again hversion,
    ok_bind, heq]
  rfl

/-! ### Writes -/

variable {scope : ScopeName} {cleaned : Json}

/-- The two refusals of a value. -/
def Refuses (message : String) : Prop :=
  message = "sync_value_invalid" ∨ message = "sync_conversation_invalid"

theorem validate_accepts {V : Type} [DecidableEq V] {scope : Records.Scope V}
    {record : Records.Record V}
    (h : ∀ head ∈ record.heads,
      Records.cleanValue scope identifier head.value = .ok head.value) :
    OnlyFails (fun message => ¬ Refuses message) (Records.validate scope identifier record) := by
  have hheads : ∀ (clock : Dict String Nat) (seen : List String) (heads : List (Records.Head V)),
      (∀ head ∈ heads, Records.cleanValue scope identifier head.value = .ok head.value) →
      OnlyFails (fun message => ¬ Refuses message)
        (Records.checkHeads scope identifier clock seen heads) := by
    intro clock seen heads hheads
    induction heads generalizing seen with
    | nil => simp [Records.checkHeads]
    | cons head rest ih =>
      have hhead := hheads head (.head _)
      have hrest := fun other hmem => hheads other (.tail _ hmem)
      simp only [Records.checkHeads, hhead, onlyFails_bind, onlyFails_require]
      refine ⟨fun _ => by simp [Refuses], fun _ _ => ⟨fun _ => by simp [Refuses], ?_⟩⟩
      intro _ _
      refine ⟨onlyFails_ok, ?_⟩
      intro found hfound
      injection hfound with hfound
      exact ⟨fun hne => absurd hfound.symm hne, fun _ _ => ih _ hrest⟩
  have hclock : ∀ entry : String × Nat, OnlyFails (fun message => ¬ Refuses message) (do
      require "sync_actor_invalid" (Records.isActorId entry.1 = true)
      require "sync_clock_invalid" (1 ≤ entry.2 ∧ entry.2 ≤ Records.maxCounter)) := by
    intro entry
    simp [Refuses]
  simp only [Records.validate, Records.checkBinding, onlyFails_bind, onlyFails_require,
    onlyFails_whenever]
  refine ⟨by simp [Refuses], fun _ _ => ⟨by simp [Refuses], fun _ _ =>
    ⟨onlyFails_forM hclock _, fun _ _ => ⟨hheads _ _ _ h, fun _ _ => ⟨by simp [Refuses],
      fun _ _ => ⟨by simp [Refuses], fun _ _ => by simp [Refuses]⟩⟩⟩⟩⟩⟩

/-- **A write** of a value that is cleaned to itself is not refused for the value. -/
theorem write_accepts {previous : Records.Record Json} {actor : String} {erase : Bool}
    (hclean : cleanValue lib scope identifier value = .ok cleaned)
    (hagain : cleanValue lib scope identifier cleaned = .ok cleaned)
    (hprevious : Records.validate (syncScope lib scope) identifier previous = .ok ()) :
    OnlyFails (fun message => ¬ Refuses message)
      (Records.write (syncScope lib scope) identifier previous actor (some value) erase) := by
  have hfirst : Records.cleanValue (syncScope lib scope) identifier (some value) =
      .ok (some cleaned) := by
    simp only [Records.cleanValue, syncScope, hclean]
    rfl
  have hsecond : Records.cleanValue (syncScope lib scope) identifier (some cleaned) =
      .ok (some cleaned) := by
    simp only [Records.cleanValue, syncScope, hagain]
    rfl
  have hwritten : ∀ head ∈ (previous.written actor (some cleaned) erase).heads,
      Records.cleanValue (syncScope lib scope) identifier head.value = .ok head.value := by
    intro head hhead
    unfold Records.Record.written at hhead
    split at hhead
    · cases hhead
    · rw [List.mem_singleton.mp hhead]
      exact hsecond
  simp only [Records.write, hprevious, hfirst, ok_bind, onlyFails_bind, onlyFails_require,
    Records.checkBinding, onlyFails_whenever]
  refine ⟨by simp [Refuses], fun _ _ => ⟨by simp [Refuses], fun _ _ => ⟨by simp [Refuses],
    fun _ _ => ⟨by simp [Refuses], fun _ _ => ⟨by simp [Refuses], fun _ _ =>
      ⟨validate_accepts hwritten, fun _ _ => onlyFails_pure⟩⟩⟩⟩⟩⟩

/-! ### Captures -/

theorem size_written {actor : String} (hactor : Records.isActorId actor = true)
    (hsize : cleaned.size ≤ 1024 * 1024) :
    (Records.empty.written actor (some cleaned) false).textSize valueSize ≤
      Records.maxRecordBytes := by
  have hlength : actor.length = 64 := by
    unfold Records.isActorId at hactor
    rw [Bool.and_eq_true, decide_eq_true_eq] at hactor
    exact hactor.1
  have hclock : (Records.empty.written actor (some cleaned) false).clock.entries =
      [(actor, 1)] := rfl
  have hheads : (Records.empty.written actor (some cleaned) false).heads =
      [⟨actor, 1, some cleaned⟩] := rfl
  have hvalue : valueSize (some cleaned) = cleaned.size := rfl
  simp only [Records.Record.textSize, hclock, hheads, Records.entrySize, Records.Head.textSize,
    List.map_cons, List.map_nil, List.sum_cons, List.sum_nil, List.length_cons, List.length_nil,
    hvalue, hlength, Records.maxRecordBytes]
  have hdigits : (Nat.digits 10 1).length = 1 := by simp
  have herased : (if (Records.empty.written actor (some cleaned) false).erased = true then 37
      else 38) ≤ 38 := by
    split <;> omega
  omega

/-- **A first capture** of a conversation that is cleaned to itself succeeds. -/
theorem capture_new {actor : String} (hactor : Records.isActorId actor = true)
    (h : cleanValue lib .conversations identifier value = .ok cleaned)
    (hagain : cleanValue lib .conversations identifier cleaned = .ok cleaned) :
    ∃ record, Records.write (syncScope lib .conversations) identifier Records.empty actor
      (some value) false = .ok record := by
  have hparts := h
  simp only [cleanValue, bind_ok, require_ok] at hparts hagain
  obtain ⟨_, hentity, _, _, hshared⟩ := hparts
  obtain ⟨_, _, _, _, hshared'⟩ := hagain
  have hsize := (accepted_of_clean (conversation_again hshared hshared')).2.size
  have hfirst : Records.cleanValue (syncScope lib .conversations) identifier (some value) =
      .ok (some cleaned) := by
    simp only [Records.cleanValue, syncScope, h]
    rfl
  have hempty : Records.validate (syncScope lib .conversations) identifier Records.empty =
      .ok () := Records.validate_ok.mpr (Records.valid_empty hentity (by
        simp [syncScope, Records.Record.textSize, Records.empty, Dict.empty,
          Records.maxRecordBytes]))
  have hvalid : Records.Valid (syncScope lib .conversations) identifier
      (Records.empty.written actor (some cleaned) false) := by
    refine ⟨hentity, Nat.le_of_ble_eq_true rfl, Nat.le_of_ble_eq_true rfl, ?_, ?_, ?_, ?_,
      size_written hactor hsize, ?_⟩
    · intro other counter hget
      have hmem := Dict.get?_eq_some_iff.mp hget
      have hentries : (Records.empty.written actor (some cleaned) false).clock.entries =
          [(actor, 1)] := rfl
      rw [hentries, List.mem_singleton] at hmem
      injection hmem with hother hcounter
      rw [hother, hcounter]
      exact ⟨hactor, by decide, by decide⟩
    · intro head hhead
      have hheads : (Records.empty.written actor (some cleaned) false).heads =
          [⟨actor, 1, some cleaned⟩] := rfl
      rw [hheads, List.mem_singleton] at hhead
      rw [hhead]
      refine ⟨hactor, ?_, ?_⟩
      · simp [Records.Record.written, Records.Record.clockAt, Records.empty]
      · have hclean : cleanValue lib .conversations identifier cleaned = .ok cleaned := by
          simp only [cleanValue, bind_ok, require_ok]
          exact ⟨(), hentity, (), ‹_›, hshared'⟩
        simp only [Records.cleanValue, syncScope, hclean]
        rfl
    · exact List.nodup_singleton _
    · nofun
    · intro _ a b ha hb
      have hvalues : (Records.empty.written actor (some cleaned) false).heads.map
          Records.Head.value = [some cleaned] := rfl
      rw [hvalues, List.mem_singleton] at ha hb
      injection ha with ha
      injection hb with hb
      rw [ha, hb]
  refine ⟨Records.empty.written actor (some cleaned) false, ?_⟩
  have hbinding : Records.checkBinding (syncScope lib .conversations)
      ((Records.empty : Records.Record Json).heads.map Records.Head.value ++ [some cleaned]) =
        .ok () := by
    rw [Records.checkBinding_ok]
    intro _ a b ha hb
    have hvalues : (Records.empty : Records.Record Json).heads.map Records.Head.value ++
        [some cleaned] = [some cleaned] := rfl
    rw [hvalues, List.mem_singleton] at ha hb
    injection ha with ha
    injection hb with hb
    rw [ha, hb]
  simp only [Records.write, hempty, hfirst, hbinding, Records.validate_ok (u := ()).mpr hvalid,
    require_of hactor, ok_bind]
  rfl

/-! ### Cleaning again -/

/-- A conversation loses no message, or gets a title that is not blank and stays within its
size; other values meet it always. -/
def Keeps (lib : Library) (scope : ScopeName) (value : Json) : Prop :=
  scope = .conversations → Rewritable lib (listedValue value) (listedMessages value)

/-- What is promised of a cleaned value. -/
structure Settled (lib : Library) (scope : ScopeName) (identifier : String)
    (value cleaned : Json) : Prop where
  again : cleanValue lib scope identifier cleaned = .ok cleaned
  written : ∀ previous actor erase message,
    Records.validate (syncScope lib scope) identifier previous = .ok () →
    Records.write (syncScope lib scope) identifier previous actor (some value) erase =
      .error message → ¬ Refuses message
  captured : scope = .conversations → ∀ actor, Records.isActorId actor = true →
    ∃ record, Records.write (syncScope lib scope) identifier Records.empty actor (some value)
      false = .ok record

theorem cleanValue_isObj (h : cleanValue lib scope identifier value = .ok cleaned) :
    cleaned.isObj = true := by
  simp only [cleanValue, bind_ok, require_ok] at h
  obtain ⟨_, _, _, _, hscope⟩ := h
  cases scope with
  | conversations =>
    obtain ⟨result, hclean, _, heq⟩ := cleanSharedConversation_ok.mp hscope
    obtain ⟨_, haccepted⟩ := accepted_of_clean hclean
    rw [← heq, haccepted.shared_eq]
    split
    · rw [withMessages, isObj_assign, isObj_without]
      exact haccepted.isObj
    · rw [retitled, isObj_assign, isObj_assign, withMessages, isObj_assign, isObj_without]
      exact haccepted.isObj
  | bookmarks =>
    simp only [cleanBookmark, bind_ok, pure_ok] at hscope
    obtain ⟨_, _, _, _, heq⟩ := hscope
    rw [← heq]
    rfl
  | reading =>
    simp only [cleanReading, bind_ok, pure_ok] at hscope
    obtain ⟨_, _, _, _, _, _, _, _, heq⟩ := hscope
    rw [← heq]
    rfl

theorem clean_again_iff (hnear : lib.Near)
    (h : cleanValue lib scope identifier value = .ok cleaned) :
    cleanValue lib scope identifier cleaned = .ok cleaned ↔ Keeps lib scope value := by
  have hobj := cleanValue_isObj h
  simp only [cleanValue, bind_ok, require_ok] at h
  obtain ⟨_, hentity, _, _, hscope⟩ := h
  simp only [cleanValue, require_of hentity, require_of hobj, ok_bind]
  cases scope with
  | conversations =>
    have hagain := conversation_again_iff hscope
    constructor
    · intro hclean _
      exact hagain.mp hclean
    · intro hkeeps
      exact hagain.mpr (hkeeps rfl)
  | bookmarks => exact iff_of_true (cleanBookmark_again hscope) nofun
  | reading => exact iff_of_true (cleanReading_again hnear hscope) nofun

/-- **Cleaning is idempotent**, and a cleaned value is never refused by a write, exactly when
no message is dropped or what takes the place of the title is a title. -/
theorem clean_value_idempotent_iff (hnear : lib.Near)
    (h : cleanValue lib scope identifier value = .ok cleaned) :
    Settled lib scope identifier value cleaned ↔ Keeps lib scope value := by
  constructor
  · intro hsettled
    exact (clean_again_iff hnear h).mp hsettled.again
  · intro hkeeps
    have hagain := (clean_again_iff hnear h).mpr hkeeps
    refine ⟨hagain, ?_, ?_⟩
    · intro previous actor erase message hprevious hwrite
      exact write_accepts h hagain hprevious message hwrite
    · intro hconversations actor hactor
      rw [hconversations] at h hagain ⊢
      exact capture_new hactor h hagain

/-- A library with the exact decimal for its nearest float. -/
def sampleLibrary : Library where
  strip text := String.ofList
    ((text.toList.dropWhile (· = ' ')).reverse.dropWhile (· = ' ')).reverse
  isTimestamp text := text = "2026-01-01T00:00:00+00:00"
  urlsplit _ := none
  quote identifier := identifier
  nearest q := (q, "")
  fingerprint value := String.ofList ((value.map encode).getD [])

def sampleIdentifier : String := "conversation_1"

def sampleTime : String := "2026-01-01T00:00:00+00:00"

def sampleMessage (id role content status : String) : Json :=
  .obj [("id", .str id), ("role", .str role), ("content", .str content),
    ("createdAt", .str sampleTime), ("status", .str status)]

/-- A conversation whose second question waits. -/
def sampleConversation (title question : String) : Json :=
  .obj [("id", .str sampleIdentifier), ("title", .str title), ("serviceKey", .str "peer::ask"),
    ("serviceName", .str "Ask"), ("providerPeerId", .str "peer"), ("networkId", .str "net"),
    ("createdAt", .str sampleTime), ("updatedAt", .str sampleTime),
    ("messages", .arr [sampleMessage "message_1" "user" question "complete",
      sampleMessage "message_2" "user" "And then?" "queued"])]

/-- What other devices get of it. -/
def sampleShared (question : String) : Json :=
  .obj [("id", .str sampleIdentifier), ("title", .str question), ("serviceKey", .str "peer::ask"),
    ("serviceName", .str "Ask"), ("providerPeerId", .str "peer"), ("networkId", .str "net"),
    ("createdAt", .str sampleTime), ("updatedAt", .str sampleTime),
    ("messages", .arr [sampleMessage "message_1" "user" question "complete"])]

theorem sampleLibrary_near : sampleLibrary.Near := by
  intro places hlow hhigh
  have hlow' : (0 : Rat) ≤ places := by exact_mod_cast hlow
  have hhigh' : (places : Rat) ≤ 10000 := by exact_mod_cast hhigh
  refine ⟨?_, ?_, ?_⟩
  · simp [sampleLibrary]
  · exact div_nonneg hlow' (by decide)
  · simp only [sampleLibrary]
    linarith

theorem clean_value_idempotent_iff_sample : sampleLibrary.Near ∧
    cleanValue sampleLibrary .conversations sampleIdentifier (sampleConversation "Hi" "Why?") =
      .ok (sampleShared "Why?") ∧
    (Settled sampleLibrary .conversations sampleIdentifier (sampleConversation "Hi" "Why?")
        (sampleShared "Why?") ↔
      Keeps sampleLibrary .conversations (sampleConversation "Hi" "Why?")) := by
  have hclean : cleanValue sampleLibrary .conversations sampleIdentifier
      (sampleConversation "Hi" "Why?") = .ok (sampleShared "Why?") := by decide +kernel
  exact ⟨sampleLibrary_near, hclean, clean_value_idempotent_iff sampleLibrary_near hclean⟩

/-- **A blank question** becomes the title of what is left of the conversation, which is then
no conversation any more. -/
theorem blank_question : ¬ ∀ lib : Library, lib.Near → ∀ scope identifier value cleaned,
    cleanValue lib scope identifier value = .ok cleaned →
    cleanValue lib scope identifier cleaned = .ok cleaned := by
  intro hall
  have hclean : cleanValue sampleLibrary .conversations sampleIdentifier
      (sampleConversation "Hi" " ") = .ok (sampleShared " ") := by decide +kernel
  have hagain : ¬ cleanValue sampleLibrary .conversations sampleIdentifier (sampleShared " ") =
      .ok (sampleShared " ") := by decide +kernel
  exact hagain (hall sampleLibrary sampleLibrary_near _ _ _ _ hclean)

end SyncValues
